import Provisioning.Yaml.Character

/-!
# Gaps between the words of a scalar

Inside a plain or quoted scalar, blanks between two words of one line stand for
themselves. Where the line ends, the blanks around the line end are dropped and the
first line end becomes one space, unless further line ends follow: then those stand
for themselves and the first is dropped. Line and paragraph separators are never
dropped.
-/

namespace Provisioning.Yaml

/-- What was read since the last word of a scalar. Lists hold the latest character first. -/
inductive Gap where
  /-- Nothing was read since. -/
  | closed
  /-- Blanks of the same line. -/
  | blanks (blanks : List Char)
  /-- Line ends; the first is absent where it was escaped. -/
  | breaks (first : Option Char) (further : List Char)
deriving DecidableEq, Repr

namespace Gap

/-- Is there a gap at all? -/
def isOpen : Gap → Bool
  | closed => false
  | _ => true

/-- Does the gap cross a line end? -/
def hasBreak : Gap → Bool
  | breaks _ _ => true
  | _ => false

/-- The gap with a further blank. -/
def blank (c : Char) : Gap → Gap
  | closed => blanks [c]
  | blanks cs => blanks (c :: cs)
  | breaks first further => breaks first further

/-- The gap with a further line end. -/
def lineEnd (c : Char) : Gap → Gap
  | breaks first further => breaks first (c :: further)
  | _ => breaks (some c) []

/-- What a gap stands for, the latest character first. -/
def folded : Gap → List Char
  | closed => []
  | blanks cs => cs
  | breaks none further => further
  | breaks (some first) further =>
    if first == '\n' then (if further.isEmpty then [' '] else further) else further ++ [first]

end Gap

end Provisioning.Yaml
