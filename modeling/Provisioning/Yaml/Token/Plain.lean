import Provisioning.Yaml.TextFault
import Provisioning.Yaml.Token.Cursor
import Provisioning.Yaml.Token.Gap

/-!
# Plain scalars

A plain scalar goes on over blanks and line ends for as long as words follow that may
belong to it: in block context words indented to the margin, and nowhere a comment or
a document boundary. A colon ends it where it separates key and value, and in a flow
collection so does the punctuation of the collection.
-/

namespace Provisioning.Yaml

/-- The punctuation of flow collections. -/
def isFlowPunctuation (c : Char) : Bool :=
  c == ',' || c == '[' || c == ']' || c == '\x7b' || c == '\x7d'

/-- Does the text go on with what must not follow a colon inside a flow collection? -/
def startsFlowClash : List Char → Bool
  | [] => false
  | c :: _ => isFlowPunctuation c || c == '?'

/-- A plain scalar as read: its text, where the text stops, whether line ends followed,
and the rest. -/
structure PlainScalar where
  text : List Char
  stop : Mark
  crossedBreak : Bool
  cursor : Cursor
deriving DecidableEq, Repr

/-- The settings of a plain scalar: where it began, its context, and the least column for
its words. -/
structure PlainScalar.Frame where
  start : Mark
  inFlow : Bool
  margin : Nat
deriving DecidableEq, Repr

namespace PlainScalar

/-- Is this word, found after a gap, outside the scalar? -/
def Frame.excludes (frame : Frame) (mark : Mark) : List Char → Bool
  | [] => true
  | c :: rest =>
    (!frame.inFlow && mark.column < frame.margin) ||
      (mark.column == 0 && isBoundary (c :: rest)) || c == '#'

/-- Does the scalar end at this character, wherever it stands? -/
def Frame.endsAt (frame : Frame) (c : Char) (rest : List Char) : Bool :=
  (c == ':' && endsWord rest) || (frame.inFlow && isFlowPunctuation c)

/-- Reads on after `text` (the latest character first), which stopped at `stop`, and a gap. -/
def read (frame : Frame) (text : List Char) (gap : Gap) (stop mark : Mark) :
    List Char → Except TextFault PlainScalar
  | [] => .ok ⟨text.reverse, stop, gap.hasBreak, ⟨[], mark⟩⟩
  | c :: rest =>
    if isBlank c then
      if c == '\t' && gap.hasBreak && mark.column < frame.margin then
        .error (.during .plainScalar frame.start .tabViolatesIndentation mark)
      else read frame text (gap.blank c) stop (mark.past [c]) rest
    else if isBreak c then read frame text (gap.lineEnd c) stop mark.newline rest
    else if gap.isOpen && frame.excludes mark (c :: rest) then
      .ok ⟨text.reverse, stop, gap.hasBreak, ⟨c :: rest, mark⟩⟩
    else if frame.inFlow && c == ':' && startsFlowClash rest then
      .error (.during .plainScalar frame.start .colonInPlainScalar mark)
    else if frame.endsAt c rest then
      .ok ⟨text.reverse, stop, gap.hasBreak, ⟨c :: rest, mark⟩⟩
    else read frame (c :: (gap.folded ++ text)) .closed (mark.past [c]) (mark.past [c]) rest

theorem read_length_le {frame : Frame} {text rest : List Char} {gap : Gap} {stop mark : Mark}
    {scalar : PlainScalar} (h : read frame text gap stop mark rest = .ok scalar) :
    scalar.cursor.rest.length ≤ rest.length := by
  fun_induction read <;> grind

end PlainScalar

end Provisioning.Yaml
