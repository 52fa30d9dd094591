import Provisioning.Mismatch
import Provisioning.Yaml.Stream

/-!
# What can go wrong when a value is read

A value may fail to fit its type, which is reported with the path to the innermost
value that did not fit and its place. The document may be cut short by a fault of its
text, or nest too deeply, follow its aliases too often, or not be the only one.
-/

namespace Provisioning.Yaml

/-- The way from the root of a document to a value. -/
inductive Path where
  | root
  | item (parent : Path) (index : Nat)
  | entry (parent : Path) (key : List Char)
  /-- The value of a key that is not written as a scalar. -/
  | unnamed (parent : Path)
deriving DecidableEq, Repr

namespace Path

mutual

/-- A path as a message shows it. -/
def describe : Path → String
  | root => "."
  | item parent index => parent.describe ++ "[" ++ toString index ++ "]"
  | entry parent key => parent.lead ++ String.ofList key
  | unnamed parent => parent.lead ++ "?"

/-- What stands in front of a key. -/
def lead : Path → String
  | root => ""
  | parent => parent.describe ++ "."

end

end Path

/-- Why a value could not be read. -/
inductive ReadFault where
  /-- The document was cut short. -/
  | stream (fault : StreamFault)
  | endOfStream
  | severalDocuments
  | tooDeep (mark : Mark)
  | tooManyAliases
  /-- A value does not fit; where, if that is settled already. -/
  | unfit (mismatch : Mismatch) (place : Option (Mark × Path))
deriving Repr

namespace ReadFault

/-- The place of a mismatch is that of the innermost value which settles it. -/
def locate (mark : Mark) (path : Path) : ReadFault → ReadFault
  | unfit mismatch none => .unfit mismatch (some (mark, path))
  | fault => fault

/-- Floating-point numbers in messages: never with an exponent. -/
def wording : Wording where
  unit := "unit value"
  float :=
    { positional := fun _ => true
      exponentSign := []
      infinity := ['i', 'n', 'f']
      nan := ['N', 'a', 'N']
      tie := .up }

/-- The wording of a fault. -/
def message : ReadFault → String
  | stream (.text fault) => fault.message
  | stream (.unknownAnchor mark) => "unknown anchor" ++ mark.suffix
  | endOfStream => "EOF while parsing a value"
  | severalDocuments =>
    "deserializing from YAML containing more than one document is not supported"
  | tooDeep mark => "recursion limit exceeded" ++ mark.suffix
  | tooManyAliases => "repetition limit exceeded"
  | unfit mismatch none => mismatch.message wording
  | unfit mismatch (some (mark, path)) =>
    (if path.describe == "." then "" else path.describe ++ ": ") ++ mismatch.message wording ++
      mark.suffix

end ReadFault

end Provisioning.Yaml
