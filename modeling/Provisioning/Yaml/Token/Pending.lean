import Provisioning.Yaml.TextFault
import Provisioning.Yaml.Token

/-!
# Tokens that a late colon may still rearrange

A mapping key in its short form is recognised only at the colon after it, and then a
`key` token belongs in front of what was already read. So the tokens of each flow
level are kept in two parts around the place where the last possible key began: a
colon inserts between the parts, and when the key is no longer possible the parts
join. The level itself may lie within a possible key of the level outside it, which
is why levels form a stack.

`deliverable` says what of all this can no longer change.
-/

namespace Provisioning.Yaml

/-- A place where a key in short form may have begun. It is required where the
indentation leaves nothing else to begin there. -/
structure PossibleKey where
  mark : Mark
  required : Bool
deriving DecidableEq, Repr

/-- The start of a key and its colon stand on one line, at most 1024 bytes apart. -/
def PossibleKey.isStale (key : PossibleKey) (now : Mark) : Bool :=
  key.mark.line < now.line || key.mark.byte + 1024 < now.byte

/-- The tokens of one flow level, the latest first, around its possible key. -/
structure Pending where
  before : List Token
  key : Option PossibleKey
  after : List Token
deriving DecidableEq, Repr

namespace Pending

/-- A level without tokens. -/
def empty : Pending := ⟨[], none, []⟩

/-- A further token goes behind the possible key if there is one. -/
def push (level : Pending) (token : Token) : Pending :=
  match level.key with
  | none => { level with before := token :: level.before }
  | some _ => { level with after := token :: level.after }

/-- Further tokens, the latest first. -/
def append (level : Pending) (tokens : List Token) : Pending :=
  match level.key with
  | none => { level with before := tokens ++ level.before }
  | some _ => { level with after := tokens ++ level.after }

/-- The level once its key is no longer possible. -/
def release (level : Pending) : Pending := ⟨level.after ++ level.before, none, []⟩

/-- The level once its key turned out to be one: `tokens`, the latest first, precede the key. -/
def confirm (level : Pending) (tokens : List Token) : Pending :=
  ⟨level.after ++ (tokens ++ level.before), none, []⟩

/-- A key may begin here. -/
def expectKey (level : Pending) (key : PossibleKey) : Pending := { level with key := some key }

/-- The level after its key was given up on purpose, which a required key does not allow. -/
def abandon (level : Pending) (now : Mark) : Except TextFault Pending :=
  match level.key with
  | none => .ok level
  | some key =>
    if key.required then .error (.during .simpleKey key.mark .colonMissing now)
    else .ok level.release

/-- The level after its key was given up if it is stale. -/
def expire (level : Pending) (now : Mark) : Except TextFault Pending :=
  match level.key with
  | none => .ok level
  | some key => if key.isStale now then level.abandon now else .ok level

/-- The tokens that stay as they are, in the order of the text; the outermost level is the first. -/
def deliverable : List Pending → List Token
  | [] => []
  | level :: inner =>
    level.before.reverse ++ if level.key.isSome then [] else deliverable inner

end Pending

end Provisioning.Yaml
