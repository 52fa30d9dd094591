import Provisioning.Yaml.Node.Builder
import Provisioning.Yaml.Token.Lexer

/-!
# The first document of a text

`Stream.ofText` reads a text as far as its first document goes. A fault within the
document is kept beside the part of the tree that was built in front of it, because a
reader of values may find something wrong with that part first. What follows the
document is not read; only whether anything does.
-/

namespace Provisioning.Yaml

/-- The first document of a text. -/
structure Stream where
  /-- The tree, as far as it was built. -/
  root : Option Node
  /-- How many nodes and ends of collections it has. -/
  steps : Nat
  /-- What ended it early. -/
  fault : Option StreamFault
  /-- Does another document follow? -/
  followed : Bool
deriving Repr

namespace Stream

/-- A document that a fault ended early, or that was whole before the fault. -/
def stopped (builder : Builder) (fault : StreamFault) : Stream :=
  match builder.stage with
  | .ended => ⟨builder.root, builder.steps, none, true⟩
  | .finished => ⟨builder.root, builder.steps, none, false⟩
  | .followed => ⟨builder.root, builder.steps, none, true⟩
  | _ => ⟨builder.cutRoot, builder.steps, some fault, false⟩

/-- A document whose tokens ended without a fault. -/
def finished (builder : Builder) : Stream :=
  ⟨builder.root, builder.steps, none, builder.stage == .followed⟩

/-- The document of some tokens that a fault may have cut short. -/
def ofTokens (tokens : List Token) (fault : Option TextFault) : Stream :=
  match tokens.foldlM Builder.feed Builder.initial with
  | .error stop => stopped stop.builder stop.fault
  | .ok builder =>
    match fault with
    | some fault => stopped builder (.text fault)
    | none => finished builder

/-- The document of the characters of a text whose line ends are uniform. -/
def ofChars (text : List Char) : Stream :=
  let (tokens, fault) := (Lexer.ofText text).run
  ofTokens tokens fault

/-- The first document of a text. A forbidden character anywhere is found before all else. -/
def ofText (text : String) : Stream :=
  match forbiddenOffset? 0 text.toList with
  | some offset => ⟨none, 0, some (.text ⟨.forbiddenCharacter offset, .origin, none⟩), false⟩
  | none => ofChars (unifyBreaks text.toList)

end Stream

end Provisioning.Yaml
