import Provisioning.Yaml.Mark

/-!
# Tokens of a YAML text

A token is an indicator, a directive, a node property or a scalar, with the places
where it starts and stops. Starts and ends of block collections are tokens too,
although no character stands for them: they follow from the indentation.
-/

namespace Provisioning.Yaml

/-- How a scalar is written. -/
inductive ScalarStyle where
  | plain
  | singleQuoted
  | doubleQuoted
  | literal
  | folded
deriving DecidableEq, Repr

/-- What a token stands for. Tags are octets: their escapes need not spell any text. -/
inductive Token.Kind where
  | streamEnd
  | versionDirective (major minor : Nat)
  | tagDirective (handle : List Char) (stem : List UInt8)
  | documentStart
  | documentEnd
  | blockSequenceStart
  | blockMappingStart
  | blockEnd
  | flowSequenceStart
  | flowSequenceEnd
  | flowMappingStart
  | flowMappingEnd
  | blockEntry
  | flowEntry
  | key
  | value
  | aliasTo (name : List Char)
  | anchor (name : List Char)
  | tag (handle : List Char) (rest : List UInt8)
  | scalar (text : List Char) (style : ScalarStyle)
deriving DecidableEq, Repr

/-- A token and its extent. -/
structure Token where
  kind : Token.Kind
  start : Mark
  stop : Mark
deriving DecidableEq, Repr

end Provisioning.Yaml
