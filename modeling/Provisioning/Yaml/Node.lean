import Provisioning.Yaml.Mark
import Provisioning.Yaml.Token

/-!
# Nodes of a YAML document

A document is a tree of scalars, sequences and mappings, each with the place where it
begins, and of aliases, which stand for a node elsewhere in the tree. Where a fault
ended the reading of a text, the collections it fell into are left open: they hold
what was read of them.
-/

namespace Provisioning.Yaml

/-- What every node but an alias has: its place, the number of its anchor and its tag. -/
structure NodeHead where
  mark : Mark
  anchor : Option Nat
  tag : Option (List UInt8)
deriving DecidableEq, Repr

/-- A node. The parts of a mapping are its keys and values in turn. -/
inductive Node where
  /-- What a text without any document holds. -/
  | void (mark : Mark)
  | aliasTo (mark : Mark) (anchor : Nat)
  | scalar (head : NodeHead) (text : List Char) (style : ScalarStyle)
  | sequence (head : NodeHead) (items : List Node) (closed : Bool)
  | mapping (head : NodeHead) (parts : List Node) (closed : Bool)
deriving Repr

namespace Node

/-- The place where a node begins. -/
def mark : Node → Mark
  | void mark => mark
  | aliasTo mark _ => mark
  | scalar head _ _ => head.mark
  | sequence head _ _ => head.mark
  | mapping head _ _ => head.mark

/-- The tag of a node. -/
def tag? : Node → Option (List UInt8)
  | void _ => none
  | aliasTo _ _ => none
  | scalar head _ _ => head.tag
  | sequence head _ _ => head.tag
  | mapping head _ _ => head.tag

/-- A node without its tag. -/
def untagged : Node → Node
  | scalar head text style => scalar { head with tag := none } text style
  | sequence head items closed => sequence { head with tag := none } items closed
  | mapping head parts closed => mapping { head with tag := none } parts closed
  | node => node

/-- Is this the empty plain scalar, the text of a node that was left out? -/
def isEmptyScalar : Node → Bool
  | void _ => true
  | scalar _ [] .plain => true
  | _ => false

mutual

/-- The node an anchor number belongs to: of several, the last in the order of the text. -/
def anchored? (anchor : Nat) : Node → Option Node
  | void _ => none
  | aliasTo _ _ => none
  | scalar head text style =>
    if head.anchor == some anchor then some (scalar head text style) else none
  | sequence head items closed =>
    (anchoredAmong? anchor items).or
      (if head.anchor == some anchor then some (sequence head items closed) else none)
  | mapping head parts closed =>
    (anchoredAmong? anchor parts).or
      (if head.anchor == some anchor then some (mapping head parts closed) else none)

/-- The last node in or among `nodes` that an anchor number belongs to. -/
def anchoredAmong? (anchor : Nat) : List Node → Option Node
  | [] => none
  | node :: nodes => (anchoredAmong? anchor nodes).or (anchored? anchor node)

end

mutual

/-- Was the node read to its end? -/
def isWhole : Node → Bool
  | void _ => true
  | aliasTo _ _ => true
  | scalar _ _ _ => true
  | sequence _ items closed => closed && areWhole items
  | mapping _ parts closed => closed && areWhole parts

/-- Were all these nodes read to their end? -/
def areWhole : List Node → Bool
  | [] => true
  | node :: nodes => node.isWhole && areWhole nodes

end

end Node

end Provisioning.Yaml
