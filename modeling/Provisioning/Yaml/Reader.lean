import Provisioning.Source
import Provisioning.Yaml.ReadFault
import Provisioning.Yaml.Scalar

/-!
# Reading typed values from a document

A reader takes a node and the scope it stands in: the document, the path to it, and how
many more collections may lie within one another. The budget is spent at every
collection that is entered and passed on unchanged through aliases, so a document that
contains itself is refused rather than followed for ever. The number of aliases that
were followed is the one thing that is carried from node to node.

The instance `Source Reader` at the end is the whole of what types need.
-/

namespace Provisioning.Yaml

/-- Where a node stands. -/
structure Scope where
  stream : Stream
  depth : Nat
  path : Path

/-- A computation that counts the aliases it follows. -/
abbrev Following (α : Type) := StateT Nat (Except ReadFault) α

/-- Reads a value from a node. -/
def Reader (α : Type) := Scope → Node → Following α

namespace Scope

/-- What meets a reader where the document was cut short. -/
def cutShort (scope : Scope) : ReadFault :=
  match scope.stream.fault with
  | some fault => .stream fault
  | none => .endOfStream

/-- The scope of the parts of a collection that begins at a place. -/
def enter (scope : Scope) (mark : Mark) : Except ReadFault Scope :=
  match scope.depth with
  | 0 => .error (.tooDeep mark)
  | depth + 1 => .ok { scope with depth }

/-- The scope of an item of a sequence. -/
def item (scope : Scope) (index : Nat) : Scope := { scope with path := .item scope.path index }

/-- The scope of a value of a mapping. -/
def entry (scope : Scope) (key : Node) : Scope :=
  match key with
  | .scalar _ text _ => { scope with path := .entry scope.path text }
  | _ => { scope with path := .unnamed scope.path }

end Scope

namespace Reader

variable {α σ κ : Type}

/-! ## Places, aliases, collections -/

/-- Settles the place of a mismatch. -/
def settle (mark : Mark) (scope : Scope) (read : Following α) : Following α :=
  fun followed =>
    match read followed with
    | .ok result => .ok result
    | .error fault => .error (fault.locate mark scope.path)

/-- Refuses a node that does not fit. -/
def refuse (mismatch : Mismatch) : Following α := throw (.unfit mismatch none)

/-- Follows an alias to its node; any other node is itself. A document may be followed a
hundred times as often as it has nodes and ends of collections. -/
def follow (scope : Scope) (node : Node) (read : Node → Following α) : Following α :=
  match node with
  | .aliasTo _ anchor => do
    let followed ← get
    set (followed + 1)
    if scope.stream.steps * 100 < followed + 1 then throw .tooManyAliases
    else match scope.stream.root.bind (Node.anchored? anchor) with
      | some target => read target
      | none => throw scope.cutShort
  | node => read node

/-- The mismatch of a node with what was expected. -/
def clash (node : Node) (expected : Expected) : Following α :=
  match node with
  | .void _ => throw .endOfStream
  | .aliasTo _ _ => throw .endOfStream
  | .scalar head text style =>
    match Meaning.ofScalar head.tag text style with
    | .error mismatch => refuse mismatch
    | .ok meaning => refuse (.invalidType (meaning.found text) expected)
  | .sequence _ _ _ => refuse (.invalidType .sequence expected)
  | .mapping _ _ _ => refuse (.invalidType .map expected)

/-- Reads the items of a sequence one by one, the first of which has this index. -/
def readItems (scope : Scope) (closed : Bool) (read : Reader α) (index : Nat) :
    List Node → Following (List α)
  | [] => if closed then pure [] else throw scope.cutShort
  | item :: items => do
    let first ← read (scope.item index) item
    let others ← readItems scope closed read (index + 1) items
    return first :: others

/-- Reads the keys and values of a mapping in turn, collecting what they give. -/
def readParts (scope : Scope) (closed : Bool) (key : σ → Node → Following κ)
    (value : σ → κ → Reader σ) (collected : σ) : List Node → Following σ
  | [] => if closed then pure collected else throw scope.cutShort
  | [last] => do
    let _ ← key collected last
    throw scope.cutShort
  | first :: second :: parts => do
    let name ← key collected first
    let collected ← value collected name (scope.entry first) second
    readParts scope closed key value collected parts

/-- Passes over a node whatever it holds; only its end must have been reached. -/
def skip (scope : Scope) (node : Node) : Following Unit :=
  if node.isWhole then pure () else throw scope.cutShort

/-! ## Scalars -/

/-- The text of any scalar. Messages name what was expected. -/
def textAs (expected : Expected) : Reader String := fun scope node =>
  follow scope node fun node =>
    settle node.mark scope <|
      match node with
      | .scalar _ text _ => pure (String.ofList text)
      | node => clash node expected

/-- May a scalar be a boolean or number by its spelling: because it is plain, or by this
tag if it is a literal block? -/
def speaksPlainly (name : String) (head : NodeHead) : ScalarStyle → Bool
  | .plain => true
  | .literal => head.tag.any (Meaning.isCoreTag name)
  | _ => false

/-- A scalar that must have a meaning of one kind. -/
def plainly (name : String) (expected : Expected) (meaning? : List Char → Option α) :
    Reader α := fun scope node =>
  follow scope node fun node =>
    settle node.mark scope <|
      match node with
      | .scalar head text style =>
        match speaksPlainly name head style, meaning? text with
        | true, some value => pure value
        | _, _ => clash node expected
      | node => clash node expected

/-- Null, for the sake of a name that was given as a tag. -/
def unit : Reader Unit := fun scope node =>
  settle node.mark scope <|
    match node with
    | .void _ => pure ()
    | .scalar head text style =>
      let isNull := style == .plain && match head.tag with
        | none => text.isEmpty || Meaning.isNull text
        | some tag => Meaning.isCoreTag "null" tag && Meaning.isNull text
      if isNull then pure () else refuse (.invalidValue (.text (String.ofList text)) .null)
    | node => clash node .unit

/-- Is this a scalar for no value at all? One that is tagged as null must be null. -/
def isAbsent : Node → Except Mismatch Bool
  | .void _ => .ok true
  | .scalar head text .plain =>
    match head.tag with
    | none => .ok (text.isEmpty || Meaning.isNull text)
    | some tag =>
      if !Meaning.isCoreTag "null" tag then .ok false
      else if Meaning.isNull text then .ok true
      else .error (.invalidValue (.text (String.ofList text)) .null)
  | _ => .ok false

/-- A value that may be null instead. -/
def optional (read : Reader α) : Reader (Option α) := fun scope node =>
  follow scope node fun node =>
    match isAbsent node with
    | .error mismatch => refuse mismatch
    | .ok true => pure none
    | .ok false => some <$> read scope node

/-! ## Names -/

/-- The name in a tag of the text's own. The exclamation mark alone is its own name. -/
def localName? (tag : Option (List UInt8)) : Option String :=
  match tag with
  | some (33 :: []) => some "!"
  | some (33 :: octets) => String.fromUTF8? ⟨octets.toArray⟩
  | _ => none

/-- The value that a name stands for. -/
def chosen (known : List (String × α)) (name : String) : Following α :=
  match known.lookup name with
  | some value => pure value
  | none => refuse (.unknownVariant name (known.map (·.1)))

/-- A node whose tag names the choice; nothing else may be in it. -/
def chosenByTag (known : List (String × α)) (name : String) : Reader α :=
  fun scope node => do
    let value ← chosen known name
    unit scope node.untagged
    return value

/-- One of some names: as the text of a scalar, or as a tag. The place of a mismatch is
settled here only if no tag named the choice. -/
def choice (known : List (String × α)) : Reader α := fun scope node =>
  let read (node : Node) : Following α :=
    match node, localName? node.tag? with
    | node, some name => chosenByTag known name scope node
    | .scalar head text _, none =>
      settle head.mark scope (chosen known (String.ofList text))
    | .sequence head _ _, none => settle head.mark scope (refuse (.invalidType .sequence .localTag))
    | .mapping head _ _, none => settle head.mark scope (refuse (.invalidType .map .localTag))
    | .void _, none => throw .endOfStream
    | .aliasTo _ _, none => throw .endOfStream
  match node with
  | .aliasTo mark _ => settle mark scope (follow scope node read)
  | node => read node

/-! ## Collections -/

/-- A list: a sequence, or nothing at all. -/
def list (read : Reader α) : Reader (List α) := fun scope node =>
  follow scope node fun node =>
    settle node.mark scope <|
      match node with
      | .sequence head items closed => do
        let inner ← scope.enter head.mark
        readItems inner closed read 0 items
      | node => if node.isEmptyScalar then pure [] else clash node .sequence

/-- A mapping from texts, or nothing at all. -/
def bindings (read : Reader α) : Reader (List (String × α)) := fun scope node =>
  follow scope node fun node =>
    settle node.mark scope <|
      match node with
      | .mapping head parts closed => do
        let inner ← scope.enter head.mark
        let collected ← readParts inner closed
          (fun _ key => textAs .text inner key)
          (fun collected name scope node => do
            let value ← read scope node
            return (name, value) :: collected)
          [] parts
        return collected.reverse
      | node => if node.isEmptyScalar then pure [] else clash node .map

/-- Reads a field of a record, unless the record has it already; other keys are passed over. -/
def readField (record : Record Reader α) (collected : α × List String) (name : String) :
    Reader (α × List String) := fun scope node =>
  match record.field? name with
  | some field => do
    let store ← field.read scope node
    return (store collected.1, name :: collected.2)
  | none => do
    skip scope node
    return collected

/-- Reads the name of a field, which must not repeat one of the record. -/
def readFieldName (record : Record Reader α) (scope : Scope) (collected : α × List String)
    (key : Node) : Following String := do
  let name ← textAs .fieldName scope key
  if (record.field? name).isSome && collected.2.contains name then refuse (.duplicateField name)
  else return name

/-- The record, once all its fields are read. -/
def finishRecord (record : Record Reader α) (collected : α × List String) : Following α :=
  match record.missing? collected.2 with
  | some name => refuse (.missingField name)
  | none => pure collected.1

/-- A record: a mapping, or nothing at all. -/
def record (record : Record Reader α) : Reader α := fun scope node =>
  follow scope node fun node =>
    settle node.mark scope <|
      match node with
      | .mapping head parts closed => do
        let inner ← scope.enter head.mark
        let collected ← readParts inner closed (readFieldName record inner) (readField record)
          (record.blank, []) parts
        finishRecord record collected
      | node =>
        if node.isEmptyScalar then finishRecord record (record.blank, [])
        else clash node (.record record.name)

/-! ## Untyped values -/

/-- The value of a node whose tag does not count. `nested` reads what lies within it, if
anything may. -/
def contents (nested : Reader Value) : Reader Value := fun scope node =>
  settle node.mark scope <|
    match node with
    | .void _ => pure .null
    | .aliasTo _ _ => throw scope.cutShort
    | .scalar head text style =>
      match Meaning.ofScalar head.tag text style |>.bind (Meaning.toValue text) with
      | .ok value => pure value
      | .error mismatch => refuse mismatch
    | .sequence head items closed => do
      let inner ← scope.enter head.mark
      return .sequence (← readItems inner closed nested 0 items)
    | .mapping head parts closed => do
      let inner ← scope.enter head.mark
      let entries ← readParts inner closed
        (fun entries key => do
          let key ← nested inner key
          match entries.find? (fun entry => entry.1.same key) with
          | some (earlier, _) => refuse (.duplicateKey earlier)
          | none => return key)
        (fun entries key scope node => do
          let value ← nested scope node
          return (key, value) :: entries)
        [] parts
      return .mapping entries.reverse

/-- A tag is known by its name without the exclamation mark. -/
def bareTag (name : String) : String :=
  match name.toList with
  | '!' :: c :: rest => String.ofList (c :: rest)
  | _ => name

/-- A value, tagged if its tag is the text's own. -/
def tagged (nested : Reader Value) : Reader Value := fun scope node =>
  follow scope node fun node =>
    settle node.mark scope <|
      match localName? node.tag? with
      | some name => return .tagged (bareTag name) (← contents nested scope node.untagged)
      | none => contents nested scope node

/-- Any value in which at most so many collections lie within one another. -/
def valueWithin : Nat → Reader Value
  | 0 => tagged (fun scope _ => throw scope.cutShort)
  | depth + 1 => tagged (valueWithin depth)

/-- Any value. -/
def value : Reader Value := fun scope node => valueWithin scope.depth scope node

instance : Functor Reader where
  map f read := fun scope node => f <$> read scope node

instance : Source Reader where
  text := textAs .text
  flag := plainly "bool" .boolean Meaning.bool?
  natural := plainly "int" .natural Meaning.natural64?
  optional := optional
  list := list
  choice := choice
  record := record
  bindings := bindings
  untyped := value

end Reader

/-! ## Whole texts -/

/-- How many collections of a document may lie within one another. -/
def depthLimit : Nat := 128

/-- Reads the only document of a stream. What is wrong with its values is found before
what cut it short, and that before a second document. -/
def Stream.read {α : Type} (read : Reader α) (stream : Stream) : Except ReadFault α := do
  let scope : Scope := ⟨stream, depthLimit, .root⟩
  match stream.root with
  | none => throw scope.cutShort
  | some node =>
    let (value, _) ← read scope node 0
    match stream.fault, stream.followed with
    | some fault, _ => throw (.stream fault)
    | none, true => throw .severalDocuments
    | none, false => return value

/-- Reads a text that holds one document. -/
def read {α : Type} (read : Reader α) (text : String) : Except ReadFault α :=
  (Stream.ofText text).read read

end Provisioning.Yaml
