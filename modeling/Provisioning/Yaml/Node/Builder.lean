import Provisioning.Yaml.Node
import Provisioning.Yaml.TextFault

/-!
# From tokens to nodes

The tokens of a text build the tree of its first document one by one. The state is a
stack of open collections, the innermost first, each with what may follow in it, and
above them the place of a node that an indicator announced. Such a place stays empty
if the next token cannot begin a node there; this is how keys and values are left out.

`Builder.feed` takes one token. Closing a collection that needs no closing token
hands the token on to the collection around it, which is the one reason why `resume`
follows the stack downwards.
-/

namespace Provisioning.Yaml

/-- What ends the reading of a document early. -/
inductive StreamFault where
  | text (fault : TextFault)
  /-- An alias at this place names no anchor in front of it. -/
  | unknownAnchor (mark : Mark)
deriving DecidableEq, Repr

/-- Where a node may stand. Marks are those of a node that is left out there. -/
inductive Slot where
  /-- The root of a document that began without a boundary. -/
  | bareRoot
  /-- The root of a document behind `---`. -/
  | root
  | blockEntry (mark : Mark)
  | indentlessEntry (mark : Mark)
  | blockKey (mark : Mark)
  | blockValue (mark : Mark)
  /-- An entry of a flow sequence: a node, or a mapping of one pair. -/
  | flowEntry
  | pairKey
  | pairValue
  /-- An entry of a flow mapping. -/
  | flowPair
  | flowKey
  | flowValue
deriving DecidableEq, Repr

namespace Slot

/-- May block collections stand here? -/
def isBlock : Slot → Bool
  | bareRoot | root | blockEntry _ | indentlessEntry _ | blockKey _ | blockValue _ => true
  | _ => false

/-- May a sequence begin here without being indented? -/
def allowsIndentless : Slot → Bool
  | blockKey _ | blockValue _ => true
  | _ => false

/-- The place of the node that is left out in front of this token, if it is left out. -/
def emptyMark? (slot : Slot) (token : Token) : Option Mark :=
  match slot, token.kind with
  | root, .versionDirective _ _ | root, .tagDirective _ _ | root, .documentStart
  | root, .documentEnd | root, .streamEnd => some token.start
  | blockEntry mark, .blockEntry | blockEntry mark, .blockEnd => some mark
  | indentlessEntry mark, .blockEntry | indentlessEntry mark, .key | indentlessEntry mark, .value
  | indentlessEntry mark, .blockEnd => some mark
  | blockKey mark, .key | blockKey mark, .value | blockKey mark, .blockEnd => some mark
  | blockValue mark, .key | blockValue mark, .value | blockValue mark, .blockEnd => some mark
  | pairValue, .flowEntry | pairValue, .flowSequenceEnd => some token.start
  | flowKey, .value | flowKey, .flowEntry | flowKey, .flowMappingEnd => some token.start
  | flowValue, .flowEntry | flowValue, .flowMappingEnd => some token.start
  | _, _ => none

end Slot

/-- A node that is announced, with the properties read of it. -/
structure Awaited where
  slot : Slot
  /-- The place of the first property. -/
  start : Option Mark
  anchor : Option (List Char)
  tag : Option (List Char × List UInt8 × Mark)
deriving DecidableEq, Repr

/-- A node announced for a slot. -/
def Awaited.inSlot (slot : Slot) : Awaited := ⟨slot, none, none, none⟩

/-- What may follow in an open collection. -/
inductive Phase where
  /-- A dash, or the end of a block sequence. -/
  | blockEntries
  /-- A dash, or whatever else ends a sequence that is not indented. -/
  | indentlessEntries
  /-- A key, or the end of a block mapping. -/
  | blockKeys
  /-- The value of the last key of a block mapping, or nothing of it. -/
  | blockValues
  /-- A comma, or the end of a flow sequence. -/
  | flowEntries
  /-- The value of the key of a pair, or nothing of it. -/
  | pairValues
  /-- The end of a pair, for which no token stands. -/
  | pairEnd
  /-- A comma, or the end of a flow mapping. -/
  | flowPairs
  /-- The value of the last key of a flow mapping, or nothing of it. -/
  | flowValues
  /-- Nothing of the value of a key without indicator. -/
  | flowNoValue
deriving DecidableEq, Repr

/-- Is this a phase of a mapping? -/
def Phase.ofMapping : Phase → Bool
  | blockEntries | indentlessEntries | flowEntries => false
  | _ => true

/-- Does a token at this phase show that a value was left out? -/
def Phase.leavesValueOut : Phase → Token.Kind → Bool
  | flowNoValue, _ => true
  | blockValues, kind => kind != .value
  | flowValues, kind => kind != .value
  | pairValues, kind => kind != .value
  | _, _ => false

/-- The phase behind a value. -/
def Phase.behindValue : Phase → Phase
  | blockValues => blockKeys
  | pairValues => pairEnd
  | flowValues | flowNoValue => flowPairs
  | phase => phase

/-- A collection whose end is not reached; the latest part is the first. -/
structure OpenNode where
  head : NodeHead
  /-- The place of the token that opened it. -/
  opened : Mark
  phase : Phase
  parts : List Node
deriving Repr

namespace OpenNode

/-- The collection with further parts. -/
def add (collection : OpenNode) (node : Node) : OpenNode :=
  { collection with parts := node :: collection.parts }

/-- The collection with a part that may be absent. -/
def add? (collection : OpenNode) : Option Node → OpenNode
  | none => collection
  | some node => collection.add node

/-- The collection behind a value that was left out. -/
def withoutValue (collection : OpenNode) : OpenNode :=
  { collection with phase := collection.phase.behindValue }

/-- The node that the collection is, up to here. -/
def toNode (collection : OpenNode) (closed : Bool) : Node :=
  if collection.phase.ofMapping then .mapping collection.head collection.parts.reverse closed
  else .sequence collection.head collection.parts.reverse closed

end OpenNode

/-- How far a text is read, seen from outside its first document. -/
inductive Stage where
  /-- Directives may come; `sawVersion` if the version of the language was given. -/
  | directives (any sawVersion : Bool)
  /-- Within the document or right behind its root. -/
  | document
  /-- Behind the end of the document. -/
  | ended
  /-- At the end of the text. -/
  | finished
  /-- A further document follows. -/
  | followed
deriving DecidableEq, Repr

/-- The state between two tokens. -/
structure Builder where
  stage : Stage
  awaited : Option Awaited
  stack : List OpenNode
  root : Option Node
  /-- The numbers that the names of anchors have at present. -/
  anchors : List (List Char × Nat)
  /-- The stems that tag handles stand for. -/
  handles : List (List Char × List UInt8)
  /-- How many nodes and ends of collections were met. -/
  steps : Nat
deriving Repr

/-- Where building stopped: the fault and what was built in front of it. -/
structure BuildStop where
  builder : Builder
  fault : StreamFault
deriving Repr

namespace Builder

/-- The state at the start of a text. -/
def initial : Builder := ⟨.directives false false, none, [], none, [], [], 0⟩

/-- Stops at a fault. -/
def fail (builder : Builder) (fault : TextFault) : Except BuildStop Builder :=
  .error ⟨builder, .text fault⟩

/-- Announces a node. -/
def await (builder : Builder) (slot : Slot) : Builder :=
  { builder with awaited := some (.inSlot slot) }

/-- Counts a node or an end of a collection. -/
def count (builder : Builder) : Builder := { builder with steps := builder.steps + 1 }

/-- The node left out at a place. -/
def emptyNode (mark : Mark) : Node := .scalar ⟨mark, none, none⟩ [] .plain

/-! ## Properties -/

/-- The number that an anchor gets: how many different names there were before. A name
used again gets a new number, which the next new name gets once more. -/
def register (builder : Builder) (name : Option (List Char)) : Option Nat × Builder :=
  match name with
  | none => (none, builder)
  | some name =>
    let number := builder.anchors.length
    let others := builder.anchors.filter (fun anchor => anchor.1 != name)
    (some number, { builder with anchors := (name, number) :: others })

/-- The handles every document has unless it gives them another stem. -/
def defaultHandles : List (List Char × List UInt8) :=
  [(['!'], nameOctets ['!']), (['!', '!'], nameOctets "tag:yaml.org,2002:".toList)]
where
  nameOctets (name : List Char) : List UInt8 := name.map (fun c => c.toNat.toUInt8)

/-- The whole tag, if its handle is known. -/
def resolveTag? (builder : Builder) (handle : List Char) (rest : List UInt8) :
    Option (List UInt8) :=
  if handle.isEmpty then some rest
  else (builder.handles ++ defaultHandles).lookup handle |>.map (· ++ rest)

/-- The tag of an announced node; its handle must be known. -/
def tagOf (builder : Builder) (awaited : Awaited) (start : Mark) :
    Except BuildStop (Option (List UInt8)) :=
  match awaited.tag with
  | none => .ok none
  | some (handle, rest, mark) =>
    match builder.resolveTag? handle rest with
    | some tag => .ok (some tag)
    | none => .error ⟨builder, .text (.during .node start .tagHandleUndefined mark)⟩

/-! ## Completing nodes -/

/-- Adds a node to the innermost collection. A pair in a flow sequence ends with its
value. The first answer is how many pairs ended so. -/
def attach (node : Node) : List OpenNode → Nat × List OpenNode × Option Node
  | [] => (0, [], some node)
  | collection :: outer =>
    if collection.phase == .pairEnd then
      let (ends, stack, root) := attach ((collection.add node).toNode true) outer
      (ends + 1, stack, root)
    else (0, collection.add node :: outer, none)

/-- A node is complete and takes the place that was announced. -/
def place (builder : Builder) (node : Node) : Builder :=
  let (ends, stack, root) := attach node builder.stack
  { builder with
    awaited := none, stack, root := root.or builder.root, steps := builder.steps + ends }

/-- Opens a collection at the place that was announced. -/
def openNode (builder : Builder) (collection : OpenNode) (slot : Option Slot) : Builder :=
  { builder.count with awaited := slot.map .inSlot, stack := collection :: builder.stack }

/-! ## What follows a complete node -/

/-- A token behind the root of the document. -/
def endDocument (builder : Builder) (token : Token) : Builder :=
  match token.kind with
  | .documentEnd => { builder with stage := .ended }
  | .streamEnd => { builder with stage := .finished }
  | _ => { builder with stage := .followed }

/-- The builder with another phase for the innermost collection. -/
def inPhase (builder : Builder) (phase : Phase) : Builder :=
  match builder.stack with
  | [] => builder
  | collection :: outer => { builder with stack := { collection with phase } :: outer }

/-- Goes on in the innermost collection with the node for a slot. -/
def goOn (builder : Builder) (phase : Phase) (slot : Slot) : Builder :=
  (builder.inPhase phase).await slot

/-- The innermost collection is complete. -/
def close (builder : Builder) (collection : OpenNode) (outer : List OpenNode) : Builder :=
  { builder.count with stack := outer }.place (collection.toNode true)

/-- Refuses a token inside a collection. -/
def refuse (builder : Builder) (collection : OpenNode) (token : Token) (activity : Activity)
    (problem : Problem) : Except BuildStop Builder :=
  builder.fail (.during activity collection.opened problem token.start)

/-- Takes a token where no node is announced. `done` is a node that is complete and
still has to be added to the innermost collection. -/
def resume (builder : Builder) (token : Token) (done : Option Node) :
    List OpenNode → Except BuildStop Builder
  | [] =>
    let whole := { builder with awaited := none, stack := [], root := done.or builder.root }
    .ok (whole.endDocument token)
  | collection :: outer =>
    let (collection, builder) :=
      if collection.phase.leavesValueOut token.kind then
        (((collection.add? done).add (emptyNode token.start)).withoutValue, builder.count)
      else (collection.add? done, builder)
    let builder := { builder with awaited := none, stack := collection :: outer }
    match collection.phase, token.kind with
    | .blockEntries, .blockEntry => .ok (builder.goOn .blockEntries (.blockEntry token.stop))
    | .blockEntries, .blockEnd => .ok (builder.close collection outer)
    | .blockEntries, _ => builder.refuse collection token .blockCollection .dashMissing
    | .indentlessEntries, .blockEntry =>
      .ok (builder.goOn .indentlessEntries (.indentlessEntry token.stop))
    | .indentlessEntries, _ => resume builder.count token (some (collection.toNode true)) outer
    | .blockKeys, .key => .ok (builder.goOn .blockValues (.blockKey token.stop))
    | .blockKeys, .blockEnd => .ok (builder.close collection outer)
    | .blockKeys, _ => builder.refuse collection token .blockMapping .keyMissing
    | .blockValues, _ => .ok (builder.goOn .blockKeys (.blockValue token.stop))
    | .flowEntries, .flowEntry => .ok (builder.goOn .flowEntries .flowEntry)
    | .flowEntries, .flowSequenceEnd => .ok (builder.close collection outer)
    | .flowEntries, _ =>
      builder.refuse collection token .flowSequence .flowSequenceSeparatorMissing
    | .pairValues, _ => .ok (builder.goOn .pairEnd .pairValue)
    | .pairEnd, _ => resume builder.count token (some (collection.toNode true)) outer
    | .flowValues, _ => .ok (builder.goOn .flowPairs .flowValue)
    | .flowPairs, .flowEntry | .flowNoValue, .flowEntry => .ok (builder.goOn .flowPairs .flowPair)
    | .flowPairs, .flowMappingEnd | .flowNoValue, .flowMappingEnd =>
      .ok (builder.close collection outer)
    | .flowPairs, _ | .flowNoValue, _ =>
      builder.refuse collection token .flowMapping .flowMappingSeparatorMissing

/-! ## What begins a node -/

/-- Takes a token that begins no node: the node of an announcement with properties is
left out, and one without is missed. -/
def missNode (builder : Builder) (awaited : Awaited) (head : NodeHead) (token : Token) :
    Except BuildStop Builder :=
  if awaited.start.isSome then
    resume builder.count token (some (.scalar head [] .plain)) builder.stack
  else
    let activity := if awaited.slot.isBlock then Activity.blockNode else .flowNode
    builder.fail (.during activity head.mark .nodeMissing token.start)

/-- Takes the token behind the properties of an announced node. -/
def beginNode (builder : Builder) (awaited : Awaited) (token : Token) :
    Except BuildStop Builder := do
  let start := awaited.start.getD token.start
  let tag ← builder.tagOf awaited start
  let (anchor, builder) := builder.register awaited.anchor
  let head : NodeHead := ⟨start, anchor, tag⟩
  let opening (phase : Phase) (slot : Option Slot) : Except BuildStop Builder :=
    .ok (builder.openNode ⟨head, token.start, phase, []⟩ slot)
  match token.kind with
  | .scalar text style => .ok (builder.count.place (.scalar head text style))
  | .flowSequenceStart => opening .flowEntries (some .flowEntry)
  | .flowMappingStart => opening .flowPairs (some .flowPair)
  | .blockSequenceStart =>
    if awaited.slot.isBlock then opening .blockEntries none
    else builder.missNode awaited head token
  | .blockMappingStart =>
    if awaited.slot.isBlock then opening .blockKeys none
    else builder.missNode awaited head token
  | .blockEntry =>
    if awaited.slot.allowsIndentless then
      opening .indentlessEntries (some (.indentlessEntry token.stop))
    else builder.missNode awaited head token
  | _ => builder.missNode awaited head token

/-- Takes a token of an announced node: a property, an alias, or what follows them. -/
def takeNode (builder : Builder) (awaited : Awaited) (token : Token) : Except BuildStop Builder :=
  let start := some (awaited.start.getD token.start)
  match token.kind, awaited with
  | .anchor name, ⟨slot, _, none, tag⟩ =>
    .ok { builder with awaited := some ⟨slot, start, some name, tag⟩ }
  | .tag handle rest, ⟨slot, _, anchor, none⟩ =>
    .ok { builder with awaited := some ⟨slot, start, anchor, some (handle, rest, token.start)⟩ }
  | .aliasTo name, ⟨_, none, _, _⟩ =>
    match builder.anchors.lookup name with
    | some anchor => .ok (builder.count.place (.aliasTo token.start anchor))
    | none => .error ⟨builder, .unknownAnchor token.start⟩
  | _, _ => builder.beginNode awaited token

/-- Takes the first token behind an announcement: the node may be left out, and an entry
of a flow collection may be the end of the collection or a pair. -/
def takeSlot (builder : Builder) (slot : Slot) (token : Token) : Except BuildStop Builder :=
  match slot.emptyMark? token with
  | some mark => resume builder.count token (some (emptyNode mark)) builder.stack
  | none =>
    match slot, token.kind with
    | .flowEntry, .flowSequenceEnd => resume builder token none builder.stack
    | .flowEntry, .key =>
      let head : NodeHead := ⟨token.start, none, none⟩
      .ok (builder.openNode ⟨head, token.start, .pairValues, []⟩ (some .pairKey))
    | .pairKey, .value | .pairKey, .flowEntry | .pairKey, .flowSequenceEnd =>
      .ok (builder.count.place (emptyNode token.stop))
    | .flowPair, .flowMappingEnd => resume builder token none builder.stack
    | .flowPair, .key => .ok (builder.goOn .flowValues .flowKey)
    | .flowPair, _ => (builder.inPhase .flowNoValue).takeNode (.inSlot slot) token
    | _, _ => builder.takeNode (.inSlot slot) token

/-! ## All tokens -/

/-- Takes a token in front of the document. -/
def takeDirective (builder : Builder) (any sawVersion : Bool) (token : Token) :
    Except BuildStop Builder :=
  match token.kind with
  | .versionDirective major minor =>
    if sawVersion then builder.fail ⟨.versionRepeated, token.start, none⟩
    else if major != 1 || (minor != 1 && minor != 2) then
      builder.fail ⟨.versionUnsupported, token.start, none⟩
    else .ok { builder with stage := .directives true true }
  | .tagDirective handle stem =>
    if (builder.handles.lookup handle).isSome then
      builder.fail ⟨.tagDirectiveRepeated, token.start, none⟩
    else
      .ok { builder with
            stage := .directives true sawVersion, handles := (handle, stem) :: builder.handles }
  | .documentStart => .ok ({ builder with stage := .document }.await .root)
  | .streamEnd =>
    if any then builder.fail ⟨.documentStartMissing, token.start, none⟩
    else .ok { builder.count with stage := .finished, root := some (.void token.start) }
  | _ =>
    if any then builder.fail ⟨.documentStartMissing, token.start, none⟩
    else { builder with stage := .document }.takeSlot .bareRoot token

/-- Takes one token. -/
def feed (builder : Builder) (token : Token) : Except BuildStop Builder :=
  match builder.awaited, builder.stage with
  | some ⟨slot, none, none, none⟩, _ => builder.takeSlot slot token
  | some awaited, _ => builder.takeNode awaited token
  | none, .directives any sawVersion => builder.takeDirective any sawVersion token
  | none, .document => resume builder token none builder.stack
  | none, .ended => .ok (builder.endDocument token)
  | none, .finished => .ok builder
  | none, .followed => .ok builder

/-- What was built of the root, with the open collections left open. -/
def cut (done : Option Node) : List OpenNode → Option Node
  | [] => done
  | collection :: outer => cut (some ((collection.add? done).toNode false)) outer

/-- The root as far as it was built. -/
def cutRoot (builder : Builder) : Option Node :=
  match builder.stack with
  | [] => builder.root
  | stack => cut none stack

end Builder

end Provisioning.Yaml
