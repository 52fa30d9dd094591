import Provisioning.Outcome
import Provisioning.Proofs.Yaml.Meaning
import Provisioning.Yaml.Node.Builder

/-!
# Building nodes from the tokens of their parts

Tokens build a node if, wherever such a node is awaited, they lead the builder past it with the
node in its place: this is `Builds`. What the tokens of the parts of a collection build is put
together here to what the tokens of the collection build, for each kind of collection. Places
of tokens do not matter to this, so a sequence of tokens is known by its kinds.
-/

namespace Provisioning.Yaml

open Partners

namespace Builder

/-- The builder with further steps behind it. -/
def counted (builder : Builder) (n : Nat) : Builder :=
  { builder with steps := builder.steps + n }

/-- The builder inside a collection that was opened where a node was awaited. -/
def inside (builder : Builder) (collection : OpenNode) (slot : Option Slot) : Builder :=
  { builder with awaited := slot.map .inSlot, stack := collection :: builder.stack }

theorem counted_counted (builder : Builder) (m n : Nat) :
    (builder.counted m).counted n = builder.counted (m + n) := by
  unfold counted
  dsimp only
  rw [Nat.add_assoc]

/-- A complete node inside a collection is one more part of it. -/
theorem place_inside (builder : Builder) {collection : OpenNode} (h : collection.phase ≠ .pairEnd)
    (slot : Option Slot) (node : Node) :
    (builder.inside collection slot).place node
      = builder.inside (collection.add node) none := by
  have hattach : attach node (collection :: builder.stack)
      = (0, collection.add node :: builder.stack, none) := by
    rw [attach, if_neg (by simpa using h)]
  unfold place inside
  dsimp only
  rw [hattach]
  rfl

end Builder

/-- Where a node may be awaited: anywhere but in front of a pair, and a block only among blocks. -/
def Slot.Allows (block : Bool) (slot : Slot) : Prop :=
  slot ≠ .flowPair ∧ (block = true → slot.isBlock = true)

/-- **Tokens of these kinds build a node**, of which something holds. -/
def Builds (block : Bool) (kinds : List Token.Kind) (holds : Node → Prop) : Prop :=
  ∀ (tokens : List Token) (builder : Builder) (slot : Slot), tokens.map Token.kind = kinds →
    builder.awaited = some (.inSlot slot) → slot.Allows block → builder.stage = .document →
    ∃ n node, tokens.foldlM Builder.feed builder = .ok ((builder.counted n).place node) ∧ holds node

namespace Builds

variable {block : Bool} {kinds : List Token.Kind} {holds : Node → Prop}

theorem imp {holds' : Node → Prop} (h : Builds block kinds holds)
    (himp : ∀ node, holds node → holds' node) : Builds block kinds holds' := by
  intro tokens builder slot hkinds hawaited hslot hstage
  obtain ⟨n, node, hfeed, hholds⟩ := h tokens builder slot hkinds hawaited hslot hstage
  exact ⟨n, node, hfeed, himp node hholds⟩

/-- What builds a node anywhere builds it among blocks. -/
theorem toBlock (h : Builds false kinds holds) : Builds block kinds holds :=
  fun tokens builder slot hkinds hawaited hslot hstage =>
    h tokens builder slot hkinds hawaited ⟨hslot.1, fun h => absurd h (by decide)⟩ hstage

/-- The first token of a sequence that is known by its kinds. -/
theorem cons_of_kinds {tokens : List Token} {kind : Token.Kind} {kinds : List Token.Kind}
    (h : tokens.map Token.kind = kind :: kinds) :
    ∃ start stop others, tokens = ⟨kind, start, stop⟩ :: others ∧
      others.map Token.kind = kinds := by
  obtain ⟨⟨kind, start, stop⟩, others, rfl, rfl, hothers⟩ := List.map_eq_cons_iff.mp h
  exact ⟨start, stop, others, rfl, hothers⟩

/-! ## Scalars -/

theorem feed_scalar {builder : Builder} {slot : Slot}
    (hawaited : builder.awaited = some (.inSlot slot))
    (hslot : slot ≠ .flowPair) (text : List Char) (style : ScalarStyle) (start stop : Mark) :
    builder.feed ⟨.scalar text style, start, stop⟩
      = .ok ((builder.counted 1).place (.scalar ⟨start, none, none⟩ text style)) := by
  obtain ⟨stage, awaited, stack, root, anchors, handles, steps⟩ := builder
  cases hawaited
  cases slot with
  | flowPair => exact absurd rfl hslot
  | _ => rfl

theorem scalar (text : List Char) (style : ScalarStyle) :
    Builds false [.scalar text style] fun node =>
      ∃ head : NodeHead, head.tag = none ∧ node = .scalar head text style := by
  intro tokens builder slot hkinds hawaited hslot _
  obtain ⟨start, stop, tokens, rfl, htokens⟩ := cons_of_kinds hkinds
  cases List.map_eq_nil_iff.mp htokens
  refine ⟨1, _, ?_, ⟨start, none, none⟩, rfl, rfl⟩
  rw [List.foldlM_cons, feed_scalar hawaited hslot.1]
  rfl

/-! ## Flow sequences -/

/-- A flow collection that begins where a node is awaited. -/
theorem feed_flowStart {builder : Builder} {slot : Slot}
    (hawaited : builder.awaited = some (.inSlot slot)) (hslot : slot ≠ .flowPair)
    (start stop : Mark) :
    builder.feed ⟨.flowSequenceStart, start, stop⟩
        = .ok ((builder.counted 1).inside ⟨⟨start, none, none⟩, start, .flowEntries, []⟩
          (some .flowEntry)) ∧
      builder.feed ⟨.flowMappingStart, start, stop⟩
        = .ok ((builder.counted 1).inside ⟨⟨start, none, none⟩, start, .flowPairs, []⟩
          (some .flowPair)) := by
  obtain ⟨stage, awaited, stack, root, anchors, handles, steps⟩ := builder
  cases hawaited
  cases slot with
  | flowPair => exact absurd rfl hslot
  | _ => exact ⟨rfl, rfl⟩

/-- The tokens of a part of a collection add its node to it. -/
theorem feed_part (h : Builds block kinds holds) (slot : Slot) (hslot : slot.Allows block)
    {tokens : List Token} (hkinds : tokens.map Token.kind = kinds) (builder : Builder)
    (hstage : builder.stage = .document) (collection : OpenNode)
    (hphase : collection.phase ≠ .pairEnd) :
    ∃ n node, tokens.foldlM Builder.feed (builder.inside collection (some slot))
      = .ok ((builder.counted n).inside (collection.add node) none) ∧ holds node := by
  obtain ⟨n, node, hfeed, hholds⟩ := h tokens (builder.inside collection (some slot)) slot hkinds
    rfl hslot hstage
  refine ⟨n, node, ?_, hholds⟩
  rw [hfeed]
  exact congrArg Except.ok ((builder.counted n).place_inside hphase (some slot) node)

variable {α : Type} {kindsOf : α → List Token.Kind} {holdsOf : α → Node → Prop}

/-- The items of a sequence, each behind a separator, and its end. What separates the items and ends
the sequence is all that its style makes a difference to. -/
theorem feed_items {separator last : Token.Kind} {phase : Phase} {slotOf : Mark → Slot}
    (hslot : ∀ mark, (slotOf mark).Allows block) (hpart : phase ≠ .pairEnd)
    (hseparator : ∀ (builder : Builder) (collection : OpenNode) (start stop : Mark),
      builder.stage = .document → collection.phase = phase →
      (builder.inside collection none).feed ⟨separator, start, stop⟩
        = .ok (builder.inside collection (some (slotOf stop))))
    (hlast : ∀ (builder : Builder) (collection : OpenNode) (start stop : Mark),
      builder.stage = .document → collection.phase = phase →
      (builder.inside collection none).feed ⟨last, start, stop⟩
        = .ok ((builder.counted 1).place
          (.sequence collection.head collection.parts.reverse true))) :
    ∀ items : List α, (∀ item ∈ items, Builds block (kindsOf item) (holdsOf item)) →
    ∀ (tokens : List Token) (builder : Builder) (collection : OpenNode),
    tokens.map Token.kind = items.flatMap (fun item => separator :: kindsOf item) ++ [last] →
    builder.stage = .document → collection.phase = phase →
    ∃ n nodes, tokens.foldlM Builder.feed (builder.inside collection none)
      = .ok ((builder.counted n).place
          (.sequence collection.head (collection.parts.reverse ++ nodes) true)) ∧
      List.Forall₂ holdsOf items nodes := by
  -- The items read so far are in the collection, so this is by induction on those that follow.
  intro items
  induction items with
  | nil =>
    intro _ tokens builder collection hkinds hstage hphase
    obtain ⟨start, stop, tokens, rfl, htokens⟩ := cons_of_kinds hkinds
    cases List.map_eq_nil_iff.mp htokens
    refine ⟨1, [], ?_, .nil⟩
    rw [List.append_nil, List.foldlM_cons, hlast builder collection start stop hstage hphase]
    rfl
  | cons item items ih =>
    intro h tokens builder collection hkinds hstage hphase
    obtain ⟨hitem, hitems⟩ := List.forall_mem_cons.mp h
    rw [List.flatMap_cons, List.cons_append, List.cons_append, List.append_assoc] at hkinds
    obtain ⟨start, stop, tokens, rfl, htokens⟩ := cons_of_kinds hkinds
    obtain ⟨first, others, rfl, hfirst, hothers⟩ := List.map_eq_append_iff.mp htokens
    obtain ⟨n₁, node, h₁, hnode⟩ := feed_part hitem (slotOf stop) (hslot stop) hfirst builder hstage
      collection (by rw [hphase]; exact hpart)
    obtain ⟨n₂, nodes, h₂, hnodes⟩ := ih hitems others (builder.counted n₁) (collection.add node)
      hothers hstage hphase
    refine ⟨n₁ + n₂, node :: nodes, ?_, .cons hnode hnodes⟩
    rw [List.foldlM_cons, hseparator builder collection start stop hstage hphase, Outcome.ok_bind,
      List.foldlM_append, h₁, Outcome.ok_bind, h₂, Builder.counted_counted]
    show Except.ok (Builder.place _ (.sequence collection.head
      ((node :: collection.parts).reverse ++ nodes) true)) = _
    rw [List.reverse_cons, List.append_assoc]
    rfl

/-- The items behind the first one, each behind a comma, and the end of a flow sequence. -/
theorem feed_flowItems : ∀ items : List α,
    (∀ item ∈ items, Builds false (kindsOf item) (holdsOf item)) →
    ∀ (tokens : List Token) (builder : Builder) (collection : OpenNode),
    tokens.map Token.kind
      = items.flatMap (fun item => .flowEntry :: kindsOf item) ++ [.flowSequenceEnd] →
    builder.stage = .document → collection.phase = .flowEntries →
    ∃ n nodes, tokens.foldlM Builder.feed (builder.inside collection none)
      = .ok ((builder.counted n).place
          (.sequence collection.head (collection.parts.reverse ++ nodes) true)) ∧
      List.Forall₂ holdsOf items nodes := by
  have hslot : ∀ mark : Mark, Slot.flowEntry.Allows false := fun _ => ⟨by simp, by simp⟩
  refine feed_items hslot (by simp) ?separator ?last
  all_goals
    rintro ⟨stage, awaited, stack, root, anchors, handles, steps⟩
      ⟨head, opened, phase, parts⟩ start stop hstage hphase
    cases hstage
    cases hphase
    rfl

theorem flowSequence_nil : Builds false [.flowSequenceStart, .flowSequenceEnd] fun node =>
    ∃ head : NodeHead, head.tag = none ∧ node = .sequence head [] true := by
  intro tokens builder slot hkinds hawaited hslot hstage
  obtain ⟨start, stop, tokens, rfl, htokens⟩ := cons_of_kinds hkinds
  obtain ⟨start', stop', tokens, rfl, hnil⟩ := cons_of_kinds htokens
  cases List.map_eq_nil_iff.mp hnil
  refine ⟨2, _, ?_, ⟨start, none, none⟩, rfl, rfl⟩
  rw [List.foldlM_cons, (feed_flowStart hawaited hslot.1 start stop).1]
  rfl

theorem flowSequence {item : α} {items : List α}
    (h : ∀ other ∈ item :: items, Builds false (kindsOf other) (holdsOf other)) :
    Builds false (.flowSequenceStart :: (kindsOf item ++
        (items.flatMap (fun item => .flowEntry :: kindsOf item) ++ [.flowSequenceEnd]))) fun node =>
      ∃ (head : NodeHead) (nodes : List Node), head.tag = none ∧ node = .sequence head nodes true ∧
        List.Forall₂ holdsOf (item :: items) nodes := by
  intro tokens builder slot hkinds hawaited hslot hstage
  obtain ⟨hitem, hitems⟩ := List.forall_mem_cons.mp h
  obtain ⟨start, stop, tokens, rfl, htokens⟩ := cons_of_kinds hkinds
  obtain ⟨first, others, rfl, hfirst, hothers⟩ := List.map_eq_append_iff.mp htokens
  have hstart := (feed_flowStart hawaited hslot.1 start stop).1
  obtain ⟨n₁, node, h₁, hnode⟩ := feed_part hitem .flowEntry ⟨by simp, by simp⟩ hfirst
    (builder.counted 1) hstage ⟨⟨start, none, none⟩, start, .flowEntries, []⟩ (by simp)
  obtain ⟨n₂, nodes, h₂, hnodes⟩ := feed_flowItems items hitems others
    ((builder.counted 1).counted n₁)
    (OpenNode.add ⟨⟨start, none, none⟩, start, .flowEntries, []⟩ node) hothers hstage rfl
  refine ⟨1 + (n₁ + n₂), _, ?_, ⟨start, none, none⟩, node :: nodes, rfl, rfl, .cons hnode hnodes⟩
  rw [List.foldlM_cons, hstart, Outcome.ok_bind, List.foldlM_append, h₁, Outcome.ok_bind, h₂,
    Builder.counted_counted, Builder.counted_counted]
  rfl

/-! ## Flow mappings -/

variable {textOf : α → List Char} {style : ScalarStyle}

/-- The key and the value of a pair are two more parts of a flow mapping. -/
theorem feed_flowPair {text : List Char} {holds : Node → Prop} (h : Builds false kinds holds)
    (tokens : List Token)
    (hkinds : tokens.map Token.kind = .key :: .scalar text style :: .value :: kinds)
    (builder : Builder) (hstage : builder.stage = .document) (collection : OpenNode)
    (hphase : collection.phase = .flowPairs) :
    ∃ n head node, tokens.foldlM Builder.feed (builder.inside collection (some .flowPair))
      = .ok ((builder.counted n).inside
          ((collection.add (.scalar head text style)).add node) none) ∧
      head.tag = none ∧ holds node := by
  obtain ⟨start, stop, tokens, rfl, hkey⟩ := cons_of_kinds hkinds
  obtain ⟨start', stop', tokens, rfl, hscalar⟩ := cons_of_kinds hkey
  obtain ⟨start'', stop'', tokens, rfl, htokens⟩ := cons_of_kinds hscalar
  obtain ⟨head, opened, phase, parts⟩ := collection
  cases hphase
  have hkey :
      (builder.inside ⟨head, opened, .flowPairs, parts⟩ (some .flowPair)).feed ⟨.key, start, stop⟩
        = .ok (builder.inside ⟨head, opened, .flowValues, parts⟩ (some .flowKey)) := rfl
  have hscalar : (builder.inside ⟨head, opened, .flowValues, parts⟩ (some .flowKey)).feed
      ⟨.scalar text style, start', stop'⟩ = .ok ((builder.counted 1).inside
        ⟨head, opened, .flowValues, .scalar ⟨start', none, none⟩ text style :: parts⟩ none) := rfl
  have hvalue : ∀ builder : Builder, builder.stage = .document → ∀ parts,
      (builder.inside ⟨head, opened, .flowValues, parts⟩ none).feed ⟨.value, start'', stop''⟩
        = .ok (builder.inside ⟨head, opened, .flowPairs, parts⟩ (some .flowValue)) := by
    intro builder hstage parts
    obtain ⟨stage, awaited, stack, root, anchors, handles, steps⟩ := builder
    cases hstage
    rfl
  obtain ⟨n, node, hfeed, hnode⟩ := feed_part h .flowValue ⟨by simp, by simp⟩ htokens
    (builder.counted 1) hstage
    ⟨head, opened, .flowPairs, .scalar ⟨start', none, none⟩ text style :: parts⟩ (by simp)
  refine ⟨1 + n, ⟨start', none, none⟩, node, ?_, rfl, hnode⟩
  rw [List.foldlM_cons, hkey, Outcome.ok_bind, List.foldlM_cons, hscalar, Outcome.ok_bind,
    List.foldlM_cons, hvalue (builder.counted 1) hstage, Outcome.ok_bind, hfeed,
      Builder.counted_counted]
  rfl

/-- The kinds of the tokens of a pair. -/
def pairKinds (textOf : α → List Char) (style : ScalarStyle) (kindsOf : α → List Token.Kind)
    (member : α) : List Token.Kind :=
  .key :: .scalar (textOf member) style :: .value :: kindsOf member

/-- What is said of the members of a mapping and of the names and nodes that they give. -/
def HoldsNamed (textOf : α → List Char) (holdsOf : α → Node → Prop) (member : α)
    (named : String × Node) : Prop :=
  named.1 = String.ofList (textOf member) ∧ holdsOf member named.2

/-- The pairs behind the first one, each behind a comma, and the end of a flow mapping. -/
theorem feed_flowMembers : ∀ members : List α,
    (∀ member ∈ members, Builds false (kindsOf member) (holdsOf member)) →
    (∀ member ∈ members, style = .plain → Meaning.ofPlain (textOf member) = .string) →
    ∀ (tokens : List Token) (builder : Builder) (collection : OpenNode),
    tokens.map Token.kind
      = members.flatMap (fun member => .flowEntry :: pairKinds textOf style kindsOf member)
        ++ [.flowMappingEnd] →
    builder.stage = .document → collection.phase = .flowPairs →
    ∃ n parts named, tokens.foldlM Builder.feed (builder.inside collection none)
      = .ok ((builder.counted n).place
          (.mapping collection.head (collection.parts.reverse ++ parts) true)) ∧
      Node.Labels parts named ∧ List.Forall₂ (HoldsNamed textOf holdsOf) members named := by
  intro members
  induction members with
  | nil =>
    intro _ _ tokens builder collection hkinds hstage hphase
    obtain ⟨start, stop, tokens, rfl, htokens⟩ := cons_of_kinds hkinds
    cases List.map_eq_nil_iff.mp htokens
    obtain ⟨head, opened, phase, parts⟩ := collection
    cases hphase
    obtain ⟨stage, awaited, stack, root, anchors, handles, steps⟩ := builder
    cases hstage
    refine ⟨1, [], [], ?_, .nil, .nil⟩
    rw [List.append_nil]
    rfl
  | cons member members ih =>
    intro h hstyle tokens builder collection hkinds hstage hphase
    obtain ⟨hmember, hmembers⟩ := List.forall_mem_cons.mp h
    obtain ⟨hstyle, hstyles⟩ := List.forall_mem_cons.mp hstyle
    rw [List.flatMap_cons, List.cons_append, List.cons_append, List.append_assoc] at hkinds
    obtain ⟨start, stop, tokens, rfl, htokens⟩ := cons_of_kinds hkinds
    obtain ⟨first, others, rfl, hfirst, hothers⟩ := List.map_eq_append_iff.mp htokens
    have hcomma : (builder.inside collection none).feed ⟨.flowEntry, start, stop⟩
        = .ok (builder.inside collection (some .flowPair)) := by
      obtain ⟨head, opened, phase, parts⟩ := collection
      cases hphase
      obtain ⟨stage, awaited, stack, root, anchors, handles, steps⟩ := builder
      cases hstage
      rfl
    obtain ⟨n₁, head, node, h₁, htag, hnode⟩ :=
      feed_flowPair hmember first hfirst builder hstage collection hphase
    obtain ⟨n₂, parts, named, h₂, hlabels, hnamed⟩ := ih hmembers hstyles others
      (builder.counted n₁) ((collection.add (.scalar head (textOf member) style)).add node)
      hothers hstage hphase
    refine ⟨n₁ + n₂, .scalar head (textOf member) style :: node :: parts,
      (String.ofList (textOf member), node) :: named, ?_, .cons htag hstyle hlabels,
      .cons ⟨rfl, hnode⟩ hnamed⟩
    rw [List.foldlM_cons, hcomma, Outcome.ok_bind, List.foldlM_append, h₁, Outcome.ok_bind, h₂,
      Builder.counted_counted]
    show Except.ok (Builder.place _ (.mapping collection.head
      ((node :: .scalar head (textOf member) style :: collection.parts).reverse ++ parts) true)) = _
    rw [List.reverse_cons, List.reverse_cons, List.append_assoc, List.append_assoc]
    rfl

theorem flowMapping_nil : Builds false [.flowMappingStart, .flowMappingEnd] fun node =>
    ∃ head : NodeHead, head.tag = none ∧ node = .mapping head [] true := by
  intro tokens builder slot hkinds hawaited hslot hstage
  obtain ⟨start, stop, tokens, rfl, htokens⟩ := cons_of_kinds hkinds
  obtain ⟨start', stop', tokens, rfl, hnil⟩ := cons_of_kinds htokens
  cases List.map_eq_nil_iff.mp hnil
  refine ⟨2, _, ?_, ⟨start, none, none⟩, rfl, rfl⟩
  rw [List.foldlM_cons, (feed_flowStart hawaited hslot.1 start stop).2]
  rfl

theorem flowMapping {member : α} {members : List α}
    (h : ∀ other ∈ member :: members, Builds false (kindsOf other) (holdsOf other))
    (hstyle : ∀ other ∈ member :: members,
      style = .plain → Meaning.ofPlain (textOf other) = .string) :
    Builds false (.flowMappingStart :: (pairKinds textOf style kindsOf member ++
        (members.flatMap (fun member => .flowEntry :: pairKinds textOf style kindsOf member)
          ++ [.flowMappingEnd]))) fun node =>
      ∃ (head : NodeHead) (parts : List Node) (named : List (String × Node)), head.tag = none ∧
        node = .mapping head parts true ∧ Node.Labels parts named ∧
        List.Forall₂ (HoldsNamed textOf holdsOf) (member :: members) named := by
  intro tokens builder slot hkinds hawaited hslot hstage
  obtain ⟨hmember, hmembers⟩ := List.forall_mem_cons.mp h
  obtain ⟨hstyle, hstyles⟩ := List.forall_mem_cons.mp hstyle
  obtain ⟨start, stop, tokens, rfl, htokens⟩ := cons_of_kinds hkinds
  obtain ⟨first, others, rfl, hfirst, hothers⟩ := List.map_eq_append_iff.mp htokens
  have hstart := (feed_flowStart hawaited hslot.1 start stop).2
  obtain ⟨n₁, head, node, h₁, htag, hnode⟩ := feed_flowPair hmember first hfirst
    (builder.counted 1) hstage ⟨⟨start, none, none⟩, start, .flowPairs, []⟩ rfl
  obtain ⟨n₂, parts, named, h₂, hlabels, hnamed⟩ := feed_flowMembers members hmembers hstyles others
    ((builder.counted 1).counted n₁)
    (OpenNode.add (OpenNode.add ⟨⟨start, none, none⟩, start, .flowPairs, []⟩
      (.scalar head (textOf member) style)) node) hothers hstage rfl
  refine ⟨1 + (n₁ + n₂), _, ?_, ⟨start, none, none⟩,
    .scalar head (textOf member) style :: node :: parts,
    (String.ofList (textOf member), node) :: named, rfl, rfl, .cons htag hstyle hlabels,
    .cons ⟨rfl, hnode⟩ hnamed⟩
  rw [List.foldlM_cons, hstart, Outcome.ok_bind, List.foldlM_append, h₁, Outcome.ok_bind, h₂,
    Builder.counted_counted, Builder.counted_counted]
  rfl

/-! ## Block sequences -/

/-- A block collection that begins where a node is awaited among blocks. -/
theorem feed_blockStart {builder : Builder} {slot : Slot}
    (hawaited : builder.awaited = some (.inSlot slot)) (hslot : slot.isBlock = true)
    (start stop : Mark) :
    builder.feed ⟨.blockSequenceStart, start, stop⟩
        = .ok ((builder.counted 1).inside ⟨⟨start, none, none⟩, start, .blockEntries, []⟩ none) ∧
      builder.feed ⟨.blockMappingStart, start, stop⟩
        = .ok ((builder.counted 1).inside ⟨⟨start, none, none⟩, start, .blockKeys, []⟩ none) := by
  obtain ⟨stage, awaited, stack, root, anchors, handles, steps⟩ := builder
  cases hawaited
  cases slot with
  | flowEntry | pairKey | pairValue | flowPair | flowKey | flowValue =>
    exact absurd hslot (by decide)
  | _ => exact ⟨rfl, rfl⟩

/-- The items of a block sequence, each behind a dash, and its end. -/
theorem feed_blockItems : ∀ items : List α,
    (∀ item ∈ items, Builds true (kindsOf item) (holdsOf item)) →
    ∀ (tokens : List Token) (builder : Builder) (collection : OpenNode),
    tokens.map Token.kind = items.flatMap (fun item => .blockEntry :: kindsOf item) ++ [.blockEnd] →
    builder.stage = .document → collection.phase = .blockEntries →
    ∃ n nodes, tokens.foldlM Builder.feed (builder.inside collection none)
      = .ok ((builder.counted n).place
          (.sequence collection.head (collection.parts.reverse ++ nodes) true)) ∧
      List.Forall₂ holdsOf items nodes := by
  have hslot : ∀ mark : Mark, (Slot.blockEntry mark).Allows true := fun _ => ⟨by simp, fun _ => rfl⟩
  refine feed_items hslot (by simp) ?separator ?last
  all_goals
    rintro ⟨stage, awaited, stack, root, anchors, handles, steps⟩
      ⟨head, opened, phase, parts⟩ start stop hstage hphase
    cases hstage
    cases hphase
    rfl

theorem blockSequence {items : List α}
    (h : ∀ item ∈ items, Builds true (kindsOf item) (holdsOf item)) :
    Builds true (.blockSequenceStart ::
        (items.flatMap (fun item => .blockEntry :: kindsOf item) ++ [.blockEnd])) fun node =>
      ∃ (head : NodeHead) (nodes : List Node), head.tag = none ∧ node = .sequence head nodes true ∧
        List.Forall₂ holdsOf items nodes := by
  intro tokens builder slot hkinds hawaited hslot hstage
  obtain ⟨start, stop, tokens, rfl, htokens⟩ := cons_of_kinds hkinds
  have hstart := (feed_blockStart hawaited (hslot.2 rfl) start stop).1
  obtain ⟨n, nodes, hfeed, hnodes⟩ := feed_blockItems items h tokens (builder.counted 1)
    ⟨⟨start, none, none⟩, start, .blockEntries, []⟩ htokens hstage rfl
  refine ⟨1 + n, _, ?_, ⟨start, none, none⟩, nodes, rfl, rfl, hnodes⟩
  rw [List.foldlM_cons, hstart, Outcome.ok_bind, hfeed, Builder.counted_counted]
  rfl

/-! ## Block mappings -/

/-- A builder behind the value of a key: what may follow in the mapping leads on from it as if the
value were in its place. If the value is left out, it only takes its place with this token. -/
def Behind (builder : Builder) (collection : OpenNode) (state : Builder) : Prop :=
  ∀ token : Token, token.kind = .key ∨ token.kind = .blockEnd →
    ∃ n, state.feed token = ((builder.counted n).inside collection none).feed token

theorem behind_none {builder : Builder} {collection : OpenNode} {state : Builder}
    (h : ∀ token : Token, token.kind = .key ∨ token.kind = .blockEnd →
      state.feed token = (builder.inside collection none).feed token) :
    Behind builder collection state := fun token htoken => ⟨0, h token htoken⟩

theorem behind_empty {builder : Builder} {collection : OpenNode}
    (hstage : builder.stage = .document) (hphase : collection.phase = .blockKeys) (mark : Mark) :
    Behind builder (collection.add (Builder.emptyNode mark))
      (builder.inside collection (some (.blockValue mark))) := by
  intro token htoken
  obtain ⟨kind, start, stop⟩ := token
  obtain ⟨head, opened, phase, parts⟩ := collection
  cases hphase
  obtain ⟨stage, awaited, stack, root, anchors, handles, steps⟩ := builder
  cases hstage
  rcases htoken with hkind | hkind
  · cases hkind
    exact ⟨1, rfl⟩
  · cases hkind
    exact ⟨1, rfl⟩

/-- **Tokens of these kinds build the value of a key**, of which something holds: they lead the
builder that awaits it behind it. -/
def OfValue (kinds : List Token.Kind) (holds : Node → Prop) : Prop :=
  ∀ (tokens : List Token) (builder : Builder) (pair : OpenNode) (mark : Mark),
    tokens.map Token.kind = kinds → builder.stage = .document → pair.phase = .blockKeys →
    ∃ n node next, tokens.foldlM Builder.feed (builder.inside pair (some (.blockValue mark)))
      = .ok next ∧ Behind (builder.counted n) (pair.add node) next ∧ holds node

theorem OfValue.imp {holds' : Node → Prop} (h : OfValue kinds holds)
    (himp : ∀ node, holds node → holds' node) : OfValue kinds holds' := by
  intro tokens builder pair mark hkinds hstage hphase
  obtain ⟨n, node, next, hfeed, hnext, hnode⟩ := h tokens builder pair mark hkinds hstage hphase
  exact ⟨n, node, next, hfeed, hnext, himp node hnode⟩

theorem ofValue (h : Builds true kinds holds) : OfValue kinds holds := by
  intro tokens builder pair mark hkinds hstage hphase
  obtain ⟨n, node, hfeed, hnode⟩ :=
    feed_part h (.blockValue mark) ⟨by simp, fun _ => rfl⟩ hkinds builder
    hstage pair (by simp [hphase])
  exact ⟨n, node, _, hfeed, behind_none fun _ _ => rfl, hnode⟩

/-- A value may be left out: there are no tokens, and the next one puts an empty node in
its place. -/
theorem ofValue_absent (h : ∀ mark, holds (Builder.emptyNode mark)) : OfValue [] holds := by
  intro tokens builder pair mark hkinds hstage hphase
  cases List.map_eq_nil_iff.mp hkinds
  exact ⟨0, _, _, rfl, behind_empty hstage hphase mark, h mark⟩

/-- The items behind the first one of a sequence at the column of its key. -/
theorem feed_alignedItems : ∀ items : List α,
    (∀ item ∈ items, Builds true (kindsOf item) (holdsOf item)) →
    ∀ (tokens : List Token) (builder : Builder) (collection : OpenNode),
    tokens.map Token.kind = items.flatMap (fun item => .blockEntry :: kindsOf item) →
    builder.stage = .document → collection.phase = .indentlessEntries →
    ∃ n nodes, tokens.foldlM Builder.feed (builder.inside collection none)
      = .ok ((builder.counted n).inside { collection with parts :=
        nodes.reverse ++ collection.parts } none) ∧
      List.Forall₂ holdsOf items nodes := by
  intro items
  induction items with
  | nil =>
    intro _ tokens builder collection hkinds _ _
    cases List.map_eq_nil_iff.mp hkinds
    exact ⟨0, [], rfl, .nil⟩
  | cons item items ih =>
    intro h tokens builder collection hkinds hstage hphase
    obtain ⟨hitem, hitems⟩ := List.forall_mem_cons.mp h
    rw [List.flatMap_cons, List.cons_append] at hkinds
    obtain ⟨start, stop, tokens, rfl, htokens⟩ := cons_of_kinds hkinds
    obtain ⟨first, others, rfl, hfirst, hothers⟩ := List.map_eq_append_iff.mp htokens
    have hdash : (builder.inside collection none).feed ⟨.blockEntry, start, stop⟩
        = .ok (builder.inside collection (some (.indentlessEntry stop))) := by
      obtain ⟨head, opened, phase, parts⟩ := collection
      cases hphase
      obtain ⟨stage, awaited, stack, root, anchors, handles, steps⟩ := builder
      cases hstage
      rfl
    obtain ⟨n₁, node, h₁, hnode⟩ :=
      feed_part hitem (.indentlessEntry stop) ⟨by simp, fun _ => rfl⟩ hfirst
      builder hstage collection (by simp [hphase])
    obtain ⟨n₂, nodes, h₂, hnodes⟩ := ih hitems others (builder.counted n₁)
      (collection.add node) hothers hstage hphase
    refine ⟨n₁ + n₂, node :: nodes, ?_, .cons hnode hnodes⟩
    rw [List.foldlM_cons, hdash, Outcome.ok_bind, List.foldlM_append, h₁, Outcome.ok_bind, h₂,
      Builder.counted_counted, List.reverse_cons, List.append_assoc]
    rfl

/-- What follows in a mapping first completes a sequence at the column of its keys. -/
theorem behind_aligned {builder : Builder} {pair : OpenNode} (hstage : builder.stage = .document)
    (hphase : pair.phase = .blockKeys) (head : NodeHead) (opened : Mark) (parts : List Node) :
    Behind builder (pair.add (.sequence head parts.reverse true))
      ({ builder with stack := pair :: builder.stack }.inside
        ⟨head, opened, .indentlessEntries, parts⟩ none) := by
  intro token htoken
  obtain ⟨kind, start, stop⟩ := token
  obtain ⟨outerHead, outerOpened, outerPhase, outerParts⟩ := pair
  cases hphase
  obtain ⟨stage, awaited, stack, root, anchors, handles, steps⟩ := builder
  cases hstage
  rcases htoken with hkind | hkind
  · cases hkind
    exact ⟨1, rfl⟩
  · cases hkind
    exact ⟨1, rfl⟩

/-- **A sequence at the column of its key** has no tokens for its beginning and its end: it begins
with its first dash, and what follows in the mapping ends it. -/
theorem ofValue_aligned {item : α} {items : List α}
    (h : ∀ other ∈ item :: items, Builds true (kindsOf other) (holdsOf other)) :
    OfValue ((item :: items).flatMap fun item => .blockEntry :: kindsOf item) fun node =>
      ∃ (head : NodeHead) (nodes : List Node), head.tag = none ∧ node = .sequence head nodes true ∧
        List.Forall₂ holdsOf (item :: items) nodes := by
  intro tokens builder pair mark hkinds hstage hphase
  obtain ⟨hitem, hitems⟩ := List.forall_mem_cons.mp h
  rw [List.flatMap_cons, List.cons_append] at hkinds
  obtain ⟨start, stop, tokens, rfl, htokens⟩ := cons_of_kinds hkinds
  obtain ⟨first, others, rfl, hfirst, hothers⟩ := List.map_eq_append_iff.mp htokens
  let sequence : OpenNode := ⟨⟨start, none, none⟩, start, .indentlessEntries, []⟩
  let within : Builder := { builder.counted 1 with stack := pair :: builder.stack }
  have hdash : (builder.inside pair (some (.blockValue mark))).feed ⟨.blockEntry, start, stop⟩
      = .ok (within.inside sequence (some (.indentlessEntry stop))) := rfl
  obtain ⟨n₁, node, h₁, hnode⟩ :=
    feed_part hitem (.indentlessEntry stop) ⟨by simp, fun _ => rfl⟩ hfirst
    within hstage sequence (by simp [sequence])
  obtain ⟨n₂, nodes, h₂, hnodes⟩ := feed_alignedItems items hitems others (within.counted n₁)
    (sequence.add node) hothers hstage rfl
  have hend : (⟨.blockEntry, start, stop⟩ :: (first ++ others)).foldlM Builder.feed
      (builder.inside pair (some (.blockValue mark)))
        = .ok (((within.counted n₁).counted n₂).inside
            ⟨⟨start, none, none⟩, start, .indentlessEntries, nodes.reverse ++ [node]⟩ none) := by
    rw [List.foldlM_cons, hdash, Outcome.ok_bind, List.foldlM_append, h₁, Outcome.ok_bind, h₂]
    rfl
  have hbehind : Behind (((builder.counted 1).counted n₁).counted n₂)
      (pair.add (.sequence ⟨start, none, none⟩ (nodes.reverse ++ [node]).reverse true))
      (((within.counted n₁).counted n₂).inside
        ⟨⟨start, none, none⟩, start, .indentlessEntries, nodes.reverse ++ [node]⟩ none) :=
    @behind_aligned (((builder.counted 1).counted n₁).counted n₂) pair hstage hphase _ _ _
  rw [List.reverse_append, List.reverse_reverse] at hbehind
  refine ⟨1 + n₁ + n₂, _, _, hend, ?_, ⟨start, none, none⟩, node :: nodes, rfl, rfl,
    .cons hnode hnodes⟩
  rw [← Builder.counted_counted, ← Builder.counted_counted]
  exact hbehind

/-- The key and the value of a pair are two more parts of a block mapping. -/
theorem feed_blockPair {text : List Char} {holds : Node → Prop} (h : OfValue kinds holds)
    (tokens : List Token)
    (hkinds : tokens.map Token.kind = .key :: .scalar text style :: .value :: kinds)
    (builder : Builder) (hstage : builder.stage = .document) (collection : OpenNode)
    (hphase : collection.phase = .blockKeys) {state : Builder}
    (hstate : Behind builder collection state) :
    ∃ n head node next, tokens.foldlM Builder.feed state = .ok next ∧
      Behind (builder.counted n) ((collection.add (.scalar head text style)).add node) next ∧
      head.tag = none ∧ holds node := by
  obtain ⟨start, stop, tokens, rfl, hkey⟩ := cons_of_kinds hkinds
  obtain ⟨start', stop', tokens, rfl, hscalar⟩ := cons_of_kinds hkey
  obtain ⟨start'', stop'', tokens, rfl, htokens⟩ := cons_of_kinds hscalar
  obtain ⟨n₁, hfirst⟩ := hstate ⟨.key, start, stop⟩ (.inl rfl)
  obtain ⟨head, opened, phase, parts⟩ := collection
  cases hphase
  have hkey :
      ((builder.counted n₁).inside ⟨head, opened, .blockKeys, parts⟩ none).feed ⟨.key, start, stop⟩
        = .ok ((builder.counted n₁).inside ⟨head, opened, .blockValues, parts⟩
            (some (.blockKey stop))) := by
    obtain ⟨stage, awaited, stack, root, anchors, handles, steps⟩ := builder
    cases hstage
    rfl
  have hscalar :
      ((builder.counted n₁).inside ⟨head, opened, .blockValues, parts⟩
        (some (.blockKey stop))).feed ⟨.scalar text style, start', stop'⟩
        = .ok (((builder.counted n₁).counted 1).inside
            ⟨head, opened, .blockValues, .scalar ⟨start', none, none⟩ text style :: parts⟩
            none) := rfl
  have hvalue : ∀ builder : Builder, builder.stage = .document → ∀ parts,
      (builder.inside ⟨head, opened, .blockValues, parts⟩ none).feed ⟨.value, start'', stop''⟩
        = .ok (builder.inside ⟨head, opened, .blockKeys, parts⟩ (some (.blockValue stop''))) := by
    intro builder hstage parts
    obtain ⟨stage, awaited, stack, root, anchors, handles, steps⟩ := builder
    cases hstage
    rfl
  -- Up to the colon nothing depends on the value, nor on whether there is one.
  let pair : OpenNode :=
    ⟨head, opened, .blockKeys, .scalar ⟨start', none, none⟩ text style :: parts⟩
  have hbefore :
      (⟨.key, start, stop⟩ :: ⟨.scalar text style, start', stop'⟩ ::
        ⟨.value, start'', stop''⟩ :: tokens).foldlM Builder.feed state
        = tokens.foldlM Builder.feed
            ((builder.counted (n₁ + 1)).inside pair (some (.blockValue stop''))) := by
    rw [List.foldlM_cons, hfirst, hkey, Outcome.ok_bind, List.foldlM_cons, hscalar, Outcome.ok_bind,
      List.foldlM_cons, hvalue ((builder.counted n₁).counted 1) hstage, Outcome.ok_bind,
      Builder.counted_counted]
  obtain ⟨n₂, node, next, hfeed, hnext, hnode⟩ :=
    h tokens (builder.counted (n₁ + 1)) pair stop'' htokens
    hstage rfl
  refine ⟨n₁ + 1 + n₂, ⟨start', none, none⟩, node, next, ?_, ?_, rfl, hnode⟩
  · rw [hbefore, hfeed]
  · rw [← Builder.counted_counted]
    exact hnext

/-- The members of a block mapping and its end. -/
theorem feed_blockMembers : ∀ members : List α,
    (∀ member ∈ members, OfValue (kindsOf member) (holdsOf member)) →
    (∀ member ∈ members, style = .plain → Meaning.ofPlain (textOf member) = .string) →
    ∀ (tokens : List Token) (builder : Builder) (collection : OpenNode) (state : Builder),
    tokens.map Token.kind = members.flatMap (pairKinds textOf style kindsOf) ++ [.blockEnd] →
    builder.stage = .document → collection.phase = .blockKeys → Behind builder collection state →
    ∃ n parts named, tokens.foldlM Builder.feed state
      = .ok ((builder.counted n).place
          (.mapping collection.head (collection.parts.reverse ++ parts) true)) ∧
      Node.Labels parts named ∧ List.Forall₂ (HoldsNamed textOf holdsOf) members named := by
  intro members
  induction members with
  | nil =>
    intro _ _ tokens builder collection state hkinds hstage hphase hstate
    obtain ⟨start, stop, tokens, rfl, htokens⟩ := cons_of_kinds hkinds
    cases List.map_eq_nil_iff.mp htokens
    -- The last value may have been left out, and then the end of the mapping puts it in its place.
    obtain ⟨n, hend⟩ := hstate ⟨.blockEnd, start, stop⟩ (.inr rfl)
    have hclose : ((builder.counted n).inside collection none).feed ⟨.blockEnd, start, stop⟩
        = .ok (((builder.counted n).counted 1).place
          (.mapping collection.head collection.parts.reverse true)) := by
      obtain ⟨head, opened, phase, parts⟩ := collection
      cases hphase
      obtain ⟨stage, awaited, stack, root, anchors, handles, steps⟩ := builder
      cases hstage
      rfl
    refine ⟨n + 1, [], [], ?_, .nil, .nil⟩
    rw [List.append_nil, List.foldlM_cons, hend, hclose, Builder.counted_counted]
    rfl
  | cons member members ih =>
    intro h hstyle tokens builder collection state hkinds hstage hphase hstate
    obtain ⟨hmember, hmembers⟩ := List.forall_mem_cons.mp h
    obtain ⟨hstyle, hstyles⟩ := List.forall_mem_cons.mp hstyle
    rw [List.flatMap_cons, List.append_assoc] at hkinds
    obtain ⟨first, others, rfl, hfirst, hothers⟩ := List.map_eq_append_iff.mp hkinds
    obtain ⟨n₁, head, node, next, h₁, hnext, htag, hnode⟩ :=
      feed_blockPair hmember first hfirst builder hstage collection hphase hstate
    obtain ⟨n₂, parts, named, h₂, hlabels, hnamed⟩ := ih hmembers hstyles others
      (builder.counted n₁) ((collection.add (.scalar head (textOf member) style)).add node) next
      hothers hstage hphase hnext
    refine ⟨n₁ + n₂, .scalar head (textOf member) style :: node :: parts,
      (String.ofList (textOf member), node) :: named, ?_, .cons htag hstyle hlabels,
      .cons ⟨rfl, hnode⟩ hnamed⟩
    rw [List.foldlM_append, h₁, Outcome.ok_bind, h₂, Builder.counted_counted]
    show Except.ok (Builder.place _ (.mapping collection.head
      ((node :: .scalar head (textOf member) style :: collection.parts).reverse ++ parts) true)) = _
    rw [List.reverse_cons, List.reverse_cons, List.append_assoc, List.append_assoc]
    rfl

theorem blockMapping {members : List α}
    (h : ∀ member ∈ members, OfValue (kindsOf member) (holdsOf member))
    (hstyle : ∀ member ∈ members, style = .plain → Meaning.ofPlain (textOf member) = .string) :
    Builds true (.blockMappingStart ::
        (members.flatMap (pairKinds textOf style kindsOf) ++ [.blockEnd])) fun node =>
      ∃ (head : NodeHead) (parts : List Node) (named : List (String × Node)), head.tag = none ∧
        node = .mapping head parts true ∧ Node.Labels parts named ∧
        List.Forall₂ (HoldsNamed textOf holdsOf) members named := by
  intro tokens builder slot hkinds hawaited hslot hstage
  obtain ⟨start, stop, tokens, rfl, htokens⟩ := cons_of_kinds hkinds
  have hstart := (feed_blockStart hawaited (hslot.2 rfl) start stop).2
  obtain ⟨n, parts, named, hfeed, hlabels, hnamed⟩ := feed_blockMembers members h hstyle tokens
    (builder.counted 1) ⟨⟨start, none, none⟩, start, .blockKeys, []⟩ _ htokens hstage rfl
    (behind_none fun _ _ => rfl)
  refine ⟨1 + n, _, ?_, ⟨start, none, none⟩, parts, named, rfl, rfl, hlabels, hnamed⟩
  rw [List.foldlM_cons, hstart, Outcome.ok_bind, hfeed, Builder.counted_counted]
  rfl

end Builds

end Provisioning.Yaml
