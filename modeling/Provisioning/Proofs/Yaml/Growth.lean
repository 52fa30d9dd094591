import Provisioning.Outcome
import Provisioning.Yaml.Node.Builder

/-!
# How the tree of a document grows

A tree that is still being built only grows at its end: parts are added to the innermost open
collection, and what was there before stays as it is. `Node.Begins` says that some nodes are what
a longer list of nodes was at an earlier time, and `Builder.feed_keeps` that no token changes what
was built so far, whatever the token is. So the beginning of a document is known from its first
tokens, although the others are not.
-/

namespace Provisioning.Yaml

open Provisioning.Outcome (bind_eq_ok)

namespace Node

/-- **Some nodes are the beginning of others.** All but the last are the same, and the last one is
the same too or an open collection, which has grown. -/
inductive Begins : List Node → List Node → Prop where
  | nil {nodes : List Node} : Begins [] nodes
  | cons {node second : Node} {nodes grown : List Node} :
      Begins (second :: nodes) grown → Begins (node :: second :: nodes) (node :: grown)
  | same {node : Node} {further : List Node} : Begins [node] (node :: further)
  | sequence {head : NodeHead} {items grown further : List Node} {closed : Bool} :
      Begins items grown → Begins [.sequence head items false]
        (.sequence head grown closed :: further)
  | mapping {head : NodeHead} {parts grown further : List Node} {closed : Bool} :
      Begins parts grown → Begins [.mapping head parts false]
        (.mapping head grown closed :: further)

namespace Begins

variable {node : Node} {nodes grown later : List Node}

theorem append (nodes further : List Node) : Begins nodes (nodes ++ further) := by
  induction nodes with
  | nil => exact .nil
  | cons node nodes ih =>
    cases nodes with
    | nil => exact .same
    | cons second nodes => exact .cons ih

theorem refl (nodes : List Node) : Begins nodes nodes := by
  have h := append nodes []
  rw [List.append_nil] at h
  exact h

/-- The first node alone. -/
theorem first (h : Begins (node :: nodes) later) : Begins [node] later := by
  cases h with
  | cons _ => exact .same
  | same => exact .same
  | sequence h => exact .sequence h
  | mapping h => exact .mapping h

theorem trans (h : Begins nodes grown) :
    ∀ {later : List Node}, Begins grown later → Begins nodes later := by
  -- At each level the last node of the earlier list is followed through both lists.
  induction h with
  | nil => intro later _; exact .nil
  | cons hrest ih =>
    intro later hlater
    cases hlater with
    | cons hlater => exact .cons (ih hlater)
    | same => exact nomatch hrest
    | sequence _ => exact nomatch hrest
    | mapping _ => exact nomatch hrest
  | same => intro later hlater; exact hlater.first
  | sequence hitems ih =>
    intro later hlater
    cases hlater.first with
    | same => exact .sequence hitems
    | sequence hgrown => exact .sequence (ih hgrown)
  | mapping hparts ih =>
    intro later hlater
    cases hlater.first with
    | same => exact .mapping hparts
    | mapping hgrown => exact .mapping (ih hgrown)

/-- Growth at the end of a list. -/
theorem atEnd (nodes : List Node) (h : Begins [node] later) :
    Begins (nodes ++ [node]) (nodes ++ later) := by
  induction nodes with
  | nil => exact h
  | cons first nodes ih =>
    cases nodes with
    | nil => exact .cons ih
    | cons second nodes => exact .cons ih

/-- All but the last are the same. -/
theorem behind : ∀ {front : List Node}, Begins (front ++ node :: nodes) later →
    ∃ others, later = front ++ others ∧ Begins (node :: nodes) others := by
  intro front
  induction front generalizing later with
  | nil => exact fun h => ⟨later, rfl, h⟩
  | cons first front ih =>
    intro h
    obtain ⟨rest, rfl, hrest⟩ : ∃ rest, later = first :: rest ∧
        Begins (front ++ node :: nodes) rest := by
      cases front with
      | nil =>
        cases h with
        | cons h => exact ⟨_, rfl, h⟩
      | cons second front =>
        cases h with
        | cons h => exact ⟨_, rfl, h⟩
    obtain ⟨others, rfl, hothers⟩ := ih hrest
    exact ⟨others, rfl, hothers⟩

theorem ofSequence {head : NodeHead} {items : List Node}
    (h : Begins [.sequence head items false] later) :
    ∃ grown closed further, later = .sequence head grown closed :: further ∧
      Begins items grown := by
  cases h with
  | same => exact ⟨items, false, _, rfl, .refl items⟩
  | sequence h => exact ⟨_, _, _, rfl, h⟩

theorem ofMapping {head : NodeHead} {parts : List Node}
    (h : Begins [.mapping head parts false] later) :
    ∃ grown closed further, later = .mapping head grown closed :: further ∧ Begins parts grown := by
  cases h with
  | same => exact ⟨parts, false, _, rfl, .refl parts⟩
  | mapping h => exact ⟨_, _, _, rfl, h⟩

theorem ofScalar {head : NodeHead} {text : List Char} {style : ScalarStyle}
    (h : Begins [.scalar head text style] later) :
      ∃ further, later = .scalar head text style :: further := by
  cases h with
  | same => exact ⟨_, rfl⟩

end Begins

end Node

open Node (Begins)

namespace OpenNode

variable {node grown : Node}

/-- A collection is closed in the end, and may have more parts then. -/
theorem begins_toNode (collection grown : OpenNode) (hhead : grown.head = collection.head)
    (hphase : grown.phase.ofMapping = collection.phase.ofMapping)
    (h : Begins collection.parts.reverse grown.parts.reverse) (closed : Bool) :
    Begins [collection.toNode false] [grown.toNode closed] := by
  unfold toNode
  rw [hphase, hhead]
  by_cases hmapping : collection.phase.ofMapping
  · rw [if_pos hmapping, if_pos hmapping]
    exact .mapping h
  · rw [if_neg hmapping, if_neg hmapping]
    exact .sequence h

theorem begins_closed (collection : OpenNode) :
    Begins [collection.toNode false] [collection.toNode true] :=
  begins_toNode collection collection rfl rfl (.refl _) true

theorem begins_phase {collection : OpenNode} {phase : Phase}
    (h : phase.ofMapping = collection.phase.ofMapping) :
    Begins [collection.toNode false] [({ collection with phase } : OpenNode).toNode false] :=
  begins_toNode collection { collection with phase } rfl h (.refl _) false

theorem begins_add (collection : OpenNode) (node : Node) :
    Begins [collection.toNode false] [(collection.add node).toNode false] := by
  refine begins_toNode collection (collection.add node) rfl rfl ?_ false
  show Begins collection.parts.reverse (node :: collection.parts).reverse
  rw [List.reverse_cons]
  exact .append _ _

theorem ofMapping_behindValue (phase : Phase) : phase.behindValue.ofMapping = phase.ofMapping := by
  cases phase <;> rfl

theorem begins_withoutValue (collection : OpenNode) :
    Begins [collection.toNode false] [collection.withoutValue.toNode false] :=
  begins_phase (ofMapping_behindValue _)

/-- A collection grows with its last part. -/
theorem begins_last (collection : OpenNode) (h : Begins [node] [grown]) :
    Begins [(collection.add node).toNode false] [(collection.add grown).toNode false] := by
  have hparts :
      Begins (collection.add node).parts.reverse (collection.add grown).parts.reverse := by
    show Begins (node :: collection.parts).reverse (grown :: collection.parts).reverse
    rw [List.reverse_cons, List.reverse_cons]
    exact .atEnd _ h
  exact begins_toNode (collection.add node) (collection.add grown) rfl rfl hparts false

end OpenNode

namespace Builder

variable {node grown : Node} {tree : List Node} {builder : Builder} {token : Token}
  {stack : List OpenNode} {collection : OpenNode}

/-- The tree grows with what is still to be added to it. -/
theorem begins_cut_some (h : Begins [node] [grown]) : ∀ stack : List OpenNode,
    Begins (cut (some node) stack).toList (cut (some grown) stack).toList := by
  intro stack
  induction stack generalizing node grown with
  | nil => exact h
  | cons collection outer ih => exact ih (collection.begins_last h)

theorem begins_cut_none (node : Node) : ∀ stack : List OpenNode,
    Begins (cut none stack).toList (cut (some node) stack).toList
  | [] => .nil
  | collection :: outer => begins_cut_some (collection.begins_add node) outer

/-- The innermost collection has grown. -/
theorem begins_cut_cons {first : OpenNode}
    (h : Begins [collection.toNode false] [first.toNode false])
    (outer : List OpenNode) :
    Begins (cut none (collection :: outer)).toList (cut none (first :: outer)).toList :=
  begins_cut_some h outer

/-- A pair of a flow mapping is announced inside a mapping only. -/
def PairsInside (awaited : Option Awaited) (stack : List OpenNode) : Prop :=
  ∀ announced ∈ awaited, announced.slot = .flowPair → ∀ collection ∈ stack.head?,
    collection.phase.ofMapping = true

/-- **A tree was built so far**: it is the beginning of the root, or of what the open collections
are cut short. -/
inductive Holds (tree : List Node) (builder : Builder) : Prop where
  | within : builder.stage = .document → builder.root = none →
      PairsInside builder.awaited builder.stack →
      Begins tree (cut none builder.stack).toList → Holds tree builder
  | behind : builder.awaited = none → builder.stack = [] →
      (∀ any saw, builder.stage ≠ .directives any saw) →
      Begins tree builder.root.toList → Holds tree builder

/-- A token was taken and a tree kept, or the token was refused within the document. -/
def Keeps (tree : List Node) : Except BuildStop Builder → Prop
  | .ok builder => Holds tree builder
  | .error stop => stop.builder.stage = .document

theorem attach_begins : ∀ (stack : List OpenNode) (node : Node),
    (∃ root, (attach node stack).2 = ([], some root) ∧
      Begins (cut (some node) stack).toList [root]) ∨
      ∃ left, (attach node stack).2 = (left, none) ∧
        Begins (cut (some node) stack).toList (cut none left).toList := by
  intro stack
  induction stack with
  | nil => exact fun node => .inl ⟨node, rfl, .same⟩
  | cons collection outer ih =>
    intro node
    by_cases hpair : collection.phase == .pairEnd
    · have hclosed := begins_cut_some (collection.add node).begins_closed outer
      rw [attach, if_pos hpair]
      rcases ih ((collection.add node).toNode true) with ⟨root, hroot, hbegins⟩
        | ⟨left, hleft, hbegins⟩
      · exact .inl ⟨root, hroot, hclosed.trans hbegins⟩
      · exact .inr ⟨left, hleft, hclosed.trans hbegins⟩
    · rw [attach, if_neg hpair]
      exact .inr ⟨_, rfl, .refl _⟩

theorem place_holds (hstage : builder.stage = .document) (hroot : builder.root = none)
    (h : Begins tree (cut (some node) builder.stack).toList) : Holds tree (builder.place node) := by
  have hplace : builder.place node = { builder with
      awaited := none, stack := (attach node builder.stack).2.1
      root := (attach node builder.stack).2.2.or builder.root
      steps := builder.steps + (attach node builder.stack).1 } := rfl
  rw [hplace]
  rcases attach_begins builder.stack node with ⟨root, heq, hbegins⟩ | ⟨left, heq, hbegins⟩
  · rw [heq]
    refine .behind rfl rfl ?_ (h.trans hbegins)
    intro any saw
    show builder.stage ≠ _
    rw [hstage]
    exact nofun
  · rw [heq]
    exact .within hstage hroot (fun _ hmem => nomatch hmem) (h.trans hbegins)

/-- A node is opened inside the tree. -/
theorem openNode_holds (hstage : builder.stage = .document) (hroot : builder.root = none)
    (h : Begins tree (cut none builder.stack).toList) {slot : Option Slot}
    (hpair : slot = some .flowPair → collection.phase.ofMapping = true) :
    Holds tree (builder.openNode collection slot) := by
  refine .within hstage hroot ?_ (h.trans (begins_cut_none (collection.toNode false) builder.stack))
  intro announced hannounced hslot first hfirst
  obtain ⟨announcedSlot, hsome, rfl⟩ := Option.map_eq_some_iff.mp hannounced
  cases hfirst
  rw [hsome] at hpair
  exact hpair (congrArg some hslot)

theorem endDocument_holds (hawaited : builder.awaited = none) (hstack : builder.stack = [])
    (h : Begins tree builder.root.toList)
    (token : Token) : Holds tree (builder.endDocument token) := by
  unfold endDocument
  split
  · exact .behind hawaited hstack nofun h
  · exact .behind hawaited hstack nofun h
  · exact .behind hawaited hstack nofun h

theorem goOn_holds {phase : Phase} {outer : List OpenNode} (hstage : builder.stage = .document)
    (hroot : builder.root = none) (hstack : builder.stack = collection :: outer)
    (hphase : phase.ofMapping = collection.phase.ofMapping)
    (h : Begins tree (cut none (collection :: outer)).toList) {slot : Slot}
    (hpair : slot = .flowPair → phase.ofMapping = true) : Holds tree (builder.goOn phase slot) := by
  have hgo : builder.goOn phase slot = { builder with
      awaited := some (.inSlot slot), stack := { collection with phase } :: outer } := by
    unfold goOn inPhase await
    rw [hstack]
  rw [hgo]
  refine .within hstage hroot ?_ (h.trans (begins_cut_cons (OpenNode.begins_phase hphase) outer))
  intro announced hannounced hslot first hfirst
  cases hannounced
  cases hfirst
  exact hpair hslot

theorem close_holds {outer : List OpenNode} (hstage : builder.stage = .document)
    (hroot : builder.root = none) (h : Begins tree (cut none (collection :: outer)).toList) :
    Holds tree (builder.close collection outer) := by
  have hgrown := h.trans (begins_cut_some collection.begins_closed outer)
  have hplaced :
      Holds tree (place { builder.count with stack := outer } (collection.toNode true)) :=
    place_holds hstage hroot hgrown
  exact hplaced

/-- A token where no node is announced. -/
theorem resume_keeps (hstage : builder.stage = .document) (hroot : builder.root = none) :
    ∀ (done : Option Node), Begins tree (cut done stack).toList →
      Keeps tree (resume builder token done stack) := by
  induction stack generalizing builder with
  | nil =>
    intro done h
    rw [resume]
    refine endDocument_holds rfl rfl ?_ token
    rw [hroot, Option.or_none]
    exact h
  | cons collection outer ih =>
    intro done h
    rw [resume]
    -- The collection as it is in front of the token: with the complete node and the value left out.
    obtain ⟨first, counted, heq, hgrown, hcounted⟩ : ∃ first counted,
        (if collection.phase.leavesValueOut token.kind then
          (((collection.add? done).add (emptyNode token.start)).withoutValue, builder.count)
        else (collection.add? done, builder)) = (first, counted) ∧
        Begins [(collection.add? done).toNode false] [first.toNode false] ∧
        counted.stage = .document ∧ counted.root = none := by
      by_cases hout : collection.phase.leavesValueOut token.kind
      · rw [if_pos hout]
        refine ⟨_, _, rfl, ?_, hstage, hroot⟩
        exact ((collection.add? done).begins_add _).trans (OpenNode.begins_withoutValue _)
      · rw [if_neg hout]
        exact ⟨_, _, rfl, .refl _, hstage, hroot⟩
    rw [heq]
    obtain ⟨hstage', hroot'⟩ := hcounted
    have hfirst : Begins tree (cut none (first :: outer)).toList :=
      h.trans (begins_cut_some hgrown outer)
    dsimp only
    -- What happens now depends on the phase and the token alone.
    generalize hnow : ({ counted with awaited := none, stack := first :: outer } : Builder) = now
    obtain ⟨hstage', hroot', hstack'⟩ : now.stage = .document ∧ now.root = none ∧
        now.stack = first :: outer := by
      rw [← hnow]
      exact ⟨hstage', hroot', rfl⟩
    have hgoOn : ∀ (phase : Phase) (slot : Slot), phase.ofMapping = first.phase.ofMapping →
        (slot = .flowPair → phase.ofMapping = true) → Holds tree (now.goOn phase slot) :=
      fun phase slot hphase hpair => goOn_holds hstage' hroot' hstack' hphase hfirst hpair
    have hclose : Holds tree (now.close first outer) := close_holds hstage' hroot' hfirst
    have hcount : now.count.stage = .document := hstage'
    have hresume : Keeps tree (resume now.count token (some (first.toNode true)) outer) :=
      ih hcount hroot' _ (hfirst.trans (begins_cut_some first.begins_closed outer))
    split
    all_goals first
      | exact hclose
      | exact hresume
      | exact hstage'
      | exact hgoOn _ _ (by simp only [*, Phase.ofMapping]) (by simp [Phase.ofMapping])

theorem missNode_keeps {awaited : Awaited} {head : NodeHead} (hstage : builder.stage = .document)
    (hroot : builder.root = none) (h : Begins tree (cut none builder.stack).toList) :
    Keeps tree (builder.missNode awaited head token) := by
  unfold missNode
  split
  · have hcount : builder.count.stage = .document := hstage
    exact resume_keeps hcount hroot _ (h.trans (begins_cut_none _ _))
  · exact hstage

theorem beginNode_keeps {awaited : Awaited} (hstage : builder.stage = .document)
    (hroot : builder.root = none) (h : Begins tree (cut none builder.stack).toList) :
    Keeps tree (builder.beginNode awaited token) := by
  unfold beginNode
  dsimp only
  cases htag : builder.tagOf awaited (awaited.start.getD token.start) with
  | error stop =>
    unfold tagOf at htag
    split at htag
    · cases htag
    · split at htag
      · cases htag
      · cases htag
        exact hstage
  | ok tag =>
    obtain ⟨anchor, named, hnamed, hstage, hroot, hstack⟩ : ∃ anchor named,
        builder.register awaited.anchor = (anchor, named) ∧ named.stage = .document ∧
          named.root = none ∧ named.stack = builder.stack := by
      unfold register
      split
      · exact ⟨_, _, rfl, hstage, hroot, rfl⟩
      · exact ⟨_, _, rfl, hstage, hroot, rfl⟩
    rw [Outcome.ok_bind, hnamed]
    rw [← hstack] at h
    dsimp only
    split
    · exact place_holds hstage hroot (h.trans (begins_cut_none _ _))
    · exact openNode_holds hstage hroot h (by simp [Phase.ofMapping])
    · exact openNode_holds hstage hroot h (by simp [Phase.ofMapping])
    · split
      · exact openNode_holds hstage hroot h (by simp [Phase.ofMapping])
      · exact missNode_keeps hstage hroot h
    · split
      · exact openNode_holds hstage hroot h (by simp [Phase.ofMapping])
      · exact missNode_keeps hstage hroot h
    · split
      · exact openNode_holds hstage hroot h (by simp [Phase.ofMapping])
      · exact missNode_keeps hstage hroot h
    · exact missNode_keeps hstage hroot h

theorem takeNode_keeps {awaited : Awaited} (hstage : builder.stage = .document)
    (hroot : builder.root = none) (hpair : PairsInside (some awaited) builder.stack)
    (h : Begins tree (cut none builder.stack).toList) :
      Keeps tree (builder.takeNode awaited token) := by
  -- Properties do not change where the node is announced.
  have hslot : ∀ announced : Awaited, announced.slot = awaited.slot →
      PairsInside (some announced) builder.stack := by
    intro announced heq other hother hflow
    cases hother
    exact hpair awaited rfl (heq ▸ hflow)
  unfold takeNode
  dsimp only
  split
  · exact .within hstage hroot (hslot _ rfl) h
  · exact .within hstage hroot (hslot _ rfl) h
  · split
    · exact place_holds hstage hroot (h.trans (begins_cut_none _ _))
    · exact hstage
  · exact beginNode_keeps hstage hroot h

/-- In front of a pair only the phase of the mapping changes. -/
theorem inPhase_of {phase : Phase} (hpair : PairsInside (some (.inSlot .flowPair)) builder.stack)
    (hphase : phase.ofMapping = true) :
    (builder.inPhase phase).stage = builder.stage ∧ (builder.inPhase phase).root = builder.root ∧
      Begins (cut none builder.stack).toList (cut none (builder.inPhase phase).stack).toList ∧
      PairsInside (some (.inSlot .flowPair)) (builder.inPhase phase).stack := by
  unfold inPhase
  cases hstack : builder.stack with
  | nil =>
    refine ⟨rfl, rfl, .nil, ?_⟩
    rw [hstack] at hpair ⊢
    exact hpair
  | cons collection outer =>
    rw [hstack] at hpair
    have hmapping : collection.phase.ofMapping = true := hpair _ rfl rfl collection rfl
    refine ⟨rfl, rfl, begins_cut_cons (OpenNode.begins_phase (hphase.trans hmapping.symm)) outer,
      ?_⟩
    intro _ _ _ first hfirst
    cases hfirst
    exact hphase

theorem takeSlot_keeps {slot : Slot} (hstage : builder.stage = .document)
    (hroot : builder.root = none) (hpair : PairsInside (some (.inSlot slot)) builder.stack)
    (h : Begins tree (cut none builder.stack).toList) :
      Keeps tree (builder.takeSlot slot token) := by
  have hempty : ∀ mark, Begins tree (cut (some (emptyNode mark)) builder.stack).toList :=
    fun mark => h.trans (begins_cut_none _ _)
  have hcount : builder.count.stage = .document := hstage
  unfold takeSlot
  split
  · exact resume_keeps hcount hroot _ (hempty _)
  · split
    · exact resume_keeps hstage hroot _ h
    · exact openNode_holds hstage hroot h (by simp)
    · exact place_holds hstage hroot (hempty _)
    · exact place_holds hstage hroot (hempty _)
    · exact place_holds hstage hroot (hempty _)
    · exact resume_keeps hstage hroot _ h
    · obtain ⟨hstage', hroot', hbegins, _⟩ :=
        inPhase_of hpair (show Phase.flowValues.ofMapping = true from rfl)
      refine .within (hstage'.trans hstage) (hroot'.trans hroot) ?_ (h.trans hbegins)
      intro announced hannounced hslot
      cases hannounced
      cases hslot
    · obtain ⟨hstage', hroot', hbegins, hinside⟩ :=
        inPhase_of hpair (show Phase.flowNoValue.ofMapping = true from rfl)
      exact takeNode_keeps (hstage'.trans hstage) (hroot'.trans hroot) hinside (h.trans hbegins)
    · exact takeNode_keeps hstage hroot hpair h

/-- **No token changes what was built so far.** -/
theorem feed_keeps (h : Holds tree builder) (token : Token) : Keeps tree (builder.feed token) := by
  cases h with
  | within hstage hroot hpair htree =>
    unfold feed
    split
    · rename_i hawaited
      rw [hawaited] at hpair
      exact takeSlot_keeps hstage hroot hpair htree
    · rename_i hawaited
      rw [hawaited] at hpair
      exact takeNode_keeps hstage hroot hpair htree
    · rename_i hdirectives
      rw [hstage] at hdirectives
      cases hdirectives
    · exact resume_keeps hstage hroot none htree
    all_goals
      rename_i hother
      rw [hstage] at hother
      cases hother
  | behind hawaited hstack hstage hroot =>
    unfold feed
    split
    · rename_i hsome
      rw [hawaited] at hsome
      cases hsome
    · rename_i hsome
      rw [hawaited] at hsome
      cases hsome
    · rename_i hdirectives
      exact absurd hdirectives (hstage _ _)
    · rw [hstack, resume]
      refine endDocument_holds rfl rfl ?_ token
      exact hroot
    · exact endDocument_holds hawaited hstack hroot token
    · exact .behind hawaited hstack hstage hroot
    · exact .behind hawaited hstack hstage hroot

end Builder

end Provisioning.Yaml
