import Provisioning.Outcome
import Provisioning.Yaml.Node.Builder

/-!
# Around the value of a key

What each token does in front of the value of a key of the only open mapping, and behind it, as far
as it is not refused. In front of the value properties may come, then a scalar or a collection; a
key leaves the value out. Behind a scalar only a key or the end of the mapping may follow. What is
known of the parts in front of the value is a parameter, `front`, and includes the key.
-/

namespace Provisioning.Yaml.Builder

open Provisioning.Outcome (bind_eq_ok)

/-- The value of a key is awaited, perhaps with properties read of it, and there are no
anchors yet. -/
inductive ValueDue (front : List Node → Prop) (builder : Builder) : Prop where
  | due {head : NodeHead} {opened mark : Mark} {parts : List Node} {start : Option Mark}
      {anchor : Option (List Char)} {tag : Option (List Char × List UInt8 × Mark)} :
      front parts → builder.stage = .document →
        builder.stack = [⟨head, opened, .blockKeys, parts⟩] →
      builder.anchors = [] → builder.awaited = some ⟨.blockValue mark, start, anchor, tag⟩ →
      (start = none → anchor = none ∧ tag = none) → ValueDue front builder

/-- A scalar is the value of a key, and the next key or the end of the mapping follows. -/
inductive ValueRead (front : List Node → Prop) (text : List Char) (builder : Builder) : Prop where
  | read {head scalarHead : NodeHead} {opened : Mark} {parts : List Node} {style : ScalarStyle} :
      front parts → builder.stage = .document →
      builder.stack = [⟨head, opened, .blockKeys, .scalar scalarHead text style :: parts⟩] →
      builder.awaited = none → ValueRead front text builder

/-- A scalar is the value of a key, and another key is awaited. -/
inductive NextKey (front : List Node → Prop) (text : List Char) (builder : Builder) : Prop where
  | awaited {head scalarHead : NodeHead} {opened mark : Mark} {parts : List Node}
      {style : ScalarStyle} : front parts → builder.stage = .document →
      builder.stack = [⟨head, opened, .blockValues, .scalar scalarHead text style :: parts⟩] →
      builder.awaited = some (.inSlot (.blockKey mark)) → NextKey front text builder

/-- A collection is the value of a key. -/
inductive ValueOpen (front : List Node → Prop) (builder : Builder) : Prop where
  | opened {collection : OpenNode} {head : NodeHead} {opened : Mark} {parts : List Node} :
      front parts → builder.stack = [collection, ⟨head, opened, .blockKeys, parts⟩] →
        ValueOpen front builder

variable {front : List Node → Prop} {text : List Char} {builder next : Builder} {token : Token}
  {collection : OpenNode} {outer : List OpenNode} {done : Option Node} {awaited : Awaited}

/-! ## Where no node is awaited -/

/-- Inside a mapping nothing but a key or its end may follow a value. -/
theorem resume_refused (hphase : collection.phase = .blockKeys) (hkey : token.kind ≠ .key)
    (hend : token.kind ≠ .blockEnd) :
    resume builder token done (collection :: outer) ≠ .ok next := by
  obtain ⟨head, opened, phase, parts⟩ := collection
  cases hphase
  obtain ⟨kind, start, stop⟩ := token
  intro h
  cases done <;> cases kind <;> first | exact hkey rfl | exact hend rfl | cases h

theorem resume_key (hphase : collection.phase = .blockKeys) (hkind : token.kind = .key)
    (h : resume builder token done (collection :: outer) = .ok next) :
    next.stage = builder.stage ∧ next.awaited = some (.inSlot (.blockKey token.stop)) ∧
      next.stack = { collection.add? done with phase := .blockValues } :: outer := by
  obtain ⟨head, opened, phase, parts⟩ := collection
  cases hphase
  obtain ⟨kind, start, stop⟩ := token
  cases hkind
  cases done with
  | none =>
    cases h
    exact ⟨rfl, rfl, rfl⟩
  | some node =>
    cases h
    exact ⟨rfl, rfl, rfl⟩

/-! ## Where a node is awaited -/

theorem register_same (name : Option (List Char)) :
    (builder.register name).2.stage = builder.stage ∧
      (builder.register name).2.stack = builder.stack := by
  cases name <;> exact ⟨rfl, rfl⟩

/-- Does a token of this kind begin no node in block context, whatever it may be the end of? -/
def MissesNode : Token.Kind → Prop
  | .key | .flowSequenceEnd | .flowMappingEnd | .flowEntry | .aliasTo _ | .anchor _ | .tag _ _ =>
    True
  | _ => False

/-- What a token leads to behind the properties of a node. -/
theorem beginNode_ok (h : builder.beginNode awaited token = .ok next) :
    ∃ (head : NodeHead) (named : Builder), named.stage = builder.stage ∧
      named.stack = builder.stack ∧
      (∀ text style, token.kind = .scalar text style →
        next = named.count.place (.scalar head text style)) ∧
      (token.kind = .flowSequenceStart ∨ token.kind = .flowMappingStart →
        ∃ collection slot, next = named.openNode collection slot) ∧
      (MissesNode token.kind → named.missNode awaited head token = .ok next) := by
  obtain ⟨tag, -, h⟩ := bind_eq_ok.mp h
  obtain ⟨hstage, hstack⟩ := @register_same builder awaited.anchor
  obtain ⟨kind, start, stop⟩ := token
  refine ⟨⟨awaited.start.getD start, (builder.register awaited.anchor).1, tag⟩,
    (builder.register awaited.anchor).2, hstage, hstack, ?_, ?_, ?_⟩
  · rintro text style ⟨⟩
    cases h
    rfl
  · rintro (⟨⟨⟩⟩ | ⟨⟨⟩⟩)
    · cases h
      exact ⟨_, _, rfl⟩
    · cases h
      exact ⟨_, _, rfl⟩
  · intro hmisses
    cases kind <;> first | exact hmisses.elim | exact h

/-- Where a value is due, a token that does not leave it out is taken as one of its tokens. -/
theorem feed_due {mark : Mark} {start : Option Mark} {anchor : Option (List Char)}
    {tag : Option (List Char × List UInt8 × Mark)}
    (hawaited : builder.awaited = some ⟨.blockValue mark, start, anchor, tag⟩)
    (hproperties : start = none → anchor = none ∧ tag = none)
    (hkind : (Slot.blockValue mark).emptyMark? token = none ∨ start ≠ none) :
    builder.feed token = builder.takeNode ⟨.blockValue mark, start, anchor, tag⟩ token := by
  unfold feed
  rw [hawaited]
  cases start with
  | some start => rfl
  | none =>
    obtain ⟨rfl, rfl⟩ := hproperties rfl
    rcases hkind with hkind | hkind
    · dsimp only
      unfold takeSlot
      rw [hkind]
      rfl
    · exact absurd rfl hkind

/-- Is a token of this kind neither a property nor an alias? -/
def BeginsNode : Token.Kind → Prop
  | .anchor _ | .tag _ _ | .aliasTo _ => False
  | _ => True

theorem takeNode_begins (h : BeginsNode token.kind) :
    builder.takeNode awaited token = builder.beginNode awaited token := by
  obtain ⟨kind, start, stop⟩ := token
  cases kind <;> first | exact h.elim | rfl

/-- A node is missed in front of a token that the mapping around it does not take. -/
theorem missNode_refused {head : NodeHead} (hstack : builder.stack = collection :: outer)
    (hphase : collection.phase = .blockKeys) (hkey : token.kind ≠ .key)
    (hend : token.kind ≠ .blockEnd) : builder.missNode awaited head token ≠ .ok next := by
  unfold missNode
  split
  · rw [hstack]
    exact resume_refused hphase hkey hend
  · exact nofun

variable {start stop : Mark} {kind : Token.Kind}

/-- **A scalar where a value is due is the value.** -/
theorem ValueDue.scalar {style : ScalarStyle} (h : ValueDue front builder)
    (hfeed : builder.feed ⟨.scalar text style, start, stop⟩ = .ok next) :
      ValueRead front text next := by
  obtain ⟨hfront, hstage, hstack, -, hawaited, hproperties⟩ := h
  rw [feed_due hawaited hproperties (.inl rfl)] at hfeed
  obtain ⟨head, named, hsameStage, hsameStack, hplaced, -, -⟩ := beginNode_ok hfeed
  have hnamed : named.count.stack = _ := hsameStack.trans hstack
  rw [hplaced text style rfl]
  unfold place
  rw [hnamed]
  exact .read hfront (hsameStage.trans hstage) rfl rfl

/-- **A flow collection where a value is due is the value.** -/
theorem ValueDue.flowStart (h : ValueDue front builder)
    (hkind : kind = .flowSequenceStart ∨ kind = .flowMappingStart)
    (hfeed : builder.feed ⟨kind, start, stop⟩ = .ok next) : ValueOpen front next := by
  obtain ⟨hfront, hstage, hstack, -, hawaited, hproperties⟩ := h
  rw [feed_due hawaited hproperties (.inl (by rcases hkind with rfl | rfl <;> rfl)),
    takeNode_begins (by rcases hkind with rfl | rfl <;> trivial)] at hfeed
  obtain ⟨head, named, -, hsameStack, -, hopens, -⟩ := beginNode_ok hfeed
  obtain ⟨collection, slot, rfl⟩ := hopens hkind
  exact .opened hfront (congrArg (collection :: ·) (hsameStack.trans hstack))

/-- Where no node may begin and no key does, a token is refused behind the properties of a value. -/
theorem beginNode_refused (hstack : builder.stack = collection :: outer)
    (hphase : collection.phase = .blockKeys) (hmisses : MissesNode token.kind)
    (hkey : token.kind ≠ .key) : builder.beginNode awaited token ≠ .ok next := by
  intro h
  obtain ⟨head, named, -, hsameStack, -, -, hmissed⟩ := beginNode_ok h
  have hend : token.kind ≠ .blockEnd := by
    intro hend
    rw [hend] at hmisses
    exact hmisses
  exact missNode_refused (hsameStack.trans hstack) hphase hkey hend (hmissed hmisses)

/-- A property of a value leaves it due. -/
theorem ValueDue.property (h : ValueDue front builder)
    (hkind : (∃ name, kind = .anchor name) ∨ ∃ handle octets, kind = .tag handle octets)
    (hfeed : builder.feed ⟨kind, start, stop⟩ = .ok next) : ValueDue front next := by
  obtain ⟨hfront, hstage, hstack, hanchors, hawaited, hproperties⟩ := h
  rename_i anchor tag
  rcases hkind with ⟨name, rfl⟩ | ⟨handle, octets, rfl⟩
  · rw [feed_due hawaited hproperties (.inl rfl)] at hfeed
    cases anchor with
    | none =>
      cases hfeed
      exact .due hfront hstage hstack hanchors rfl nofun
    | some given =>
      have hmisses : MissesNode (Token.kind ⟨.anchor name, start, stop⟩) := trivial
      exact absurd hfeed (beginNode_refused hstack rfl hmisses nofun)
  · rw [feed_due hawaited hproperties (.inl rfl)] at hfeed
    cases tag with
    | none =>
      cases hfeed
      exact .due hfront hstage hstack hanchors rfl nofun
    | some given =>
      have hmisses : MissesNode (Token.kind ⟨.tag handle octets, start, stop⟩) := trivial
      exact absurd hfeed (beginNode_refused hstack rfl hmisses nofun)

/-- No flow collection ends or goes on where a value is due. -/
theorem ValueDue.refuses (h : ValueDue front builder)
    (hkind : kind = .flowSequenceEnd ∨ kind = .flowMappingEnd ∨ kind = .flowEntry) :
    builder.feed ⟨kind, start, stop⟩ ≠ .ok next := by
  obtain ⟨-, -, hstack, -, hawaited, hproperties⟩ := h
  have hbegins : BeginsNode kind := by rcases hkind with rfl | rfl | rfl <;> trivial
  have hmisses : MissesNode kind := by rcases hkind with rfl | rfl | rfl <;> trivial
  have hkey : kind ≠ .key := by rcases hkind with rfl | rfl | rfl <;> nofun
  rw [feed_due hawaited hproperties (.inl (by rcases hkind with rfl | rfl | rfl <;> rfl)),
    takeNode_begins hbegins]
  exact beginNode_refused hstack rfl hmisses hkey

/-- There is no anchor yet that an alias could name. -/
theorem ValueDue.refuses_alias {name : List Char} (h : ValueDue front builder) :
    builder.feed ⟨.aliasTo name, start, stop⟩ ≠ .ok next := by
  obtain ⟨-, -, hstack, hanchors, hawaited, hproperties⟩ := h
  rename_i propertyStart _ _
  rw [feed_due hawaited hproperties (.inl rfl)]
  cases propertyStart with
  | none =>
    unfold takeNode
    dsimp only
    rw [hanchors]
    exact nofun
  | some given =>
    have hmisses : MissesNode (Token.kind ⟨.aliasTo name, start, stop⟩) := trivial
    exact beginNode_refused hstack rfl hmisses nofun

/-- **A key where a value is due leaves the value out.** -/
theorem ValueDue.key (h : ValueDue front builder)
    (hfeed : builder.feed ⟨.key, start, stop⟩ = .ok next) :
    NextKey front [] next := by
  obtain ⟨hfront, hstage, hstack, -, hawaited, hproperties⟩ := h
  rename_i propertyStart _ _
  cases propertyStart with
  | none =>
    obtain ⟨rfl, rfl⟩ := hproperties rfl
    unfold feed at hfeed
    rw [hawaited] at hfeed
    unfold takeSlot at hfeed
    dsimp only [Slot.emptyMark?] at hfeed
    rw [hstack] at hfeed
    obtain ⟨hsameStage, hnext, hkeyed⟩ := resume_key rfl rfl hfeed
    exact .awaited hfront (hsameStage.trans hstage) hkeyed hnext
  | some given =>
    rw [feed_due hawaited hproperties (.inr nofun), takeNode_begins (by trivial)] at hfeed
    obtain ⟨head, named, hnamed, hsameStack, -, -, hmissed⟩ := beginNode_ok hfeed
    have hresumed := hmissed trivial
    unfold missNode at hresumed
    rw [if_pos (by rfl), hsameStack, hstack] at hresumed
    obtain ⟨hsameStage, hnext, hkeyed⟩ := resume_key rfl rfl hresumed
    exact .awaited hfront (hsameStage.trans (hnamed.trans hstage)) hkeyed hnext

/-- **Behind the value nothing but a key or the end of the mapping may follow.** -/
theorem ValueRead.refuses (h : ValueRead front text builder) (hkey : kind ≠ .key)
    (hend : kind ≠ .blockEnd) : builder.feed ⟨kind, start, stop⟩ ≠ .ok next := by
  obtain ⟨-, hstage, hstack, hawaited⟩ := h
  unfold feed
  rw [hawaited, hstage, hstack]
  exact resume_refused rfl hkey hend

/-- **A key behind the value is the next one.** -/
theorem ValueRead.key (h : ValueRead front text builder)
    (hfeed : builder.feed ⟨.key, start, stop⟩ = .ok next) :
    NextKey front text next := by
  obtain ⟨hfront, hstage, hstack, hawaited⟩ := h
  unfold feed at hfeed
  rw [hawaited, hstage, hstack] at hfeed
  obtain ⟨hsameStage, hnext, hkeyed⟩ := resume_key rfl rfl hfeed
  exact .awaited hfront (hsameStage.trans hstage) hkeyed hnext

end Provisioning.Yaml.Builder
