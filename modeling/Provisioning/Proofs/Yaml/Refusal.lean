import Provisioning.Proofs.Yaml.Fields
import Provisioning.Proofs.Yaml.JsonText

/-!
# What the YAML reader refuses

A reader refuses a node if it fails on it wherever it stands. A record refuses a mapping as soon
as the reader of one of its fields refuses the value of its key, whatever stands in front of it
or behind it: if the mapping was read, then so was this value (`readParts_visits`). The document
of the text of a JSON object has such mappings for its root, which is enough to know that the
text is refused.
-/

namespace Provisioning.Yaml

open Json (ShortName)
open Lexer Pending
open Outcome (Fails)

namespace Reader

variable {α β σ κ : Type} {scope : Scope} {closed : Bool} {followed followed' : Nat}

/-- **A reader refuses a node**, wherever it stands. -/
def Refuses (read : Reader α) (node : Node) : Prop :=
  ∀ (scope : Scope) (followed : Nat), Fails (read scope node followed)

/-! ## Fields -/

theorem refuses_map {read : Reader α} {node : Node} (f : α → β) (h : Refuses read node) :
    Refuses (f <$> read) node :=
  fun scope followed => (h scope followed).bind _

theorem refuses_optional {read : Reader α} {node : Node} (hpresent : Present node)
    (h : Refuses read node) : Refuses (optional read) node := by
  intro scope followed
  unfold optional follow
  split
  · rename_i mark anchor
    exact absurd rfl (hpresent.2 mark anchor)
  · dsimp only
    rw [hpresent.1]
    exact refuses_map some h scope followed

/-- A natural number of 64 bits is asked for, and the text spells none. -/
theorem refuses_natural {head : NodeHead} {text : List Char} (h : Meaning.natural64? text = none) :
    Refuses (plainly "int" .natural Meaning.natural64?) (.scalar head text .plain) := by
  intro scope followed
  refine Outcome.fails_of_ne_ok fun result hread => ?_
  unfold plainly follow at hread
  dsimp only at hread
  rw [h] at hread
  exact absurd (settle_eq_ok hread) (clash_ne_ok _ _ _)

/-! ## Mappings -/

/-- **If a mapping was read, so was each of its values**, behind its key. -/
theorem readParts_visits {key : σ → Node → Following κ} {value : σ → κ → Reader σ} {name : String}
    {node : Node} {parts : List Node} {named : List (String × Node)}
    (hlabels : Node.Labels parts named)
    (hmem : (name, node) ∈ named) :
    ∀ (collected last : σ) (followed : Nat),
    readParts scope closed key value collected parts followed = .ok (last, followed') →
    ∃ head style before found inner after k m n, key before (.scalar head name.toList style) k
      = .ok (found, m) ∧ value before found inner node m = .ok (after, n) := by
  induction hlabels with
  | nil => exact absurd hmem List.not_mem_nil
  | @cons head text style first parts named _ _ _ ih =>
    intro collected last followed h
    obtain ⟨found, next, m, n, hkey, hvalue, hparts⟩ := readParts_pair h
    rcases List.mem_cons.mp hmem with heq | hmem
    · obtain ⟨rfl, rfl⟩ := Prod.mk.inj heq
      rw [String.toList_ofList]
      exact ⟨head, style, collected, found, _, next, followed, m, n, hkey, hvalue⟩
    · exact ih hmem next last n hparts

variable {name : String} {node : Node} {head : NodeHead} {parts : List Node}
  {named : List (String × Node)}

/-- **A record refuses a mapping with a value that one of its fields refuses.** -/
theorem refuses_record {record : Record Reader α} {field : Field Reader α}
    (hlabels : Node.Labels parts named)
    (hmem : (name, node) ∈ named) (hfield : record.field? name = some field)
    (h : Refuses field.read node) :
    Refuses (Reader.record record) (.mapping head parts closed) := by
  intro scope followed
  refine Outcome.fails_of_ne_ok fun result hread => ?_
  obtain ⟨inner, -, -, hinner⟩ := enter_ok (settle_eq_ok hread)
  obtain ⟨last, between, hparts, -⟩ := bind_ok hinner
  obtain ⟨head, style, before, found, scope', after, k, m, n, hkey, hvalue⟩ :=
    readParts_visits hlabels hmem _ _ _ hparts
  obtain ⟨rfl, -⟩ := textAs_ok (readFieldName_ok hkey).1
  rw [String.ofList_toList] at hvalue
  obtain ⟨change, hchange, -, -⟩ := readField_ok hfield hvalue
  exact (h scope' m).ne_ok _ hchange

/-- A mapping from texts is refused with any of its values. -/
theorem refuses_bindings {read : Reader α} (hlabels : Node.Labels parts named)
    (hmem : (name, node) ∈ named)
    (h : Refuses read node) : Refuses (bindings read) (.mapping head parts closed) := by
  intro scope followed
  refine Outcome.fails_of_ne_ok fun result hread => ?_
  obtain ⟨inner, -, -, hinner⟩ := enter_ok (settle_eq_ok hread)
  obtain ⟨last, between, hparts, -⟩ := bind_ok hinner
  obtain ⟨head, style, before, found, scope', after, k, m, n, -, hvalue⟩ :=
    readParts_visits hlabels hmem _ _ _ hparts
  obtain ⟨a, l, ha, -⟩ := bind_ok hvalue
  exact (h scope' m).ne_ok _ ha

/-! ## Values -/

/-- A scalar is refused as any value if what it means is no value. -/
theorem refuses_value {text : List Char} {style : ScalarStyle} (htag : head.tag = none)
    (h : Fails (Meaning.toValue text (if style == .plain then Meaning.ofPlain text else .string))) :
    Refuses Reader.value (.scalar head text style) := by
  obtain ⟨mismatch, h⟩ := h
  have hmeaning : (Meaning.ofScalar head.tag text style).bind (Meaning.toValue text)
      = .error mismatch := by
    rw [htag]
    exact h
  have hname : localName? (Node.scalar head text style).tag? = none := by
    show localName? head.tag = none
    rw [htag]
    rfl
  have htagged : ∀ nested : Reader Value, Refuses (tagged nested) (.scalar head text style) := by
    intro nested scope followed
    refine Outcome.fails_of_ne_ok fun result hread => ?_
    have htagged := settle_eq_ok hread
    rw [hname] at htagged
    have hcontents := settle_eq_ok htagged
    dsimp only at hcontents
    rw [hmeaning] at hcontents
    cases hcontents
  intro scope followed
  show Fails (valueWithin scope.depth scope _ followed)
  cases scope.depth with
  | zero => exact htagged _ scope followed
  | succ depth => exact htagged _ scope followed

end Reader

/-! ## Whole texts -/

theorem read_fails {α : Type} {read : Reader α} {text : String} {node : Node} {steps : Nat}
    (hstream : Stream.ofText text = ⟨some node, steps, none, false⟩) (h : read.Refuses node) :
    Fails (Yaml.read read text) := by
  refine Outcome.fails_of_ne_ok fun a hread => ?_
  obtain ⟨root, followed, hroot, hread⟩ := read_ok hread
  rw [hstream] at hroot
  cases hroot
  exact (h _ 0).ne_ok _ hread

/-- **The document of the text of an object** is a mapping with its names and with the nodes of its
values, for values that stand on one line. -/
theorem stream_object (holds : Node → Json → Prop) {member : String × Json}
    {members : List (String × Json)} (hnames : ∀ other ∈ member :: members, ShortName other.1)
    (hclean : ∀ other ∈ member :: members, ∀ c ∈ other.2.write, isClean c = true)
    (hleads : ∀ other ∈ member :: members, Leads other.2)
    (hbuilds : ∀ other ∈ member :: members, Builds false other.2.kinds (holds · other.2)) :
    ∃ (steps : Nat) (head : NodeHead) (parts : List Node) (named : List (String × Node)),
      Stream.ofText (Json.object (member :: members)).text
        = ⟨some (.mapping head parts true), steps, none, false⟩ ∧
      Node.Labels parts named ∧
      List.Forall₂ (fun member node => member.1 = node.1 ∧ holds node.2 member.2)
        (member :: members) named := by
  have hlist : (Json.object (member :: members)).text.toList
      = (Json.object (member :: members)).write :=
    String.toList_ofList
  have htext : ∀ c ∈ (Json.object (member :: members)).write, isClean c = true := by
    intro c hc
    rcases mem_write_object hc with rfl | hc
    · decide
    · exact clean_members _ hnames hclean c hc
  have hkinds : (Json.object (member :: members)).kinds
      = .flowMappingStart :: (memberKinds member ++
      (members.flatMap (fun member => .flowEntry :: memberKinds member) ++ [.flowMappingEnd])) := by
    obtain ⟨name, json⟩ := member
    rw [Json.kinds, membersKinds_eq]
    rfl
  have hyields := yields_object hnames hleads
  rw [hkinds] at hyields
  obtain ⟨steps, node, hstream, head, parts, named, -, rfl, hlabels, hnamed⟩ :=
    stream_of_yields (by rw [hlist]; exact htext) (by rw [hlist]; exact hyields) .flowMapping
      (builds_members hbuilds)
  exact ⟨steps, head, parts, named, hstream, hlabels, hnamed⟩

/-! ## Objects of texts and integers -/

/-- A value as most fields have it: an integer, or a text of characters that may stand as
they are. -/
inductive IsSimple : Json → Prop where
  | int {value : Int} : IsSimple (.int value)
  | string {value : String} : (∀ c ∈ value.toList, Yaml.isDirect c = true) →
    IsSimple (.string value)

/-- The node of an integer has its decimal text, of whatever size it is. -/
def SpellsDecimal (node : Node) (json : Json) : Prop :=
  ∀ value, json = .int value →
    ∃ head : NodeHead, head.tag = none ∧ node = .scalar head (Number.signedDecimal value) .plain

namespace IsSimple

variable {json : Json}

theorem leads (h : IsSimple json) : Leads json := by
  cases h with
  | int => exact leads_integer _
  | string hdirect => exact fun _ _ _ _ _ _ _ _ h => leads_string hdirect h

theorem clean (h : IsSimple json) : ∀ c ∈ json.write, isClean c = true := by
  cases h with
  | int => exact clean_integer _
  | string hdirect => exact clean_writeString hdirect

theorem builds (h : IsSimple json) : Builds false json.kinds (SpellsDecimal · json) := by
  cases h with
  | @int value =>
    refine (Builds.scalar _ _).imp ?_
    rintro _ ⟨head, htag, rfl⟩ _ ⟨⟩
    exact ⟨head, htag, rfl⟩
  | string =>
    refine (Builds.scalar _ _).imp ?_
    rintro _ _ _ ⟨⟩

end IsSimple

/-- **A record whose field is a natural number refuses an integer that is none**, in an object of
texts and integers. -/
theorem record_fails {α : Type} {record : Record Reader α} {label : String} {required : Bool}
    {store : Option UInt64 → α → α} {member : String × Json} {members : List (String × Json)}
    {value : Int} (hnames : ∀ other ∈ member :: members, ShortName other.1)
    (hsimple : ∀ other ∈ member :: members, IsSimple other.2)
    (hmem : (label, .int value) ∈ member :: members)
    (hfield : record.field? label
      = some ⟨label, required, store <$> Source.optional Source.natural⟩)
    (hvalue : value < 0 ∨ 2 ^ 64 ≤ value) :
    Fails (Yaml.read (Reader.record record) (Json.object (member :: members)).text) := by
  obtain ⟨steps, head, parts, named, hstream, hlabels, hnamed⟩ := stream_object SpellsDecimal hnames
    (fun other hother => (hsimple other hother).clean)
      (fun other hother => (hsimple other hother).leads)
    (fun other hother => (hsimple other hother).builds)
  obtain ⟨⟨name, node⟩, hnode, rfl, hint⟩ := Partners.exists_partner hnamed _ hmem
  obtain ⟨valueHead, htag, rfl⟩ := hint value rfl
  have hpresent : Reader.Present (.scalar valueHead (Number.signedDecimal value) .plain) := by
    refine ⟨?_, by simp⟩
    unfold Reader.isAbsent
    dsimp only
    rw [htag]
    dsimp only
    rw [Meaning.signedDecimal_isEmpty, (Meaning.signedDecimal_no_word value).1]
    rfl
  refine read_fails hstream
    (Reader.refuses_record hlabels hnode hfield (Reader.refuses_map store ?_))
  exact Reader.refuses_optional hpresent
    (Reader.refuses_natural (Meaning.natural64?_outside hvalue))

end Provisioning.Yaml
