import Provisioning.Json.Tree
import Provisioning.Proofs.Json.Meaning
import Provisioning.Proofs.Value.Parts

/-!
# Values through JSON

A value that is written as JSON is read again as the meaning of what was written. For plain
values that is the value itself, except that a number that is not finite has become null.
-/

namespace Provisioning.Value

open Number Partners

/-! ## The JSON forms of items and entries -/

theorem itemsToJson_iff : ∀ {items : List Value} {jsons : List Json},
    itemsToJson items = .ok jsons ↔
      List.Forall₂ (fun item json => item.toJson = .ok json) items jsons := by
  intro items
  induction items with
  | nil =>
    intro jsons
    rw [itemsToJson, List.forall₂_nil_left_iff, Except.ok.injEq]
    exact eq_comm
  | cons item items ih =>
    intro jsons
    rw [itemsToJson, Outcome.bind_eq_ok, List.forall₂_cons_left_iff]
    constructor
    · rintro ⟨json, hjson, h⟩
      obtain ⟨jsons', hjsons, h⟩ := Outcome.bind_eq_ok.mp h
      exact ⟨json, jsons', hjson, ih.mp hjsons, (Except.ok.inj h).symm⟩
    · rintro ⟨json, jsons', hjson, hjsons, rfl⟩
      refine ⟨json, hjson, ?_⟩
      rw [ih.mpr hjsons]
      rfl

theorem entriesToJson_iff : ∀ {entries : List (Value × Value)} {members : List (String × Json)},
    entriesToJson entries = .ok members ↔
      List.Forall₂ (fun entry member =>
        entry.1.toMemberName = .ok member.1 ∧ entry.2.toJson = .ok member.2) entries members := by
  intro entries
  induction entries with
  | nil =>
    intro members
    rw [entriesToJson, List.forall₂_nil_left_iff, Except.ok.injEq]
    exact eq_comm
  | cons entry entries ih =>
    intro members
    obtain ⟨key, value⟩ := entry
    rw [entriesToJson, Outcome.bind_eq_ok, List.forall₂_cons_left_iff]
    constructor
    · rintro ⟨name, hname, h⟩
      obtain ⟨json, hjson, h⟩ := Outcome.bind_eq_ok.mp h
      obtain ⟨members', hmembers, h⟩ := Outcome.bind_eq_ok.mp h
      exact ⟨(name, json), members', ⟨hname, hjson⟩, ih.mp hmembers, (Except.ok.inj h).symm⟩
    · rintro ⟨member, members', ⟨hname, hjson⟩, hmembers, rfl⟩
      refine ⟨member.1, hname, ?_⟩
      dsimp only at hjson ⊢
      rw [hjson, ih.mpr hmembers]
      rfl

/-- Texts that differ as keys differ as names. -/
theorem nodup_names {entries : List (Value × Value)} {members : List (String × Json)}
    (hdistinct : entries.Pairwise fun a b => a.1.same b.1 = false)
    (h : List.Forall₂ (fun entry member => entry.1 = .text member.1) entries members) :
    (members.map Prod.fst).Nodup := by
  rw [List.Nodup, List.pairwise_map]
  have hkeys : entries.map Prod.fst = members.map fun member => .text member.1 := by
    rwa [← List.forall₂_eq_eq_eq, List.forall₂_map_left_iff, List.forall₂_map_right_iff]
  have hpairwise : (entries.map Prod.fst).Pairwise fun a b => a.same b = false :=
    List.pairwise_map.mpr hdistinct
  rw [hkeys, List.pairwise_map] at hpairwise
  refine hpairwise.imp fun hsame heq => ?_
  rw [same, heq, beq_self_eq_true] at hsame
  exact absurd hsame (by decide)

/-! ## There and back -/

/-- What a value becomes when it is written as JSON and read again. -/
def throughJson (value : Value) : Value :=
  match value.toJson with
  | .ok json => json.toValue
  | .error _ => value

theorem throughJson_of_ok {value : Value} {json : Json} (h : value.toJson = .ok json) :
    value.throughJson = json.toValue := by
  rw [throughJson, h]

/-- Numbers that are not finite. -/
def NotFinite (x : Binary64) : Prop := x.isFinite = false

variable {levels : Nat} {value : Value}

/-- **A plain value has a JSON form that can be read**, and what is read holds no
floating-point numbers any more. -/
theorem Plain.toJson_fits (h : Plain NotFinite levels value) (hlawful : value.Lawful) :
    ∃ json, value.toJson = .ok json ∧ json.Fits levels ∧ Plain NoFloat levels json.toValue := by
  induction h with
  | null => exact ⟨.null, by rw [toJson], .null, .null⟩
  | bool value => exact ⟨.bool value, by rw [toJson], .bool, .bool value⟩
  | int value =>
    obtain ⟨hlow, hhigh⟩ := hlawful.ints value (.self _)
    exact ⟨.int value, by rw [toJson], .int hlow hhigh, .int value⟩
  | float hfinite => exact ⟨.float _, by rw [toJson], .float hfinite, .null⟩
  | text value => exact ⟨.string value, by rw [toJson], .string, .text value⟩
  | @sequence levels items _ ih =>
    obtain ⟨jsons, hjsons⟩ := exists_partners fun item hitem =>
      ih item hitem (hlawful.item hitem)
    refine ⟨.array jsons, ?_, .array ?_, ?_⟩
    · rw [toJson, itemsToJson_iff.mpr (hjsons.imp fun _ _ hjson => hjson.1)]
      rfl
    · intro json hjson
      obtain ⟨item, -, hitem⟩ := exists_partner hjsons.flip json hjson
      exact hitem.2.1
    · rw [Json.toValue, Json.itemsToValues_eq_map]
      refine .sequence fun inner hinner => ?_
      obtain ⟨json, hjson, rfl⟩ := List.mem_map.mp hinner
      obtain ⟨item, -, hitem⟩ := exists_partner hjsons.flip json hjson
      exact hitem.2.2
  | @mapping levels entries hkeys _ ih =>
    -- All that is needed of the members is said at once, so that they are chosen only once.
    obtain ⟨members, hmembers⟩ : ∃ members : List (String × Json),
        List.Forall₂ (fun entry member => entry.1 = .text member.1 ∧
          entry.2.toJson = .ok member.2 ∧ member.2.Fits levels ∧
          Plain NoFloat levels member.2.toValue) entries members := by
      refine exists_partners fun entry hentry => ?_
      obtain ⟨name, hname⟩ := hkeys entry hentry
      obtain ⟨json, hjson⟩ := ih entry hentry (hlawful.value hentry)
      exact ⟨(name, json), hname, hjson⟩
    refine ⟨.object members, ?_, .object ?_ ?_, ?_⟩
    · rw [toJson, entriesToJson_iff.mpr (hmembers.imp fun entry member hmember => ?_)]
      · rfl
      · rw [hmember.1]
        exact ⟨rfl, hmember.2.1⟩
    · exact nodup_names (hlawful.keys entries (.self _))
        (hmembers.imp fun _ _ hmember => hmember.1)
    · intro member hmember
      obtain ⟨entry, -, hentry⟩ := exists_partner hmembers.flip member hmember
      exact hentry.2.2.1
    · rw [Json.toValue, Json.membersToEntries_eq_map]
      refine .mapping (fun inner hinner => ?_) (fun inner hinner => ?_)
      · obtain ⟨member, -, rfl⟩ := List.mem_map.mp hinner
        exact ⟨member.1, rfl⟩
      · obtain ⟨member, hmember, rfl⟩ := List.mem_map.mp hinner
        obtain ⟨entry, -, hentry⟩ := exists_partner hmembers.flip member hmember
        exact hentry.2.2.2

/-- **Without floating-point numbers a plain value comes back from JSON as it was.** -/
theorem Plain.throughJson_eq (h : Plain NoFloat levels value) : value.throughJson = value := by
  -- A value without a JSON form is left as it is, so only its form has to be followed.
  suffices hback : ∀ json, value.toJson = .ok json → json.toValue = value by
    rw [throughJson]
    cases hjson : value.toJson with
    | ok json => exact hback json hjson
    | error fault => rfl
  induction h with
  | null => intro json h; cases h; rfl
  | bool value => intro json h; cases h; rfl
  | int value => intro json h; cases h; rfl
  | float h => exact h.elim
  | text value => intro json h; cases h; rfl
  | @sequence levels items _ ih =>
    intro json h
    rw [toJson] at h
    obtain ⟨jsons, hjsons, h⟩ := Outcome.bind_eq_ok.mp h
    cases h
    rw [Json.toValue, Json.itemsToValues_eq_map]
    rw [map_partners (itemsToJson_iff.mp hjsons) ih]
  | @mapping levels entries hkeys _ ih =>
    intro json h
    rw [toJson] at h
    obtain ⟨members, hmembers, h⟩ := Outcome.bind_eq_ok.mp h
    cases h
    rw [Json.toValue, Json.membersToEntries_eq_map]
    -- A key that is a text is written as this text, so it comes back; the value does by induction.
    rw [map_partners (entriesToJson_iff.mp hmembers)]
    rintro ⟨key, value⟩ hentry ⟨name, json⟩ ⟨hname, hjson⟩
    obtain ⟨text, htext⟩ := hkeys _ hentry
    dsimp only at htext hname hjson
    rw [htext] at hname
    cases hname
    rw [htext, ih _ hentry json hjson]

end Provisioning.Value
