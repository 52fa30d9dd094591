import Mathlib.Data.List.Forall2
import Provisioning.Proofs.Json.Meaning
import Provisioning.Source

/-!
# Formats that read JSON documents

JSON texts are read by two formats: JSON itself, and YAML, of which JSON is nearly a part.
What a typed reader takes a document for is the same in both, and this module says it once, as
the laws of a relation `Reads`. A format owes the laws, one for each way of reading that
`Source` offers; the types of the library are made of these ways, so whatever is shown of them
from the laws holds for every format.

A number of levels is carried along: how many collections may still lie within one another.
A typed collection spends one, and so does each collection of an untyped value.
-/

namespace Provisioning

/-- Members that fill a record one by one: each is a field, read by the reader of the field.
They may be documents or whatever else stands for them in a format. -/
inductive Record.Fills {m : Type → Type} {α τ : Type} (reads : m (α → α) → τ → (α → α) → Prop)
    (record : Record m α) : α → List (String × τ) → α → Prop where
  | nil {a : α} : Fills reads record a [] a
  | cons {a b : α} {name : String} {member : τ} {members : List (String × τ)}
      {field : Field m α} {store : α → α} :
      record.field? name = some field → reads field.read member store →
      Fills reads record (store a) members b → Fills reads record a ((name, member) :: members) b

/-- What fills a record with some readers fills it with readers that do more. -/
theorem Record.Fills.imp {m : Type → Type} {α τ : Type}
    {reads reads' : m (α → α) → τ → (α → α) → Prop} {record : Record m α}
    {members : List (String × τ)} {a b : α}
    (himp : ∀ read member store, reads read member store → reads' read member store)
    (h : record.Fills reads a members b) : record.Fills reads' a members b := by
  induction h with
  | nil => exact .nil
  | cons hfield hread _ ih => exact .cons hfield (himp _ _ _ hread) ih

/-- Members that stand for others, one by one, fill a record as these do. -/
theorem Record.Fills.map {m : Type → Type} {α τ υ : Type}
    {reads : m (α → α) → τ → (α → α) → Prop} {reads' : m (α → α) → υ → (α → α) → Prop}
    {record : Record m α} {members : List (String × τ)} {a b : α}
    (h : record.Fills reads a members b) : ∀ others : List (String × υ),
      List.Forall₂ (fun member other => member.1 = other.1 ∧
        ∀ read store, reads read member.2 store → reads' read other.2 store) members others →
      record.Fills reads' a others b := by
  induction h with
  | nil => intro others h; rw [List.forall₂_nil_left_iff.mp h]; exact .nil
  | cons hfield hread _ ih =>
    intro others h
    obtain ⟨other, others', ⟨hname, hother⟩, hothers, rfl⟩ := List.forall₂_cons_left_iff.mp h
    obtain ⟨name, member⟩ := other
    cases hname
    exact .cons hfield (hother _ _ hread) (ih _ hothers)

/-- The names that a record knows are those of its fields. -/
theorem Record.field?_isSome {m : Type → Type} {α : Type} {record : Record m α} {name : String} :
    (record.field? name).isSome ↔ name ∈ record.fields.map Field.name := by
  unfold Record.field?
  rw [List.find?_isSome, List.mem_map]
  exact exists_congr fun field => and_congr_right fun _ => beq_iff_eq

/-- No field is missed if the needed ones are there. -/
theorem Record.missing?_eq_none {m : Type → Type} {α : Type} {record : Record m α}
    {names : List String}
    (h : ∀ field ∈ record.fields, field.required = true → field.name ∈ names) :
    record.missing? names = none := by
  unfold Record.missing?
  rw [Option.map_eq_none_iff, List.find?_eq_none]
  intro field hfield hmissing
  rw [Bool.and_eq_true, Bool.not_eq_true', List.contains_eq_mem,
    decide_eq_false_iff_not] at hmissing
  exact hmissing.2 (h field hfield hmissing.1)

/-- **A format that reads JSON documents.** `Reads levels read json a` says that `read` takes
the document `json` for `a` wherever so many levels are left. -/
structure JsonReading (m : Type → Type) [Source m] where
  Reads : {α : Type} → Nat → m α → Json → α → Prop
  map {α β : Type} {levels : Nat} {read : m α} {json : Json} {a : α} (f : α → β) :
    Reads levels read json a → Reads levels (f <$> read) json (f a)
  text {levels : Nat} (value : String) : Reads levels Source.text (.string value) value
  flag {levels : Nat} (value : Bool) : Reads levels Source.flag (.bool value) value
  natural {levels : Nat} (value : UInt64) :
    Reads levels Source.natural (.int value.toNat) value
  optional {α : Type} {levels : Nat} {read : m α} {json : Json} {a : α} :
    json.mayBeNull = false → Reads levels read json a →
    Reads levels (Source.optional read) json (some a)
  list {α : Type} {levels : Nat} {read : m α} {items : List Json} {as : List α} :
    List.Forall₂ (Reads levels read) items as →
    Reads (levels + 1) (Source.list read) (.array items) as
  choice {α : Type} {levels : Nat} {known : List (String × α)} {name : String} {a : α} :
    known.lookup name = some a → Reads levels (Source.choice known) (.string name) a
  record {α : Type} {levels : Nat} {record : Record m α} {members : List (String × Json)} {a : α} :
    record.Fills (Reads levels) record.blank members a → (members.map Prod.fst).Nodup →
    (∀ field ∈ record.fields, field.required = true → field.name ∈ members.map Prod.fst) →
    Reads (levels + 1) (Source.record record) (.object members) a
  bindings {α : Type} {levels : Nat} {read : m α} {members : List (String × Json)}
      {as : List (String × α)} :
    List.Forall₂ (fun member a => member.1 = a.1 ∧ Reads levels read member.2 a.2) members as →
    Reads (levels + 1) (Source.bindings read) (.object members) as
  untyped {levels : Nat} {json : Json} :
    json.Fits levels → Reads levels Source.untyped json json.toValue

/-! ## Records with members left out -/

/-- Parts of a record, some of them left out, that make `a` into `b`: each label is the name of
a field, and what is left out changes nothing. -/
inductive Record.Parts {m : Type → Type} {α : Type} (reads : m (α → α) → Json → (α → α) → Prop)
    (record : Record m α) : List String → α → List (Option (String × Json)) → α → Prop where
  | nil {a : α} : Parts reads record [] a [] a
  | absent {a b : α} {label : String} {labels : List String}
      {parts : List (Option (String × Json))} :
      Parts reads record labels a parts b → Parts reads record (label :: labels) a (none :: parts) b
  | present {a b : α} {label : String} {labels : List String} {json : Json}
      {parts : List (Option (String × Json))} {field : Field m α} {store : α → α} :
      record.field? label = some field → reads field.read json store →
      Parts reads record labels (store a) parts b →
      Parts reads record (label :: labels) a (some (label, json) :: parts) b

namespace Record.Parts

variable {m : Type → Type} {α : Type} {reads : m (α → α) → Json → (α → α) → Prop}
  {record : Record m α} {labels : List String} {a b : α} {parts : List (Option (String × Json))}

theorem done (h : a = b) : record.Parts reads [] a [] b := h ▸ .nil

theorem fills (h : record.Parts reads labels a parts b) :
    record.Fills reads a (parts.filterMap id) b := by
  induction h with
  | nil => exact .nil
  | absent _ ih => exact ih
  | present hfield hread _ ih => exact .cons hfield hread ih

/-- Parts behind others go on with what these have made. -/
theorem append {labels' : List String} {c : α} {parts' : List (Option (String × Json))}
    (h : record.Parts reads labels a parts b) (h' : record.Parts reads labels' b parts' c) :
    record.Parts reads (labels ++ labels') a (parts ++ parts') c := by
  induction h with
  | nil => exact h'
  | absent _ ih => exact .absent (ih h')
  | present hfield hread _ ih => exact .present hfield hread (ih h')

theorem names_sublist (h : record.Parts reads labels a parts b) :
    ((parts.filterMap id).map Prod.fst).Sublist labels := by
  induction h with
  | nil => exact .slnil
  | absent _ ih => exact ih.cons _
  | present _ _ _ ih => exact ih.cons_cons _

end Record.Parts

namespace JsonReading

variable {m : Type → Type} [Source m] {α β : Type} {levels : Nat} {record : Record m α}
  {label : String} {labels : List String} {a c : α} {b : β} {parts : List (Option (String × Json))}
  {read : m β} {store : β → α → α}

/-- A part that is always written. -/
theorem written (format : JsonReading m) {json : Json} {required : Bool}
    (hfield : record.field? label = some ⟨label, required, store <$> read⟩)
    (hread : format.Reads levels read json b)
    (h : record.Parts (format.Reads levels) labels (store b a) parts c) :
    record.Parts (format.Reads levels) (label :: labels) a (Json.member label json :: parts) c :=
  .present hfield (format.map (store) hread) h

/-- A part that may be left out, if its field stores nothing then. -/
theorem spare (format : JsonReading m) {json? : Option Json}
    (hfield : record.field? label = some (.spare label read store))
    (hread : ∀ json, json? = some json → format.Reads levels read json b)
    (habsent : json? = none → store b a = a)
    (h : record.Parts (format.Reads levels) labels (store b a) parts c) :
    record.Parts (format.Reads levels)
      (label :: labels) a (Json.member? label json? :: parts) c := by
  cases json? with
  | none => exact .absent (habsent rfl ▸ h)
  | some json => exact .present hfield (format.map store (hread json rfl)) h

/-- A value that may be absent is read where it is written. -/
theorem optional_map (format : JsonReading m) {x : Option β} {toJson : β → Json}
    (hread : ∀ value, (toJson value).mayBeNull = false ∧
      format.Reads levels read (toJson value) value) :
    ∀ json, x.map toJson = some json → format.Reads levels (Source.optional read) json x := by
  intro json h
  cases x with
  | none => exact absurd h (by simp)
  | some value =>
    cases h
    exact format.optional (hread value).1 (hread value).2

/-- **A record is read from the parts that are written.** -/
theorem ofMembers (format : JsonReading m) (labels : List String)
    (h : record.Parts (format.Reads levels) labels record.blank parts a) (hlabels : labels.Nodup)
    (hneeded : ∀ field ∈ record.fields, field.required = true →
      ∃ json, some (field.name, json) ∈ parts) :
    format.Reads (levels + 1) (Source.record record) (Json.ofMembers parts) a := by
  refine format.record h.fills (hlabels.sublist h.names_sublist) fun field hfield hrequired => ?_
  obtain ⟨json, hjson⟩ := hneeded field hfield hrequired
  exact List.mem_map.mpr ⟨(field.name, json), List.mem_filterMap.mpr ⟨_, hjson, rfl⟩, rfl⟩

end JsonReading

end Provisioning
