import Mathlib.Data.List.Nodup
import Provisioning.Proofs.Json.Format
import Provisioning.Proofs.Json.Refusal
import Provisioning.Workflow.Template

/-!
# The fields of a workflow in a configuration

The fields of a template may be a part of a larger configuration: they stand in any order, an empty
one may be missing, and members that have nothing to do with the template stand between them. Such
an object is read as the template.

The reader goes through the members in their order, and in between it has a template with the fields
that came by so far, which is `only` these fields of the one that is read in the end. A field that
is there twice is not decided by the order: the reader refuses it.
-/

namespace Provisioning.Workflow.Template

open Json.Reader
open Outcome (Fails)

/-- The fields by the names that they have in a configuration. -/
def fields (template : Template) : List (String × String) :=
  [("name", template.name), ("metadataURL", template.metadataUrl), ("imageURL", template.imageUrl),
    ("destDisk", template.destDisk), ("destPartition", template.destPartition),
    ("deviceTemplateName", template.deviceTemplateName)]

/-- The names of the fields in a configuration. -/
def labels : List String :=
  ["name", "metadataURL", "imageURL", "destDisk", "destPartition", "deviceTemplateName"]

/-- **The members of an object that describe a template**, in any order. -/
structure Describes (members : List (String × Json)) (template : Template) : Prop where
  /-- The member of a field has its text. -/
  text : ∀ member ∈ members, ∀ text, (member.1, text) ∈ template.fields → member.2 = .string text
  /-- No field is there twice. -/
  once : ∀ label ∈ labels, (members.map Prod.fst).count label ≤ 1
  /-- Only empty fields are left out. -/
  present : ∀ label text, (label, text) ∈ template.fields → text ≠ "" →
    label ∈ members.map Prod.fst
  /-- Members of other names may have any value. -/
  other : ∀ member ∈ members, member.1 ∉ labels → member.2.Integral

/-! ## The fields that came by -/

/-- The template without the fields of other names than these. -/
def only (names : List String) (template : Template) : Template :=
  let kept (label text : String) : String := if label ∈ names then text else ""
  { name := kept "name" template.name
    metadataUrl := kept "metadataURL" template.metadataUrl
    imageUrl := kept "imageURL" template.imageUrl
    destDisk := kept "destDisk" template.destDisk
    destPartition := kept "destPartition" template.destPartition
    deviceTemplateName := kept "deviceTemplateName" template.deviceTemplateName }

theorem only_nil (template : Template) : template.only [] = blank := by
  simp [only, blank]

/-- Nothing is lost if only empty fields are left out. -/
theorem only_eq_self {template : Template} {names : List String}
    (h : ∀ label text, (label, text) ∈ template.fields → text ≠ "" → label ∈ names) :
    template.only names = template := by
  have hkept : ∀ label text, (label, text) ∈ template.fields →
      (if label ∈ names then text else "") = text := by
    intro label text hfield
    by_cases hempty : text = ""
    · rw [hempty, ite_self]
    · rw [if_pos (h label text hfield hempty)]
  simp only [fields, List.mem_cons, List.not_mem_nil, or_false] at hkept
  unfold only
  dsimp only
  rw [hkept "name" _ (by simp), hkept "metadataURL" _ (by simp), hkept "imageURL" _ (by simp),
    hkept "destDisk" _ (by simp), hkept "destPartition" _ (by simp),
    hkept "deviceTemplateName" _ (by simp)]

/-- **Reading a field adds it to those that came by.** -/
theorem field_reads {template : Template} {label text : String} (depth : Nat)
    (h : (label, text) ∈ template.fields) :
    ∃ field store, (shape (m := Json.Reader)).field? label = some field ∧
      Takes field.read depth (.string text) store ∧
      ∀ names, store (template.only names) = template.only (label :: names) := by
  simp only [fields, List.mem_cons, Prod.mk.injEq, List.not_mem_nil, or_false] at h
  rcases h with ⟨rfl, rfl⟩ | ⟨rfl, rfl⟩ | ⟨rfl, rfl⟩ | ⟨rfl, rfl⟩ | ⟨rfl, rfl⟩ | ⟨rfl, rfl⟩
  all_goals
    refine ⟨_, _, rfl, takes_map _ (takes_text .text depth _), ?_⟩
    intro names
    simp [only]

/-! ## Whole objects -/

theorem mem_labels_iff {label : String} :
    label ∈ labels ↔ ((shape (m := Json.Reader)).field? label).isSome := by
  rw [Record.field?_isSome]
  rfl

/-- A field has its text, and nothing else has one. -/
theorem mem_labels_of_field {template : Template} {label text : String}
    (h : (label, text) ∈ template.fields) : label ∈ labels :=
  List.mem_map_of_mem (f := Prod.fst) h

theorem exists_field (template : Template) {label : String} (h : label ∈ labels) :
    ∃ text, (label, text) ∈ template.fields := by
  obtain ⟨⟨_, text⟩, hfield, rfl⟩ : ∃ field ∈ template.fields, field.1 = label :=
    List.mem_map.mp h
  exact ⟨text, hfield⟩

/-- Fields that come by one after the other fill the template with just these fields. -/
theorem fills_fields (template : Template) (depth : Nat) :
    ∀ (members : List (String × Json)) (names : List String),
    (∀ member ∈ members, ∃ text, (member.1, text) ∈ template.fields ∧ member.2 = .string text) →
    (shape (m := Json.Reader)).Fills (fun read json store => Takes read depth json store)
      (template.only names) members
      (template.only ((members.map Prod.fst).reverse ++ names)) := by
  intro members
  induction members with
  | nil => intro names _; exact .nil
  | cons member members ih =>
    intro names h
    obtain ⟨name, json⟩ := member
    obtain ⟨⟨text, hfield, htext⟩, hmembers⟩ := List.forall_mem_cons.mp h
    cases htext
    obtain ⟨field, store, hlabel, htakes, hstore⟩ := field_reads depth hfield
    refine .cons hlabel htakes ?_
    rw [hstore, List.map_cons, List.reverse_cons, List.append_assoc]
    exact ih (name :: names) hmembers

theorem takes_described {members : List (String × Json)} {template : Template} {depth : Nat}
    (h : Describes members template) (hdepth : 2 ≤ depth) :
    Takes (read (m := Json.Reader)) depth (.object members) template := by
  let kept := members.filter fun member => ((shape (m := Json.Reader)).field? member.1).isSome
  have hkept : ∀ member ∈ kept, member ∈ members ∧ member.1 ∈ labels := by
    intro member hmember
    obtain ⟨hmember, hfield⟩ := List.mem_filter.mp hmember
    exact ⟨hmember, mem_labels_iff.mpr hfield⟩
  -- The fields that are there have their texts, and what is missing is empty.
  have hfills := fills_fields template (depth - 1) kept [] (by
    intro member hmember
    obtain ⟨hmember, hlabel⟩ := hkept member hmember
    obtain ⟨text, hfield⟩ := exists_field template hlabel
    exact ⟨text, hfield, h.text member hmember text hfield⟩)
  have hself : template.only ((kept.map Prod.fst).reverse ++ []) = template := by
    refine only_eq_self fun label text hfield hne => ?_
    obtain ⟨member, hmember, rfl⟩ := List.mem_map.mp (h.present label text hfield hne)
    rw [List.append_nil, List.mem_reverse]
    refine List.mem_map_of_mem (List.mem_filter.mpr ⟨hmember, ?_⟩)
    exact mem_labels_iff.mp (mem_labels_of_field hfield)
  have hnodup : (kept.map Prod.fst).Nodup := by
    rw [List.nodup_iff_count_le_one]
    intro label
    by_cases hlabel : label ∈ kept.map Prod.fst
    · obtain ⟨member, hmember, rfl⟩ := List.mem_map.mp hlabel
      exact Nat.le_trans (List.Sublist.count_le _ (List.filter_sublist.map _))
        (h.once _ (hkept member hmember).2)
    · rw [List.count_eq_zero_of_not_mem hlabel]
      exact Nat.zero_le 1
  rw [only_nil, hself] at hfills
  obtain ⟨names, -, hcollects⟩ := collects_of_fills hfills [] (by simp) hnodup
  -- The other members are passed over.
  refine takes_record_of_collects hdepth (collects_beside members _ _ ?_ hcollects) ?_
  · intro member hmember hfield
    refine h.other member hmember fun hlabel => ?_
    rw [mem_labels_iff, hfield] at hlabel
    exact absurd hlabel Bool.false_ne_true
  · refine Record.missing?_eq_none fun field hfield hrequired => ?_
    simp [shape, Field.spare] at hfield
    rcases hfield with rfl | rfl | rfl | rfl | rfl | rfl <;>
      exact absurd hrequired Bool.false_ne_true

/-- Each field is a text. -/
theorem field_isText {label : String} {field : Field Json.Reader Template}
    (h : (shape (m := Json.Reader)).field? label = some field) :
    ∃ store : String → Template → Template, field.read = store <$> textAs .text := by
  have hfield : field ∈ (shape (m := Json.Reader)).fields := List.mem_of_find?_eq_some h
  simp only [shape, List.mem_cons, List.not_mem_nil, or_false] at hfield
  rcases hfield with rfl | rfl | rfl | rfl | rfl | rfl <;> exact ⟨_, rfl⟩

theorem field_takes_or_refuses {label : String} {field : Field Json.Reader Template}
    (hfield : (shape (m := Json.Reader)).field? label = some field) {json : Json}
    (hjson : json.Integral) (depth : Nat) :
    (∃ store, Takes field.read depth json store) ∨ Refuses field.read depth json := by
  obtain ⟨store, hread⟩ := field_isText hfield
  rw [hread]
  by_cases htext : ∃ text, json = .string text
  · obtain ⟨text, rfl⟩ := htext
    exact .inl ⟨store text, takes_map store (takes_text .text depth text)⟩
  · exact .inr (refuses_map store (refuses_text .text hjson (not_exists.mp htext)))

theorem refuses_repeated {members : List (String × Json)} {label : String} (depth : Nat)
    (hmembers : ∀ member ∈ members, member.2.Integral) (hlabel : label ∈ labels)
    (hcount : 2 ≤ (members.map Prod.fst).count label) :
    Refuses (read (m := Json.Reader)) depth (.object members) := by
  refine refuses_record
    (stops_of_repeated (mem_labels_iff.mp hlabel) members _ _ ?_ ?_ (.inl hcount))
  · intro member hmember field hfield
    exact field_takes_or_refuses hfield (hmembers member hmember) (depth - 1)
  · intro member hmember _
    exact hmembers member hmember

/-- **A configuration is read as the template that it describes**, in whatever order its members
stand and whatever else it has; with a field that is there twice it is not read at all. -/
theorem read_configuration :
    (∀ (template : Template) (members : List (String × Json)), Describes members template →
      Json.read read (Json.object members).text = .ok template) ∧
    ∀ (members : List (String × Json)) (label : String), label ∈ labels →
      2 ≤ (members.map Prod.fst).count label → (∀ member ∈ members, member.2.Integral) →
      ∃ fault, Json.read (read (m := Json.Reader)) (Json.object members).text = .error fault := by
  refine ⟨?_, ?_⟩
  · intro template members h
    exact read_text (takes_described h (by decide))
  · intro members label hlabel hcount hmembers
    exact read_fails (refuses_repeated Json.depthLimit hmembers hlabel hcount)

/-- A value with brackets and quotes in its strings. -/
def nested : Json :=
  .object [("a\"]", .array [.null, .string "\\\"\x7d]", .object []]), ("a\"]", .int (-7))]

/-- Some fields out of order, and members around them; one is a field by its name in the body. -/
def scattered : List (String × Json) :=
  [("destDisk", .string "/dev/sda"), ("settings", nested), ("name", .string "m1"),
    ("dest_disk", .bool true), ("metadataURL", .string "http://é\n"), ("imageURL", .string "")]

theorem nested_integral : nested.Integral := by
  refine .object ?_
  simp only [List.forall_mem_cons]
  refine ⟨.array ?_, .int, by simp⟩
  simp only [List.forall_mem_cons]
  exact ⟨.null, .string, .object (by simp), by simp⟩

theorem scattered_integral : ∀ member ∈ scattered, member.2.Integral := by
  unfold scattered
  simp only [List.forall_mem_cons]
  exact ⟨.string, nested_integral, .string, .bool, .string, .string, by simp⟩

theorem scattered_describes : Describes scattered ⟨"m1", "http://é\n", "", "/dev/sda", "", ""⟩ where
  text := by simp [scattered, fields]
  once := by decide
  present := by
    intro label text hfield hne
    simp only [fields, List.mem_cons, Prod.mk.injEq, List.not_mem_nil, or_false] at hfield
    rcases hfield with ⟨rfl, rfl⟩ | ⟨rfl, rfl⟩ | ⟨rfl, rfl⟩ | ⟨rfl, rfl⟩ | ⟨rfl, rfl⟩ | ⟨rfl, rfl⟩
    -- The two that are missing are empty.
    all_goals first | decide | exact absurd rfl hne
  other := fun member hmember _ => scattered_integral member hmember

theorem read_configuration_scattered :
    Describes scattered ⟨"m1", "http://é\n", "", "/dev/sda", "", ""⟩ ∧
    Json.read read (Json.object scattered).text = .ok ⟨"m1", "http://é\n", "", "/dev/sda", "", ""⟩ ∧
    2 ≤ ((("name", .string "m1") :: scattered).map Prod.fst).count "name" ∧
    ∃ fault, Json.read (read (m := Json.Reader))
      (Json.object (("name", .string "m1") :: scattered)).text = .error fault := by
  have htwice : 2 ≤ ((("name", Json.string "m1") :: scattered).map Prod.fst).count "name" := by
    decide
  refine ⟨scattered_describes, read_configuration.1 _ _ scattered_describes, htwice,
    read_configuration.2 _ "name" (by decide) htwice ?_⟩
  exact List.forall_mem_cons.mpr ⟨.string, scattered_integral⟩

end Provisioning.Workflow.Template
