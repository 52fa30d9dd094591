import Provisioning.Proofs.Template.Engine
import Provisioning.Proofs.Template.Recovery
import Provisioning.Workflow.Template

/-!
# The text of a workflow

Rendering fails just where validation does, and with its fault: the body is tidy and its
context complete, so the engine has nothing to refuse. Otherwise its text is the body with
every placeholder replaced by its field in one pass, and, as long as no value holds a
placeholder itself, what replacing the placeholders of one field after the other gives, in
whatever order. As long as no field ends a line, the text tells what the fields were.
-/

namespace Provisioning.Workflow.Template

open Provisioning.Template (Engine.render replaceEach replaceAll)
open Provisioning.Template.Engine (isName render_source)
open Provisioning.Template.Body

/-- All placeholders. -/
def Slot.all : List Slot :=
  [.name, .metadataUrl, .imageUrl, .destDisk, .destPartition, .deviceTemplateName]

theorem Slot.mem_all (slot : Slot) : slot ∈ Slot.all := by
  cases slot <;> decide

theorem Slot.wordName (slot : Slot) : WordName slot.label := by
  cases slot <;> exact ⟨by decide, by decide, by decide⟩

theorem Slot.label_injective : Function.Injective Slot.label := by
  intro a b h
  cases a <;> cases b <;> first | rfl | exact absurd h (by decide)

/-- The fixed parts of the body hold no braces, and no line of it has two fields. -/
theorem body_isTidy : isTidy body = true := by
  unfold body
  simp only [isTidy_line, isTidy_lineWith, isTidy_flatten_nil, Bool.and_eq_true, Bool.and_true]
  repeat' apply And.intro
  all_goals
    first
    | exact hasNoBrace_of_eq rfl (by decide)
    | exact hasNoBrace_append (hasNoBrace_of_eq rfl (by decide)) (hasNoBrace_of_eq rfl (by decide))

/-- The text of the body with all placeholders replaced in one pass. -/
def replaced (template : Template) : String :=
  String.ofList (replaceEach (replacements Slot.label template.value Slot.all) 0 source.toList)

theorem replaced_eq_fill (template : Template) :
    template.replaced = String.ofList (fill template.value body) := by
  unfold replaced source
  rw [String.toList_ofList,
    replaceEach_source Slot.wordName Slot.label_injective Slot.mem_all body_isTidy]

/-- **The engine fills the body**: it can cut the text, and no placeholder lacks a value. -/
theorem engine_render (template : Template) :
    Engine.render source template.context = .ok (String.ofList (fill template.value body)) := by
  have hnames : ∀ slot : Slot, isName slot.label.toList = true := by
    intro slot
    cases slot <;> decide
  refine render_source hnames body_isTidy fun slot => ?_
  cases slot <;> rfl

theorem render_of_validate {template : Template} (h : template.validate = .ok ()) :
    template.render = .ok (String.ofList (fill template.value body)) := by
  unfold render
  rw [h, Outcome.ok_bind, engine_render]

theorem render_eq (template : Template) :
    template.render = template.validate.map fun _ => template.replaced := by
  cases hvalid : template.validate with
  | error fault =>
    unfold render
    rw [hvalid]
    rfl
  | ok _ =>
    rw [render_of_validate hvalid, replaced_eq_fill]
    rfl

theorem validate_eq_ok_iff {template : Template} :
    template.validate = .ok () ↔ template.name ≠ "" ∧ template.imageUrl ≠ "" := by
  unfold validate
  by_cases hname : template.name = "" <;> by_cases himage : template.imageUrl = "" <;>
    simp [hname, himage]

/-- Only a missing name or image stops a rendering, and the name is looked at first. -/
theorem validate_error {template : Template} {fault : Fault}
    (h : template.validate = .error fault) :
    (fault = .missingName ∧ template.name = "") ∨
      (fault = .missingImageUrl ∧ template.name ≠ "" ∧ template.imageUrl = "") := by
  unfold validate at h
  by_cases hname : template.name = ""
  · rw [if_pos (by simp [hname])] at h
    exact .inl ⟨(Except.error.inj h).symm, hname⟩
  · rw [if_neg (by simp [hname])] at h
    by_cases hurl : template.imageUrl = ""
    · rw [if_pos (by simp [hurl])] at h
      exact .inr ⟨(Except.error.inj h).symm, hname, hurl⟩
    · rw [if_neg (by simp [hurl])] at h
      exact absurd h (by simp)

set_option maxRecDepth 4000 in
/-- The line ends at the two ends of the body are kept. -/
theorem replaced_lineEnds (template : Template) :
    ∃ middle, template.replaced = "\n" ++ middle ++ "\n" := by
  have hends : body = line "" ++ (body.drop 2).dropLast ++ [.literal "\n"] := rfl
  refine ⟨String.ofList (fill template.value (body.drop 2).dropLast), ?_⟩
  rw [replaced_eq_fill, hends, fill_append, fill_append, String.ofList_append, String.ofList_append]
  rfl

/-- A value that holds no placeholder of the body. -/
def Inert (value : String) : Prop :=
  ∀ slot : Slot, ¬ (placeholder slot.label).toList <:+: value.toList

/-- Replacing the placeholders of one field after the other. -/
def replacedInOrder (template : Template) (order : List Slot) : String :=
  order.foldl (fun text slot => replaceAll text (placeholder slot.label) (template.value slot))
    source

theorem replacedInOrder_eq {template : Template} (hfree : ∀ slot, Inert (template.value slot))
    {order : List Slot} (horder : order.Perm Slot.all) :
    template.replacedInOrder order = template.replaced := by
  rw [replaced_eq_fill]
  exact foldl_replaceAll Slot.wordName Slot.label_injective hfree body_isTidy
    fun slot => horder.mem_iff.mpr slot.mem_all

/--
**Rendering is one simultaneous substitution.**

It fails just where validation does, with its fault, which is always a missing field. Otherwise
the text is the body with all placeholders replaced in a single pass, between the line ends of
the body. Values without placeholders may as well be put in one after the other, in any order.
-/
theorem render_eq_substitution (template : Template) :
    template.render = template.validate.map (fun _ => template.replaced) ∧
      (∀ fault, template.validate = .error fault →
        (fault = .missingName ∧ template.name = "") ∨
          (fault = .missingImageUrl ∧ template.name ≠ "" ∧ template.imageUrl = "")) ∧
      (∃ middle, template.replaced = "\n" ++ middle ++ "\n") ∧
      (template.validate = .ok () → (∀ slot, Inert (template.value slot)) →
        ∀ order, order.Perm Slot.all → template.render = .ok (template.replacedInOrder order)) := by
  refine ⟨template.render_eq, fun _ h => validate_error h, template.replaced_lineEnds, ?_⟩
  intro hvalid hfree order horder
  rw [template.render_eq, hvalid, replacedInOrder_eq hfree horder]
  rfl

/-- A template whose values hold parts of placeholders, but none as a whole. -/
def teasing : Template :=
  ⟨"\x7b\x7b name", "name \x7d\x7d", "\n \x7d\x7d", "", "\x7b\x7b dest_disk ", "name"⟩

theorem render_eq_substitution_teasing :
    teasing.validate = .ok () ∧ (∀ slot, Inert (teasing.value slot)) ∧
      Slot.all.reverse.Perm Slot.all ∧
      teasing.render = .ok (teasing.replacedInOrder Slot.all.reverse) := by
  have hvalid : teasing.validate = .ok () := rfl
  have hfree : ∀ slot, Inert (teasing.value slot) := by
    intro slot other hin
    have hopen : '\x7b' ∈ (placeholder other.label).toList := by
      rw [placeholder_toList]; simp
    have hclose : '\x7d' ∈ (placeholder other.label).toList := by
      rw [placeholder_toList]; simp
    cases slot with
    | name => exact absurd (hin.subset hclose) (by decide)
    | destPartition => exact absurd (hin.subset hclose) (by decide)
    | metadataUrl => exact absurd (hin.subset hopen) (by decide)
    | imageUrl => exact absurd (hin.subset hopen) (by decide)
    | destDisk => exact absurd (hin.subset hopen) (by decide)
    | deviceTemplateName => exact absurd (hin.subset hopen) (by decide)
  have horder : Slot.all.reverse.Perm Slot.all := List.reverse_perm _
  exact ⟨hvalid, hfree, horder,
    (render_eq_substitution teasing).2.2.2 hvalid hfree Slot.all.reverse horder⟩

/-- What is read of the filled body is the document. -/
theorem renderDocument_of_read {template : Template} {document : Document}
    (hvalid : template.validate = .ok ())
    (hread : Yaml.read Document.read (String.ofList (fill template.value body)) = .ok document) :
    template.renderDocument = .ok document := by
  unfold renderDocument readDocument
  rw [render_of_validate hvalid]
  -- The text is never looked at again, so it is better not there.
  generalize String.ofList (fill template.value body) = text at hread
  show (Yaml.read Document.read text).mapError Fault.yaml = _
  rw [hread]
  rfl

/-! ## What the text tells about the fields -/

/-- Two templates put the same values into the body. -/
structure Agree (template other : Template) : Prop where
  name : template.name = other.name
  metadataUrl : template.metadataUrl = other.metadataUrl
  imageUrl : template.imageUrl = other.imageUrl
  destDisk : template.destDisk = other.destDisk
  destPartition : template.destPartition = other.destPartition
  device : template.effectiveDevice = other.effectiveDevice

/-- No field ends a line. -/
structure OneLine (template : Template) : Prop where
  name : '\n' ∉ template.name.toList
  metadataUrl : '\n' ∉ template.metadataUrl.toList
  imageUrl : '\n' ∉ template.imageUrl.toList
  destDisk : '\n' ∉ template.destDisk.toList
  destPartition : '\n' ∉ template.destPartition.toList
  deviceTemplateName : '\n' ∉ template.deviceTemplateName.toList

theorem agree_iff_value_eq {template other : Template} :
    Agree template other ↔ ∀ slot, template.value slot = other.value slot := by
  constructor
  · intro h slot
    cases slot with
    | name => exact h.name
    | metadataUrl => exact h.metadataUrl
    | imageUrl => exact h.imageUrl
    | destDisk => exact h.destDisk
    | destPartition => exact h.destPartition
    | deviceTemplateName => exact h.device
  · intro h
    exact ⟨h .name, h .metadataUrl, h .imageUrl, h .destDisk, h .destPartition,
      h .deviceTemplateName⟩

theorem OneLine.effectiveDevice {template : Template} (h : template.OneLine) :
    '\n' ∉ template.effectiveDevice.toList := by
  unfold Template.effectiveDevice
  by_cases hdevice : template.deviceTemplateName = ""
  · rw [if_pos (by simp [hdevice])]
    decide
  · rw [if_neg (by simp [hdevice])]
    exact h.deviceTemplateName

theorem OneLine.value {template : Template} (h : template.OneLine) (slot : Slot) :
    '\n' ∉ (template.value slot).toList := by
  cases slot with
  | name => exact h.name
  | metadataUrl => exact h.metadataUrl
  | imageUrl => exact h.imageUrl
  | destDisk => exact h.destDisk
  | destPartition => exact h.destPartition
  | deviceTemplateName => exact h.effectiveDevice

/-- Is a piece of the body the place of a field? -/
def isPlaceOf (slot : Slot) : Provisioning.Template.Piece Slot → Bool
  | .literal _ => false
  | .field other => other == slot

/-- The body has a place for every field. -/
theorem field_mem_body (slot : Slot) : .field slot ∈ body := by
  have hany : body.any (isPlaceOf slot) = true := by cases slot <;> decide
  obtain ⟨piece, hmem, hplace⟩ := List.any_eq_true.mp hany
  cases piece with
  | literal text => exact absurd hplace (by simp [isPlaceOf])
  | field other =>
    rw [← beq_iff_eq.mp hplace]
    exact hmem

theorem render_congr {template other : Template} (h : template.validate = .ok ())
    (hother : other.validate = .ok ()) (hagree : Agree template other) :
    template.render = other.render := by
  have hvalue : template.value = other.value := funext (agree_iff_value_eq.mp hagree)
  rw [render_of_validate h, render_of_validate hother, hvalue]

theorem agree_of_render_eq {template other : Template} (h : template.validate = .ok ())
    (hother : other.validate = .ok ()) (hline : template.OneLine) (hline' : other.OneLine)
    (hrender : template.render = other.render) : Agree template other := by
  rw [render_of_validate h, render_of_validate hother] at hrender
  have hfill : fill template.value body = fill other.value body :=
    String.ofList_injective (Except.ok.inj hrender)
  exact agree_iff_value_eq.mpr fun slot =>
    value_eq_of_fill_eq hline.value hline'.value body body_isTidy hfill slot (field_mem_body slot)

/-- One of two device names is missing, and the other is what stands in for a missing one. -/
def Exchanged (device other : String) : Prop :=
  (device = "" ∧ other = defaultDevice) ∨ (device = defaultDevice ∧ other = "")

/-- Templates that agree are the same, but for a missing device name and the explicit one. -/
theorem agree_iff_eq_or_exchanged {template other : Template} :
    Agree template other ↔ template = other ∨
      (other = { template with deviceTemplateName := other.deviceTemplateName } ∧
        Exchanged template.deviceTemplateName other.deviceTemplateName) := by
  obtain ⟨name, metadataUrl, imageUrl, destDisk, destPartition, device⟩ := template
  obtain ⟨name', metadataUrl', imageUrl', destDisk', destPartition', device'⟩ := other
  constructor
  · intro ⟨hname, hmetadata, himage, hdisk, hpartition, hdevice⟩
    dsimp only at hname hmetadata himage hdisk hpartition
    subst hname hmetadata himage hdisk hpartition
    dsimp only [effectiveDevice] at hdevice
    by_cases hempty : device = "" <;> by_cases hempty' : device' = ""
    · exact .inl (by rw [hempty, hempty'])
    · rw [if_pos (by simp [hempty]), if_neg (by simp [hempty'])] at hdevice
      exact .inr ⟨rfl, .inl ⟨hempty, hdevice.symm⟩⟩
    · rw [if_neg (by simp [hempty]), if_pos (by simp [hempty'])] at hdevice
      exact .inr ⟨rfl, .inr ⟨hdevice, hempty'⟩⟩
    · rw [if_neg (by simp [hempty]), if_neg (by simp [hempty'])] at hdevice
      exact .inl (by rw [hdevice])
  · rintro (heq | ⟨heq, hdevice⟩)
    · rw [heq]
      exact ⟨rfl, rfl, rfl, rfl, rfl, rfl⟩
    · rw [heq]
      refine ⟨rfl, rfl, rfl, rfl, rfl, ?_⟩
      rcases hdevice with ⟨hleft, hright⟩ | ⟨hleft, hright⟩
      · dsimp only at hleft hright
        rw [hleft, hright]
        rfl
      · dsimp only at hleft hright
        rw [hleft, hright]
        rfl

/--
**The text tells the fields.**

Templates that put the same values into the body have one text. If no field ends a line, nothing
else has: only a missing device name cannot be told from its explicit stand-in.
-/
theorem render_determines_fields {template other : Template} (h : template.validate = .ok ())
    (hother : other.validate = .ok ()) :
    (Agree template other → ∃ text, template.render = .ok text ∧ other.render = .ok text) ∧
      (template.OneLine → other.OneLine → template.render = other.render →
        Agree template other) ∧
      (template.OneLine → other.OneLine → (template.render = other.render ↔
        template = other ∨
          (other = { template with deviceTemplateName := other.deviceTemplateName } ∧
            Exchanged template.deviceTemplateName other.deviceTemplateName))) := by
  refine ⟨fun hagree => ?_, agree_of_render_eq h hother, fun hline hline' => ?_⟩
  · exact ⟨_, render_of_validate h, render_congr h hother hagree ▸ render_of_validate h⟩
  · rw [← agree_iff_eq_or_exchanged]
    exact ⟨agree_of_render_eq h hother hline hline', render_congr h hother⟩

/-- A template without a device name. -/
def unbound : Template :=
  { new "a\"\r: {{ name }}" "DEST_DISK: b" with destDisk := " rw\"" }

/-- The same template, with the device name that stands in for a missing one. -/
def bound : Template := { unbound with deviceTemplateName := defaultDevice }

theorem render_determines_fields_unbound :
    unbound.validate = .ok () ∧ bound.validate = .ok () ∧ unbound.OneLine ∧ bound.OneLine ∧
      unbound ≠ bound ∧ unbound.render = bound.render := by
  have hvalid : unbound.validate = .ok () := rfl
  have hvalid' : bound.validate = .ok () := rfl
  have hline : unbound.OneLine := ⟨by decide, by decide, by decide, by decide, by decide, by decide⟩
  have hline' : bound.OneLine := ⟨by decide, by decide, by decide, by decide, by decide, by decide⟩
  refine ⟨hvalid, hvalid', hline, hline', by decide, ?_⟩
  exact ((render_determines_fields hvalid hvalid').2.2 hline hline').mpr
    (.inr ⟨rfl, .inl ⟨rfl, rfl⟩⟩)

end Provisioning.Workflow.Template
