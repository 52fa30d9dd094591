import Provisioning.Proofs.Job.JsonForm

/-!
# What the library is fed with survives JSON

Jobs and the fields of a workflow come in as JSON or as YAML. The JSON text of either is read back
as what it was written from, by both readers: a field stays the text it is, even if it would be
null, a truth value or a number without its quotes.
-/

namespace Provisioning

open Yaml (isDirect)

namespace Workflow.Template

variable {m : Type → Type} [Source m] {levels : Nat}

/-- The texts of all fields. -/
def texts (template : Template) : List String :=
  [template.name, template.metadataUrl, template.imageUrl, template.destDisk,
    template.destPartition, template.deviceTemplateName]

/-- **A template is read from its JSON form.** -/
theorem reads (format : JsonReading m) (template : Template) :
    format.Reads (levels + 1) read template.toJson template := by
  show format.Reads (levels + 1) read (.ofMembers [
    Json.member "name" (.string template.name),
    Json.member "metadataURL" (.string template.metadataUrl),
    Json.member "imageURL" (.string template.imageUrl),
    Json.member "destDisk" (.string template.destDisk),
    Json.member "destPartition" (.string template.destPartition),
    Json.member "deviceTemplateName" (.string template.deviceTemplateName)]) template
  refine format.ofMembers
    ["name", "metadataURL", "imageURL", "destDisk", "destPartition", "deviceTemplateName"]
    (format.written rfl (format.text _) <| format.written rfl (format.text _) <|
      format.written rfl (format.text _) <| format.written rfl (format.text _) <|
      format.written rfl (format.text _) <| format.written rfl (format.text _) <| .done rfl)
    (by decide) ?_
  intro field hfield hrequired
  simp [shape, Field.spare] at hfield
  rcases hfield with rfl | rfl | rfl | rfl | rfl | rfl <;> exact absurd hrequired Bool.false_ne_true

theorem shortName_label : ∀ name ∈
    ["name", "metadataURL", "imageURL", "destDisk", "destPartition", "deviceTemplateName"],
    Json.ShortName name := by
  simp only [List.forall_mem_cons]
  refine ⟨?_, ?_, ?_, ?_, ?_, ?_, by simp⟩ <;> exact ⟨List.all_eq_true.mp (by decide), by decide⟩

theorem toJson_portable {template : Template}
    (h : ∀ text ∈ template.texts, ∀ c ∈ text.toList, isDirect c = true) :
    template.toJson.Portable := by
  refine .object ?_ ?_
  · intro member hmember
    exact shortName_label member.1 (List.mem_map_of_mem (f := Prod.fst) hmember)
  · intro member hmember
    simp only [texts, List.forall_mem_cons] at h
    simp only [List.mem_cons, List.not_mem_nil, or_false] at hmember
    rcases hmember with rfl | rfl | rfl | rfl | rfl | rfl
    · exact .string h.1
    · exact .string h.2.1
    · exact .string h.2.2.1
    · exact .string h.2.2.2.1
    · exact .string h.2.2.2.2.1
    · exact .string h.2.2.2.2.2.1

/-- Every template survives JSON. -/
theorem read_toJson_text (template : Template) :
    Json.read read template.toJson.text = .ok template := by
  have hdepth : 0 + 1 < Json.depthLimit := by decide
  exact Json.Reader.read_text (reads Json.Reader.jsonReading template _ hdepth)

/-- YAML reads a template of direct characters from its JSON text. -/
theorem readYaml_toJson_text {template : Template}
    (h : ∀ text ∈ template.texts, ∀ c ∈ text.toList, isDirect c = true) :
    Yaml.read read template.toJson.text = .ok template :=
  Yaml.read_collection (toJson_portable h) rfl
    (@reads _ _ (Yaml.depthLimit - 1) Yaml.Reader.yamlReading template)

end Workflow.Template

/--
**Jobs and templates survive JSON, whichever reader reads the text.**

Jobs hold no texts of their own, so nothing is asked of them. The fields of a template may hold all
characters that stand in a YAML text as they are, or that JSON escapes.
-/
theorem jobs_and_templates_survive_json :
    (∀ tasks : List Job.Task,
      Json.read Job.read (Job.toJson tasks).text = .ok tasks ∧
        Job.readTasks (Job.toJson tasks).text = .ok tasks) ∧
      ∀ template : Workflow.Template,
        (∀ text ∈ template.texts, ∀ c ∈ text.toList, isDirect c = true) →
          Json.read Workflow.Template.read template.toJson.text = .ok template ∧
            Yaml.read Workflow.Template.read template.toJson.text = .ok template :=
  ⟨fun tasks => ⟨Job.read_toJson_text tasks, Job.readTasks_toJson_text tasks⟩,
    fun template h => ⟨template.read_toJson_text, Workflow.Template.readYaml_toJson_text h⟩⟩

/-- A template whose fields would be null, a truth value, numbers or a comment without quotes. -/
def Workflow.Template.retypable : Workflow.Template :=
  ⟨"null", "true", "0x10", "", "\x00\n\t\"\\", "# .inf"⟩

theorem jobs_and_templates_survive_json_retypable :
    (∀ text ∈ Workflow.Template.retypable.texts, ∀ c ∈ text.toList, isDirect c = true) ∧
      Yaml.read Workflow.Template.read Workflow.Template.retypable.toJson.text
        = .ok Workflow.Template.retypable ∧
      Job.readTasks (Job.toJson [⟨none, none⟩, ⟨some .on, some ⟨[], true⟩⟩]).text
        = .ok [⟨none, none⟩, ⟨some .on, some ⟨[], true⟩⟩] := by
  have hdirect : ∀ text ∈ Workflow.Template.retypable.texts,
      ∀ c ∈ text.toList, isDirect c = true := by
    have hall : Workflow.Template.retypable.texts.all (fun text => text.toList.all isDirect)
        = true := by
      decide
    exact fun text htext => List.all_eq_true.mp (List.all_eq_true.mp hall text htext)
  exact ⟨hdirect, (jobs_and_templates_survive_json.2 _ hdirect).2,
    (jobs_and_templates_survive_json.1 _).2⟩

end Provisioning
