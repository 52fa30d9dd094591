import Provisioning.Job.Template
import Provisioning.Proofs.Json.Format
import Provisioning.Proofs.Source.Reading
import Provisioning.Proofs.Workflow.JsonAsYaml

/-!
# Jobs are read from their JSON form

Whatever the format is, it reads the JSON form of a job as the job. The words for actions and
devices are read back as what they are for, an action that is left out is absent, and the JSON text
of a job holds nothing that YAML would take for something else.
-/

namespace Provisioning.Job

open Json (ShortName)
open Partners

variable {m : Type → Type} [Source m] {levels : Nat}

/-! ## Reading -/

theorem PowerAction.reads (format : JsonReading m) (action : PowerAction) :
    format.Reads levels PowerAction.read action.toJson action :=
  format.choice (by cases action <;> decide)

theorem BootDevice.reads (format : JsonReading m) (device : BootDevice) :
    format.Reads levels BootDevice.read device.toJson device :=
  format.choice (by cases device; decide)

/-- **The devices of the next boot are read from their JSON form**, even if there are none. -/
theorem BootAction.reads (format : JsonReading m) (action : BootAction) :
    format.Reads (levels + 2) BootAction.read action.toJson action := by
  have hdevice : format.Reads (levels + 1) (Source.list BootDevice.read)
      (.array (action.device.map BootDevice.toJson)) action.device := by
    refine format.list ?_
    rw [List.forall₂_map_left_iff, List.forall₂_same]
    exact fun device _ => BootDevice.reads format device
  show format.Reads (levels + 2) BootAction.read (.ofMembers [
    Json.member "device" (.array (action.device.map BootDevice.toJson)),
    Json.member "efiBoot" (.bool action.efiBoot)]) action
  refine format.ofMembers ["device", "efiBoot"]
    (format.written rfl hdevice <| format.written rfl (format.flag _) <| .done rfl) (by decide) ?_
  intro field hfield hrequired
  simp [BootAction.shape, Field.needed, Field.spare] at hfield
  rcases hfield with rfl | rfl
  · exact ⟨_, List.mem_cons_self⟩
  · exact absurd hrequired Bool.false_ne_true

/-- **A step is read from its JSON form**, whichever actions it has. -/
theorem Task.reads (format : JsonReading m) (task : Task) :
    format.Reads (levels + 3) Task.read task.toJson task := by
  refine format.ofMembers ["powerAction", "oneTimeBootDeviceAction"]
    (format.spare rfl
        (format.optional_map fun action => ⟨rfl, PowerAction.reads format action⟩) ?power <|
      format.spare rfl
        (format.optional_map fun action => ⟨rfl, BootAction.reads format action⟩) ?boot <|
      .done rfl) (by decide) ?needed
  case power => intro habsent; rw [Option.map_eq_none_iff.mp habsent]; rfl
  case boot => intro habsent; rw [Option.map_eq_none_iff.mp habsent]; rfl
  case needed =>
    intro field hfield hrequired
    simp [Task.shape, Field.spare] at hfield
    rcases hfield with rfl | rfl <;> exact absurd hrequired Bool.false_ne_true

/-- **A job is read from its JSON form.** -/
theorem reads (format : JsonReading m) (tasks : List Task) :
    format.Reads (levels + 4) read (toJson tasks) tasks := by
  refine format.list ?_
  rw [List.forall₂_map_left_iff, List.forall₂_same]
  exact fun task _ => Task.reads format task

/-! ## The JSON text as YAML -/

/-- The names of fields are short. -/
theorem shortName_field : ∀ name ∈ ["powerAction", "oneTimeBootDeviceAction", "device", "efiBoot"],
    ShortName name := by
  simp only [List.forall_mem_cons]
  refine ⟨?_, ?_, ?_, ?_, by simp⟩ <;> exact ⟨List.all_eq_true.mp (by decide), by decide⟩

theorem PowerAction.toJson_portable (action : PowerAction) : action.toJson.Portable := by
  cases action <;> exact .string (List.all_eq_true.mp (by decide))

theorem BootDevice.toJson_portable (device : BootDevice) : device.toJson.Portable := by
  cases device; exact .string (List.all_eq_true.mp (by decide))

theorem BootAction.toJson_portable (action : BootAction) : action.toJson.Portable := by
  have hdevice : (Json.array (action.device.map BootDevice.toJson)).Portable := by
    refine .array fun json hmem => ?_
    obtain ⟨device, -, rfl⟩ := List.mem_map.mp hmem
    exact device.toJson_portable
  refine .object ?_ ?_
  · simp only [List.forall_mem_cons]
    exact ⟨shortName_field _ (by simp), shortName_field _ (by simp), by simp⟩
  · simp only [List.forall_mem_cons]
    exact ⟨hdevice, .bool, by simp⟩

theorem Task.toJson_portable (task : Task) : task.toJson.Portable := by
  refine Json.portable_ofMembers ?_
  simp only [List.forall_mem_cons]
  refine ⟨Workflow.portable_member? (shortName_field _ (by simp)) fun form hform => ?_,
    Workflow.portable_member? (shortName_field _ (by simp)) fun form hform => ?_, by simp⟩
  · obtain ⟨action, -, rfl⟩ := Option.map_eq_some_iff.mp hform
    exact action.toJson_portable
  · obtain ⟨action, -, rfl⟩ := Option.map_eq_some_iff.mp hform
    exact action.toJson_portable

theorem toJson_portable (tasks : List Task) : (toJson tasks).Portable := by
  refine .array fun json hmem => ?_
  obtain ⟨task, -, rfl⟩ := List.mem_map.mp hmem
  exact task.toJson_portable

/-! ## Both readers -/

/-- Every job survives JSON. -/
theorem read_toJson_text (tasks : List Task) : Json.read read (toJson tasks).text = .ok tasks := by
  have hdepth : 0 + 4 < Json.depthLimit := by decide
  exact Json.Reader.read_text (reads Json.Reader.jsonReading tasks _ hdepth)

/-- YAML reads every job from its JSON text. -/
theorem readTasks_toJson_text (tasks : List Task) : readTasks (toJson tasks).text = .ok tasks := by
  have hreads : Yaml.Reader.yamlReading.Reads Yaml.depthLimit read (toJson tasks) tasks :=
    @reads _ _ (Yaml.depthLimit - 4) Yaml.Reader.yamlReading tasks
  unfold readTasks
  rw [Yaml.read_collection (toJson_portable tasks) rfl hreads]
  rfl

end Provisioning.Job
