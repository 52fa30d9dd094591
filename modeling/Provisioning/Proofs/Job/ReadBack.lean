import Provisioning.Proofs.Job.JsonForm
import Provisioning.Proofs.Template.Engine
import Provisioning.Proofs.Yaml.PlainWord

/-!
# Jobs are read back from their lines

A step with one action is one or more lines: a dash, the name of the action, and what belongs to
it. The devices of a boot action stand behind dashes at the column of their name, as in the body of
the job. Any number of such steps, with any number of empty lines between them, is read as the
list of these steps, so jobs may be put one behind the other.
-/

namespace Provisioning.Job

open Yaml (Layout lead)
open Yaml.Layout
open Provisioning.Template.Body (fill hasNoBrace_of_eq isTidy isTidy_flatten_nil isTidy_line
  isTidy_lineWith)
open Provisioning.Template.Engine (isName render_source)

/-! ## The lines of a step -/

/-- The word for a flag. -/
def flagWord (flag : Bool) : String := if flag then "true" else "false"

/-- The line of a power action. -/
def PowerAction.line (action : PowerAction) : String := "- powerAction: \"" ++ action.name ++ "\"\n"

/-- The line of a device. -/
def BootDevice.line (device : BootDevice) : String := "    - " ++ device.name ++ "\n"

/-- The lines of a boot action. -/
def BootAction.lines (action : BootAction) : String :=
  "- oneTimeBootDeviceAction:\n    device:\n" ++ String.join (action.device.map BootDevice.line) ++
    "    efiBoot: " ++ flagWord action.efiBoot ++ "\n"

/-- The lines of a step. -/
def Task.lines (task : Task) : String :=
  match task.powerAction, task.bootAction with
  | some action, _ => action.line
  | none, some action => action.lines
  | none, none => ""

/-- A step with just one action. If this sets the devices of the next boot, there is one. -/
inductive Task.Single : Task → Prop where
  | power (action : PowerAction) : Single (.power action)
  | boot {device : List BootDevice} (efiBoot : Bool) : device ≠ [] →
    Single ⟨none, some ⟨device, efiBoot⟩⟩

/-! ## The layout of a step -/

/-- The layout of a power action. -/
def PowerAction.layout (action : PowerAction) : Layout :=
  .mapping 2 [("powerAction", .quoted action.name)]

/-- The layout of the devices and the flag of a boot action. -/
def BootAction.layoutMembers (action : BootAction) : List (String × Layout) := [
  ("device", .aligned 4 (action.device.map fun device => .plain device.name device.toJson)),
  ("efiBoot", .plain (flagWord action.efiBoot) (.bool action.efiBoot))]

/-- The layout of a boot action. -/
def BootAction.layout (action : BootAction) : Layout :=
  .mapping 2 [("oneTimeBootDeviceAction", .mapping 4 action.layoutMembers)]

/-- The layout of a step behind its dash. -/
def Task.layout (task : Task) : Layout :=
  match task.powerAction, task.bootAction with
  | some action, _ => action.layout
  | none, some action => action.layout
  | none, none => .absent

theorem BootDevice.proper (device : BootDevice) :
    Proper true 4 (.plain device.name device.toJson) := by
  cases device
  exact proper_literalWord rfl rfl

theorem proper_flag (flag : Bool) : Proper false 4 (.plain (flagWord flag) (.bool flag)) := by
  cases flag with
  | false => exact proper_literal rfl rfl fun head htag => .bool htag Yaml.Meaning.ofPlain_false
  | true => exact proper_literal rfl rfl fun head htag => .bool htag Yaml.Meaning.ofPlain_true

theorem BootAction.proper {action : BootAction} (h : action.device ≠ []) :
    Proper true 0 action.layout := by
  obtain ⟨device, devices, hdevice⟩ := List.exists_cons_of_ne_nil h
  have hdevices : Proper false 4
      (.aligned 4 (action.device.map fun device => .plain device.name device.toJson)) := by
    rw [hdevice, List.map_cons]
    refine .aligned fun layout hlayout => ?_
    rw [← List.map_cons (f := fun device : BootDevice =>
      Layout.plain device.name device.toJson)] at hlayout
    obtain ⟨other, -, rfl⟩ := List.mem_map.mp hlayout
    exact other.proper
  have hmembers : Proper false 2 (.mapping 4 action.layoutMembers) := by
    refine .mapping (by decide) (by simp) ?_ ?_
    · simp only [List.forall_mem_cons]
      exact ⟨isName_literal rfl rfl, isName_literal rfl rfl, by simp⟩
    · simp only [List.forall_mem_cons]
      exact ⟨hdevices, proper_flag action.efiBoot, by simp⟩
  refine .mapping (by decide) (fun _ => rfl) ?_ ?_
  · simp only [List.forall_mem_cons]
    exact ⟨isName_literal rfl rfl, by simp⟩
  · simp only [List.forall_mem_cons]
    exact ⟨hmembers, by simp⟩

theorem PowerAction.proper (action : PowerAction) : Proper true 0 action.layout := by
  refine .mapping (by decide) (fun _ => rfl) ?_ ?_
  · simp only [List.forall_mem_cons]
    exact ⟨isName_literal rfl rfl, by simp⟩
  · simp only [List.forall_mem_cons]
    cases action <;> exact ⟨proper_literalQuoted rfl rfl, by simp⟩

theorem Task.Single.proper {task : Task} (h : task.Single) : Proper true 0 task.layout := by
  cases h with
  | power action => exact action.proper
  | boot efiBoot hdevice => exact BootAction.proper hdevice

/-- The document of the layout is the JSON form of the step. -/
theorem Task.Single.json {task : Task} (h : task.Single) : task.layout.json = task.toJson := by
  cases h with
  | power action => rfl
  | @boot device efiBoot _ =>
    have hdevice : itemsJson (device.map fun device => .plain device.name device.toJson)
        = device.map BootDevice.toJson := by
      rw [itemsJson_eq_map, List.map_map]
      rfl
    show Json.object [("oneTimeBootDeviceAction", .object [("device", .array (itemsJson _)), _])]
      = _
    rw [hdevice]
    rfl

theorem devices_text (devices : List BootDevice) :
    Layout.itemsText (Yaml.spaces 4) 4 (devices.map fun device => .plain device.name device.toJson)
      = (String.join (devices.map BootDevice.line)).toList := by
  induction devices with
  | nil => rfl
  | cons device devices ih =>
    rw [List.map_cons, List.map_cons, String.join_cons, String.toList_append, itemsText, ih]
    cases device
    rfl

/-- The text of the layout is the lines of the step. -/
theorem Task.Single.text {task : Task} (h : task.Single) :
    task.lines.toList = '-' :: task.layout.text true := by
  cases h with
  | power action => cases action <;> rfl
  | @boot device efiBoot hdevice =>
    obtain ⟨first, others, rfl⟩ := List.exists_cons_of_ne_nil hdevice
    have htext : (BootAction.lines ⟨first :: others, efiBoot⟩).toList
        = "- oneTimeBootDeviceAction:\n    device:\n".toList ++
          (itemsText (Yaml.spaces 4) 4
            ((first :: others).map fun device => .plain device.name device.toJson) ++
            ("    efiBoot: ".toList ++ ((flagWord efiBoot).toList ++ "\n".toList))) := by
      unfold BootAction.lines
      rw [String.toList_append, String.toList_append, String.toList_append, String.toList_append,
        devices_text, List.append_assoc, List.append_assoc, List.append_assoc]
    have hlayout : (Task.layout ⟨none, some ⟨first :: others, efiBoot⟩⟩).text true
        = ' ' :: ("oneTimeBootDeviceAction".toList ++ ':' :: '\n' :: (Yaml.spaces 4 ++
          ("device".toList ++ ':' :: '\n' :: (itemsText (Yaml.spaces 4) 4
            ((first :: others).map fun device => .plain device.name device.toJson) ++
            (Yaml.spaces 4 ++ ("efiBoot".toList ++ ':' :: ' ' ::
              ((flagWord efiBoot).toList ++ ['\n']))))))) := by
      simp [layout, BootAction.layout, BootAction.layoutMembers, Layout.text,
        membersText, itemsText]
    show (BootAction.lines ⟨first :: others, efiBoot⟩).toList = _
    rw [htext, hlayout]
    rfl

/-! ## The text of a job -/

/-- The text of steps with empty lines in front of each. -/
def stepsText (steps : List (Nat × Task)) : List Char :=
  steps.flatMap fun step => lead step.1 0 ++ step.2.lines.toList

theorem stepsText_eq {steps : List (Nat × Task)} (h : ∀ step ∈ steps, step.2.Single) :
    stepsText steps = entriesText 0 (steps.map fun step => (step.1, step.2.layout)) := by
  induction steps with
  | nil => rfl
  | cons step steps ih =>
    obtain ⟨hstep, hsteps⟩ := List.forall_mem_cons.mp h
    have htext := ih hsteps
    unfold stepsText at htext ⊢
    rw [List.flatMap_cons, htext, List.map_cons, entriesText, hstep.text, List.append_assoc,
      List.cons_append]

/-- **Steps are read back from their lines**, wherever empty lines are between them. -/
theorem readTasks_steps {steps : List (Nat × Task)} {text : String} {last : Nat}
    (h : ∀ step ∈ steps, step.2.Single) (htext : text.toList = stepsText steps ++ lead last 0) :
    readTasks text = .ok (steps.map Prod.snd) := by
  unfold readTasks
  rw [stepsText_eq h] at htext
  cases steps with
  | nil =>
    have hvoid : ∀ mark, Yaml.Reader.Takes Yaml.depthLimit read (.void mark) [] :=
      Yaml.Reader.takes_list_void Yaml.depthLimit Task.read
    rw [Yaml.Layout.read_blank htext hvoid]
    rfl
  | cons step steps =>
    have hproper : ∀ entry ∈ (step :: steps).map fun step => (step.1, step.2.layout),
        Proper true 0 entry.2 := by
      intro entry hentry
      obtain ⟨other, hother, rfl⟩ := List.mem_map.mp hentry
      exact (h other hother).proper
    have hjson : ((step :: steps).map fun step => (step.1, step.2.layout)).map
        (fun entry => entry.2.json)
        = ((step :: steps).map Prod.snd).map Task.toJson := by
      rw [List.map_map, List.map_map]
      exact List.map_congr_left fun other hother => (h other hother).json
    have hreads : Yaml.Reader.yamlReading.Reads Yaml.depthLimit read
        (.array (((step :: steps).map fun step => (step.1, step.2.layout)).map fun entry =>
          entry.2.json))
        ((step :: steps).map Prod.snd) := by
      rw [hjson]
      exact @reads _ _ (Yaml.depthLimit - 4) Yaml.Reader.yamlReading _
    rw [Yaml.Layout.read_entries htext hproper hreads]
    rfl

/-- The job that brings a machine into provisioning. -/
def provisioning (efiBoot : Bool) : List Task :=
  [.power .off, .oneTimeBoot .pxe efiBoot, .power .on]

/-- The steps of a rendered job, the first behind an empty line. -/
def provisioningSteps (efiBoot : Bool) : List (Nat × Task) :=
  [(1, .power .off), (0, .oneTimeBoot .pxe efiBoot), (0, .power .on)]

theorem single_of_mem_steps {efiBoot : Bool} :
    ∀ step ∈ provisioningSteps efiBoot, step.2.Single := by
  simp only [provisioningSteps, List.forall_mem_cons]
  exact ⟨.power .off, .boot efiBoot (by simp), .power .on, by simp⟩

theorem Template.body_isTidy : isTidy Template.body = true := by
  unfold Template.body
  simp only [isTidy_line, isTidy_lineWith, isTidy_flatten_nil, Bool.and_eq_true, Bool.and_true]
  repeat' apply And.intro
  all_goals exact hasNoBrace_of_eq rfl (by decide)

/-- **The engine fills the body of the job.** -/
theorem Template.rendering_eq (template : Template) :
    template.rendering = .ok (String.ofList (fill template.value Template.body)) := by
  have hnames : ∀ slot : Slot, isName slot.label.toList = true := by
    intro slot
    cases slot
    decide
  refine render_source hnames Template.body_isTidy fun slot => ?_
  cases slot
  rfl

/-- The engine does not fail, so the text of the job is what it gives. -/
theorem Template.rendering_eq_render (template : Template) :
    template.rendering = .ok template.render := by
  unfold render
  rw [rendering_eq]

theorem render_eq_steps (efiBoot : Bool) :
    (Template.render ⟨efiBoot⟩).toList = stepsText (provisioningSteps efiBoot) := by
  unfold Template.render
  rw [Template.rendering_eq, String.toList_ofList, stepsText_eq single_of_mem_steps]
  cases efiBoot <;> rfl

theorem readTasks_renders (flags : List Bool) :
    readTasks (String.join (flags.map fun flag => Template.render ⟨flag⟩))
      = .ok (flags.flatMap provisioning) := by
  have htext : (String.join (flags.map fun flag => Template.render ⟨flag⟩)).toList
      = stepsText (flags.flatMap provisioningSteps) ++ lead 0 0 := by
    have hrenders : (String.join (flags.map fun flag => Template.render ⟨flag⟩)).toList
        = stepsText (flags.flatMap provisioningSteps) := by
      unfold stepsText
      rw [String.toList_join, List.flatMap_map, List.flatMap_assoc]
      exact congrArg (List.flatMap · flags) (funext render_eq_steps)
    rw [hrenders]
    exact (List.append_nil _).symm
  have hsingle : ∀ step ∈ flags.flatMap provisioningSteps, step.2.Single := by
    intro step hstep
    obtain ⟨flag, -, hstep⟩ := List.mem_flatMap.mp hstep
    exact single_of_mem_steps step hstep
  rw [readTasks_steps hsingle htext, List.map_flatMap]
  rfl

theorem readTasks_lines {tasks : List Task} (h : ∀ task ∈ tasks, task.Single) :
    readTasks ("\n" ++ String.join (tasks.map Task.lines)) = .ok tasks := by
  have hjoin : ∀ tasks : List Task, (String.join (tasks.map Task.lines)).toList
      = stepsText (tasks.map fun task => (0, task)) := by
    intro tasks
    unfold stepsText
    rw [String.toList_join, List.flatMap_map, List.flatMap_map]
    rfl
  cases tasks with
  | nil => exact @readTasks_steps [] _ 1 (by simp) rfl
  | cons task tasks =>
    obtain ⟨htask, htasks⟩ := List.forall_mem_cons.mp h
    -- The line end in front of all steps is an empty line in front of the first.
    have htext : ("\n" ++ String.join ((task :: tasks).map Task.lines)).toList
        = stepsText ((1, task) :: tasks.map fun task => (0, task)) ++ lead 0 0 := by
      rw [String.toList_append, List.map_cons, String.join_cons, String.toList_append, hjoin]
      exact (List.append_nil _).symm
    have hsingle : ∀ step ∈ (1, task) :: tasks.map (fun task => (0, task)), step.2.Single := by
      simpa using ⟨htask, htasks⟩
    have hmap : ((1, task) :: tasks.map fun task => (0, task)).map Prod.snd = task :: tasks := by
      rw [List.map_cons, List.map_map]
      exact congrArg (task :: ·) (List.map_id tasks)
    rw [readTasks_steps hsingle htext, hmap]

/--
**A job in the layout of the body is read back, whatever its length.**

Steps of one action may be written one behind the other, and so may whole jobs: what is read of
several renderings is what is read of each, in order.
-/
theorem readTasks_of_lines :
    (∀ tasks : List Task, (∀ task ∈ tasks, task.Single) →
      readTasks ("\n" ++ String.join (tasks.map Task.lines)) = .ok tasks) ∧
      (∀ flag, Template.rendering ⟨flag⟩ = .ok (Template.render ⟨flag⟩) ∧
        Template.renderTasks ⟨flag⟩ = .ok (provisioning flag)) ∧
      ∀ flags : List Bool, readTasks (String.join (flags.map fun flag => Template.render ⟨flag⟩))
        = .ok (flags.flatMap provisioning) := by
  refine ⟨fun tasks h => readTasks_lines h, fun flag => ⟨Template.rendering_eq_render _, ?_⟩,
    readTasks_renders⟩
  have hone := readTasks_renders [flag]
  have hjoin : String.join [Template.render ⟨flag⟩] = Template.render ⟨flag⟩ := by simp
  rw [List.map_singleton, hjoin, List.flatMap_singleton] at hone
  unfold Template.renderTasks
  rw [Template.rendering_eq_render, Outcome.ok_bind, hone]

/-- Power actions in a row, and a boot action with the same device twice. -/
def repetitive : List Task :=
  [.power .on, .power .on, ⟨none, some ⟨[.pxe, .pxe], false⟩⟩, .power .off]

theorem readTasks_of_lines_repetitive : (∀ task ∈ repetitive, task.Single) ∧
    readTasks ("\n" ++ String.join (repetitive.map Task.lines)) = .ok repetitive := by
  have hsingle : ∀ task ∈ repetitive, task.Single := by
    simp only [repetitive, List.forall_mem_cons]
    exact ⟨.power .on, .power .on, .boot false (by simp), .power .off, by simp⟩
  exact ⟨hsingle, readTasks_of_lines.1 repetitive hsingle⟩

end Provisioning.Job
