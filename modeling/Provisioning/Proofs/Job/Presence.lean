import Provisioning.Job.Template
import Provisioning.Proofs.Yaml.Fields

/-!
# Which actions the tasks of a job carry

A task is meant to carry exactly one action, but nothing checks it. Both actions are optional fields
of one record, so each is there just if the step gives it, whatever the other one is: a step without
any action is read as a task that does nothing, and one with both as a task with both.
-/

namespace Provisioning.Job

open Yaml (Stream)
open Yaml.Reader

variable {text : String} {tasks : List Task}

/-- The task carries exactly one action. -/
def Task.CarriesOne (task : Task) : Prop := task.powerAction.isSome ≠ task.bootAction.isSome

instance (task : Task) : Decidable task.CarriesOne := inferInstanceAs (Decidable (_ ≠ _))

/-- The task has the actions that the step gives, and no others. -/
structure Task.MadeOf (stream : Stream) (step : Yaml.Node) (task : Task) : Prop where
  power : task.powerAction.isSome = stream.gives "powerAction" step
  boot : task.bootAction.isSome = stream.gives "oneTimeBootDeviceAction" step

/-- A single step. -/
theorem Task.madeOf_of_read {scope : Yaml.Scope} {step : Yaml.Node} {task : Task}
    {followed followed' : Nat}
    (h : Task.read (m := Yaml.Reader) scope step followed = .ok (task, followed')) :
    task.MadeOf scope.stream step := by
  constructor
  · refine record_optional Task.powerAction rfl (fun _ _ => rfl) rfl ?_ h
    intro field hfield hname
    simp only [shape, List.mem_cons, List.not_mem_nil, or_false] at hfield
    rcases hfield with rfl | rfl
    · exact absurd rfl hname
    · exact spares_of fun _ _ => rfl
  · refine record_optional Task.bootAction rfl (fun _ _ => rfl) rfl ?_ h
    intro field hfield hname
    simp only [shape, List.mem_cons, List.not_mem_nil, or_false] at hfield
    rcases hfield with rfl | rfl
    · exact spares_of fun _ _ => rfl
    · exact absurd rfl hname

/--
**A task carries the actions that its step gives.**

Nothing else is asked of a step: it may give both actions, or neither, because it is empty, because
its values are null or because its keys are other words.
-/
theorem madeOf_of_readTasks (h : readTasks text = .ok tasks) :
    List.Forall₂ (Task.MadeOf (Stream.ofText text)) (Stream.ofText text).listed tasks := by
  obtain ⟨root, followed, hroot, hread⟩ := Yaml.read_ok (Outcome.mapError_eq_ok.mp h)
  unfold Stream.listed
  rw [hroot, Option.elim_some]
  refine (list_items hread).imp fun step task hstep => ?_
  obtain ⟨inner, m, n, -, hstream, hstep⟩ := hstep
  have hmade := Task.madeOf_of_read hstep
  rwa [hstream] at hmade

/-- A job of an empty step, one with a misspelt key, one whose action is null, one with both actions
and an alias of it. -/
def careless : String :=
  "- \x7b\x7d\n- powerAct: on\n- powerAction:\n" ++
    "- &both\n  oneTimeBootDeviceAction:\n    device: [pxe]\n  powerAction: off\n- *both\n"

/-- What the careless job is read as. -/
def carelessTasks : List Task :=
  let both : Task := ⟨some .off, some ⟨[.pxe], false⟩⟩
  [.blank, .blank, .blank, both, both]

theorem readTasks_careless : readTasks careless = .ok carelessTasks := by
  have hread : (readTasks careless).toOption = some carelessTasks := by decide +kernel
  cases htasks : readTasks careless with
  | error fault =>
    rw [htasks] at hread
    cases hread
  | ok tasks =>
    rw [htasks] at hread
    exact congrArg Except.ok (Option.some.inj hread)

theorem madeOf_of_readTasks_careless : readTasks careless = .ok carelessTasks ∧
    List.Forall₂ (Task.MadeOf (Stream.ofText careless))
      (Stream.ofText careless).listed carelessTasks :=
  ⟨readTasks_careless, madeOf_of_readTasks readTasks_careless⟩

/-- Tasks do not always carry exactly one action: the careless job has none that does. -/
theorem carriesOne_not_checked :
    ¬∀ (text : String) (tasks : List Task), readTasks text = .ok tasks →
      ∀ task ∈ tasks, task.CarriesOne := by
  intro h
  have hblank : Task.blank.CarriesOne :=
    h careless _ readTasks_careless Task.blank List.mem_cons_self
  exact absurd hblank (by decide)

end Provisioning.Job
