import Provisioning.Proofs.Environment
import Provisioning.Proofs.Source.Guarantee
import Provisioning.Proofs.Value.Parts
import Provisioning.Workflow.Document

/-!
# The values of a workflow document

The only part of a document that is not typed are the values of the environments of its
actions. This module gathers them, relates those of documents that are equal, and carries what a
format guarantees of values over to documents.
-/

namespace Provisioning.Workflow

open Partners

namespace Action

/-- The action with every value of its environment changed. -/
def mapValues (change : Value → Value) (action : Action) : Action :=
  { action with environment := action.environment.mapValues change }

/-- Equality of actions but for their environments. -/
theorem same_iff {a b : Action} : a.same b = true ↔
    (a.name = b.name ∧ a.image = b.image ∧ a.timeout = b.timeout ∧ a.pid = b.pid) ∧
      List.Forall₂ (fun x y => x.1 = y.1 ∧ x.2.same y.2 = true)
        a.environment.entries b.environment.entries := by
  unfold same Environment.same
  rw [Bool.and_eq_true, all_zip_iff]
  simp only [Bool.and_eq_true, beq_iff_eq, and_assoc]

end Action

theorem Task.same_iff {a b : Task} : a.same b = true ↔
    (a.name = b.name ∧ a.worker = b.worker ∧ a.volumes = b.volumes) ∧
      List.Forall₂ (fun x y => x.same y = true) a.actions b.actions := by
  unfold same
  rw [Bool.and_assoc, Bool.and_eq_true, all_zip_iff]
  simp only [Bool.and_eq_true, beq_iff_eq, and_assoc]

namespace Document

/-- The values of the environments of all actions. -/
def values (document : Document) : List Value :=
  document.actions.flatMap fun action => action.environment.entries.map Prod.snd

variable {document other : Document}

theorem mem_values_iff {value : Value} : value ∈ document.values ↔
    ∃ task ∈ document.tasks, ∃ action ∈ task.actions, ∃ entry ∈ action.environment.entries,
      entry.2 = value := by
  unfold values actions
  simp only [List.mem_flatMap, List.mem_map]
  constructor
  · rintro ⟨action, ⟨task, htask, haction⟩, entry, hentry, rfl⟩
    exact ⟨task, htask, action, haction, entry, hentry, rfl⟩
  · rintro ⟨task, htask, action, haction, entry, hentry, rfl⟩
    exact ⟨action, ⟨task, htask, haction⟩, entry, hentry, rfl⟩

/-! ## Changing values -/

theorem mem_values_mapActions {change : Value → Value} {value : Value}
    (h : value ∈ (document.mapActions (Action.mapValues change)).values) :
    ∃ original ∈ document.values, change original = value := by
  obtain ⟨task, htask, action, haction, entry, hentry, rfl⟩ := mem_values_iff.mp h
  obtain ⟨task, htask', rfl⟩ := List.mem_map.mp htask
  obtain ⟨action, haction', rfl⟩ := List.mem_map.mp haction
  obtain ⟨entry, hentry', rfl⟩ := List.mem_map.mp hentry
  exact ⟨entry.2, mem_values_iff.mpr ⟨task, htask', action, haction', entry, hentry', rfl⟩, rfl⟩

/-- A change that leaves every value as it is leaves the document as it is. -/
theorem mapActions_eq_self {change : Value → Value}
    (h : ∀ value ∈ document.values, change value = value) :
    document.mapActions (Action.mapValues change) = document := by
  have htasks : document.tasks.map (fun task =>
      { task with actions := task.actions.map (Action.mapValues change) }) = document.tasks := by
    refine (List.map_congr_left fun task htask => ?_).trans (List.map_id _)
    have hactions : task.actions.map (Action.mapValues change) = task.actions := by
      refine (List.map_congr_left fun action haction => ?_).trans (List.map_id _)
      unfold Action.mapValues
      rw [Environment.mapValues_eq_self fun entry hentry =>
        h entry.2 (mem_values_iff.mpr ⟨task, htask, action, haction, entry, hentry, rfl⟩)]
      rfl
    rw [hactions]
    rfl
  unfold mapActions
  rw [htasks]

/-! ## Equal documents -/

theorem same_iff : document.same other = true ↔
    (document.version = other.version ∧ document.name = other.name ∧
      document.globalTimeout = other.globalTimeout) ∧
      List.Forall₂ (fun a b => a.same b = true) document.tasks other.tasks := by
  unfold same
  rw [Bool.and_assoc, Bool.and_eq_true, all_zip_iff]
  simp only [Bool.and_eq_true, beq_iff_eq, and_assoc]

/-- Values of a document equal values of any document that equals it. -/
theorem exists_same_value (h : document.same other = true) :
    ∀ value ∈ document.values, ∃ partner ∈ other.values, value.same partner = true := by
  intro value hvalue
  obtain ⟨task, htask, action, haction, entry, hentry, rfl⟩ := mem_values_iff.mp hvalue
  obtain ⟨task', htask', hsame⟩ := exists_partner (same_iff.mp h).2 task htask
  obtain ⟨action', haction', hsame⟩ := exists_partner (Task.same_iff.mp hsame).2 action haction
  obtain ⟨entry', hentry', -, hsame⟩ := exists_partner (Action.same_iff.mp hsame).2 entry hentry
  exact ⟨entry'.2,
    mem_values_iff.mpr ⟨task', htask', action', haction', entry', hentry', rfl⟩, hsame⟩

/-- A document whose values equal themselves equals itself. -/
theorem same_self (h : ∀ value ∈ document.values, value.same value = true) :
    document.same document = true := by
  refine same_iff.mpr ⟨⟨rfl, rfl, rfl⟩, List.forall₂_same.mpr fun task htask => ?_⟩
  refine Task.same_iff.mpr ⟨⟨rfl, rfl, rfl⟩, List.forall₂_same.mpr fun action haction => ?_⟩
  refine Action.same_iff.mpr ⟨⟨rfl, rfl, rfl, rfl⟩, List.forall₂_same.mpr fun entry hentry => ?_⟩
  exact ⟨rfl, h _ (mem_values_iff.mpr ⟨task, htask, action, haction, entry, hentry, rfl⟩)⟩

end Document

/-! ## Guarantees -/

section Guarantees

variable {m : Type → Type} [Source m] {sound : Nat → Value → Prop} {levels : Nat}

theorem Action.yields (guarantee : Guarantee m sound) :
    guarantee.Yields (levels + 2) Action.read fun action =>
      ∀ entry ∈ action.environment.entries, sound levels entry.2 := by
  refine guarantee.record (by simp [Action.shape, Action.blank, Environment.empty]) ?_
  intro field hfield
  simp only [Action.shape, Field.needed, Field.spare, List.mem_cons, List.not_mem_nil,
    or_false] at hfield
  rcases hfield with rfl | rfl | rfl | rfl | rfl
  -- Only the environment has values in it; the other fields leave them as they are.
  case inr.inr.inr.inr =>
    refine guarantee.map _ (guarantee.imp (fun bindings hbindings action _ entry hentry => ?_)
      (guarantee.bindings guarantee.untyped))
    exact hbindings entry (Environment.mem_of_mem_ofList hentry)
  all_goals exact guarantee.map _ (guarantee.anything fun _ _ haction => haction)

theorem Task.yields (guarantee : Guarantee m sound) :
    guarantee.Yields (levels + 4) Task.read fun task => ∀ action ∈ task.actions,
      ∀ entry ∈ action.environment.entries, sound levels entry.2 := by
  refine guarantee.record (by simp [Task.shape, Task.blank]) ?_
  intro field hfield
  simp only [Task.shape, Field.needed, Field.spare, List.mem_cons, List.not_mem_nil,
    or_false] at hfield
  rcases hfield with rfl | rfl | rfl | rfl
  case inr.inr.inr =>
    exact guarantee.map _ (guarantee.imp (fun actions hactions _ _ => hactions)
      (guarantee.list (Action.yields guarantee)))
  all_goals exact guarantee.map _ (guarantee.anything fun _ _ htask => htask)

/-- **What a format guarantees of values holds of the values of every document that is read.** -/
theorem Document.yields (guarantee : Guarantee m sound) :
    guarantee.Yields (levels + 6) Document.read fun document =>
      ∀ value ∈ document.values, sound levels value := by
  have hentries : guarantee.Yields (levels + 6) Document.read fun document =>
      ∀ task ∈ document.tasks, ∀ action ∈ task.actions, ∀ entry ∈ action.environment.entries,
        sound levels entry.2 := by
    refine guarantee.record (by simp [Document.shape, Document.blank]) ?_
    intro field hfield
    simp only [Document.shape, Field.needed, Field.spare, List.mem_cons, List.not_mem_nil,
      or_false] at hfield
    rcases hfield with rfl | rfl | rfl | rfl
    case inr.inr.inr =>
      exact guarantee.map _ (guarantee.imp (fun tasks htasks _ _ => htasks)
        (guarantee.list (Task.yields guarantee)))
    all_goals exact guarantee.map _ (guarantee.anything fun _ _ hdocument => hdocument)
  refine guarantee.imp (fun document h value hvalue => ?_) hentries
  obtain ⟨task, htask, action, haction, entry, hentry, rfl⟩ := Document.mem_values_iff.mp hvalue
  exact h task htask action haction entry hentry

end Guarantees

end Provisioning.Workflow
