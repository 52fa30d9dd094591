import Mathlib.Algebra.BigOperators.Group.List.Basic
import Mathlib.Algebra.Ring.Nat
import Provisioning.Outcome
import Provisioning.Workflow.Document

/-!
# How long a workflow takes

The durations are added up one by one, and each partial sum has to fit into 64 bits. Partial sums
only grow, so an addition fails just when the sum of all is too large: the outcome is the sum of all
timeouts as natural numbers, or the overflow, and it does not matter in which order the actions
stand or how they are grouped into tasks.
-/

namespace Provisioning.Workflow

/-- The seconds that an action may take; one without a timeout counts nothing. -/
def Action.seconds (action : Action) : Nat := (action.timeout.map UInt64.toNat).getD 0

/-- The seconds of all actions of a task. -/
def Task.seconds (task : Task) : Nat := (task.actions.map Action.seconds).sum

namespace Document

/-- The seconds of all tasks, without a bound. -/
def totalSeconds (document : Document) : Nat := (document.tasks.map Task.seconds).sum

/-! ## Adding up -/

theorem addSeconds_eq_ok {total seconds result : UInt64} :
    addSeconds total seconds = .ok result ↔ result.toNat = total.toNat + seconds.toNat := by
  have hresult : result.toNat < UInt64.size := result.toNat_lt_size
  unfold addSeconds
  by_cases h : total.toNat + seconds.toNat < UInt64.size
  · have hsum : (total + seconds).toNat = total.toNat + seconds.toNat := by
      rw [UInt64.toNat_add]
      exact Nat.mod_eq_of_lt h
    rw [if_pos h, Except.ok.injEq, ← UInt64.toNat_inj, hsum]
    exact eq_comm
  · rw [if_neg h]
    refine ⟨nofun, ?_⟩
    intro heq
    omega

/-- Every partial sum is at most the last one, so none overflows if that fits. -/
theorem foldlM_addSeconds_eq_ok : ∀ (durations : List UInt64) (total result : UInt64),
    durations.foldlM addSeconds total = .ok result ↔
      result.toNat = total.toNat + (durations.map UInt64.toNat).sum := by
  intro durations
  induction durations with
  | nil =>
    intro total result
    rw [List.foldlM_nil, List.map_nil, List.sum_nil, Nat.add_zero, UInt64.toNat_inj]
    exact ⟨fun h => (Except.ok.inj h).symm, fun h => h ▸ rfl⟩
  | cons seconds durations ih =>
    intro total result
    rw [List.foldlM_cons, Outcome.bind_eq_ok, List.map_cons, List.sum_cons]
    constructor
    · rintro ⟨partialSum, hstep, hrun⟩
      rw [addSeconds_eq_ok] at hstep
      rw [ih] at hrun
      omega
    · intro hresult
      have hlt : result.toNat < UInt64.size := result.toNat_lt_size
      have hpartial : (UInt64.ofNat (total.toNat + seconds.toNat)).toNat
          = total.toNat + seconds.toNat :=
        UInt64.toNat_ofNat_of_lt' (by omega)
      refine ⟨_, addSeconds_eq_ok.mpr hpartial, ?_⟩
      rw [ih, hpartial]
      omega

/-! ## Documents -/

/-- How actions are grouped into tasks does not matter to their sum. -/
theorem totalSeconds_eq_sum (document : Document) :
    document.totalSeconds = (document.actions.map Action.seconds).sum := by
  unfold totalSeconds actions
  induction document.tasks with
  | nil => rfl
  | cons task tasks ih =>
    rw [List.map_cons, List.sum_cons, List.flatMap_cons, List.map_append, List.sum_append, ih]
    rfl

theorem sum_timeouts : ∀ actions : List Action,
    ((actions.filterMap (·.timeout)).map UInt64.toNat).sum = (actions.map Action.seconds).sum := by
  intro actions
  induction actions with
  | nil => rfl
  | cons action actions ih =>
    rw [List.map_cons, List.sum_cons, ← ih, Action.seconds]
    cases h : action.timeout with
    | none => rw [List.filterMap_cons_none h, Option.map_none, Option.getD_none, Nat.zero_add]
    | some seconds =>
      rw [List.filterMap_cons_some h, List.map_cons, List.sum_cons, Option.map_some,
        Option.getD_some]

/-- **The duration is the sum of all timeouts**, for the one outcome that is a number. -/
theorem estimatedDuration_eq_ok {document : Document} {total : UInt64} :
    document.estimatedDuration = .ok total ↔ total.toNat = document.totalSeconds := by
  unfold estimatedDuration
  rw [foldlM_addSeconds_eq_ok, sum_timeouts, UInt64.toNat_zero, Nat.zero_add, totalSeconds_eq_sum]

/-- **It overflows just when that sum needs more than 64 bits.** -/
theorem estimatedDuration_eq_overflow {document : Document} :
    document.estimatedDuration = .error .overflow ↔ UInt64.size ≤ document.totalSeconds := by
  cases h : document.estimatedDuration with
  | ok total =>
    have hlt : total.toNat < UInt64.size := total.toNat_lt_size
    rw [estimatedDuration_eq_ok] at h
    refine ⟨nofun, ?_⟩
    intro hle
    omega
  | error fault =>
    cases fault
    refine ⟨fun _ => ?_, fun _ => rfl⟩
    by_contra hlt
    -- A sum that fits would have been the outcome.
    have hfits : (UInt64.ofNat document.totalSeconds).toNat = document.totalSeconds :=
      UInt64.toNat_ofNat_of_lt' (by omega)
    rw [← estimatedDuration_eq_ok, h] at hfits
    cases hfits

/-- The sum of all timeouts decides the outcome. -/
theorem estimatedDuration_congr {document other : Document}
    (h : document.totalSeconds = other.totalSeconds) :
    document.estimatedDuration = other.estimatedDuration := by
  cases hother : other.estimatedDuration with
  | ok total => rw [estimatedDuration_eq_ok, h, ← estimatedDuration_eq_ok, hother]
  | error fault =>
    cases fault
    rw [estimatedDuration_eq_overflow, h, ← estimatedDuration_eq_overflow, hother]

theorem totalSeconds_perm {document other : Document}
    (h : document.actions.Perm other.actions) : document.totalSeconds = other.totalSeconds := by
  rw [totalSeconds_eq_sum, totalSeconds_eq_sum]
  exact (h.map Action.seconds).sum_eq

theorem totalSeconds_tasks {whole front back : Document}
    (h : whole.tasks = front.tasks ++ back.tasks) :
    whole.totalSeconds = front.totalSeconds + back.totalSeconds := by
  unfold totalSeconds
  rw [h, List.map_append, List.sum_append]

/-- Two documents one behind the other take as long as both together. -/
theorem estimatedDuration_tasks {whole front back : Document}
    (h : whole.tasks = front.tasks ++ back.tasks) (total : UInt64) :
    whole.estimatedDuration = .ok total ↔ ∃ first second : UInt64,
      front.estimatedDuration = .ok first ∧ back.estimatedDuration = .ok second ∧
        total.toNat = first.toNat + second.toNat := by
  have hsum := totalSeconds_tasks h
  rw [estimatedDuration_eq_ok]
  constructor
  · intro htotal
    have hlt : total.toNat < UInt64.size := total.toNat_lt_size
    -- Neither of the two is longer than both together, so each of them fits.
    have hfirst : (UInt64.ofNat front.totalSeconds).toNat = front.totalSeconds :=
      UInt64.toNat_ofNat_of_lt' (by omega)
    have hsecond : (UInt64.ofNat back.totalSeconds).toNat = back.totalSeconds :=
      UInt64.toNat_ofNat_of_lt' (by omega)
    refine ⟨_, _, estimatedDuration_eq_ok.mpr hfirst, estimatedDuration_eq_ok.mpr hsecond, ?_⟩
    omega
  · rintro ⟨first, second, hfirst, hsecond, htotal⟩
    rw [estimatedDuration_eq_ok] at hfirst hsecond
    omega

/-- **The duration of a document is exact or an overflow.** It is the sum of the timeouts of all
its actions, and overflows just when that sum does not fit into 64 bits. Documents with the same
actions in whatever order and tasks have the same outcome, and tasks behind those of a document
add their own duration. -/
theorem estimatedDuration_exact (document : Document) :
    (∀ total : UInt64,
      document.estimatedDuration = .ok total ↔ total.toNat = document.totalSeconds) ∧
    (document.estimatedDuration = .error .overflow ↔ 2 ^ 64 ≤ document.totalSeconds) ∧
    (∀ other : Document, other.actions.Perm document.actions →
      other.estimatedDuration = document.estimatedDuration) ∧
    ∀ back whole : Document, whole.tasks = document.tasks ++ back.tasks →
      (∀ total : UInt64, whole.estimatedDuration = .ok total ↔ ∃ first second : UInt64,
        document.estimatedDuration = .ok first ∧ back.estimatedDuration = .ok second ∧
          total.toNat = first.toNat + second.toNat) ∧
      (whole.estimatedDuration = .error .overflow ↔ ¬ ∃ first second : UInt64,
        document.estimatedDuration = .ok first ∧ back.estimatedDuration = .ok second ∧
          first.toNat + second.toNat < 2 ^ 64) := by
  refine ⟨fun _ => estimatedDuration_eq_ok, estimatedDuration_eq_overflow, ?_, ?_⟩
  · intro other h
    exact estimatedDuration_congr (totalSeconds_perm h)
  · intro back whole h
    refine ⟨estimatedDuration_tasks h, ?_⟩
    rw [estimatedDuration_eq_overflow, totalSeconds_tasks h, ← Nat.not_lt, not_iff_not]
    constructor
    · intro hlt
      have hfits := UInt64.toNat_ofNat_of_lt' hlt
      rw [← totalSeconds_tasks h, ← estimatedDuration_eq_ok, estimatedDuration_tasks h] at hfits
      obtain ⟨first, second, hfirst, hsecond, hsum⟩ := hfits
      exact ⟨first, second, hfirst, hsecond, hsum ▸ UInt64.toNat_lt_size _⟩
    · rintro ⟨first, second, hfirst, hsecond, hsum⟩
      rw [estimatedDuration_eq_ok] at hfirst hsecond
      rw [← hfirst, ← hsecond]
      exact hsum

/-- An action that may take so many seconds. -/
def wait (seconds : UInt64) : Action := { Action.blank with timeout := some seconds }

/-- A document with these groups of actions as its tasks. -/
def ofActions (groups : List (List Action)) : Document :=
  { blank with tasks := groups.map fun actions => { Task.blank with actions } }

/-- The longest duration there is. -/
def longest : Document := ofActions [[wait 18446744073709551614, Action.blank], [wait 1]]

/-- The same actions in other tasks. -/
def regrouped : Document := ofActions [[], [wait 1, wait 18446744073709551614], [Action.blank]]

/-- At the limit, and one second beyond it. -/
theorem estimatedDuration_exact_limit :
    longest.estimatedDuration = .ok 18446744073709551615 ∧
      regrouped.actions.Perm longest.actions ∧
      regrouped.estimatedDuration = .ok 18446744073709551615 ∧
      (longest.append (ofActions [[wait 1]])).estimatedDuration = .error .overflow := by
  obtain ⟨hexact, -, hperm, hbehind⟩ := estimatedDuration_exact longest
  have hlongest : longest.totalSeconds = 18446744073709551615 := by decide +kernel
  have hsecond : (ofActions [[wait 1]]).totalSeconds = 1 := by decide +kernel
  have hactions : regrouped.actions.Perm longest.actions := (List.perm_append_singleton _ _).symm
  have hok := (hexact 18446744073709551615).mpr hlongest.symm
  refine ⟨hok, hactions, (hperm _ hactions).trans hok,
    (hbehind (ofActions [[wait 1]]) _ rfl).2.mpr ?_⟩
  rintro ⟨first, second, hfirst, hsecond', hsum⟩
  rw [estimatedDuration_eq_ok] at hfirst hsecond'
  omega

end Document

end Provisioning.Workflow
