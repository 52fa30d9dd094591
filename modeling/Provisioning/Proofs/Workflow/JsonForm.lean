import Provisioning.Proofs.Json.Values
import Provisioning.Proofs.Source.Reading
import Provisioning.Proofs.Workflow.Values

/-!
# Workflow documents are read from their JSON form

Whatever the format is, it reads the JSON form of a document as the document, except that the
values of its environments have gone through JSON. Six collections enclose such a value: an
environment, an action, its list, a task, its list and the document.
-/

namespace Provisioning.Workflow

open Partners

variable {m : Type → Type} [Source m] {levels : Nat}

/-! ## Reading members -/

/-- The members of an action in front of its environment. Absent ones are left out. -/
def Action.head (name image : String) (timeout : Option UInt64) (pid : Option String) :
    List (Option (String × Json)) := [
  Json.member "name" (.string name),
  Json.member "image" (.string image),
  Json.member? "timeout" (timeout.map fun seconds => .int seconds.toNat),
  Json.member? "pid" (pid.map .string)]

/-- The members of an action. Absent ones and an empty environment are left out. -/
def Action.members (name image : String) (timeout : Option UInt64) (pid : Option String)
    (environment : List (String × Json)) : List (Option (String × Json)) := [
  Json.member "name" (.string name),
  Json.member "image" (.string image),
  Json.member? "timeout" (timeout.map fun seconds => .int seconds.toNat),
  Json.member? "pid" (pid.map .string),
  Json.member? "environment" (if environment.isEmpty then none else some (.object environment))]

theorem Action.reads_head (format : JsonReading m) (name image : String) (timeout : Option UInt64)
    (pid : Option String) :
    Action.shape.Parts (format.Reads levels) ["name", "image", "timeout", "pid"] Action.blank
      (Action.head name image timeout pid) ⟨name, image, timeout, pid, .empty⟩ := by
  refine format.written rfl (format.text _) <| format.written rfl (format.text _) <|
    format.spare rfl (format.optional_map fun value => ⟨rfl, format.natural value⟩) ?timeout <|
    format.spare rfl (format.optional_map fun value => ⟨rfl, format.text value⟩) ?pid <| .done rfl
  case timeout => intro habsent; rw [Option.map_eq_none_iff.mp habsent]; rfl
  case pid => intro habsent; rw [Option.map_eq_none_iff.mp habsent]; rfl

/-- **An action is read from its members**, if its environment is where it is written and has no
bindings where it is left out. -/
theorem Action.reads_environment (format : JsonReading m) {name image : String}
    {timeout : Option UInt64} {pid : Option String} (environment : Option Json)
    {bindings : List (String × Value)}
    (hread : ∀ json, environment = some json →
      format.Reads (levels + 1) (Source.bindings Source.untyped) json bindings)
    (habsent : environment = none → bindings = []) :
    format.Reads (levels + 2) Action.read
      (.ofMembers (Action.head name image timeout pid ++ [Json.member? "environment" environment]))
      ⟨name, image, timeout, pid, .ofList bindings⟩ := by
  refine format.ofMembers ["name", "image", "timeout", "pid", "environment"]
    ((Action.reads_head format name image timeout pid).append
      (format.spare rfl hread ?environment (.done rfl))) (by decide) ?needed
  -- An environment that is left out is empty, like the one of a record without any field.
  case environment => intro hnone; rw [habsent hnone]; rfl
  case needed =>
    intro field hfield hrequired
    simp [Action.shape, Field.needed, Field.spare] at hfield
    rcases hfield with rfl | rfl | rfl | rfl | rfl
    · exact ⟨_, List.mem_cons_self⟩
    · exact ⟨_, List.mem_cons_of_mem _ List.mem_cons_self⟩
    all_goals exact absurd hrequired Bool.false_ne_true

/-- Bindings are read from members that fit, in any order. -/
theorem reads_untypedBindings (format : JsonReading m) {environment : List (String × Json)}
    {bindings : List (String × Value)}
    (h : List.Forall₂ (fun member binding => member.1 = binding.1 ∧
      member.2.toValue = binding.2 ∧ member.2.Fits levels) environment bindings) :
    format.Reads (levels + 1) (Source.bindings Source.untyped) (.object environment) bindings := by
  refine format.bindings (h.imp fun member binding hmember => ⟨hmember.1, ?_⟩)
  rw [← hmember.2.1]
  exact format.untyped hmember.2.2

/-- **An action is read from its members**, with the bindings of its environment in any order. -/
theorem Action.reads_members (format : JsonReading m) {name image : String}
    {timeout : Option UInt64}
    {pid : Option String} {environment : List (String × Json)} {bindings : List (String × Value)}
    (h : List.Forall₂ (fun member binding => member.1 = binding.1 ∧
      member.2.toValue = binding.2 ∧ member.2.Fits levels) environment bindings) :
    format.Reads (levels + 2) Action.read
      (.ofMembers (Action.members name image timeout pid environment))
      ⟨name, image, timeout, pid, .ofList bindings⟩ := by
  cases environment with
  | nil =>
    rw [List.forall₂_nil_left_iff.mp h]
    exact Action.reads_environment format none nofun fun _ => rfl
  | cons member members =>
    refine Action.reads_environment format (some (.object (member :: members))) ?_ nofun
    intro json hjson
    cases hjson
    exact reads_untypedBindings format h

/-- The members of a task. Volumes are left out if there are none. -/
def Task.members (name worker : String) (volumes : List String) (actions : List Json) :
    List (Option (String × Json)) := [
  Json.member "name" (.string name),
  Json.member "worker" (.string worker),
  Json.member? "volumes" (if volumes.isEmpty then none else some (.array (volumes.map .string))),
  Json.member "actions" (.array actions)]

/-- **A task is read from its members.** -/
theorem Task.reads_members (format : JsonReading m) {name worker : String} {volumes : List String}
    {forms : List Json} {actions : List Action}
    (h : List.Forall₂ (format.Reads (levels + 2) Action.read) forms actions) :
    format.Reads (levels + 4) Task.read (.ofMembers (Task.members name worker volumes forms))
      ⟨name, worker, volumes, actions⟩ := by
  have hvolumes : format.Reads (levels + 3) (Source.list Source.text)
      (.array (volumes.map .string)) volumes := by
    refine format.list ?_
    rw [List.forall₂_map_left_iff, List.forall₂_same]
    exact fun volume _ => format.text volume
  have hread : ∀ json, (if volumes.isEmpty then none
      else some (Json.array (volumes.map .string))) = some json →
      format.Reads (levels + 3) (Source.list Source.text) json volumes := by
    intro json hjson
    cases volumes with
    | nil => exact absurd hjson (by simp)
    | cons volume volumes => cases hjson; exact hvolumes
  refine format.ofMembers ["name", "worker", "volumes", "actions"]
    (format.written rfl (format.text _) <| format.written rfl (format.text _) <|
      format.spare rfl hread ?volumes <|
      format.written rfl (format.list h) <| .done rfl)
    (by decide) ?needed
  case volumes =>
    intro habsent
    cases volumes with
    | nil => rfl
    | cons volume volumes => exact absurd habsent (by simp)
  case needed =>
    intro field hfield hrequired
    simp [Task.shape, Field.needed, Field.spare] at hfield
    rcases hfield with rfl | rfl | rfl | rfl
    · exact ⟨_, List.mem_cons_self⟩
    · exact ⟨_, List.mem_cons_of_mem _ List.mem_cons_self⟩
    all_goals exact absurd hrequired Bool.false_ne_true

/-! ## Reading JSON forms -/

/-- **An action is read from its JSON form.** -/
theorem Action.reads (format : JsonReading m) {action : Action} {json : Json}
    (h : action.toJson = .ok json)
    (hfits : ∀ entry ∈ action.environment.entries, ∀ form,
      entry.2.toJson = .ok form → form.Fits levels) :
    format.Reads (levels + 2) Action.read json (action.mapValues Value.throughJson) := by
  obtain ⟨members, hmembers, h⟩ := Outcome.bind_eq_ok.mp h
  cases h
  have hforms : List.Forall₂ (fun entry member => entry.1 = member.1 ∧
      entry.2.toJson = .ok member.2) action.environment.entries members := by
    refine (mapM_eq_ok.mp hmembers).imp fun entry member hmember => ?_
    obtain ⟨form, hform, heq⟩ := Outcome.bind_eq_ok.mp hmember
    cases heq
    exact ⟨rfl, hform⟩
  have hbindings : List.Forall₂ (fun (member : String × Json) (binding : String × Value) =>
      member.1 = binding.1 ∧ member.2.toValue = binding.2 ∧ member.2.Fits levels) members
      (action.environment.mapValues Value.throughJson).entries := by
    refine partners_map hforms fun entry hentry member hmember => ?_
    exact ⟨hmember.1.symm, (Value.throughJson_of_ok hmember.2).symm,
      hfits entry hentry member.2 hmember.2⟩
  have hread : format.Reads (levels + 2) Action.read
      (.ofMembers (Action.members action.name action.image action.timeout action.pid members))
      ⟨action.name, action.image, action.timeout, action.pid,
        .ofList (action.environment.mapValues Value.throughJson).entries⟩ :=
    Action.reads_members format hbindings
  -- The bindings are written in their order, so they are those of an environment as they stand.
  rw [Environment.ofList_of_ascending (Environment.ascending _)] at hread
  exact hread

/-- **A task is read from its JSON form.** -/
theorem Task.reads (format : JsonReading m) {task : Task} {json : Json}
    (h : task.toJson = .ok json)
    (hfits : ∀ action ∈ task.actions, ∀ entry ∈ action.environment.entries, ∀ form,
      entry.2.toJson = .ok form → form.Fits levels) :
    format.Reads (levels + 4) Task.read json
      { task with actions := task.actions.map (Action.mapValues Value.throughJson) } := by
  obtain ⟨forms, hforms, h⟩ := Outcome.bind_eq_ok.mp h
  cases h
  exact Task.reads_members format
      (partners_map (mapM_eq_ok.mp hforms) fun action haction form hform =>
    Action.reads format hform (hfits action haction))

/-- **A document is read from its JSON form.** -/
theorem Document.reads (format : JsonReading m) {document : Document} {json : Json}
    (h : document.toJson = .ok json)
    (hfits : ∀ value ∈ document.values, ∀ form, value.toJson = .ok form → form.Fits levels) :
    format.Reads (levels + 6) Document.read json
      (document.mapActions (Action.mapValues Value.throughJson)) := by
  obtain ⟨forms, hforms, h⟩ := Outcome.bind_eq_ok.mp h
  cases h
  have htasks := format.list <| partners_map (mapM_eq_ok.mp hforms) fun task htask form hform =>
    Task.reads format hform fun action haction entry hentry =>
      hfits entry.2 (mem_values_iff.mpr ⟨task, htask, action, haction, entry, hentry, rfl⟩)
  refine format.ofMembers ["version", "name", "global_timeout", "tasks"]
    (format.spare rfl (format.optional_map fun value => ⟨rfl, format.text value⟩) ?version <|
      format.written rfl (format.text _) <|
      format.spare rfl (format.optional_map fun value => ⟨rfl, format.natural value⟩) ?timeout <|
      format.written rfl htasks <| .done rfl)
    (by decide) ?needed
  case version => intro habsent; rw [Option.map_eq_none_iff.mp habsent]; rfl
  case timeout => intro habsent; rw [Option.map_eq_none_iff.mp habsent]; rfl
  case needed =>
    intro field hfield hrequired
    simp [Document.shape, Field.needed, Field.spare] at hfield
    rcases hfield with rfl | rfl | rfl | rfl
    · exact absurd hrequired Bool.false_ne_true
    · exact ⟨_, List.mem_cons_of_mem _ List.mem_cons_self⟩
    all_goals exact absurd hrequired Bool.false_ne_true

/-! ## Which documents have a JSON form -/

theorem Action.exists_toJson {action : Action}
    (h : ∀ entry ∈ action.environment.entries, ∃ json, entry.2.toJson = .ok json) :
    ∃ json, action.toJson = .ok json := by
  have hmember : ∀ entry ∈ action.environment.entries, ∃ member,
      (do return (entry.1, ← entry.2.toJson) : Except NoJson (String × Json)) = .ok member := by
    intro entry hentry
    obtain ⟨json, hjson⟩ := h entry hentry
    exact ⟨(entry.1, json), by rw [hjson]; rfl⟩
  obtain ⟨members, hmembers⟩ := exists_mapM_eq_ok hmember
  exact ⟨_, by unfold toJson; rw [hmembers]; rfl⟩

theorem Task.exists_toJson {task : Task}
    (h : ∀ action ∈ task.actions, ∃ json, action.toJson = .ok json) :
    ∃ json, task.toJson = .ok json := by
  obtain ⟨forms, hforms⟩ := exists_mapM_eq_ok h
  exact ⟨_, by unfold toJson; rw [hforms]; rfl⟩

/-- A document has a JSON form if all its values have one. -/
theorem Document.exists_toJson {document : Document}
    (h : ∀ value ∈ document.values, ∃ json, value.toJson = .ok json) :
    ∃ json, document.toJson = .ok json := by
  obtain ⟨forms, hforms⟩ := exists_mapM_eq_ok fun task htask =>
    Task.exists_toJson fun action haction => Action.exists_toJson fun entry hentry =>
      h entry.2 (mem_values_iff.mpr ⟨task, htask, action, haction, entry, hentry, rfl⟩)
  exact ⟨_, by unfold toJson; rw [hforms]; rfl⟩

end Provisioning.Workflow
