import Provisioning.Proofs.Workflow.Duration
import Provisioning.Workflow.Document

/-!
# Actions by name

A document lists the names of its actions and finds an action by its name. Both go through the
tasks one after the other and see the actions in the same order, so a name is listed just when it
is found, and what is found stands where the name is listed first. All other actions of the name
are out of reach, in the same task and in later ones.
-/

namespace Provisioning.Workflow

/-- The first position of a name in a list. -/
structure FirstAt (names : List String) (name : String) (position : Nat) : Prop where
  here : names[position]? = some name
  notBefore : ∀ earlier < position, names[earlier]? ≠ some name

/-! ## Lists of actions -/

/-- A name stands in the listing where an action of this name stands in the list. -/
theorem getElem?_names_iff {actions : List Action} {name : String} {position : Nat} :
    (actions.map (·.name))[position]? = some name ↔
      ∃ action, actions[position]? = some action ∧ action.name = name := by
  rw [List.getElem?_map, Option.map_eq_some_iff]

/-- **What is found by its name stands where the name is first.** -/
theorem find?_name_iff {actions : List Action} {name : String} {action : Action} :
    actions.find? (fun other => other.name == name) = some action ↔
      ∃ position, FirstAt (actions.map (·.name)) name position ∧
        actions[position]? = some action := by
  rw [List.find?_eq_some_iff_getElem]
  constructor
  · rintro ⟨hname, position, hlt, hget, hbefore⟩
    have hhere : actions[position]? = some action := by rw [List.getElem?_eq_getElem hlt, hget]
    refine ⟨position, ⟨getElem?_names_iff.mpr ⟨action, hhere, beq_iff_eq.mp hname⟩, ?_⟩, hhere⟩
    intro earlier hearlier hagain
    obtain ⟨other, hother, hsame⟩ := getElem?_names_iff.mp hagain
    obtain ⟨hlt', hget'⟩ := List.getElem?_eq_some_iff.mp hother
    have hdiffers := hbefore earlier hearlier
    rw [hget', hsame, beq_self_eq_true] at hdiffers
    exact absurd hdiffers (by decide)
  · rintro ⟨position, hfirst, hhere⟩
    obtain ⟨hlt, hget⟩ := List.getElem?_eq_some_iff.mp hhere
    obtain ⟨other, hother, hname⟩ := getElem?_names_iff.mp hfirst.here
    cases hhere.symm.trans hother
    refine ⟨beq_iff_eq.mpr hname, position, hlt, hget, ?_⟩
    -- An action of this name further in front would be listed there.
    intro earlier hearlier
    rw [Bool.not_eq_true', beq_eq_false_iff_ne]
    intro hsame
    refine hfirst.notBefore earlier hearlier (getElem?_names_iff.mpr ⟨_, ?_, hsame⟩)
    exact List.getElem?_eq_getElem (Nat.lt_trans hearlier hlt)

namespace Document

/-! ## Documents -/

/-- The actions of a document are those of its tasks, one task behind the other. -/
theorem actions_eq_flatten (document : Document) :
    document.actions = (document.tasks.map (·.actions)).flatten := List.flatMap_def

theorem action?_isSome_iff {document : Document} {name : String} :
    (document.action? name).isSome = true ↔ name ∈ document.actionNames := by
  unfold action? actionNames
  rw [List.find?_isSome, List.mem_map]
  exact exists_congr fun action => and_congr_right fun _ => beq_iff_eq

theorem actions_tasks {whole front back : Document} (h : whole.tasks = front.tasks ++ back.tasks) :
    whole.actions = front.actions ++ back.actions := by
  unfold actions
  rw [h, List.flatMap_append]

/-- **An action is found just when its name is listed, and where it is listed first.** The names
listed are those of the actions of the tasks, in order. Tasks behind those of a document list their
names behind and are searched only for names that the document does not have, and how the actions
are grouped into tasks makes no difference. -/
theorem action?_firstAt (document : Document) :
    document.actionNames = ((document.tasks.map (·.actions)).flatten).map (·.name) ∧
    (∀ name, (document.action? name).isSome = true ↔ name ∈ document.actionNames) ∧
    (∀ name action, document.action? name = some action ↔ ∃ position,
      FirstAt document.actionNames name position ∧
        (document.tasks.map (·.actions)).flatten[position]? = some action) ∧
    (∀ back whole : Document, whole.tasks = document.tasks ++ back.tasks →
      whole.actionNames = document.actionNames ++ back.actionNames ∧
      ∀ name, whole.action? name = (document.action? name).or (back.action? name)) ∧
    ∀ other : Document,
      (other.tasks.map (·.actions)).flatten = (document.tasks.map (·.actions)).flatten →
      other.actionNames = document.actionNames ∧
        ∀ name, other.action? name = document.action? name := by
  refine ⟨?_, fun _ => action?_isSome_iff, ?_, ?_, ?_⟩
  · unfold actionNames
    rw [actions_eq_flatten]
  · intro name action
    rw [← actions_eq_flatten]
    exact find?_name_iff
  · intro back whole h
    unfold actionNames action?
    rw [actions_tasks h]
    exact ⟨List.map_append, fun name => List.find?_append⟩
  · intro other h
    rw [← actions_eq_flatten, ← actions_eq_flatten] at h
    unfold actionNames action?
    rw [h]
    exact ⟨rfl, fun name => rfl⟩

/-- An action that runs an image. -/
def run (name image : String) : Action := { Action.blank with name, image }

/-- A name in two tasks, with empty tasks around them. -/
def twice : Document := ofActions [[], [run "a" "1", run "b" "2"], [], [run "a" "3", run "a" "4"]]

theorem action?_firstAt_twice :
    twice.action? "a" = some (run "a" "1") ∧ (twice.action? "c").isSome = false ∧
      (twice.append (ofActions [[run "b" "5", run "c" "6"]])).action? "b" = some (run "b" "2") ∧
      (twice.append (ofActions [[run "b" "5", run "c" "6"]])).action? "c" = some (run "c" "6") ∧
      (ofActions [[run "a" "1"], [run "b" "2", run "a" "3", run "a" "4"]]).action? "a"
        = twice.action? "a" := by
  obtain ⟨-, hlisted, hfirst, hbehind, hgrouped⟩ := action?_firstAt twice
  obtain ⟨-, -, hback, -, -⟩ := action?_firstAt (ofActions [[run "b" "5", run "c" "6"]])
  have ha : twice.action? "a" = some (run "a" "1") := (hfirst "a" _).mpr ⟨0, ⟨rfl, nofun⟩, rfl⟩
  have hb : twice.action? "b" = some (run "b" "2") :=
    (hfirst "b" _).mpr ⟨1, ⟨rfl, by decide⟩, rfl⟩
  have hnone : (twice.action? "c").isSome = false :=
    Bool.eq_false_iff.mpr fun hsome => absurd ((hlisted "c").mp hsome) (by decide)
  have hc : (ofActions [[run "b" "5", run "c" "6"]]).action? "c" = some (run "c" "6") :=
    (hback "c" _).mpr ⟨1, ⟨rfl, by decide⟩, rfl⟩
  have hlookup := (hbehind (ofActions [[run "b" "5", run "c" "6"]]) (twice.append _) rfl).2
  refine ⟨ha, hnone, ?_, ?_, (hgrouped _ rfl).2 "a"⟩
  · rw [hlookup, hb]
    rfl
  · rw [hlookup, Option.not_isSome_iff_eq_none.mp (Bool.eq_false_iff.mp hnone), hc]
    rfl

end Document

end Provisioning.Workflow
