import Provisioning.Proofs.Environment
import Provisioning.Proofs.Json.Format
import Provisioning.Proofs.Json.Refusal
import Provisioning.Proofs.Number.Decimal
import Provisioning.Proofs.Text.ByteOrder
import Provisioning.Proofs.Workflow.JsonForm

/-!
# Names that are bound more than once

An environment in a JSON text may bind a name again and again. The reader passes on all of the
bindings, and the environment keeps the last one of each name, in the order of the names. One level
below, in an object that is itself the value of a name, nothing is dropped: such an object keeps
its members as they stand, and one that has a name twice makes the whole text unreadable.
-/

namespace Provisioning

/-- The text that stands for a scalar; null and collections have none. -/
def Json.plainText? : Json → Option String
  | .string value => some value
  | .bool value => some (if value then "true" else "false")
  | .int value => some (toString value)
  | _ => none

theorem Json.scalarText?_toValue (json : Json) : json.toValue.scalarText? = json.plainText? := by
  cases json with
  | int value => exact congrArg some (Number.ofList_signedDecimal value)
  | _ => rfl

namespace Workflow.Action

open Json.Reader
open Outcome (Fails)

/-! ## What is kept -/

/-- **The environment of an action has the last of the members of each name**, and nothing else. -/
structure KeepsLast (action : Action) (members : List (String × Json)) : Prop where
  /-- No name is there twice, and the names are in the order of their bytes. -/
  ascending : (action.environment.entries.map fun entry => Text.bytes entry.1).Pairwise (· < ·)
  names : ∀ name, name ∈ action.environment.entries.map Prod.fst ↔ name ∈ members.map Prod.fst
  /-- A member counts if none of its name comes behind it. -/
  last : ∀ front name json back, members = front ++ (name, json) :: back →
    name ∉ back.map Prod.fst →
      action.environment.get? name = some json.toValue ∧ action.envText? name = json.plainText?
  absent : ∀ name, name ∉ members.map Prod.fst → action.envText? name = none

/-- The bindings that members are read as. -/
def bindingsOf (members : List (String × Json)) : List (String × Value) :=
  members.map fun member => (member.1, member.2.toValue)

theorem names_bindingsOf (members : List (String × Json)) :
    (bindingsOf members).map Prod.fst = members.map Prod.fst := List.map_map

/-- What relates each member to its value relates the members to the bindings. -/
theorem forall₂_bindingsOf (related : Json → Value → Prop) {members : List (String × Json)}
    (h : ∀ member ∈ members, related member.2 member.2.toValue) :
    List.Forall₂ (fun member binding => member.1 = binding.1 ∧ related member.2 binding.2) members
      (bindingsOf members) := by
  unfold bindingsOf
  rw [List.forall₂_map_right_iff, List.forall₂_same]
  exact fun member hmember => ⟨rfl, h member hmember⟩

/-- The action with an environment of these members. -/
def withMembers (action : Action) (members : List (String × Json)) : Action :=
  { action with environment := .ofList (bindingsOf members) }

theorem get?_withMembers (action : Action) {front back : List (String × Json)} {name : String}
    {json : Json} (h : name ∉ back.map Prod.fst) :
    (action.withMembers (front ++ (name, json) :: back)).environment.get? name
      = some json.toValue := by
  unfold withMembers bindingsOf
  rw [List.map_append, List.map_cons]
  rw [← names_bindingsOf] at h
  exact Environment.get?_ofList_last h

/-- The text of a binding is that of its value. -/
theorem envText?_of_get? {action : Action} {name : String} {value? : Option Value}
    (h : action.environment.get? name = value?) :
    action.envText? name = value?.bind Value.scalarText? := by
  unfold envText? Environment.text?
  rw [h]

/-- The bindings are inserted one by one, and each replaces a former one of its name. -/
theorem keepsLast_withMembers (action : Action) (members : List (String × Json)) :
    (action.withMembers members).KeepsLast members where
  ascending :=
    List.pairwise_map.mpr
      ((action.withMembers members).environment.ascending.imp Text.bytes_lt_iff.mpr)
  names := by
    intro name
    rw [← names_bindingsOf]
    exact Environment.mem_names_ofList
  last := by
    rintro front name json back rfl hback
    have hget : (action.withMembers (front ++ (name, json) :: back)).environment.get? name
        = some json.toValue := get?_withMembers action hback
    refine ⟨hget, ?_⟩
    rw [envText?_of_get? hget]
    exact json.scalarText?_toValue
  absent := by
    intro name hname
    rw [← names_bindingsOf] at hname
    have hget : (action.withMembers members).environment.get? name = none :=
      Environment.get?_ofList_absent hname
    exact envText?_of_get? hget

/-! ## Reading -/

/-- The JSON form of an action, but with these members as its environment. -/
def toJsonWith (action : Action) (members : List (String × Json)) : Json :=
  .ofMembers (head action.name action.image action.timeout action.pid ++
    [Json.member "environment" (.object members)])

theorem read_toJsonWith {levels : Nat} (hlevels : levels + 2 < Json.depthLimit) (action : Action)
    {members : List (String × Json)} (h : ∀ member ∈ members, member.2.Fits levels) :
    Json.read read (action.toJsonWith members).text = .ok (action.withMembers members) := by
  have hmembers := forall₂_bindingsOf (fun json value => json.toValue = value ∧ json.Fits levels)
    fun member hmember => ⟨rfl, h member hmember⟩
  have hread : jsonReading.Reads (levels + 2) read (action.toJsonWith members)
      (action.withMembers members) :=
    reads_environment jsonReading (some (.object members))
      (fun _ hjson => Option.some.inj hjson ▸ reads_untypedBindings jsonReading hmembers) nofun
  exact read_text (hread Json.depthLimit hlevels)

/-- An action is refused if its environment is. -/
theorem refuses_toJsonWith (action : Action) {members : List (String × Json)} {depth : Nat}
    (hdepth : 2 ≤ depth) (h : Refuses (bindings value) (depth - 1) (.object members)) :
    Refuses read depth (action.toJsonWith members) := by
  have hparts : shape.Parts (jsonReading.Reads 0) ["name", "image", "timeout", "pid"] blank
      (head action.name action.image action.timeout action.pid)
      ⟨action.name, action.image, action.timeout, action.pid, .empty⟩ :=
    reads_head jsonReading _ _ _ _
  have hfills := hparts.fills.imp fun _ _ _ hread => hread (depth - 1) (by omega)
  have hnodup := List.Nodup.sublist hparts.names_sublist (by decide)
  obtain ⟨names, -, hcollects⟩ := collects_of_fills hfills [] (by simp) hnodup
  unfold toJsonWith Json.ofMembers
  rw [List.filterMap_append]
  refine refuses_record (stops_behind hcollects (.value ?_))
  rw [readField_of_field rfl]
  exact refuses_map _ (refuses_map _ h)

/-! ## Objects below -/

section Below

variable {levels : Nat} {front back members : List (String × Json)} {name : String}

theorem fits_below (houter : ∀ member ∈ front ++ back, member.2.Fits (levels + 1))
    (h : ∀ member ∈ members, member.2.Fits levels) (hnodup : (members.map Prod.fst).Nodup) :
    ∀ member ∈ front ++ (name, .object members) :: back, member.2.Fits (levels + 1) := by
  obtain ⟨hfront, hback⟩ := List.forall_mem_append.mp houter
  exact List.forall_mem_append.mpr ⟨hfront, List.forall_mem_cons.mpr ⟨.object hnodup h, hback⟩⟩

/-- **A name that comes twice in a value makes the text unreadable**, whatever stands around it. -/
theorem read_below_fails (action : Action) (hlevels : levels + 3 < Json.depthLimit)
    (hfront : ∀ member ∈ front, member.2.Fits (levels + 1))
    (h : ∀ member ∈ members, member.2.Fits levels) (hrepeated : ¬ (members.map Prod.fst).Nodup) :
    Fails (Json.read (read (m := Json.Reader))
      (action.toJsonWith (front ++ (name, .object members) :: back)).text) := by
  have hdepth : levels + 1 < Json.depthLimit - 1 - 1 := by omega
  have htakes := forall₂_bindingsOf (Takes value (Json.depthLimit - 1 - 1))
    fun member hmember => takes_value (hfront member hmember) hdepth
  exact read_fails (refuses_toJsonWith action (by decide)
    (refuses_bindings htakes (refuses_value hdepth h hrepeated)))

end Below

/-- **An environment keeps the last binding of each name, and a value keeps all its members**, or
there is none. Any values of the members will do that are not too deep, scalars in particular. -/
theorem environment_keepsLast_value_keepsAll (action : Action) {levels : Nat}
    (hlevels : levels + 3 < Json.depthLimit) :
    (∀ members : List (String × Json), (∀ member ∈ members, member.2.Fits (levels + 1)) →
      ∃ environment : Environment,
        Json.read read (action.toJsonWith members).text = .ok { action with environment } ∧
        { action with environment }.KeepsLast members) ∧
    ∀ (front back members : List (String × Json)) (name : String),
      (∀ member ∈ front ++ back, member.2.Fits (levels + 1)) →
      (∀ member ∈ members, member.2.Fits levels) →
      ((members.map Prod.fst).Nodup → ∃ environment : Environment,
        Json.read read (action.toJsonWith (front ++ (name, .object members) :: back)).text
          = .ok { action with environment } ∧
        (name ∉ back.map Prod.fst → environment.get? name
          = some (.mapping (members.map fun member => (.text member.1, member.2.toValue))))) ∧
      (¬ (members.map Prod.fst).Nodup → Fails (Json.read (read (m := Json.Reader))
        (action.toJsonWith (front ++ (name, .object members) :: back)).text)) := by
  refine ⟨?_, ?_⟩
  · intro members h
    exact ⟨_, read_toJsonWith hlevels action h, keepsLast_withMembers action members⟩
  · intro front back members name houter h
    refine ⟨?_, read_below_fails action hlevels (List.forall_mem_append.mp houter).1 h⟩
    intro hnodup
    refine ⟨_, read_toJsonWith hlevels action (fits_below houter h hnodup), ?_⟩
    intro hback
    rw [← Json.membersToEntries_eq_map]
    exact get?_withMembers action hback

/-- Names that come again: one with another value, one without any, and one that has to
be escaped. -/
def shadowing : List (String × Json) :=
  [("😀", .int 1), ("～", .string "x"), ("\"\n", .bool false), ("～", .null), ("😀", .string "y"),
    ("\"\n", .int (-2 ^ 63))]

theorem shadowing_fits (levels : Nat) : ∀ member ∈ shadowing, member.2.Fits levels := by
  unfold shadowing
  simp only [List.forall_mem_cons]
  exact ⟨.int (by decide) (by decide), .string, .bool, .null, .string, .int (by decide) (by decide),
    by simp⟩

theorem environment_keepsLast_value_keepsAll_shadowing :
    (∃ environment : Environment,
      Json.read read (blank.toJsonWith shadowing).text = .ok { blank with environment } ∧
      { blank with environment }.envText? "😀" = some "y" ∧
      { blank with environment }.envText? "～" = none ∧
      { blank with environment }.envText? "\"\n" = some "-9223372036854775808" ∧
      { blank with environment }.envText? "x" = none) ∧
    Fails (Json.read (read (m := Json.Reader))
      (blank.toJsonWith [("a", .null), ("a", .object shadowing), ("b", .null)]).text) ∧
    ∃ environment : Environment,
      Json.read read
        (blank.toJsonWith [("a", .null), ("a", .object (shadowing.drop 3)), ("b", .null)]).text
        = .ok { blank with environment } ∧
      environment.get? "a" = some (.mapping [(.text "～", .null), (.text "😀", .text "y"),
        (.text "\"\n", .int (-2 ^ 63))]) := by
  have hlevels : 0 + 3 < Json.depthLimit := by decide
  have hother : ∀ member ∈ [("a", Json.null)] ++ [("b", Json.null)], member.2.Fits 1 :=
    List.forall_mem_cons.mpr ⟨.null, List.forall_mem_singleton.mpr .null⟩
  obtain ⟨habove, hbelow⟩ := environment_keepsLast_value_keepsAll blank hlevels
  obtain ⟨environment, hread, hkeeps⟩ := habove shadowing (shadowing_fits 1)
  have hrefused :=
    (hbelow [("a", .null)] [("b", .null)] shadowing "a" hother (shadowing_fits 0)).2 (by decide)
  obtain ⟨environment', hread', hget⟩ :=
    (hbelow [("a", .null)] [("b", .null)] (shadowing.drop 3) "a" hother
    fun member hmember => shadowing_fits 0 member (List.mem_of_mem_drop hmember)).1 (by decide)
  refine ⟨⟨environment, hread, ?_, ?_, ?_, ?_⟩, hrefused, environment', hread', hget (by decide)⟩
  · exact (hkeeps.last (shadowing.take 4) "😀" (.string "y")
      [("\"\n", .int (-2 ^ 63))] rfl (by decide)).2
  · exact (hkeeps.last (shadowing.take 3) "～" .null (shadowing.drop 4) rfl (by decide)).2
  · exact (hkeeps.last (shadowing.take 5) "\"\n" (.int (-2 ^ 63)) [] rfl (by decide)).2
  · exact hkeeps.absent "x" (by decide)

end Workflow.Action

end Provisioning
