import Mathlib.Algebra.Ring.Nat
import Provisioning.Proofs.Json.Format
import Provisioning.Proofs.Json.Refusal
import Provisioning.Proofs.Workflow.JsonAsYaml
import Provisioning.Proofs.Workflow.JsonForm
import Provisioning.Proofs.Yaml.Refusal
import Provisioning.Workflow.Template

/-!
# Timeouts are read as they are written

A timeout is a natural number of 64 bits. Whatever number stands in its place, JSON and YAML agree:
one that fits is read as this very number, and any other makes the text unreadable, in the two
records that have a timeout. So neither reader gets around the limit, although both have other
kinds of numbers to turn to.
-/

namespace Provisioning.Workflow

open Number
open Outcome (Fails)

/-- An action whose timeout is spelt by these characters. -/
def actionText (number : String) : String :=
  "\x7b\"name\":\"a\",\"image\":\"i\",\"timeout\":" ++ number ++ "\x7d"

/-- A document whose timeout is spelt by these characters. -/
def documentText (number : String) : String :=
  "\x7b\"name\":\"a\",\"global_timeout\":" ++ number ++ "\x7d"

/-- Both formats read a spelling as this timeout, of an action and of a document. -/
def ReadAs (number : String) (timeout : UInt64) : Prop :=
  Json.read Action.read (actionText number) = .ok ⟨"a", "i", some timeout, none, .empty⟩ ∧
  Yaml.read Action.read (actionText number) = .ok ⟨"a", "i", some timeout, none, .empty⟩ ∧
  Json.read Document.read (documentText number) = .ok ⟨none, "a", some timeout, []⟩ ∧
  Yaml.read Document.read (documentText number) = .ok ⟨none, "a", some timeout, []⟩ ∧
  Template.readDocument (documentText number) = .ok ⟨none, "a", some timeout, []⟩

/-- Neither format reads a spelling as a timeout, of an action or of a document. -/
def Refused (number : String) : Prop :=
  Fails (Json.read (Action.read (m := Json.Reader)) (actionText number)) ∧
  Fails (Yaml.read (Action.read (m := Yaml.Reader)) (actionText number)) ∧
  Fails (Json.read (Document.read (m := Json.Reader)) (documentText number)) ∧
  Fails (Yaml.read (Document.read (m := Yaml.Reader)) (documentText number)) ∧
  Fails (Template.readDocument (documentText number))

/-! ## The members -/

/-- The members of the action. -/
def actionMembers (timeout : Int) : List (String × Json) :=
  [("name", .string "a"), ("image", .string "i"), ("timeout", .int timeout)]

/-- The members of the document. -/
def documentMembers (timeout : Int) : List (String × Json) :=
  [("name", .string "a"), ("global_timeout", .int timeout)]

theorem text_actionMembers (timeout : Int) : (Json.object (actionMembers timeout)).text
    = actionText (String.ofList (signedDecimal timeout)) := by
  apply String.toList_injective
  unfold Json.text actionText actionMembers
  simp only [String.toList_append, String.toList_ofList, Json.write, Json.writeMembers,
    List.append_assoc]
  rfl

theorem text_documentMembers (timeout : Int) : (Json.object (documentMembers timeout)).text
    = documentText (String.ofList (signedDecimal timeout)) := by
  apply String.toList_injective
  unfold Json.text documentText documentMembers
  simp only [String.toList_append, String.toList_ofList, Json.write, Json.writeMembers,
    List.append_assoc]
  rfl

theorem shortName_actionMembers (timeout : Int) :
    ∀ member ∈ actionMembers timeout, Json.ShortName member.1 := by
  unfold actionMembers
  simp only [List.forall_mem_cons]
  exact ⟨shortName_field _ (by simp), shortName_field _ (by simp),
    shortName_field _ (by simp), by simp⟩

theorem shortName_documentMembers (timeout : Int) :
    ∀ member ∈ documentMembers timeout, Json.ShortName member.1 := by
  unfold documentMembers
  simp only [List.forall_mem_cons]
  exact ⟨shortName_field _ (by simp), shortName_field _ (by simp), by simp⟩

/-! ## Numbers that fit -/

section Reads

variable {m : Type → Type} [Source m]

theorem reads_action (format : JsonReading m) (levels : Nat) (seconds : UInt64) :
    format.Reads (levels + 2) Action.read (.object (actionMembers seconds.toNat))
      ⟨"a", "i", some seconds, none, .empty⟩ := by
  have hread : format.Reads (levels + 2) Action.read
      (.ofMembers (Action.members "a" "i" (some seconds) none []))
      ⟨"a", "i", some seconds, none, .ofList []⟩ :=
    Action.reads_members format .nil
  exact hread

theorem reads_document (format : JsonReading m) (levels : Nat) (seconds : UInt64) :
    format.Reads (levels + 1) Document.read (.object (documentMembers seconds.toNat))
      ⟨none, "a", some seconds, []⟩ := by
  show format.Reads (levels + 1) Document.read (.ofMembers [
    Json.member "name" (.string "a"), Json.member "global_timeout" (.int seconds.toNat)]) _
  refine format.ofMembers ["name", "global_timeout"]
    (format.written rfl (format.text _) <|
      format.written rfl (format.optional rfl (format.natural seconds)) <| .done rfl) (by decide) ?_
  intro field hfield hrequired
  simp [Document.shape, Field.needed, Field.spare] at hfield
  rcases hfield with rfl | rfl | rfl | rfl
  · exact absurd hrequired Bool.false_ne_true
  · exact ⟨_, List.mem_cons_self⟩
  all_goals exact absurd hrequired Bool.false_ne_true

end Reads

/-- A number of 64 bits is a timeout in both formats. -/
theorem portable_actionMembers (seconds : UInt64) :
    (Json.object (actionMembers seconds.toNat)).Portable := by
  refine .object (shortName_actionMembers _) ?_
  unfold actionMembers
  simp only [List.forall_mem_cons]
  exact ⟨.string (List.all_eq_true.mp (by decide)), .string (List.all_eq_true.mp (by decide)),
    Json.portable_seconds seconds, by simp⟩

theorem portable_documentMembers (seconds : UInt64) :
    (Json.object (documentMembers seconds.toNat)).Portable := by
  refine .object (shortName_documentMembers _) ?_
  unfold documentMembers
  simp only [List.forall_mem_cons]
  exact ⟨.string (List.all_eq_true.mp (by decide)), Json.portable_seconds seconds, by simp⟩

theorem readAs_seconds (seconds : UInt64) :
    ReadAs (String.ofList (signedDecimal seconds.toNat)) seconds := by
  unfold ReadAs
  rw [← text_actionMembers, ← text_documentMembers]
  have hjson : 2 < Json.depthLimit := by decide
  have hdocument : Yaml.read Document.read (Json.object (documentMembers seconds.toNat)).text
      = .ok ⟨none, "a", some seconds, []⟩ :=
    Yaml.read_text (portable_documentMembers seconds)
      (reads_document Yaml.Reader.yamlReading _ seconds)
  refine ⟨?_, ?_, ?_, hdocument, ?_⟩
  · exact Json.Reader.read_text (reads_action Json.Reader.jsonReading 0 seconds _ hjson)
  · exact Yaml.read_text (portable_actionMembers seconds)
      (reads_action Yaml.Reader.yamlReading _ seconds)
  · exact Json.Reader.read_text (reads_document Json.Reader.jsonReading 1 seconds _ hjson)
  · exact Outcome.mapError_eq_ok.mpr hdocument

/-! ## Numbers that do not -/

section Refuses

open Json.Reader

variable {timeout : Int} {depth : Nat}

theorem refuses_timeout (h : timeout < 0 ∨ 2 ^ 64 ≤ timeout) {α : Type}
    (store : Option UInt64 → α → α) :
    Refuses (store <$> Source.optional Source.natural) depth (.int timeout) :=
  refuses_map store (refuses_optional rfl (refuses_natural h))

theorem refuses_action (h : timeout < 0 ∨ 2 ^ 64 ≤ timeout) :
    Refuses (Action.read (m := Json.Reader)) depth (.object (actionMembers timeout)) := by
  refine refuses_record (.later (takes_readField rfl (takes_map _ (takes_text .text _ "a")) _ _)
    (.later (takes_readField rfl (takes_map _ (takes_text .text _ "i")) _ _) (.value ?_)))
  rw [readField_of_field rfl]
  exact refuses_map _ (refuses_timeout h _)

theorem refuses_document (h : timeout < 0 ∨ 2 ^ 64 ≤ timeout) :
    Refuses (Document.read (m := Json.Reader)) depth (.object (documentMembers timeout)) := by
  refine refuses_record (.later (takes_readField rfl (takes_map _ (takes_text .text _ "a")) _ _)
    (.value ?_))
  rw [readField_of_field rfl]
  exact refuses_map _ (refuses_timeout h _)

end Refuses

theorem isSimple_actionMembers (timeout : Int) :
    ∀ member ∈ actionMembers timeout, Yaml.IsSimple member.2 := by
  unfold actionMembers
  simp only [List.forall_mem_cons]
  exact ⟨.string (List.all_eq_true.mp (by decide)), .string (List.all_eq_true.mp (by decide)), .int,
    by simp⟩

theorem isSimple_documentMembers (timeout : Int) :
    ∀ member ∈ documentMembers timeout, Yaml.IsSimple member.2 := by
  unfold documentMembers
  simp only [List.forall_mem_cons]
  exact ⟨.string (List.all_eq_true.mp (by decide)), .int, by simp⟩

theorem refused_outside {timeout : Int} (h : timeout < 0 ∨ 2 ^ 64 ≤ timeout) :
    Refused (String.ofList (signedDecimal timeout)) := by
  unfold Refused
  rw [← text_actionMembers, ← text_documentMembers]
  have haction : Fails (Yaml.read (Action.read (m := Yaml.Reader))
      (Json.object (actionMembers timeout)).text) :=
    Yaml.record_fails (shortName_actionMembers timeout) (isSimple_actionMembers timeout)
      (by simp) (rfl : Action.shape.field? "timeout" = some (.spare "timeout" _ _)) h
  have hdocument : Fails (Yaml.read (Document.read (m := Yaml.Reader))
      (Json.object (documentMembers timeout)).text) :=
    Yaml.record_fails (shortName_documentMembers timeout) (isSimple_documentMembers timeout)
      (by simp) (rfl : Document.shape.field? "global_timeout"
        = some (.spare "global_timeout" _ _)) h
  exact ⟨Json.Reader.read_fails (refuses_action h), haction,
    Json.Reader.read_fails (refuses_document h), hdocument, hdocument.mapError _⟩

/-! ## Every number -/

theorem text_natural (n : Nat) : String.ofList (signedDecimal n) = toString n :=
  ofList_signedDecimal n

theorem text_minus {n : Nat} (h : 1 ≤ n) :
    String.ofList (signedDecimal (-n)) = "-" ++ toString n := by
  obtain ⟨k, rfl⟩ : ∃ k, n = k + 1 := ⟨n - 1, by omega⟩
  exact ofList_signedDecimal (-(k + 1 : Nat))

/-- **A timeout is read exactly, or the text is refused**, by both formats and for numbers of any
length: the naturals below 2^64 are read as themselves, and neither a greater one nor any number
with a minus sign, except for a zero, is read as a timeout. -/
theorem timeout_exact_or_refused (n : Nat) :
    (n < 2 ^ 64 → ∃ timeout : UInt64, timeout.toNat = n ∧ ReadAs (toString n) timeout) ∧
    (2 ^ 64 ≤ n → Refused (toString n)) ∧
    (1 ≤ n → Refused ("-" ++ toString n)) := by
  refine ⟨?_, ?_, ?_⟩
  · intro hlt
    have htimeout : n.toUInt64.toNat = n := UInt64.toNat_ofNat_of_lt' hlt
    have hread := readAs_seconds n.toUInt64
    rw [htimeout, text_natural] at hread
    exact ⟨n.toUInt64, htimeout, hread⟩
  · intro hle
    have houtside : (n : Int) < 0 ∨ 2 ^ 64 ≤ (n : Int) := .inr (by omega)
    have hrefused := refused_outside houtside
    rwa [text_natural] at hrefused
  · intro hpos
    have houtside : -(n : Int) < 0 ∨ 2 ^ 64 ≤ -(n : Int) := .inl (by omega)
    have hrefused := refused_outside houtside
    rwa [text_minus hpos] at hrefused

/-- The greatest timeout, the first number that is none, one beyond all integers, and one
below zero. -/
theorem timeout_exact_or_refused_limit :
    ReadAs "18446744073709551615" 18446744073709551615 ∧ Refused "18446744073709551616" ∧
      Refused "1000000000000000000000000000000000000000" ∧ Refused "-1" := by
  obtain ⟨timeout, htimeout, hread⟩ := (timeout_exact_or_refused 18446744073709551615).1 (by decide)
  have hlimit : timeout = 18446744073709551615 := UInt64.toNat_inj.mp htimeout
  refine ⟨hlimit ▸ hread, (timeout_exact_or_refused 18446744073709551616).2.1 (by decide),
    (timeout_exact_or_refused 1000000000000000000000000000000000000000).2.1 (by decide),
    (timeout_exact_or_refused 1).2.2 (by decide)⟩

end Provisioning.Workflow
