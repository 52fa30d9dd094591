import Provisioning.Proofs.Json.Format
import Provisioning.Proofs.Json.Guarantee
import Provisioning.Proofs.Workflow.JsonForm

/-!
# Which documents survive JSON

A document is written as JSON and read again. What stands in the way are the values of its
environments, because JSON has no tags, no keys but strings and no numbers that are not finite,
and because the reader only goes so deep. That nothing else stands in the way is one direction,
and comes from following the reader over the text that is written. The other direction goes by
way of what was read: it is plain whatever the text was, and so is what equals it. Once this is
known, the first direction says what exactly was read, and a number that is not finite would
have become null.
-/

namespace Provisioning

/-- How many collections may lie within one another in a value of an environment that is read
from JSON: 127 in all, less the six around it. -/
def Workflow.jsonLevels : Nat := 121

/-- A value that JSON can hold: no tags, no numbers that are not finite and only texts as keys,
at any depth, and the depth is not too great. -/
structure Value.JsonSafe (value : Value) : Prop where
  untagged : ∀ tag inner, ¬ Value.Part (.tagged tag inner) value
  finite : ∀ x, Value.Part (.float x) value → x.isFinite = true
  keys : ∀ entries, Value.Part (.mapping entries) value →
    ∀ entry ∈ entries, ∃ name, entry.1 = .text name
  depth : value.depth ≤ Workflow.jsonLevels

theorem Value.JsonSafe.of_plain {value : Value} (h : value.Plain NoFloat Workflow.jsonLevels) :
    value.JsonSafe where
  untagged tag inner hpart := nomatch h.part hpart
  finite x hpart := by
    cases h.part hpart with
    | float hx => exact hx.elim
  keys entries hpart := by
    cases h.part hpart with
    | mapping hkeys _ => exact hkeys
  depth := h.depth_le

namespace Workflow.Document

open Value

/-- The document has a JSON text, this text can be read, and what is read equals the document. -/
def SurvivesJson (document : Document) : Prop :=
  ∃ json read, document.toJson = .ok json ∧ Json.read Document.read json.text = .ok read ∧
    document.same read = true

variable {document : Document}

/-- What is read of a document whose values are plain, but for numbers that are not finite. -/
theorem read_text_of_plain (hlawful : ∀ value ∈ document.values, value.Lawful)
    (hplain : ∀ value ∈ document.values, value.Plain NotFinite jsonLevels) {json : Json}
    (hjson : document.toJson = .ok json) :
    Json.read Document.read json.text
      = .ok (document.mapActions (Action.mapValues throughJson)) := by
  have hdepth : jsonLevels + 6 < Json.depthLimit := by decide
  refine Json.Reader.read_text (Document.reads Json.Reader.jsonReading hjson ?_ _ hdepth)
  intro value hvalue form hform
  obtain ⟨form', hform', hfits, -⟩ := (hplain value hvalue).toJson_fits (hlawful value hvalue)
  rw [hform] at hform'
  cases hform'
  exact hfits

/-- A document of plain values without floating-point numbers is read as itself. -/
theorem survivesJson_of_plain (hlawful : ∀ value ∈ document.values, value.Lawful)
    (hplain : ∀ value ∈ document.values, value.Plain NoFloat jsonLevels) :
    document.SurvivesJson := by
  have hnotFinite : ∀ value ∈ document.values, value.Plain NotFinite jsonLevels :=
    fun value hvalue => (hplain value hvalue).kind fun _ _ => False.elim
  obtain ⟨json, hjson⟩ := Document.exists_toJson fun value hvalue => by
    obtain ⟨json, hjson, -⟩ := (hnotFinite value hvalue).toJson_fits (hlawful value hvalue)
    exact ⟨json, hjson⟩
  refine ⟨json, document, hjson, ?_, same_self fun value hvalue =>
    (hplain value hvalue).same_self (hlawful value hvalue)⟩
  rw [read_text_of_plain hlawful hnotFinite hjson, mapActions_eq_self fun value hvalue =>
    (hplain value hvalue).throughJson_eq]

/-- What survives is plain, because all that is read is. -/
theorem plain_of_survivesJson (h : document.SurvivesJson) :
    ∀ value ∈ document.values, value.Plain Json.Reader.AnyFloat jsonLevels := by
  obtain ⟨json, read, -, hread, hsame⟩ := h
  have hdepth : Json.depthLimit ≤ jsonLevels + 6 + 1 := by decide
  have hplain := Json.Reader.holds_of_read
    (Document.yields Json.Reader.jsonGuarantee Json.depthLimit hdepth) hread
  intro value hvalue
  obtain ⟨partner, hpartner, hsame⟩ := exists_same_value hsame value hvalue
  exact (hplain partner hpartner).of_same (fun _ _ _ _ => trivial) value hsame

/-- **Without finite floating-point numbers, exactly the documents whose values JSON can hold
survive JSON.** -/
theorem survivesJson_iff (document : Document)
    (hlawful : ∀ value ∈ document.values, value.Lawful)
    (hfloat : ∀ value ∈ document.values, ∀ x, Part (.float x) value → x.isFinite = false) :
    document.SurvivesJson ↔ ∀ value ∈ document.values, value.JsonSafe := by
  constructor
  · intro h value hvalue
    have hnotFinite : ∀ value ∈ document.values, value.Plain NotFinite jsonLevels :=
      fun value hvalue => (plain_of_survivesJson h value hvalue).kind fun x hx _ =>
        hfloat value hvalue x hx
    obtain ⟨json, read, hjson, hread, hsame⟩ := h
    -- By the other direction it is known what was read: every value through JSON, which has no
    -- numbers that are not finite any more. What equals such a value has none either.
    rw [read_text_of_plain hlawful hnotFinite hjson] at hread
    cases hread
    obtain ⟨partner, hpartner, hsame⟩ := exists_same_value hsame value hvalue
    obtain ⟨original, horiginal, rfl⟩ := mem_values_mapActions hpartner
    obtain ⟨form, hform, -, hplain⟩ :=
      (hnotFinite original horiginal).toJson_fits (hlawful original horiginal)
    rw [← throughJson_of_ok hform] at hplain
    exact JsonSafe.of_plain (hplain.of_same (fun _ _ _ => False.elim) value hsame)
  · intro h
    refine survivesJson_of_plain hlawful fun value hvalue => ?_
    have hsafe := h value hvalue
    refine plain_of_parts value jsonLevels hsafe.untagged (fun x hx => ?_) hsafe.keys hsafe.depth
    have hfinite := hsafe.finite x hx
    rw [hfloat value hvalue x hx] at hfinite
    exact absurd hfinite (by decide)

/-- A document with a mapping of a sequence, whose key and text have to be escaped. -/
def nested : Document :=
  let value := Value.mapping [(.text "\"\n", .sequence [.int (-2 ^ 63), .text "\\", .null])]
  ⟨none, "", some 0, [⟨"", "", [], [⟨"", "", none, some "", ⟨[("", value)], by simp⟩⟩]⟩]⟩

theorem nested_survivesJson : (∀ value ∈ nested.values, value.Lawful) ∧
    (∀ value ∈ nested.values, ∀ x, Part (.float x) value → x.isFinite = false) ∧
    nested.SurvivesJson := by
  have hvalues : nested.values
      = [.mapping [(.text "\"\n", .sequence [.int (-2 ^ 63), .text "\\", .null])]] := rfl
  have hplain : ∀ value ∈ nested.values, value.Plain NoFloat jsonLevels := by
    rw [hvalues, List.forall_mem_singleton]
    refine .mapping (by simp) ?_
    rw [List.forall_mem_singleton]
    refine .sequence ?_
    simp only [List.forall_mem_cons]
    exact ⟨.int _, .text _, .null, by simp⟩
  have hlawful : ∀ value ∈ nested.values, value.Lawful := by
    rw [hvalues, List.forall_mem_singleton]
    refine lawful_mapping (List.pairwise_singleton _ _) ?_
    rw [List.forall_mem_singleton]
    refine ⟨lawful_text _, lawful_sequence ?_⟩
    simp only [List.forall_mem_cons]
    exact ⟨lawful_int (by decide) (by decide), lawful_text _, lawful_null, by simp⟩
  have hfloat : ∀ value ∈ nested.values, ∀ x, Part (.float x) value → x.isFinite = false := by
    intro value hvalue x hpart
    cases (hplain value hvalue).part hpart with
    | float hx => exact hx.elim
  exact ⟨hlawful, hfloat, (survivesJson_iff nested hlawful hfloat).mpr fun value hvalue =>
    .of_plain (hplain value hvalue)⟩

end Workflow.Document

end Provisioning
