import Provisioning.Proofs.Workflow.JsonAsYaml
import Provisioning.Proofs.Workflow.JsonRoundTrip
import Provisioning.Proofs.Yaml.Guarantee

/-!
# How deep the values of a document are

Both readers carry a budget of collections that may lie within one another, and a document spends
six of them before a value of an environment begins. What is left is a bound on the depth of every
value, whatever the text was, and all that walks over values later may rely on it.
-/

namespace Provisioning.Workflow.Document

variable {text : String} {document : Document}

/-- What YAML reads: the depth counts what aliases stand for. -/
theorem depth_le_of_readDocument (h : Template.readDocument text = .ok document) :
    ∀ value ∈ document.values, value.depth ≤ yamlLevels :=
  Yaml.Reader.holds_of_read (Document.yields Yaml.Reader.yamlGuarantee)
    (Outcome.mapError_eq_ok.mp h)

/-- What JSON reads. -/
theorem depth_le_of_readJson (h : Json.read Document.read text = .ok document) :
    ∀ value ∈ document.values, value.depth ≤ jsonLevels := by
  have hdepth : Json.depthLimit ≤ jsonLevels + 6 + 1 := by decide
  have hplain := Json.Reader.holds_of_read
    (Document.yields Json.Reader.jsonGuarantee Json.depthLimit hdepth) h
  exact fun value hvalue => (hplain value hvalue).depth_le

/-- **No value of a document that was read is too deep**, in whatever way the text was written. -/
theorem values_depth_le (text : String) (document : Document) :
    (Template.readDocument text = .ok document → ∀ value ∈ document.values,
      value.depth ≤ yamlLevels) ∧ (Json.read Document.read text = .ok document →
        ∀ value ∈ document.values, value.depth ≤ jsonLevels) :=
  ⟨depth_le_of_readDocument, depth_le_of_readJson⟩

/-- A workflow with values in it that are one level deep where they are written, and deeper by what
their aliases stand for. -/
def aliased : String :=
  "\x7bname: a, tasks: [\x7bname: b, worker: c, actions: [\x7bname: d, image: e, " ++
    "environment: \x7bK: &k [x], L: &l [*k, y], M: [*l]\x7d\x7d]\x7d]\x7d"

/-- A workflow whose only action is written as the list of its fields. -/
def listed : String :=
  "\x7b\"name\":\"a\",\"tasks\":[\x7b\"name\":\"b\",\"worker\":\"c\",\"actions\":" ++
    "[[\"d\",\"e\",null,null,\x7b\"K\":[[]],\"L\":\x7b\"x\":[[]]\x7d\x7d]]\x7d]\x7d"

theorem exists_of_depths {ε : Type} {outcome : Except ε Document} {depths : List Nat}
    (h : (outcome.toOption.map fun document => document.values.map Value.depth) = some depths) :
    ∃ document, outcome = .ok document ∧ document.values.map Value.depth = depths := by
  cases outcome with
  | error fault => cases h
  | ok document => exact ⟨document, rfl, Option.some.inj h⟩

theorem values_depth_le_aliased :
    (∃ document, Template.readDocument aliased = .ok document ∧
      document.values.map Value.depth = [1, 2, 3] ∧ ∀ value ∈ document.values,
        value.depth ≤ yamlLevels) ∧
    ∃ document, Json.read Document.read listed = .ok document ∧
      document.values.map Value.depth = [2, 3] ∧ ∀ value ∈ document.values,
        value.depth ≤ jsonLevels := by
  have hyaml : ((Template.readDocument aliased).toOption.map fun document =>
      document.values.map Value.depth) = some [1, 2, 3] := by decide +kernel
  have hjson : ((Json.read Document.read listed).toOption.map fun document =>
      document.values.map Value.depth) = some [2, 3] := by decide +kernel
  obtain ⟨document, hread, hvalues⟩ := exists_of_depths hyaml
  obtain ⟨document', hread', hvalues'⟩ := exists_of_depths hjson
  exact ⟨⟨document, hread, hvalues, (values_depth_le aliased document).1 hread⟩,
    document', hread', hvalues', (values_depth_le listed document').2 hread'⟩

end Provisioning.Workflow.Document
