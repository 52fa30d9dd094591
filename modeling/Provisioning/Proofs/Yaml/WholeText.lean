import Provisioning.Proofs.Yaml.Building
import Provisioning.Proofs.Yaml.Reading
import Provisioning.Proofs.Yaml.Token.Standing
import Provisioning.Yaml.Stream

/-!
# Whole texts

The three stages that a text goes through are put together here: the lexer yields tokens of
certain kinds, these kinds build a node, and a reader takes that node. A text that consists of
clean characters passes the stage in front of all that as it is.
-/

namespace Provisioning.Yaml

/-- A character that a text may hold and that is not rewritten. -/
def isClean (c : Char) : Bool := isPermitted c && c != '\r' && c != '\u0085'

/-- The printable characters of ASCII are clean. -/
theorem isClean_of_printable {c : Char} (hlow : 0x20 ≤ c.toNat) (hhigh : c.toNat ≤ 0x7E) :
    isClean c = true := by
  have hreturn : c ≠ '\r' := fun h => by rw [h] at hlow; exact absurd hlow (by decide)
  have hnext : c ≠ '\u0085' := fun h => by rw [h] at hhigh; exact absurd hhigh (by decide)
  unfold isClean isPermitted
  simp [hlow, hhigh, hreturn, hnext]

theorem range_of_isAlphanum {c : Char} (h : c.isAlphanum = true) :
    0x30 ≤ c.toNat ∧ c.toNat ≤ 0x7A := by
  unfold Char.isAlphanum Char.isAlpha Char.isUpper Char.isLower Char.isDigit at h
  simp only [Bool.or_eq_true, Bool.and_eq_true, decide_eq_true_eq, ge_iff_le,
    UInt32.le_iff_toNat_le] at h
  simp at h
  omega

theorem isClean_of_isAlphanum {c : Char} (h : c.isAlphanum = true) : isClean c = true := by
  obtain ⟨hlow, hhigh⟩ := range_of_isAlphanum h
  exact isClean_of_printable (by omega) (by omega)

theorem clean_cons {c : Char} {text : List Char} (hc : isClean c = true)
    (h : ∀ d ∈ text, isClean d = true) : ∀ d ∈ c :: text, isClean d = true :=
  List.forall_mem_cons.mpr ⟨hc, h⟩

theorem clean_append {text text' : List Char} (h : ∀ c ∈ text, isClean c = true)
    (h' : ∀ c ∈ text', isClean c = true) : ∀ c ∈ text ++ text', isClean c = true :=
  List.forall_mem_append.mpr ⟨h, h'⟩

theorem forbiddenOffset?_clean : ∀ (text : List Char) (offset : Nat),
    (∀ c ∈ text, isClean c = true) → forbiddenOffset? offset text = none := by
  intro text
  induction text with
  | nil => intro offset _; rfl
  | cons c text ih =>
    intro offset h
    obtain ⟨hc, htext⟩ := List.forall_mem_cons.mp h
    unfold isClean at hc
    rw [Bool.and_eq_true, Bool.and_eq_true] at hc
    rw [forbiddenOffset?, if_pos hc.1.1]
    exact ih _ htext

theorem unifyBreaks_clean : ∀ text : List Char, (∀ c ∈ text, isClean c = true) →
    unifyBreaks text = text := by
  intro text
  induction text with
  | nil => intro _; rfl
  | cons c text ih =>
    intro h
    obtain ⟨hc, htext⟩ := List.forall_mem_cons.mp h
    have hreturn : c ≠ '\r' := fun he => by rw [he] at hc; exact absurd hc (by decide)
    have hnext : c ≠ '\u0085' := fun he => by rw [he] at hc; exact absurd hc (by decide)
    rw [unifyBreaks, ih htext]
    · intro rest he; exact absurd he hreturn
    · intro he; exact absurd he hreturn
    · intro he; exact absurd he hnext

/-- A collection may be the root of a document that begins without a boundary. -/
inductive BeginsRoot : Token.Kind → Prop where
  | flowSequence : BeginsRoot .flowSequenceStart
  | flowMapping : BeginsRoot .flowMappingStart
  | blockSequence : BeginsRoot .blockSequenceStart
  | blockMapping : BeginsRoot .blockMappingStart

/-- The builder that awaits the root of a document without a boundary. -/
def Builder.awaitingRoot : Builder := { Builder.initial with stage := .document }.await .bareRoot

theorem feed_first {token : Token} (h : BeginsRoot token.kind) :
    Builder.initial.feed token = Builder.awaitingRoot.feed token := by
  obtain ⟨kind, start, stop⟩ := token
  cases h <;> rfl

variable {α : Type} {read : Reader α} {a : α} {block : Bool} {kind : Token.Kind}
  {kinds : List Token.Kind} {holds : Node → Prop}

/-- The tokens of one node are the tokens of a document with this node as its root. -/
theorem ofTokens_root (hbuilds : Builds block (kind :: kinds) holds) (hroot : BeginsRoot kind)
    {tokens : List Token} (hkinds : tokens.map Token.kind = kind :: kinds ++ [.streamEnd]) :
    ∃ steps node, Stream.ofTokens tokens none = ⟨some node, steps, none, false⟩ ∧ holds node := by
  obtain ⟨tokens, last, rfl, htokens, hlast⟩ := List.map_eq_append_iff.mp hkinds
  obtain ⟨start, stop, others, rfl, hothers⟩ := Builds.cons_of_kinds hlast
  cases List.map_eq_nil_iff.mp hothers
  obtain ⟨n, node, hfeed, hholds⟩ := hbuilds tokens Builder.awaitingRoot .bareRoot htokens rfl
    ⟨by simp, fun _ => rfl⟩ rfl
  obtain ⟨start', stop', others, rfl, hothers⟩ := Builds.cons_of_kinds htokens
  -- The first token begins the document and is then met again as the beginning of its root.
  have hsame : (⟨kind, start', stop'⟩ :: others).foldlM Builder.feed Builder.initial
      = (⟨kind, start', stop'⟩ :: others).foldlM Builder.feed Builder.awaitingRoot := by
    rw [List.foldlM_cons, List.foldlM_cons, feed_first hroot]
  refine ⟨n, node, ?_, hholds⟩
  unfold Stream.ofTokens
  rw [List.foldlM_append, hsame, hfeed, Outcome.ok_bind]
  show Stream.mk (some node) (0 + n + 0) none false = ⟨some node, n, none, false⟩
  rw [Nat.zero_add, Nat.add_zero]

/-- A clean text holds the document that its tokens build. -/
theorem ofText_clean {text : String} (hclean : ∀ c ∈ text.toList, isClean c = true) :
    Stream.ofText text
      = Stream.ofTokens (Lexer.ofText text.toList).run.1 (Lexer.ofText text.toList).run.2 := by
  unfold Stream.ofText
  rw [forbiddenOffset?_clean _ _ hclean]
  dsimp only
  rw [unifyBreaks_clean _ hclean]
  rfl

/-- The document of a text whose tokens build a node. -/
theorem stream_of_yields {text : String} (hclean : ∀ c ∈ text.toList, isClean c = true)
    (hyields : (Lexer.ofText text.toList).Yields (kind :: kinds ++ [.streamEnd]))
    (hroot : BeginsRoot kind) (hbuilds : Builds block (kind :: kinds) holds) :
    ∃ steps node, Stream.ofText text = ⟨some node, steps, none, false⟩ ∧ holds node := by
  obtain ⟨tokens, hrun, hkinds⟩ := hyields
  rw [ofText_clean hclean, hrun]
  exact ofTokens_root hbuilds hroot hkinds

/-- A document is read as what a reader takes its root for. -/
theorem read_of_stream {text : String} {node : Node} {steps : Nat}
    (hstream : Stream.ofText text = ⟨some node, steps, none, false⟩)
    (htakes : Reader.Takes depthLimit read node a) : Yaml.read read text = .ok a := by
  unfold Yaml.read
  rw [hstream]
  unfold Stream.read
  dsimp only
  rw [htakes _ 0 (Nat.le_refl _)]
  rfl

/-- **A text is read** if its tokens build a node that the reader takes. -/
theorem read_of_yields {text : String} (hclean : ∀ c ∈ text.toList, isClean c = true)
    (hyields : (Lexer.ofText text.toList).Yields (kind :: kinds ++ [.streamEnd]))
    (hroot : BeginsRoot kind) (hbuilds : Builds block (kind :: kinds) holds)
    (htakes : ∀ node, holds node → Reader.Takes depthLimit read node a) :
    Yaml.read read text = .ok a := by
  obtain ⟨steps, node, hstream, hholds⟩ := stream_of_yields hclean hyields hroot hbuilds
  exact read_of_stream hstream (htakes node hholds)

end Provisioning.Yaml
