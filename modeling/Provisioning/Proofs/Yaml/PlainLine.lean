import Provisioning.Proofs.Yaml.PlainWord
import Provisioning.Proofs.Yaml.Token.Inline

/-!
# Lines that are one plain scalar

Whoever puts a text behind a key without quotes wants it to be one plain scalar as a whole. Whether
it is can be read off its characters: the first one must be able to begin a scalar, and what
follows must not end it early, by a comment, by a colon, or by a blank at the end. Blanks inside of
it do no harm.
-/

namespace Provisioning.Yaml

open Lexer (BeginsScalar LineWord isIndicator)

variable {line rest : List Char} {c : Char}

/-- **A line that is one plain scalar among blocks.** -/
structure IsPlainLine (line : List Char) : Prop where
  begins : ∃ c rest, line = c :: rest ∧ BeginsScalar c rest ∧ c ≠ '\uFEFF'
  inner : ∀ c ∈ line, isBreak c = false
  uncommented : hasComment false line = false
  uncut : hasColon line = false
  ends : ∀ c, line.getLast? = some c → isBlank c = false

instance (c : Char) (rest : List Char) : Decidable (BeginsScalar c rest) :=
  inferInstanceAs (Decidable ((isBlank c = false ∧ isIndicator c = false) ∨
    ((c = '-' ∨ c = '?' ∨ c = ':') ∧ endsWord rest = false)))

/-- Of a line that is not empty everything can be checked. -/
theorem isPlainLine_cons_iff : IsPlainLine (c :: rest) ↔ BeginsScalar c rest ∧ c ≠ '\uFEFF' ∧
    (c :: rest).all (fun d => !isBreak d) = true ∧ hasComment false (c :: rest) = false ∧
      hasColon (c :: rest) = false ∧ (c :: rest).getLast?.all (fun d => !isBlank d) = true := by
  simp only [List.all_eq_true, Option.all_eq_true, Bool.not_eq_true']
  constructor
  · rintro ⟨⟨_, _, ⟨⟩, hbegins, hmark⟩, hinner, huncommented, huncut, hends⟩
    exact ⟨hbegins, hmark, hinner, huncommented, huncut, hends⟩
  · rintro ⟨hbegins, hmark, hinner, huncommented, huncut, hends⟩
    exact ⟨⟨c, rest, rfl, hbegins, hmark⟩, hinner, huncommented, huncut, hends⟩

instance : ∀ line : List Char, Decidable (IsPlainLine line)
  | [] => .isFalse fun h => by obtain ⟨_, _, hline, -⟩ := h.begins; cases hline
  | _ :: _ => decidable_of_iff _ isPlainLine_cons_iff.symm

/-- Inside a line a plain scalar begins with any character that may begin one. -/
theorem form?_beginsScalar (h : BeginsScalar c rest) (hbreak : isBreak c = false) {lexer : Lexer}
    (hflow : lexer.inFlow = false) (hcolumn : lexer.mark.column ≠ 0) (more : List Char) :
    lexer.form? c (rest ++ '\n' :: more) = some .plain := by
  have hstart : (lexer.mark.column == 0) = false := beq_eq_false_iff_ne.mpr hcolumn
  unfold Lexer.form? Lexer.beginsPlain
  rw [hstart, hflow]
  rcases h with ⟨hblank, hindicator⟩ | ⟨hc, hends⟩
  · unfold isIndicator isFlowPunctuation at hindicator
    simp only [Bool.or_eq_false_iff, beq_eq_false_iff_ne] at hindicator
    simp_all [isIndicator, isFlowPunctuation]
  · obtain ⟨d, others, rfl⟩ : ∃ d others, rest = d :: others :=
      List.exists_cons_of_ne_nil fun hnil => by rw [hnil] at hends; cases hends
    have hnext : endsWord (d :: others ++ '\n' :: more) = false := hends
    have hblank : isBlank d = false := (Bool.or_eq_false_iff.mp hends).1
    unfold isBlank at hblank
    rw [Bool.or_eq_false_iff, beq_eq_false_iff_ne, beq_eq_false_iff_ne] at hblank
    rw [hnext]
    rcases hc with rfl | rfl | rfl
    · simp [startsWith, hblank.1.symm, hblank.2.symm]
    all_goals simp

theorem not_isBlank_of_beginsScalar (h : BeginsScalar c rest) : isBlank c = false := by
  rcases h with ⟨hblank, -⟩ | ⟨rfl | rfl | rfl, -⟩
  · exact hblank
  all_goals rfl

/-- **Such a line is a word in the sense of layouts.** -/
theorem IsPlainLine.lineWord (h : IsPlainLine line) : Layout.IsLineWord line := by
  obtain ⟨c, rest, rfl, hbegins, hmark⟩ := h.begins
  obtain ⟨hbreak, hinner⟩ := List.forall_mem_cons.mp h.inner
  have hblank := not_isBlank_of_beginsScalar hbegins
  have huncommented := h.uncommented
  have huncut := h.uncut
  rw [hasComment, hblank, Bool.false_and, Bool.false_or] at huncommented
  rw [hasColon, Bool.or_eq_false_iff] at huncut
  have hhash : c ≠ '#' := by
    rintro rfl
    rcases hbegins with ⟨-, hindicator⟩ | ⟨hc, -⟩
    · cases hindicator
    · exact absurd hc (by decide)
  refine ⟨c, rest, rfl, ⟨hbreak, hblank, hhash, hmark⟩, ?_, hinner, huncommented, huncut.2,
    fun d hd => h.ends d ?_⟩
  · exact fun lexer more hflow hcolumn => form?_beginsScalar hbegins hbreak hflow hcolumn more
  · cases rest with
    | nil => cases hd
    | cons e others => rw [List.getLast?_cons_cons]; exact hd

/-- A word without blanks is such a line if it begins and ends like one. -/
theorem isPlainLine_of_inner (hbegins : BeginsScalar c rest) (hmark : c ≠ '\uFEFF')
    (hinner : ∀ d ∈ c :: rest, isBlank d = false ∧ isBreak d = false)
    (hlast : (c :: rest).getLast? ≠ some ':') : IsPlainLine (c :: rest) :=
  ⟨⟨c, rest, rfl, hbegins, hmark⟩, fun d hd => (hinner d hd).2,
    Lexer.not_hasComment_of_inner _ fun d hd => (hinner d hd).1,
      Lexer.not_hasColon_of_inner _ hinner hlast,
    fun d hd => (hinner d (List.mem_of_getLast? hd)).1⟩

/-- **A word of safe characters is such a line.** -/
theorem isPlainLine_of_plainWord (h : isPlainWord line = true) : IsPlainLine line := by
  obtain ⟨c, rest, rfl, hbegins, hchars, hlast⟩ := isWordFrom_iff.mp h
  have hinner : ∀ d ∈ c :: rest, isBlank d = false ∧ isBreak d = false :=
    fun d hd => isWordChar_inner (hchars d hd)
  have hindicator : isIndicator c = false := by
    rw [Bool.or_eq_true, beq_iff_eq] at hbegins
    rcases hbegins with hletter | rfl
    · exact Lexer.not_isIndicator_of_isAlphanum hletter
    · decide
  have hmark : c ≠ '\uFEFF' := by
    rintro rfl
    exact absurd (hchars _ List.mem_cons_self) (by decide)
  exact isPlainLine_of_inner (.inl ⟨(hinner c List.mem_cons_self).1, hindicator⟩) hmark hinner hlast

end Provisioning.Yaml
