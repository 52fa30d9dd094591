import Mathlib.Algebra.Group.Int.Defs
import Provisioning.Json.Skip
import Provisioning.Proofs.Number.Decimal

/-!
# Scalars read back from their JSON text

The words, the integers of 64 bits and the strings: each is read from what `Json.write`
writes of it, and the reader stops right behind it. A number is told from what follows
because within a document that is a comma or a closing bracket. Places are not part of these
statements; they only matter to faults.
-/

namespace Provisioning.Json

open Provisioning.Number

/-! ## Words -/

theorem readWord_append : ∀ (word rest : List Char) (place : Place),
    ∃ place', readWord word ⟨word ++ rest, place⟩ = .ok ⟨rest, place'⟩ := by
  intro word
  induction word with
  | nil => intro rest place; exact ⟨place, rfl⟩
  | cons c word ih =>
    intro rest place
    obtain ⟨place', h⟩ := ih rest (place.after c)
    refine ⟨place', ?_⟩
    rw [List.cons_append, readWord]
    dsimp only
    rw [if_pos (by simp)]
    exact h

/-! ## Strings -/

theorem hexCode?_control : ∀ n, n < 32 →
    hexCode? '0' '0' (Nat.digitChar (n / 16)) (Nat.digitChar (n % 16)) = some n := by
  decide

/-- A character that stands for itself inside a string. -/
theorem readStringFrom_plain {c : Char} (hquote : c ≠ '"') (hslash : c ≠ '\\')
    (hcontrol : ¬ c.toNat < 0x20) (text rest : List Char) (place : Place) :
    readStringFrom text none place (c :: rest)
      = readStringFrom (c :: text) none (place.after c) rest := by
  rw [readStringFrom]
  · rw [if_neg (by simp), if_neg (by simp [hquote]), if_neg (by simp [hslash]), if_neg hcontrol]
  · intro _ _ _ _ _ h; exact absurd h hslash
  · intro _ _ h; exact absurd h hslash

/-- A letter behind a backslash. -/
theorem readStringFrom_letter {letter c : Char} (h : unescape? letter = some c)
    (text rest : List Char) (place : Place) :
    readStringFrom text none place ('\\' :: letter :: rest)
      = readStringFrom (c :: text) none ⟨place.line, place.column + 2⟩ rest := by
  have hu : letter ≠ 'u' := by
    intro he
    rw [he] at h
    exact absurd h (by simp [unescape?])
  rw [readStringFrom]
  · rw [if_neg (by simp [hu]), if_neg (by simp), h]
  · intro _ _ _ _ _ he; exact absurd he hu

/-- The code of a control behind a backslash. -/
theorem readStringFrom_control {n : Nat} (h : n < 32) (text rest : List Char) (place : Place) :
    readStringFrom text none place
        ('\\' :: 'u' :: '0' :: '0' :: Nat.digitChar (n / 16) :: Nat.digitChar (n % 16) :: rest)
      = readStringFrom (Char.ofNat n :: text) none ⟨place.line, place.column + 6⟩ rest := by
  have hjoin : joinCodes none n = .ok (.inl (Char.ofNat n)) := by
    unfold joinCodes isLowSurrogate isHighSurrogate
    dsimp only
    rw [if_neg (by simp; omega), if_neg (by simp; omega)]
  rw [readStringFrom, hexCode?_control n h]
  dsimp only
  rw [hjoin]

/-- **What is written of a character is read as the character.** -/
theorem readStringFrom_escapeChar (c : Char) (text rest : List Char) (place : Place) :
    ∃ place', readStringFrom text none place (escapeChar c ++ rest)
      = readStringFrom (c :: text) none place' rest := by
  unfold escapeChar
  split
  · exact ⟨_, readStringFrom_letter rfl _ _ _⟩
  · exact ⟨_, readStringFrom_letter rfl _ _ _⟩
  · exact ⟨_, readStringFrom_letter rfl _ _ _⟩
  · exact ⟨_, readStringFrom_letter rfl _ _ _⟩
  · exact ⟨_, readStringFrom_letter rfl _ _ _⟩
  · exact ⟨_, readStringFrom_letter rfl _ _ _⟩
  · exact ⟨_, readStringFrom_letter rfl _ _ _⟩
  -- Neither a quote nor a backslash nor a control that a letter stands for.
  · rename_i hquote hslash _ _ _ _ _
    split
    · rename_i hcontrol
      refine ⟨⟨place.line, place.column + 6⟩, ?_⟩
      have := readStringFrom_control hcontrol text rest place
      rw [Char.ofNat_toNat] at this
      exact this
    · rename_i hcontrol
      exact ⟨_, readStringFrom_plain hquote hslash hcontrol text rest place⟩

theorem readStringFrom_escaped : ∀ (chars text rest : List Char) (place : Place),
    ∃ place', readStringFrom text none place (chars.flatMap escapeChar ++ '"' :: rest)
      = .ok (String.ofList (text.reverse ++ chars), ⟨rest, place'⟩) := by
  intro chars
  induction chars with
  | nil =>
    intro text rest place
    refine ⟨place.after '"', ?_⟩
    rw [List.flatMap_nil, List.nil_append, List.append_nil, readStringFrom]
    · rfl
    · intro _ _ _ _ _ h; exact absurd h (by decide)
    · intro _ _ h; exact absurd h (by decide)
  | cons c chars ih =>
    intro text rest place
    rw [List.flatMap_cons, List.append_assoc]
    obtain ⟨place₁, h₁⟩ :=
      readStringFrom_escapeChar c text (chars.flatMap escapeChar ++ '"' :: rest) place
    obtain ⟨place₂, h₂⟩ := ih (c :: text) rest place₁
    refine ⟨place₂, ?_⟩
    rw [h₁, h₂, List.reverse_cons, List.append_assoc]
    rfl

/-- A string is read from behind its opening quote. -/
theorem readString_written (s : String) (rest : List Char) (place : Place) :
    ∃ place', readString ⟨s.toList.flatMap escapeChar ++ '"' :: rest, place⟩
      = .ok (s, ⟨rest, place'⟩) := by
  obtain ⟨place', h⟩ := readStringFrom_escaped s.toList [] rest place
  rw [List.reverse_nil, List.nil_append, String.ofList_toList] at h
  exact ⟨place', h⟩

/-! ## Integers -/

/-- What follows a value within a document: nothing, a comma or a closing bracket. -/
def EndsValue : List Char → Prop
  | [] => True
  | c :: _ => c = ',' ∨ c = ']' ∨ c = '\x7d'

theorem EndsValue.not_isDigit {c : Char} {rest : List Char} (h : EndsValue (c :: rest)) :
    c.isDigit = false := by
  rcases h with rfl | rfl | rfl <;> decide

theorem takeDigits_decimal {rest : List Char} (h : EndsValue rest) (n : Nat) (place : Place) :
    (Cursor.mk (decimal n ++ rest) place).takeDigits
      = (decimal n, ⟨rest, ⟨place.line, place.column + (decimal n).length⟩⟩) := by
  have hdigits : ∀ c ∈ decimal n, c.isDigit = true := fun _ hc => isDigit_of_mem_decimal hc
  have htake : (decimal n ++ rest).takeWhile Char.isDigit = decimal n := by
    rw [List.takeWhile_append_of_pos hdigits]
    cases rest with
    | nil => rw [List.takeWhile_nil, List.append_nil]
    | cons c rest => rw [List.takeWhile_cons_of_neg (by simp [h.not_isDigit]), List.append_nil]
  have hdrop : (decimal n ++ rest).dropWhile Char.isDigit = rest := by
    rw [List.dropWhile_append_of_pos hdigits]
    cases rest with
    | nil => rfl
    | cons c rest => rw [List.dropWhile_cons_of_neg (by simp [h.not_isDigit])]
  unfold Cursor.takeDigits
  dsimp only
  rw [htake, hdrop]

theorem le_ofDigitChars : ∀ (digits : List Char) (above : Nat),
    above ≤ Nat.ofDigitChars 10 digits above := by
  intro digits
  induction digits with
  | nil => intro above; exact Nat.le_of_eq Nat.ofDigitChars_nil.symm
  | cons c digits ih =>
    intro above
    rw [Nat.ofDigitChars_cons]
    exact Nat.le_trans (by omega) (ih _)

/-- Digits that spell a number of 64 bits all fit. -/
theorem extendSignificand_of_le : ∀ (digits : List Char) (above : Nat),
    Nat.ofDigitChars 10 digits above ≤ greatestSignificand →
    extendSignificand above digits = (Nat.ofDigitChars 10 digits above, []) := by
  intro digits
  induction digits with
  | nil => intro above _; rw [extendSignificand, Nat.ofDigitChars_nil]
  | cons c digits ih =>
    intro above h
    rw [Nat.ofDigitChars_cons] at h ⊢
    -- Each digit makes the number larger, so if all of it fits then what there is so far does.
    have hfits := Nat.le_trans (le_ofDigitChars digits _) h
    have hvalue : above * 10 + (c.toNat - 48) = 10 * above + (c.toNat - '0'.toNat) := by
      rw [Nat.mul_comm]; rfl
    rw [extendSignificand, hvalue, if_neg (Nat.not_lt.mpr hfits)]
    exact ih _ h

theorem extendSignificand_decimal {n : Nat} (h : n < UInt64.size) :
    extendSignificand 0 (decimal n) = (n, []) := by
  have hle : Nat.ofDigitChars 10 (decimal n) 0 ≤ greatestSignificand := by
    rw [decimal, Nat.ofDigitChars_ten_toDigits]
    exact Nat.le_sub_one_of_lt h
  rw [extendSignificand_of_le _ _ hle, decimal, Nat.ofDigitChars_ten_toDigits]

/-- What comes behind a number is no further part of it. -/
theorem EndsValue.endsNumber {c : Char} {rest : List Char} (h : EndsValue (c :: rest)) :
    (c == '.') = false ∧ (c == 'e') = false ∧ (c == 'E') = false := by
  rcases h with rfl | rfl | rfl <;> decide

/-- The digits that a number begins with are all its digits; a zero in front stands alone. -/
theorem leadingDigits_decimal {n : Nat} {c : Char} {digits rest : List Char}
    (hd : decimal n = c :: digits) (h : EndsValue rest) (place : Place) :
    ∃ place', (if (c == '0') = true then (['0'], (⟨c :: (digits ++ rest), place⟩ : Cursor).past c
          (digits ++ rest)) else Cursor.takeDigits ⟨c :: (digits ++ rest), place⟩)
      = (decimal n, ⟨rest, place'⟩) := by
  -- Only the text of zero begins with a zero, so nothing is left behind one.
  by_cases hc : c = '0'
  · obtain ⟨hn, rfl⟩ := eq_zero_of_decimal (hc ▸ hd)
    refine ⟨place.after c, ?_⟩
    rw [if_pos (by simp [hc]), hn, decimal_zero]
    rfl
  · refine ⟨⟨place.line, place.column + (decimal n).length⟩, ?_⟩
    rw [if_neg (by simp [hc]), ← List.cons_append, ← hd]
    exact takeDigits_decimal h n place

/-- A number whose digits are followed by what ends a value is an integer if its digits all fit,
and else a floating-point number. -/
theorem readMagnitude_digits (n : Nat) {rest : List Char} (h : EndsValue rest) (negative : Bool)
    (place : Place) :
    ∃ place', readMagnitude negative ⟨decimal n ++ rest, place⟩
      = if (extendSignificand 0 (decimal n)).2.isEmpty then
          .ok (integer negative (extendSignificand 0 (decimal n)).1, ⟨rest, place'⟩)
        else
          assemble negative (extendSignificand 0 (decimal n)).1
            (extendSignificand 0 (decimal n)).2.length ⟨rest, place'⟩ := by
  obtain ⟨c, digits, hd, hc, -⟩ := decimal_begins n
  obtain ⟨place', hlead⟩ := leadingDigits_decimal hd h place
  refine ⟨place', ?_⟩
  rw [show decimal n ++ rest = c :: (digits ++ rest) by rw [hd]; rfl]
  unfold readMagnitude
  dsimp only
  rw [if_neg (by simp [hc]), hlead]
  cases rest with
  | nil => rfl
  | cons next behind =>
    obtain ⟨hdot, he, hE⟩ := h.endsNumber
    dsimp only
    rw [if_neg (by simp [h.not_isDigit]), hdot, he, hE]
    rfl

theorem readMagnitude_decimal {n : Nat} (hn : n < UInt64.size) {rest : List Char}
    (h : EndsValue rest) (negative : Bool) (place : Place) :
    ∃ place', readMagnitude negative ⟨decimal n ++ rest, place⟩
      = .ok (integer negative n, ⟨rest, place'⟩) := by
  obtain ⟨place', hread⟩ := readMagnitude_digits n h negative place
  rw [extendSignificand_decimal hn] at hread
  exact ⟨place', hread⟩

/-- There is no sign to be taken off a decimal text. -/
theorem readNumber_decimal (n : Nat) (rest : List Char) (place : Place) :
    readNumber ⟨decimal n ++ rest, place⟩ = readMagnitude false ⟨decimal n ++ rest, place⟩ := by
  obtain ⟨c, digits, hd, -, hminus⟩ := decimal_begins n
  rw [hd, List.cons_append]
  unfold readNumber
  split
  · rename_i heq
    exact absurd (List.cons.inj heq).1 hminus
  · rfl

/-- **An integer of 64 bits is read from its decimal text.** -/
theorem readNumber_signedDecimal {i : Int} (hlow : -2 ^ 63 ≤ i) (hhigh : i < 2 ^ 64)
    {rest : List Char} (h : EndsValue rest) (place : Place) :
    ∃ place', readNumber ⟨signedDecimal i ++ rest, place⟩ = .ok (.int i, ⟨rest, place'⟩) := by
  have hsize : UInt64.size = 2 ^ 64 := rfl
  unfold signedDecimal
  by_cases hneg : i < 0
  · rw [if_pos hneg]
    obtain ⟨place', hread⟩ := readMagnitude_decimal (n := i.natAbs) (by omega) h true
      (place.after '-')
    refine ⟨place', ?_⟩
    have hint : integer true i.natAbs = .int i := by
      unfold integer
      rw [if_neg (by simp), if_neg]
      · congr 1; omega
      · simp
        omega
    rw [← hint, ← hread]
    rfl
  · rw [if_neg hneg]
    obtain ⟨place', hread⟩ := readMagnitude_decimal (n := i.natAbs) (by omega) h false place
    refine ⟨place', ?_⟩
    have hint : integer false i.natAbs = .int i := by
      unfold integer
      rw [if_pos (by simp)]
      congr 1
      omega
    rw [← hint, ← hread]
    exact readNumber_decimal _ rest place

end Provisioning.Json
