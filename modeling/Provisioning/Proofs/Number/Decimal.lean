import Provisioning.Number.Digits

/-!
# Decimal texts of numbers

What readers of numbers need to know of the text that `decimal` writes: it is digits only,
it has no leading zero but for zero itself, and it spells the number.
-/

namespace Provisioning.Number

theorem isDigit_of_mem_decimal {n : Nat} {c : Char} (h : c ∈ decimal n) : c.isDigit = true :=
  Nat.isDigit_of_mem_toDigits (by decide) (by decide) h

theorem decimal_ne_nil (n : Nat) : decimal n ≠ [] := Nat.toDigits_ne_nil

theorem decimal_of_lt {n : Nat} (h : n < 10) : decimal n = [n.digitChar] :=
  Nat.toDigits_of_lt_base h

theorem decimal_of_ge {n : Nat} (h : 10 ≤ n) :
    decimal n = decimal (n / 10) ++ [(n % 10).digitChar] :=
  Nat.toDigits_of_base_le (by decide) h

/-- Only zero begins with a zero. -/
theorem head_decimal_ne_zero : ∀ (n : Nat), n ≠ 0 → (decimal n).head? ≠ some '0' := by
  intro n
  induction n using Nat.strongRecOn with
  | ind n ih =>
    intro hn
    rcases Nat.lt_or_ge n 10 with hlt | hge
    · rw [decimal_of_lt hlt, List.head?_cons]
      intro h
      exact hn (Nat.digitChar_eq_zero.mp (Option.some.inj h))
    -- All digits but the last are those of a tenth of it, which is not zero either.
    · have hfirst := ih (n / 10) (by omega) (by omega)
      rw [decimal_of_ge hge]
      cases hd : decimal (n / 10) with
      | nil => exact absurd hd (decimal_ne_nil _)
      | cons c digits => rw [hd] at hfirst; exact hfirst

theorem decimal_zero : decimal 0 = ['0'] := Nat.toDigits_zero 10

/-- A digit below ten is read as what its code says. -/
theorem digitValue?_of_isDigit {c : Char} (h : c.isDigit = true) :
    digitValue? c = some (c.toNat - 48) ∧ c.toNat - 48 < 10 := by
  have hr := Char.isDigit_iff_toNat.mp h
  have hle : '0' ≤ c ∧ c ≤ '9' := by
    constructor
    · exact Char.le_def.mpr (UInt32.le_iff_toNat_le.mpr hr.1)
    · exact Char.le_def.mpr (UInt32.le_iff_toNat_le.mpr hr.2)
  constructor
  · unfold digitValue?
    rw [if_pos (by simp [hle])]
  · have hnine : '9'.toNat = 57 := rfl
    omega

/-- Digits spell their positional value. -/
theorem extend?_of_digits : ∀ (digits : List Char) (above : Nat),
    (∀ c ∈ digits, c.isDigit = true) →
    extend? 10 above digits = some (Nat.ofDigitChars 10 digits above) := by
  intro digits
  induction digits with
  | nil => intro above _; rw [extend?, Nat.ofDigitChars_nil]
  | cons c digits ih =>
    intro above h
    obtain ⟨hv, hlt⟩ := digitValue?_of_isDigit (h c List.mem_cons_self)
    rw [extend?, hv, Nat.ofDigitChars_cons]
    dsimp only
    rw [if_pos hlt, ih _ (fun c hc => h c (List.mem_cons_of_mem _ hc)), Nat.mul_comm]
    rfl

theorem ofDigits?_decimal (n : Nat) : ofDigits? 10 (decimal n) = some n := by
  have hspell := extend?_of_digits (decimal n) 0 (fun _ hc => isDigit_of_mem_decimal hc)
  rw [decimal, Nat.ofDigitChars_ten_toDigits, ← decimal] at hspell
  cases hd : decimal n with
  | nil => exact absurd hd (decimal_ne_nil n)
  | cons c digits =>
    rw [ofDigits?, ← hd, hspell]
    simp

/-- A decimal text begins with a digit, and so with no sign. -/
theorem decimal_begins (n : Nat) :
    ∃ c digits, decimal n = c :: digits ∧ c.isDigit = true ∧ c ≠ '-' := by
  cases hd : decimal n with
  | nil => exact absurd hd (decimal_ne_nil n)
  | cons c digits =>
    have hc : c.isDigit = true := isDigit_of_mem_decimal (n := n) (by rw [hd]; simp)
    refine ⟨c, digits, rfl, hc, ?_⟩
    rintro rfl
    exact absurd hc (by decide)

/-- Nothing stands behind a zero in front. -/
theorem eq_zero_of_decimal {n : Nat} {digits : List Char} (h : decimal n = '0' :: digits) :
    n = 0 ∧ digits = [] := by
  have hn : n = 0 := Decidable.byContradiction fun hne =>
    head_decimal_ne_zero n hne (by rw [h]; rfl)
  rw [hn, decimal_zero] at h
  exact ⟨hn, (List.cons.inj h).2.symm⟩

/-- The decimal text of an integer is digits, perhaps behind a sign. -/
theorem signedDecimal_cases (i : Int) :
    ∃ d digits, (∀ c ∈ d :: digits, c.isDigit = true) ∧
      (signedDecimal i = d :: digits ∨ signedDecimal i = '-' :: d :: digits) := by
  cases hd : decimal i.natAbs with
  | nil => exact absurd hd (decimal_ne_nil _)
  | cons d digits =>
    refine ⟨d, digits, fun c hc => isDigit_of_mem_decimal (hd ▸ hc), ?_⟩
    unfold signedDecimal
    by_cases h : i < 0
    · rw [if_pos h, hd]
      exact .inr rfl
    · rw [if_neg h, hd]
      exact .inl rfl

/-- It is the usual text of the integer. -/
theorem ofList_signedDecimal (i : Int) : String.ofList (signedDecimal i) = toString i := by
  unfold signedDecimal decimal
  cases i with
  | ofNat n =>
    rw [Int.ofNat_eq_natCast, if_neg (Int.not_lt.mpr (Int.natCast_nonneg n)), Int.natAbs_natCast]
    exact Nat.toString_eq_ofList_toDigits.symm
  | negSucc n =>
    rw [if_pos (Int.negSucc_lt_zero n), Int.natAbs_negSucc]
    show String.ofList (['-'] ++ Nat.toDigits 10 (n + 1)) = "-" ++ toString (n + 1)
    rw [String.ofList_append, Nat.toString_eq_ofList_toDigits]

/-- The decimal text of an integer begins with its sign or with a digit. -/
theorem signedDecimal_begins (i : Int) :
    ∃ c text, signedDecimal i = c :: text ∧ (c = '-' ∨ c.isDigit = true) := by
  obtain ⟨d, digits, hdigits, h | h⟩ := signedDecimal_cases i
  · exact ⟨d, digits, h, .inr (hdigits d (by simp))⟩
  · exact ⟨'-', d :: digits, h, .inl rfl⟩

end Provisioning.Number
