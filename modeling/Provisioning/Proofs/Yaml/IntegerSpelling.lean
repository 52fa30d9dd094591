import Provisioning.Proofs.Yaml.PlainWord

/-!
# How integers are spelled

An integer without quotes is a magnitude in one of four bases, perhaps behind a sign:
`SpellsInteger` says so without going through the tests that find it. The two agree
(`ofPlain_eq_int_iff`): a plain scalar means an integer just if it spells one that 64 bits can hold.
Decimal digits behind a zero spell nothing, and so such a scalar stays a text.
-/

namespace Provisioning.Yaml

open Number Meaning

/-- The bases, each with the mark that stands in front of its digits. -/
def bases : List (List Char × Nat) :=
  [([], 10), (['0', 'x'], 16), (['0', 'o'], 8), (['0', 'b'], 2)]

/-- Digits behind the mark of their base. A decimal number has no zero in front. -/
def SpellsMagnitude (text : List Char) (n : Nat) : Prop :=
  ∃ base ∈ bases, ∃ digits, text = base.1 ++ digits ∧ ofDigits? base.2 digits = some n ∧
    (base.2 = 10 → digits.head? = some '0' → digits.length = 1)

/-- **A spelling of an integer**: a magnitude, perhaps behind a sign. -/
def SpellsInteger (word : List Char) (i : Int) : Prop :=
  ∃ text n, SpellsMagnitude text n ∧
    ((word = text ∨ word = '+' :: text) ∧ i = n ∨ word = '-' :: text ∧ i = -n)

variable {text word digits : List Char} {n : Nat} {i : Int}

/-! ## Decimal digits -/

theorem isDigit_of_digitValue? {c : Char} {value : Nat} (h : digitValue? c = some value)
    (hlt : value < 10) : c.isDigit = true := by
  cases hc : c.isDigit with
  | true => rfl
  | false =>
    have hlarge := digitValue?_large h hc
    omega

theorem isDigit_of_extend? :
    ∀ (digits : List Char) (above : Nat), extend? 10 above digits = some n →
    ∀ c ∈ digits, c.isDigit = true := by
  intro digits
  induction digits with
  | nil => intro above _ c hc; exact absurd hc List.not_mem_nil
  | cons c digits ih =>
    intro above h
    rw [extend?] at h
    cases hvalue : digitValue? c with
    | none => rw [hvalue] at h; cases h
    | some value =>
      rw [hvalue] at h
      dsimp only at h
      by_cases hlt : value < 10
      · rw [if_pos hlt] at h
        exact List.forall_mem_cons.mpr ⟨isDigit_of_digitValue? hvalue hlt, ih _ h⟩
      · rw [if_neg hlt] at h
        cases h

/-- What is a number in base ten has a digit, and nothing else. -/
theorem isDigit_of_ofDigits? (h : ofDigits? 10 digits = some n) :
    digits ≠ [] ∧ ∀ c ∈ digits, c.isDigit = true := by
  cases digits with
  | nil => cases h
  | cons c rest => exact ⟨List.cons_ne_nil c rest, isDigit_of_extend? _ _ h⟩

/-! ## Zeros in front -/

/-- A sign in front does not matter to whether there are zeros in front of a number. -/
theorem isPaddedDigits_signed {c : Char} (hc : c.isDigit = true) (rest : List Char) :
    isPaddedDigits ('+' :: c :: rest) = isPaddedDigits (c :: rest) ∧
      isPaddedDigits ('-' :: c :: rest) = isPaddedDigits (c :: rest) := by
  unfold isPaddedDigits
  rw [unsignedPart_of_isDigit hc]
  exact ⟨rfl, rfl⟩

/-- Decimal digits are padded just if they begin with a zero that is not all of them. -/
theorem isPaddedDigits_of_digits (h : ∀ c ∈ text, c.isDigit = true) :
    isPaddedDigits text = true ↔ text.head? = some '0' ∧ text.length ≠ 1 := by
  cases text with
  | nil => simp [isPaddedDigits, unsignedPart]
  | cons c rest =>
    obtain ⟨hc, hrest⟩ := List.forall_mem_cons.mp h
    unfold isPaddedDigits
    rw [unsignedPart_of_isDigit hc]
    cases rest with
    | nil => simp
    | cons d rest =>
      obtain ⟨hd, hrest⟩ := List.forall_mem_cons.mp hrest
      by_cases hzero : c = '0'
      · subst hzero
        simpa [hd] using hrest
      · simp [hzero]

/-- What has zeros in front begins with one, or with a sign. -/
theorem begins_of_isPaddedDigits (h : isPaddedDigits text = true) :
    ∃ c rest, text = c :: rest ∧ (c = '+' ∨ c = '-' ∨ c.isDigit = true) := by
  unfold isPaddedDigits at h
  split at h
  · rename_i digit rest hunsigned
    unfold unsignedPart at hunsigned
    split at hunsigned
    · exact ⟨'+', _, rfl, .inl rfl⟩
    · exact ⟨'-', _, rfl, .inr (.inl rfl)⟩
    · exact ⟨'0', _, hunsigned, .inr (.inr (by decide))⟩
  · cases h

/-! ## Magnitudes -/

theorem radix?_eq_some {base : Nat} (h : radix? text = some (base, digits)) :
    ∃ mark, (mark, base) ∈ bases ∧ text = mark ++ digits ∧ base ≠ 10 := by
  unfold radix? at h
  split at h
  · cases h; exact ⟨['0', 'x'], by simp [bases], rfl, by decide⟩
  · cases h; exact ⟨['0', 'o'], by simp [bases], rfl, by decide⟩
  · cases h; exact ⟨['0', 'b'], by simp [bases], rfl, by decide⟩
  · cases h

/-- **A magnitude is what the tests find**: digits of a base, without zeros in front. -/
theorem spellsMagnitude_iff :
    SpellsMagnitude text n ↔ isPaddedDigits text = false ∧ magnitude? text = some n := by
  constructor
  · rintro ⟨base, hbase, digits, rfl, hdigits, hzero⟩
    simp only [bases, List.mem_cons, List.not_mem_nil, or_false] at hbase
    rcases hbase with rfl | rfl | rfl | rfl
    · have hall := (isDigit_of_ofDigits? hdigits).2
      refine ⟨?_, ?_⟩
      · rw [← Bool.not_eq_true, List.nil_append, isPaddedDigits_of_digits hall]
        exact fun hpadded => hpadded.2 (hzero rfl hpadded.1)
      · unfold magnitude?
        rw [List.nil_append, radix?_of_digits hall]
        exact hdigits
    all_goals exact ⟨rfl, hdigits⟩
  · rintro ⟨hpadded, hmagnitude⟩
    unfold magnitude? at hmagnitude
    cases hradix : radix? text with
    | some found =>
      rw [hradix] at hmagnitude
      obtain ⟨mark, hbase, htext, hten⟩ := radix?_eq_some hradix
      exact ⟨(mark, found.1), hbase, found.2, htext, hmagnitude, fun h => absurd h hten⟩
    | none =>
      rw [hradix] at hmagnitude
      refine ⟨([], 10), List.mem_cons_self, text, rfl, hmagnitude, fun _ hhead => ?_⟩
      by_contra hlength
      rw [(isPaddedDigits_of_digits (isDigit_of_ofDigits? hmagnitude).2).mpr
        ⟨hhead, hlength⟩] at hpadded
      cases hpadded

/-- A magnitude begins with a digit, and so with no sign. -/
theorem begins_of_magnitude? (h : magnitude? text = some n) :
    ∃ c rest, text = c :: rest ∧ c.isDigit = true := by
  unfold magnitude? at h
  cases hradix : radix? text with
  | some found =>
    obtain ⟨mark, hbase, rfl, hten⟩ := radix?_eq_some hradix
    simp only [bases, List.mem_cons, List.not_mem_nil, or_false, Prod.mk.injEq] at hbase
    rcases hbase with ⟨-, hbase⟩ | ⟨rfl, -⟩ | ⟨rfl, -⟩ | ⟨rfl, -⟩
    · exact absurd hbase hten
    all_goals exact ⟨'0', _, rfl, by decide⟩
  | none =>
    rw [hradix] at h
    obtain ⟨hne, hall⟩ := isDigit_of_ofDigits? h
    obtain ⟨c, rest, rfl⟩ := List.exists_cons_of_ne_nil hne
    exact ⟨c, rest, rfl, hall c List.mem_cons_self⟩

/-! ## Integers -/

/-- An integer begins with a sign or a digit. -/
theorem SpellsInteger.begins (h : SpellsInteger word i) :
    ∃ c rest, word = c :: rest ∧ (c = '+' ∨ c = '-' ∨ c.isDigit = true) := by
  obtain ⟨text, n, hspells, hword⟩ := h
  rcases hword with ⟨rfl | rfl, -⟩ | ⟨rfl, -⟩
  · obtain ⟨c, rest, htext, hc⟩ := begins_of_magnitude? (spellsMagnitude_iff.mp hspells).2
    exact ⟨c, rest, htext, .inr (.inr hc)⟩
  · exact ⟨'+', text, rfl, .inl rfl⟩
  · exact ⟨'-', text, rfl, .inr (.inl rfl)⟩

theorem natural?_eq_some_iff :
    natural? word = some n ↔ ∃ text, SpellsMagnitude text n ∧
      (word = text ∨ word = '+' :: text) := by
  simp only [spellsMagnitude_iff]
  constructor
  · intro h
    unfold natural? at h
    split at h
    · rename_i text
      obtain ⟨hpadded, hmagnitude⟩ := Option.ite_none_left_eq_some.mp h
      rw [Bool.not_eq_true] at hpadded
      obtain ⟨c, rest, rfl, hc⟩ := begins_of_magnitude? hmagnitude
      rw [(isPaddedDigits_signed hc rest).1] at hpadded
      exact ⟨c :: rest, ⟨hpadded, hmagnitude⟩, .inr rfl⟩
    · obtain ⟨hpadded, hmagnitude⟩ := Option.ite_none_left_eq_some.mp h
      rw [Bool.not_eq_true] at hpadded
      exact ⟨word, ⟨hpadded, hmagnitude⟩, .inl rfl⟩
  · rintro ⟨text, ⟨hpadded, hmagnitude⟩, hword⟩
    obtain ⟨c, rest, rfl, hc⟩ := begins_of_magnitude? hmagnitude
    unfold natural?
    rcases hword with rfl | rfl
    · rw [if_neg (by simp [hpadded])]
      split
      · rename_i heq; rw [(List.cons.inj heq).1] at hc; exact absurd hc (by decide)
      · exact hmagnitude
    · rw [if_neg (by simp [(isPaddedDigits_signed hc rest).1, hpadded])]
      exact hmagnitude

theorem negative?_eq_some_iff :
    negative? word = some n ↔ ∃ text, SpellsMagnitude text n ∧ word = '-' :: text := by
  simp only [spellsMagnitude_iff]
  constructor
  · intro h
    unfold negative? at h
    split at h
    · obtain ⟨hpadded, hmagnitude⟩ := Option.ite_none_left_eq_some.mp h
      rw [Bool.not_eq_true] at hpadded
      obtain ⟨c, rest, rfl, hc⟩ := begins_of_magnitude? hmagnitude
      rw [(isPaddedDigits_signed hc rest).2] at hpadded
      exact ⟨c :: rest, ⟨hpadded, hmagnitude⟩, rfl⟩
    · cases h
  · rintro ⟨text, ⟨hpadded, hmagnitude⟩, rfl⟩
    obtain ⟨c, rest, rfl, hc⟩ := begins_of_magnitude? hmagnitude
    show (if isPaddedDigits ('-' :: c :: rest) then none else magnitude? (c :: rest)) = some n
    rw [if_neg (by simp [(isPaddedDigits_signed hc rest).2, hpadded])]
    exact hmagnitude

theorem int?_eq_some_int_iff :
    int? word = some (.int i) ↔ SpellsInteger word i ∧ -2 ^ 63 ≤ i ∧ i < 2 ^ 64 := by
  have hsize : UInt64.size = 2 ^ 64 := rfl
  have hpow : Nat.pow 2 63 = 2 ^ 63 := rfl
  constructor
  · intro h
    unfold int? at h
    split at h
    · rename_i n hnatural
      obtain ⟨text, hspells, hword⟩ := natural?_eq_some_iff.mp hnatural
      split at h
      · cases h
        exact ⟨⟨text, n, hspells, .inl ⟨hword, rfl⟩⟩, by omega, by omega⟩
      · split at h
        · cases h
        · cases h
    · rename_i n _ hnegative
      obtain ⟨text, hspells, hword⟩ := negative?_eq_some_iff.mp hnegative
      split at h
      · cases h
        exact ⟨⟨text, n, hspells, .inr ⟨hword, rfl⟩⟩, by omega, by omega⟩
      · split at h
        · cases h
        · cases h
    · cases h
  · rintro ⟨⟨text, n, hspells, hword⟩, hlow, hhigh⟩
    unfold int?
    rcases hword with ⟨hword, rfl⟩ | ⟨rfl, rfl⟩
    · rw [natural?_eq_some_iff.mpr ⟨text, hspells, hword⟩]
      dsimp only
      rw [if_pos (by omega)]
    · rw [natural?_minus, negative?_eq_some_iff.mpr ⟨text, hspells, rfl⟩]
      dsimp only
      rw [if_pos (by omega)]

/-! ## Plain scalars -/

theorem int?_of_ofPlain (h : ofPlain word = .int i) : int? word = some (.int i) := by
  unfold ofPlain at h
  split at h
  · cases h
  · split at h
    · cases h
    · split at h
      · rename_i hint
        rw [hint, h]
      · repeat' split at h
        all_goals cases h

/-- **A plain scalar means an integer just if it spells one of 64 bits.** -/
theorem ofPlain_eq_int_iff :
    ofPlain word = .int i ↔ SpellsInteger word i ∧ -2 ^ 63 ≤ i ∧ i < 2 ^ 64 := by
  constructor
  · exact fun h => int?_eq_some_int_iff.mp (int?_of_ofPlain h)
  · intro h
    obtain ⟨c, rest, rfl, hc⟩ := h.1.begins
    obtain ⟨hnull, hbool⟩ := no_word_of_begins rest hc
    unfold ofPlain
    rw [hnull, hbool, int?_eq_some_int_iff.mpr h]
    rfl

/-- **Zeros in front make a text of a number.** -/
theorem ofPlain_of_isPaddedDigits (h : isPaddedDigits word = true) : ofPlain word = .string := by
  obtain ⟨c, rest, rfl, hc⟩ := begins_of_isPaddedDigits h
  obtain ⟨hnull, hbool⟩ := no_word_of_begins rest hc
  have hnatural : natural? (c :: rest) = none := by
    unfold natural?
    rw [h]
    rfl
  have hnegative : negative? (c :: rest) = none := by
    unfold negative?
    split
    · rename_i heq
      rw [← heq, h]
      rfl
    · rfl
  unfold ofPlain int?
  rw [hnull, hbool, hnatural, hnegative, h]
  rfl

end Provisioning.Yaml
