import Mathlib.Algebra.Group.Int.Defs
import Provisioning.Proofs.Json.Meaning
import Provisioning.Proofs.Number.Decimal
import Provisioning.Proofs.Partners
import Provisioning.Yaml.Node
import Provisioning.Yaml.Scalar

/-!
# What nodes mean

A plain scalar is a word for null, true or false, a number or a text, and it is settled here
what those mean that are written in JSON. From this it follows which nodes say the same as a
JSON document, the relation `Node.Means`: plain scalars for words and numbers, closed
collections for collections, and no tags or aliases anywhere.
-/

namespace Provisioning.Yaml

open Number

namespace Meaning

/-! ## Words -/

theorem isNull_of_head {c : Char} (text : List Char) (h : c ≠ 'n' ∧ c ≠ 'N' ∧ c ≠ '~') :
    isNull (c :: text) = false := by
  have hnull : "null".toList = ['n', 'u', 'l', 'l'] := rfl
  have hNull : "Null".toList = ['N', 'u', 'l', 'l'] := rfl
  have hNULL : "NULL".toList = ['N', 'U', 'L', 'L'] := rfl
  have htilde : "~".toList = ['~'] := rfl
  unfold isNull
  rw [hnull, hNull, hNULL, htilde]
  simp [h.1, h.2.1, h.2.2]

theorem bool?_of_head {c : Char} (text : List Char) (h : c ≠ 't' ∧ c ≠ 'T' ∧ c ≠ 'f' ∧ c ≠ 'F') :
    bool? (c :: text) = none := by
  have htrue : "true".toList = ['t', 'r', 'u', 'e'] := rfl
  have hTrue : "True".toList = ['T', 'r', 'u', 'e'] := rfl
  have hTRUE : "TRUE".toList = ['T', 'R', 'U', 'E'] := rfl
  have hfalse : "false".toList = ['f', 'a', 'l', 's', 'e'] := rfl
  have hFalse : "False".toList = ['F', 'a', 'l', 's', 'e'] := rfl
  have hFALSE : "FALSE".toList = ['F', 'A', 'L', 'S', 'E'] := rfl
  unfold bool?
  rw [htrue, hTrue, hTRUE, hfalse, hFalse, hFALSE]
  simp [h.1, h.2.1, h.2.2.1, h.2.2.2]

theorem ofPlain_null : ofPlain ['n', 'u', 'l', 'l'] = .null := by decide

theorem ofPlain_empty : ofPlain [] = .null := rfl

theorem ofPlain_true : ofPlain ['t', 'r', 'u', 'e'] = .bool true := by decide

theorem ofPlain_false : ofPlain ['f', 'a', 'l', 's', 'e'] = .bool false := by decide

/-- What is not null is not taken for absent. -/
theorem not_isNull_of_ofPlain {text : List Char} (h : ofPlain text ≠ .null) :
    (text.isEmpty || isNull text) = false := by
  unfold ofPlain at h
  cases hnull : text.isEmpty || isNull text with
  | false => rfl
  | true => rw [if_pos hnull] at h; exact absurd rfl h

theorem bool?_of_ofPlain {text : List Char} {value : Bool} (h : ofPlain text = .bool value) :
    bool? text = some value := by
  unfold ofPlain at h
  split at h
  · exact absurd h (by simp)
  · split at h
    · rename_i hbool
      cases h
      exact hbool
    · split at h
      · rename_i meaning hint
        rw [h] at hint
        unfold int? at hint
        repeat' split at hint
        all_goals exact absurd hint (by simp)
      · repeat' split at h
        all_goals exact absurd h (by simp)

/-! ## Integers -/

theorem isDigit_ne {c d : Char} (hc : c.isDigit = true) (hd : d.isDigit = false) : c ≠ d := by
  rintro rfl
  rw [hc] at hd
  exact absurd hd (by decide)

/-- What begins like a number is no word for null or a truth value. -/
theorem no_word_of_begins {c : Char} (rest : List Char)
    (hc : c = '+' ∨ c = '-' ∨ c.isDigit = true) :
    isNull (c :: rest) = false ∧ bool? (c :: rest) = none := by
  have hne : ∀ d : Char, d ≠ '+' → d ≠ '-' → d.isDigit = false → c ≠ d := by
    rintro d hplus hminus hdigit rfl
    rcases hc with hc | hc | hc
    · exact hplus hc
    · exact hminus hc
    · exact isDigit_ne hc hdigit rfl
  exact ⟨isNull_of_head rest ⟨hne 'n' (by decide) (by decide) (by decide),
      hne 'N' (by decide) (by decide) (by decide), hne '~' (by decide) (by decide) (by decide)⟩,
    bool?_of_head rest ⟨hne 't' (by decide) (by decide) (by decide), hne 'T' (by decide)
      (by decide) (by decide), hne 'f' (by decide) (by decide) (by decide), hne 'F' (by decide)
        (by decide) (by decide)⟩⟩

theorem unsignedPart_cons {c : Char} (rest : List Char) (hplus : c ≠ '+') (hminus : c ≠ '-') :
    unsignedPart (c :: rest) = c :: rest := by
  unfold unsignedPart
  split
  · rename_i h; exact absurd (List.cons.inj h).1 hplus
  · rename_i h; exact absurd (List.cons.inj h).1 hminus
  · rfl

theorem unsignedPart_of_isDigit {c : Char} (hc : c.isDigit = true) (rest : List Char) :
    unsignedPart (c :: rest) = c :: rest :=
  unsignedPart_cons rest (isDigit_ne hc (by decide)) (isDigit_ne hc (by decide))

theorem unsignedPart_decimal (n : Nat) : unsignedPart (decimal n) = decimal n := by
  obtain ⟨c, rest, htext, hc, -⟩ := decimal_begins n
  rw [htext, unsignedPart_of_isDigit hc]

theorem not_isPaddedDigits {text : List Char} {n : Nat} (h : unsignedPart text = decimal n) :
    isPaddedDigits text = false := by
  unfold isPaddedDigits
  rw [h]
  split
  · rename_i digit rest hd
    exfalso
    have hn : n ≠ 0 := by
      rintro rfl
      rw [decimal_zero] at hd
      exact absurd hd (by simp)
    exact head_decimal_ne_zero n hn (by rw [hd]; rfl)
  · rfl

/-- The digits of a number have no zero in front of them. -/
theorem not_isPaddedDigits_decimal (n : Nat) :
    isPaddedDigits (decimal n) = false ∧ isPaddedDigits ('-' :: decimal n) = false :=
  ⟨not_isPaddedDigits (unsignedPart_decimal n), not_isPaddedDigits rfl⟩

/-- Decimal digits have no mark of another base in front. -/
theorem radix?_of_digits {text : List Char} (h : ∀ c ∈ text, c.isDigit = true) :
    radix? text = none := by
  unfold radix?
  split
  · exact absurd (h 'x' (by simp)) (by decide)
  · exact absurd (h 'o' (by simp)) (by decide)
  · exact absurd (h 'b' (by simp)) (by decide)
  · rfl

theorem magnitude?_decimal (n : Nat) : magnitude? (decimal n) = some n := by
  unfold magnitude?
  rw [radix?_of_digits fun c => isDigit_of_mem_decimal]
  exact ofDigits?_decimal n

theorem natural?_decimal (n : Nat) : natural? (decimal n) = some n := by
  unfold natural?
  split
  · rename_i rest hd
    exact absurd (isDigit_of_mem_decimal (n := n) (c := '+') (by rw [hd]; simp)) (by decide)
  · rw [if_neg (by simp [(not_isPaddedDigits_decimal n).1]), magnitude?_decimal]

theorem natural64?_decimal {n : Nat} (h : n < UInt64.size) :
    natural64? (decimal n) = some n.toUInt64 := by
  unfold natural64?
  rw [natural?_decimal]
  dsimp only
  rw [if_pos h]

theorem natural?_minus (digits : List Char) : natural? ('-' :: digits) = none := by
  unfold natural?
  dsimp only
  split
  · rfl
  · rfl

theorem negative?_decimal (n : Nat) : negative? ('-' :: decimal n) = some n := by
  show (if isPaddedDigits ('-' :: decimal n) then none else magnitude? (decimal n)) = some n
  rw [if_neg (by simp [(not_isPaddedDigits_decimal n).2]), magnitude?_decimal]

/-- **The decimal text of an integer of 64 bits means the integer.** -/
theorem int?_signedDecimal {i : Int} (hlow : -2 ^ 63 ≤ i) (hhigh : i < 2 ^ 64) :
    int? (signedDecimal i) = some (.int i) := by
  have hsize : UInt64.size = 2 ^ 64 := rfl
  have hpow : Nat.pow 2 63 = 2 ^ 63 := rfl
  unfold signedDecimal int?
  by_cases hneg : i < 0
  · rw [if_pos hneg, natural?_minus, negative?_decimal]
    dsimp only
    rw [if_pos (by omega)]
    congr 2
    omega
  · rw [if_neg hneg, natural?_decimal]
    dsimp only
    rw [if_pos (by omega)]
    congr 2
    omega

/-- The first character of an integer, a digit or a sign, is that of no word. -/
theorem signedDecimal_no_word (i : Int) :
    isNull (signedDecimal i) = false ∧ bool? (signedDecimal i) = none := by
  obtain ⟨c, text, htext, hc⟩ := signedDecimal_begins i
  rw [htext]
  exact no_word_of_begins text (.inr hc)

theorem signedDecimal_isEmpty (i : Int) : (signedDecimal i).isEmpty = false := by
  obtain ⟨c, text, htext, -⟩ := signedDecimal_begins i
  rw [htext]
  rfl

theorem ofPlain_signedDecimal {i : Int} (hlow : -2 ^ 63 ≤ i) (hhigh : i < 2 ^ 64) :
    ofPlain (signedDecimal i) = .int i := by
  obtain ⟨hnull, hbool⟩ := signedDecimal_no_word i
  unfold ofPlain
  rw [signedDecimal_isEmpty, hnull, hbool, int?_signedDecimal hlow hhigh]
  rfl

/-- **Beyond 64 bits there is no natural number**, and none with a minus sign. -/
theorem natural64?_outside {i : Int} (h : i < 0 ∨ 2 ^ 64 ≤ i) :
    natural64? (signedDecimal i) = none := by
  have hsize : UInt64.size = 2 ^ 64 := rfl
  unfold natural64? signedDecimal
  by_cases hneg : i < 0
  · rw [if_pos hneg, natural?_minus]
  · rw [if_neg hneg, natural?_decimal]
    dsimp only
    rw [if_neg (by omega)]

end Meaning

/-! ## Nodes -/

/-- Keys and values in turn, and the names and nodes they give. -/
inductive Node.Labels : List Node → List (String × Node) → Prop where
  | nil : Labels [] []
  | cons {head : NodeHead} {text : List Char} {style : ScalarStyle} {node : Node}
      {parts : List Node} {members : List (String × Node)} :
      head.tag = none → (style = .plain → Meaning.ofPlain text = .string) →
      Labels parts members →
      Labels (.scalar head text style :: node :: parts) ((String.ofList text, node) :: members)

/-- **A node means a document.** -/
inductive Node.Means : Node → Json → Prop where
  | null {head : NodeHead} {text : List Char} :
      head.tag = none → Meaning.ofPlain text = .null → Means (.scalar head text .plain) .null
  | notFinite {head : NodeHead} {text : List Char} {value : Number.Binary64} :
      head.tag = none → Meaning.ofPlain text = .null → value.isFinite = false →
      Means (.scalar head text .plain) (.float value)
  | bool {head : NodeHead} {text : List Char} {value : Bool} :
      head.tag = none → Meaning.ofPlain text = .bool value →
      Means (.scalar head text .plain) (.bool value)
  | int {head : NodeHead} {text : List Char} {value : Int} :
      head.tag = none → Meaning.ofPlain text = .int value →
      (0 ≤ value → Meaning.natural64? text = some value.toNat.toUInt64) →
      Means (.scalar head text .plain) (.int value)
  | string {head : NodeHead} {text : List Char} {style : ScalarStyle} :
      head.tag = none → (style = .plain → Meaning.ofPlain text = .string) →
      Means (.scalar head text style) (.string (String.ofList text))
  | array {head : NodeHead} {nodes : List Node} {items : List Json} :
      head.tag = none → List.Forall₂ Means nodes items →
      Means (.sequence head nodes true) (.array items)
  | object {head : NodeHead} {parts : List Node} {named : List (String × Node)}
      {members : List (String × Json)} :
      head.tag = none → Labels parts named → named.map Prod.fst = members.map Prod.fst →
      List.Forall₂ Means (named.map Prod.snd) (members.map Prod.snd) →
      Means (.mapping head parts true) (.object members)

/-- The decimal text of an integer of 64 bits is a node that means it. -/
theorem Node.means_integer {i : Int} (hlow : -2 ^ 63 ≤ i) (hhigh : i < 2 ^ 64) {head : NodeHead}
    (htag : head.tag = none) :
    Node.Means (.scalar head (Number.signedDecimal i) .plain) (.int i) := by
  refine .int htag (Meaning.ofPlain_signedDecimal hlow hhigh) fun hnonneg => ?_
  unfold Number.signedDecimal
  rw [if_neg (by omega), Meaning.natural64?_decimal (by unfold UInt64.size; omega)]
  congr 2
  omega

end Provisioning.Yaml
