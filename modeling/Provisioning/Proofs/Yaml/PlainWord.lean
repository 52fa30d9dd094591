import Provisioning.Proofs.Yaml.Layout

/-!
# Words that need no quotes

Paths, names of images, versions and the like are words of a few safe characters. Such a word is
a plain scalar as it stands, and if it begins with a letter or a slash then it is a text, unless
it is one of nine words for null and the truth values.
-/

namespace Provisioning.Yaml

/-- The characters of plain words. -/
def isWordChar (c : Char) : Bool :=
  c.isAlphanum || c == '/' || c == '.' || c == '_' || c == '-' || c == ':'

/-- Is this a word of safe characters that begins like this and does not end with a colon? -/
def isWordFrom (begins : Char → Bool) (word : List Char) : Bool :=
  word.head?.any begins && word.all isWordChar && word.getLast? != some ':'

/-- A word that may begin with a digit. -/
def isPlainWord (word : List Char) : Bool := isWordFrom (fun c => c.isAlphanum || c == '/') word

/-- **A word that begins with a letter or a slash**, which no number does. -/
def isPlainSafe (word : List Char) : Bool := isWordFrom (fun c => c.isAlpha || c == '/') word

/-- A character of ASCII that is no control character. -/
def isPrintable (c : Char) : Bool := 0x20 ≤ c.toNat && c.toNat ≤ 0x7E

/-- The words among them that mean null or a truth value. -/
def reservedWords : List String :=
  ["null", "Null", "NULL", "true", "True", "TRUE", "false", "False", "FALSE"]

/-- The same, character by character. -/
def isReserved (word : List Char) : Bool :=
  word == ['n', 'u', 'l', 'l'] || word == ['N', 'u', 'l', 'l'] || word == ['N', 'U', 'L', 'L'] ||
    word == ['t', 'r', 'u', 'e'] || word == ['T', 'r', 'u', 'e'] || word == ['T', 'R', 'U', 'E'] ||
    word == ['f', 'a', 'l', 's', 'e'] || word == ['F', 'a', 'l', 's', 'e'] ||
    word == ['F', 'A', 'L', 'S', 'E']

/-- Is this a safe word that is not reserved, and so a text? -/
def isTextWord (word : List Char) : Bool := isPlainSafe word && !isReserved word

section

variable {c : Char} {word rest : List Char}

/-! ## Plain scalars -/

theorem isWordChar_cases (h : isWordChar c = true) :
    c.isAlphanum = true ∨ c = '/' ∨ c = '.' ∨ c = '_' ∨ c = '-' ∨ c = ':' := by
  unfold isWordChar at h
  simp only [Bool.or_eq_true, beq_iff_eq] at h
  rcases h with ((((h | h) | h) | h) | h) | h
  · exact .inl h
  · exact .inr (.inl h)
  · exact .inr (.inr (.inl h))
  · exact .inr (.inr (.inr (.inl h)))
  · exact .inr (.inr (.inr (.inr (.inl h))))
  · exact .inr (.inr (.inr (.inr (.inr h))))

theorem isWordChar_inner (h : isWordChar c = true) : isBlank c = false ∧ isBreak c = false := by
  rcases isWordChar_cases h with h | rfl | rfl | rfl | rfl | rfl
  · exact ⟨(Lexer.word_of_isAlphanum h).1, (Lexer.word_of_isAlphanum h).2.1⟩
  all_goals exact ⟨by decide, by decide⟩

theorem not_isDigit_of_isAlpha (h : c.isAlpha = true) : c.isDigit = false := by
  unfold Char.isAlpha Char.isUpper Char.isLower at h
  simp only [Bool.or_eq_true, Bool.and_eq_true, decide_eq_true_eq, ge_iff_le,
    UInt32.le_iff_toNat_le] at h
  simp at h
  unfold Char.isDigit
  rw [Bool.and_eq_false_iff]
  right
  rw [decide_eq_false_iff_not, UInt32.le_iff_toNat_le]
  simp
  omega

theorem isWordChar_clean (h : isWordChar c = true) : isClean c = true := by
  rcases isWordChar_cases h with h | rfl | rfl | rfl | rfl | rfl
  · exact isClean_of_isAlphanum h
  all_goals decide

theorem isBare_of_isWordChar (h : isWordChar c = true) : Layout.isBare c = true := by
  -- A quote comes before the digits, and a backslash between the letters.
  rcases isWordChar_cases h with h | rfl | rfl | rfl | rfl | rfl
  · obtain ⟨hlow, hhigh⟩ := range_of_isAlphanum h
    have hne : ∀ d : Char, d.toNat < 0x30 ∨ d = '\\' → c ≠ d := by
      rintro d hd rfl
      rcases hd with hd | rfl
      · omega
      · exact absurd h (by decide)
    have hquote : (c != '"') = true := bne_iff_ne.mpr (hne _ (.inl (by decide)))
    have hslash : (c != '\\') = true := bne_iff_ne.mpr (hne _ (.inr rfl))
    unfold Layout.isBare
    rw [hquote, hslash, Bool.and_true, Bool.and_true, Bool.and_eq_true, decide_eq_true_eq,
      decide_eq_true_eq]
    omega
  all_goals decide

theorem isClean_of_isPrintable (h : isPrintable c = true) : isClean c = true := by
  rw [isPrintable, Bool.and_eq_true, decide_eq_true_eq, decide_eq_true_eq] at h
  exact isClean_of_printable h.1 h.2

theorem not_isBreak_of_isPrintable (h : isPrintable c = true) : isBreak c = false := by
  cases hbreak : isBreak c with
  | false => rfl
  | true =>
    simp only [isBreak, Bool.or_eq_true, beq_iff_eq] at hbreak
    rcases hbreak with (rfl | rfl) | rfl
    all_goals exact absurd h (by decide)

theorem isWordFrom_iff {begins : Char → Bool} : isWordFrom begins word = true ↔
    ∃ c rest, word = c :: rest ∧ begins c = true ∧ (∀ d ∈ c :: rest, isWordChar d = true) ∧
      (c :: rest).getLast? ≠ some ':' := by
  unfold isWordFrom
  cases word with
  | nil => simp
  | cons c rest => simp [and_assoc]

/-- **A word of safe characters is a plain scalar** wherever it stands among blocks. -/
theorem isWord_of_plain (h : isPlainWord word = true) : Layout.IsWord word := by
  obtain ⟨c, rest, rfl, hbegins, hchars, hlast⟩ := isWordFrom_iff.mp h
  have hfirst : Lexer.BeginsToken c ∧
      ∀ (lexer : Lexer) (more : List Char), lexer.form? c more = some .plain := by
    rw [Bool.or_eq_true, beq_iff_eq] at hbegins
    rcases hbegins with hletter | rfl
    · exact Lexer.begins_of_isAlphanum hletter
    · exact ⟨⟨rfl, rfl, by decide, by decide⟩,
        fun lexer more => Lexer.form?_plain (by decide) (by decide) (by decide) (by decide)⟩
  have hinner : ∀ d ∈ rest, isBlank d = false ∧ isBreak d = false :=
    fun d hd => isWordChar_inner (hchars d (List.mem_cons_of_mem c hd))
  have hrest : rest.getLast? ≠ some ':' := by
    cases rest with
    | nil => simp
    | cons d rest => rw [List.getLast?_cons_cons] at hlast; exact hlast
  exact ⟨⟨c, rest, rfl, hfirst.1, fun lexer more => hfirst.2 lexer _, hinner, hrest⟩,
    fun d hd => isWordChar_clean (hchars d hd)⟩

theorem ne_empty_of_safe {text : String} (h : isPlainSafe text.toList = true) : text ≠ "" := by
  rintro rfl
  exact absurd h (by decide)

theorem isPlainWord_of_safe (h : isPlainSafe word = true) : isPlainWord word = true := by
  obtain ⟨c, rest, rfl, hbegins, hrest⟩ := isWordFrom_iff.mp h
  refine isWordFrom_iff.mpr ⟨c, rest, rfl, ?_, hrest⟩
  rw [Bool.or_eq_true] at hbegins ⊢
  exact hbegins.imp_left fun hletter => by unfold Char.isAlphanum; rw [hletter]; rfl

/-- A safe word needs no escapes in double quotes. -/
theorem isBare_of_safe (h : isPlainSafe word = true) : ∀ c ∈ word, Layout.isBare c = true := by
  obtain ⟨c, rest, rfl, -, hchars, -⟩ := isWordFrom_iff.mp h
  exact fun d hd => isBare_of_isWordChar (hchars d hd)

/-! ## Texts -/

namespace Meaning

open Number

/-- What begins a text that is no number: neither a digit nor a sign nor a point. -/
def BeginsText (c : Char) : Prop := c.isDigit = false ∧ c ≠ '+' ∧ c ≠ '-' ∧ c ≠ '.'

theorem digitValue?_large {value : Nat} (h : digitValue? c = some value) (hc : c.isDigit = false) :
    10 ≤ value := by
  have hdigit : ¬ ('0' ≤ c ∧ c ≤ '9') := by
    rintro ⟨hlow, hhigh⟩
    rw [Char.le_def, UInt32.le_iff_toNat_le] at hlow hhigh
    rw [Char.isDigit_iff_toNat.mpr ⟨hlow, hhigh⟩] at hc
    exact absurd hc (by decide)
  unfold digitValue? at h
  rw [if_neg (by simpa using hdigit)] at h
  split at h
  · rename_i hlower
    have hlow : 'a' ≤ c := by simp at hlower; exact hlower.1
    rw [Char.le_def, UInt32.le_iff_toNat_le] at hlow
    have hcode : 97 ≤ c.toNat := hlow
    cases h
    omega
  · split at h
    · rename_i hupper
      have hlow : 'A' ≤ c := by simp at hupper; exact hupper.1
      rw [Char.le_def, UInt32.le_iff_toNat_le] at hlow
      have hcode : 65 ≤ c.toNat := hlow
      cases h
      omega
    · exact absurd h (by simp)

theorem ofDigits?_of_begins (hc : c.isDigit = false) (rest : List Char) :
    ofDigits? 10 (c :: rest) = none := by
  rw [ofDigits?, extend?]
  · cases hvalue : digitValue? c with
    | none => rfl
    | some value =>
      have hlarge := digitValue?_large hvalue hc
      dsimp only
      rw [if_neg (by omega)]
  · simp

theorem not_isPaddedDigits_of_begins (hc : BeginsText c) (rest : List Char) :
    isPaddedDigits (c :: rest) = false := by
  obtain ⟨hdigit, hplus, hminus, _⟩ := hc
  unfold isPaddedDigits
  rw [unsignedPart_cons rest hplus hminus]
  split
  · rename_i h
    rw [(List.cons.inj h).1] at hdigit
    exact absurd hdigit (by decide)
  · rfl

theorem int?_of_begins (hc : BeginsText c) (rest : List Char) : int? (c :: rest) = none := by
  have hpadded := not_isPaddedDigits_of_begins hc rest
  obtain ⟨hdigit, hplus, hminus, _⟩ := hc
  have hradix : radix? (c :: rest) = none := by
    unfold radix?
    split
    · rename_i h; rw [(List.cons.inj h).1] at hdigit; exact absurd hdigit (by decide)
    · rename_i h; rw [(List.cons.inj h).1] at hdigit; exact absurd hdigit (by decide)
    · rename_i h; rw [(List.cons.inj h).1] at hdigit; exact absurd hdigit (by decide)
    · rfl
  have hnatural : natural? (c :: rest) = none := by
    unfold natural?
    split
    · rename_i h; exact absurd (List.cons.inj h).1 hplus
    · rw [if_neg (by simp [hpadded])]
      unfold magnitude?
      rw [hradix]
      exact ofDigits?_of_begins hdigit rest
  have hnegative : negative? (c :: rest) = none := by
    unfold negative?
    split
    · rename_i h; exact absurd (List.cons.inj h).1 hminus
    · rfl
  unfold int?
  rw [hnatural, hnegative]

theorem float?_of_begins (hc : BeginsText c) (rest : List Char) : float? (c :: rest) = none := by
  obtain ⟨hdigit, hplus, hminus, hdot⟩ := hc
  -- The words for numbers begin with a point, so none of them has to be looked at further.
  have hwords : isInfinity (c :: rest) = false ∧ isNan (c :: rest) = false := by
    have hne : ∀ word : List Char, (c :: rest == '.' :: word) = false := by
      intro word
      rw [beq_eq_false_iff_ne]
      exact fun h => hdot (List.cons.inj h).1
    have hinf : ".inf".toList = '.' :: ['i', 'n', 'f'] := rfl
    have hInf : ".Inf".toList = '.' :: ['I', 'n', 'f'] := rfl
    have hINF : ".INF".toList = '.' :: ['I', 'N', 'F'] := rfl
    have hnan : ".nan".toList = '.' :: ['n', 'a', 'n'] := rfl
    have hNaN : ".NaN".toList = '.' :: ['N', 'a', 'N'] := rfl
    have hNAN : ".NAN".toList = '.' :: ['N', 'A', 'N'] := rfl
    unfold isInfinity isNan
    rw [hinf, hInf, hINF, hnan, hNaN, hNAN]
    simp only [hne, Bool.or_self, and_self]
  have hdecimal : decimal? false (c :: rest) = none := by simp [decimal?, hdigit, hdot, ofDigits?]
  simp [float?, hminus, hplus, hwords.1, hwords.2, hdecimal]

/-- **What begins like a text is a text**, unless it is a word for null or a truth value. -/
theorem ofPlain_of_begins (hc : BeginsText c) (hnull : isNull (c :: rest) = false)
    (hbool : bool? (c :: rest) = none) : ofPlain (c :: rest) = .string := by
  have hpadded := not_isPaddedDigits_of_begins hc rest
  unfold ofPlain
  rw [hnull, hbool, int?_of_begins hc, float?_of_begins hc, hpadded]
  rfl

end Meaning

theorem not_isReserved {word : String} (h : word ∉ reservedWords) :
    isReserved word.toList = false := by
  have hne : ∀ chars : List Char, String.ofList chars ∈ reservedWords →
      (word.toList == chars) = false := by
    intro chars hchars
    rw [beq_eq_false_iff_ne]
    rintro rfl
    rw [String.ofList_toList] at hchars
    exact h hchars
  unfold isReserved
  rw [hne _ (by decide), hne _ (by decide), hne _ (by decide), hne _ (by decide), hne _ (by decide),
    hne _ (by decide), hne _ (by decide), hne _ (by decide), hne _ (by decide)]
  rfl

/-- Apart from the tilde, the words for null and the truth values are the reserved ones. -/
theorem no_word_of_not_isReserved (h : isReserved (c :: rest) = false) (htilde : c ≠ '~') :
    Meaning.isNull (c :: rest) = false ∧ Meaning.bool? (c :: rest) = none := by
  unfold isReserved at h
  simp only [Bool.or_eq_false_iff] at h
  obtain ⟨⟨⟨⟨⟨⟨⟨⟨hnull, hNull⟩, hNULL⟩, htrue⟩, hTrue⟩, hTRUE⟩, hfalse⟩, hFalse⟩, hFALSE⟩ := h
  refine ⟨?_, ?_⟩
  · have hother : (c :: rest == ['~']) = false := by
      rw [beq_eq_false_iff_ne]
      exact fun h => htilde (List.cons.inj h).1
    show (c :: rest == ['n', 'u', 'l', 'l'] || c :: rest == ['N', 'u', 'l', 'l']
      || c :: rest == ['N', 'U', 'L', 'L'] || c :: rest == ['~']) = false
    rw [hnull, hNull, hNULL, hother]
    rfl
  · show (if c :: rest == ['t', 'r', 'u', 'e'] || c :: rest == ['T', 'r', 'u', 'e']
        || c :: rest == ['T', 'R', 'U', 'E'] then some true
      else if c :: rest == ['f', 'a', 'l', 's', 'e'] || c :: rest == ['F', 'a', 'l', 's', 'e']
        || c :: rest == ['F', 'A', 'L', 'S', 'E'] then some false else none) = none
    rw [htrue, hTrue, hTRUE, hfalse, hFalse, hFALSE]
    rfl

/-- **What begins with a letter or a slash is a text** unless it is reserved. -/
theorem ofPlain_of_head (hhead : c.isAlpha = true ∨ c = '/')
    (hreserved : isReserved (c :: rest) = false) :
    Meaning.ofPlain (c :: rest) = .string := by
  have hne : ∀ d : Char, d.isAlpha = false → d ≠ '/' → c ≠ d := by
    rintro d hletter hslash rfl
    rw [hletter] at hhead
    exact hhead.elim nofun hslash
  have hdigit : c.isDigit = false := by
    rcases hhead with hletter | rfl
    · exact not_isDigit_of_isAlpha hletter
    · decide
  have hbegins : Meaning.BeginsText c :=
    ⟨hdigit, hne _ (by decide) (by decide), hne _ (by decide) (by decide),
      hne _ (by decide) (by decide)⟩
  -- The tilde means null too, but nothing of the kind begins with one.
  obtain ⟨hnull, hbool⟩ := no_word_of_not_isReserved hreserved (hne '~' (by decide) (by decide))
  exact Meaning.ofPlain_of_begins hbegins hnull hbool

theorem ofPlain_of_safe (hsafe : isPlainSafe word = true) (hreserved : isReserved word = false) :
    Meaning.ofPlain word = .string := by
  obtain ⟨c, rest, rfl, hbegins, -, -⟩ := isWordFrom_iff.mp hsafe
  rw [Bool.or_eq_true, beq_iff_eq] at hbegins
  exact ofPlain_of_head hbegins hreserved

end

/-! ## Layouts of words -/

namespace Layout

/-- A word that is a text. -/
def word (text : String) : Layout := .plain text (.string text)

/-- A word that is a text, or nothing for the empty text, which then means null. -/
def wordOrNull (text : String) : Layout := if text == "" then absent else word text

variable {dash : Bool} {block : Nat} {text : String} {chars : List Char}

theorem wordMeans_text (h : Meaning.ofPlain text.toList = .string) :
    WordMeans text.toList (.string text) := by
  intro head htag
  have hmeans : Node.Means (.scalar head text.toList .plain)
      (.string (String.ofList text.toList)) :=
    .string htag fun _ => h
  rw [String.ofList_toList] at hmeans
  exact hmeans

theorem proper_word (hsafe : isPlainSafe text.toList = true)
    (hreserved : isReserved text.toList = false) :
    Proper dash block (word text) :=
  .plain (isWord_of_plain (isPlainWord_of_safe hsafe))
    (wordMeans_text (ofPlain_of_safe hsafe hreserved))

theorem proper_wordOrNull (h : text = "" ∨ isPlainSafe text.toList = true)
    (hreserved : isReserved text.toList = false) : Proper false block (wordOrNull text) := by
  unfold wordOrNull
  by_cases hempty : text = ""
  · rw [if_pos (by simp [hempty])]
    exact .absent
  · rw [if_neg (by simp [hempty])]
    exact proper_word (h.resolve_left hempty) hreserved

theorem text_wordOrNull (text : String) :
    (wordOrNull text).text false = ' ' :: (text.toList ++ ['\n']) := by
  unfold wordOrNull
  by_cases hempty : text = ""
  · rw [if_pos (by simp [hempty]), hempty]
    rfl
  · rw [if_neg (by simp [hempty])]
    rfl

/-! The same for words that are known by their characters. -/

theorem proper_literalWord (htext : text = String.ofList chars)
    (h : isTextWord chars = true) : Proper dash block (word text) := by
  rw [isTextWord, Bool.and_eq_true, Bool.not_eq_true'] at h
  subst htext
  exact proper_word (by rw [String.toList_ofList]; exact h.1)
    (by rw [String.toList_ofList]; exact h.2)

theorem isName_literal (htext : text = String.ofList chars)
    (h : (isTextWord chars && decide (byteLength chars ≤ 1024)) = true) : IsName text := by
  rw [isTextWord, Bool.and_eq_true, Bool.and_eq_true, Bool.not_eq_true', decide_eq_true_eq] at h
  obtain ⟨⟨hsafe, hreserved⟩, hlength⟩ := h
  subst htext
  refine ⟨?_, ?_, ?_⟩
  · rw [String.toList_ofList]
    exact isWord_of_plain (isPlainWord_of_safe hsafe)
  · rw [String.toList_ofList]
    exact hlength
  · rw [String.toList_ofList]
    exact ofPlain_of_safe hsafe hreserved

theorem proper_literal {meaning : Json} (htext : text = String.ofList chars)
    (h : isPlainWord chars = true)
    (hmeans : WordMeans chars meaning) : Proper dash block (.plain text meaning) := by
  subst htext
  refine .plain ?_ ?_
  · rw [String.toList_ofList]
    exact isWord_of_plain h
  · rw [String.toList_ofList]
    exact hmeans

theorem proper_literalQuoted (htext : text = String.ofList chars) (h : chars.all isBare = true) :
    Proper dash block (.quoted text) := by
  subst htext
  refine .quoted ?_
  rw [String.toList_ofList]
  exact List.all_eq_true.mp h

/-- The decimal text of a natural number of 64 bits. -/
theorem proper_natural {n : Nat} (hdigits : isPlainWord (Number.decimal n) = true)
    (hn : n < UInt64.size) :
    Proper dash block (.plain (String.ofList (Number.decimal n)) (.int n)) := by
  refine proper_literal rfl hdigits fun head htag => ?_
  unfold UInt64.size at hn
  have hlow : -2 ^ 63 ≤ (n : Int) := by omega
  have hhigh : (n : Int) < 2 ^ 64 := by omega
  exact Node.means_integer hlow hhigh htag

/-! ## Lines of text -/

theorem isTextLine_of_printable {line : List Char} (hline : line ≠ [])
    (h : ∀ c ∈ line, isPrintable c = true) : IsTextLine (String.ofList line) := by
  unfold IsTextLine
  rw [String.toList_ofList]
  exact ⟨⟨hline, fun c hc => not_isBreak_of_isPrintable (h c hc)⟩,
    fun c hc => isClean_of_isPrintable (h c hc)⟩

theorem isTextLine_literal (htext : text = String.ofList chars)
    (h : (!chars.isEmpty && chars.all isPrintable) = true) : IsTextLine text := by
  rw [Bool.and_eq_true, Bool.not_eq_true', List.isEmpty_eq_false_iff] at h
  subst htext
  exact isTextLine_of_printable h.1 (List.all_eq_true.mp h.2)

end Layout

end Provisioning.Yaml
