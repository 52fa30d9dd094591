import Provisioning.Json.Tree
import Provisioning.Proofs.Yaml.Token.Advance

/-!
# Scalars on one line

A string as JSON writes it is a double-quoted scalar that means the same string, as long as its
characters may stand in a text and are no line ends: `readDouble_written`. A plain scalar takes
every character up to the one that ends it: `read_word`. Both are then scalars that a lexer
reads, `ReadsScalar`, inside flow collections and among blocks alike.
-/

namespace Provisioning.Yaml

open Json (escapeChar writeString)

/-- A character that stands for itself inside a text, if it is not escaped: it is permitted, no
line end in any spelling, and no byte order mark. -/
def isDirect (c : Char) : Bool :=
  c.toNat ≤ 0x7E ||
    (0xA0 ≤ c.toNat && c.toNat ≤ 0xFFFD &&
      c != '\u2028' && c != '\u2029' && c != '\uFEFF') ||
    0x10000 ≤ c.toNat

namespace QuotedScalar

theorem hexValue?_control : ∀ n, n < 32 →
    hexValue? (Nat.digitChar (n / 16)) = some (n / 16) ∧
      hexValue? (Nat.digitChar (n % 16)) = some (n % 16) := by
  decide

theorem utf8Size_digitChar : ∀ n, n < 16 → (Nat.digitChar n).utf8Size = 1 := by
  decide

variable {start mark : Mark} {gap : Gap} {text rest : List Char} {c : Char}

theorem folded_blank (h : gap.hasBreak = false) (c : Char) :
    (gap.blank c).folded = c :: gap.folded := by
  cases gap with
  | closed => rfl
  | blanks cs => rfl
  | breaks first further => exact absurd h (by simp [Gap.hasBreak])

theorem hasBreak_blank (h : gap.hasBreak = false) (c : Char) : (gap.blank c).hasBreak = false := by
  cases gap with
  | closed => rfl
  | blanks cs => rfl
  | breaks first further => exact absurd h (by simp [Gap.hasBreak])

/-- A letter behind a backslash. -/
theorem readDouble_letter {letter : Char} (hbreak : isBreak letter = false)
    (h : escaped? letter = some c) (hmark : mark.column ≠ 0) :
    readDouble start text gap none mark ('\\' :: letter :: rest)
      = readDouble start (c :: (gap.folded ++ text)) .closed none (mark.right 2) rest := by
  rw [readDouble, if_neg (by decide), if_neg (by decide), if_neg (by simp [hmark]),
    if_neg (by decide), if_pos (by decide), if_neg (by simp [hbreak]), h]

theorem readDouble_digit {left value digit : Nat} {first : Mark} (h : hexValue? c = some digit)
    (hleft : 1 < left) :
    readDouble start text gap (some ⟨left, value, first⟩) mark (c :: rest)
      = readDouble start text .closed (some ⟨left - 1, value * 16 + digit, first⟩)
        mark.next rest := by
  rw [readDouble, h]
  dsimp only
  rw [if_neg (by omega)]

theorem readDouble_lastDigit {value digit : Nat} {first : Mark} {decoded : Char}
    (h : hexValue? c = some digit) (hchar : ofCode? (value * 16 + digit) = some decoded) :
    readDouble start text gap (some ⟨1, value, first⟩) mark (c :: rest)
      = readDouble start (decoded :: text) .closed none mark.next rest := by
  rw [readDouble, h]
  dsimp only
  rw [if_pos (Nat.le_refl 1), hchar]

/-- The code of a control behind a backslash. -/
theorem readDouble_control {n : Nat} (h : n < 32) (hmark : mark.column ≠ 0) (text : List Char)
    (gap : Gap) (rest : List Char) :
    readDouble start text gap none mark
        ('\\' :: 'u' :: '0' :: '0' :: Nat.digitChar (n / 16) :: Nat.digitChar (n % 16) :: rest)
      = readDouble start (Char.ofNat n :: (gap.folded ++ text)) .closed none
          (mark.past ['\\', 'u', '0', '0', Nat.digitChar (n / 16), Nat.digitChar (n % 16)])
          rest := by
  obtain ⟨hhigh, hlow⟩ := hexValue?_control n h
  have hplace : mark.past ['\\', 'u', '0', '0', Nat.digitChar (n / 16), Nat.digitChar (n % 16)]
      = mark.right 6 := by
    unfold Mark.past
    simp only [byteLength, utf8Size_digitChar _ (show n / 16 < 16 by omega),
      utf8Size_digitChar _ (show n % 16 < 16 by omega)]
    rfl
  have hzero : hexValue? '0' = some 0 := by decide
  have hvalue : (0 * 16 + n / 16) * 16 + n % 16 = n := by omega
  have hchar : ofCode? n = some (Char.ofNat n) := by
    unfold ofCode?
    rw [if_pos (by simp; omega)]
  have hcode : ∀ rest, readDouble start text gap none mark ('\\' :: 'u' :: rest)
      = readDouble start (gap.folded ++ text) .closed (some ⟨4, 0, mark.right 2⟩)
        (mark.right 2) rest := by
    intro rest
    rw [readDouble, if_neg (by decide), if_neg (by decide), if_neg (by simp [hmark]),
      if_neg (by decide), if_pos (by decide)]
    rfl
  rw [hcode, readDouble_digit hzero (by omega), readDouble_digit hzero (by omega),
    readDouble_digit hhigh (by omega), readDouble_lastDigit hlow (by rw [hvalue]; exact hchar),
    hplace]
  rfl

/-- A character that stands for itself. -/
theorem readDouble_plain (hblank : isBlank c = false) (hbreak : isBreak c = false)
    (hquote : c ≠ '"') (hslash : c ≠ '\\') (hmark : mark.column ≠ 0) :
    readDouble start text gap none mark (c :: rest)
      = readDouble start (c :: (gap.folded ++ text)) .closed none (mark.past [c]) rest := by
  rw [readDouble.eq_def]
  dsimp only
  rw [if_neg (by simp [hblank]), if_neg (by simp [hbreak]), if_neg (by simp [hmark]),
    if_neg (by simp [hquote]), if_neg (by simp [hslash])]

theorem readDouble_blank (hblank : isBlank c = true) :
    readDouble start text gap none mark (c :: rest)
      = readDouble start text (gap.blank c) none (mark.past [c]) rest := by
  rw [readDouble.eq_def]
  dsimp only
  rw [if_pos hblank]

/-- The quote at the end. -/
theorem readDouble_close (hmark : mark.column ≠ 0) :
    readDouble start text gap none mark ('"' :: rest)
      = .ok ⟨(gap.folded ++ text).reverse, ⟨rest, mark.next⟩⟩ := by
  rw [readDouble.eq_def]
  dsimp only
  rw [if_neg (by decide), if_neg (by decide), if_neg (by simp [hmark]), if_pos (by decide)]

/-- **What is written of a character is read as the character**, which a space joins to the gap. -/
theorem readDouble_escapeChar (hc : isDirect c = true) (hgap : gap.hasBreak = false)
    (hmark : mark.column ≠ 0) :
    ∃ (text' : List Char) (gap' : Gap), gap'.hasBreak = false ∧
      gap'.folded ++ text' = c :: (gap.folded ++ text) ∧
      readDouble start text gap none mark (escapeChar c ++ rest)
        = readDouble start text' gap' none (mark.past (escapeChar c)) rest := by
  -- Seven characters are escaped by a letter; any other is a control or stands for itself.
  unfold escapeChar
  split
  · exact ⟨_, .closed, rfl, rfl, readDouble_letter (by decide) rfl hmark⟩
  · exact ⟨_, .closed, rfl, rfl, readDouble_letter (by decide) rfl hmark⟩
  · exact ⟨_, .closed, rfl, rfl, readDouble_letter (by decide) rfl hmark⟩
  · exact ⟨_, .closed, rfl, rfl, readDouble_letter (by decide) rfl hmark⟩
  · exact ⟨_, .closed, rfl, rfl, readDouble_letter (by decide) rfl hmark⟩
  · exact ⟨_, .closed, rfl, rfl, readDouble_letter (by decide) rfl hmark⟩
  · exact ⟨_, .closed, rfl, rfl, readDouble_letter (by decide) rfl hmark⟩
  · rename_i hquote hslash _ htab hnewline _ _
    split
    · rename_i hcontrol
      refine ⟨c :: (gap.folded ++ text), .closed, rfl, rfl, ?_⟩
      have hread : readDouble start text gap none mark _ = _ :=
        readDouble_control hcontrol hmark text gap rest
      rw [Char.ofNat_toNat] at hread
      exact hread
    · by_cases hspace : c = ' '
      · subst hspace
        -- It could still be in front of a line end, so the reader does not add it to the text yet.
        refine ⟨text, gap.blank ' ', hasBreak_blank hgap ' ', ?_, ?_⟩
        · rw [folded_blank hgap]
          rfl
        · exact readDouble_blank (by decide)
      · have hblank : isBlank c = false := by simpa [isBlank, hspace] using htab
        have hbreak : isBreak c = false := by
          unfold isBreak
          rw [Bool.or_eq_false_iff, Bool.or_eq_false_iff]
          refine ⟨⟨by simpa using hnewline, ?_⟩, ?_⟩
          · simp only [beq_eq_false_iff_ne, ne_eq]
            rintro rfl
            exact absurd hc (by decide)
          · simp only [beq_eq_false_iff_ne, ne_eq]
            rintro rfl
            exact absurd hc (by decide)
        exact ⟨_, .closed, rfl, rfl, readDouble_plain hblank hbreak hquote hslash hmark⟩

/-- **What is written of a string is read as the string.** -/
theorem readDouble_written (start : Mark) :
    ∀ (chars text : List Char) (gap : Gap) (mark : Mark) (rest : List Char),
    (∀ c ∈ chars, isDirect c = true) → gap.hasBreak = false → mark.column ≠ 0 →
    readDouble start text gap none mark (chars.flatMap escapeChar ++ '"' :: rest)
      = .ok ⟨(gap.folded ++ text).reverse ++ chars,
          ⟨rest, (mark.past (chars.flatMap escapeChar)).next⟩⟩ := by
  intro chars
  induction chars with
  | nil =>
    intro text gap mark rest _ _ hmark
    rw [List.flatMap_nil, List.nil_append, List.append_nil, readDouble_close hmark]
    rfl
  | cons c chars ih =>
    intro text gap mark rest hchars hgap hmark
    obtain ⟨hc, hchars⟩ := List.forall_mem_cons.mp hchars
    rw [List.flatMap_cons, List.append_assoc]
    obtain ⟨text', gap', hgap', hfolded, hread⟩ := readDouble_escapeChar hc hgap hmark
    rw [hread, ih text' gap' _ rest hchars hgap' (by show mark.column + _ ≠ 0; omega), hfolded,
      List.reverse_cons, List.append_assoc, Mark.past_past]
    rfl

/-- **How a text is spelled in double quotes**: what is read up to the quote is the text. -/
def Spells (spelled text : List Char) : Prop :=
  ∀ (start mark : Mark) (rest : List Char), mark.column ≠ 0 →
    readDouble start [] .closed none mark (spelled ++ '"' :: rest)
      = .ok ⟨text, ⟨rest, (mark.past spelled).next⟩⟩

/-- The spelling of JSON. -/
theorem spells_escaped {chars : List Char} (h : ∀ c ∈ chars, isDirect c = true) :
    Spells (chars.flatMap escapeChar) chars :=
  fun start mark rest hmark => readDouble_written start chars [] .closed mark rest h rfl hmark

/-- A character that stands for itself in double quotes. -/
def isQuotable (c : Char) : Bool := !isBreak c && c != '"' && c != '\\'

/-- **A text without quotes, backslashes and line ends is spelled as it is.** -/
theorem readDouble_raw (start : Mark) :
    ∀ (chars text : List Char) (gap : Gap) (mark : Mark) (rest : List Char),
    (∀ c ∈ chars, isQuotable c = true) → gap.hasBreak = false → mark.column ≠ 0 →
    readDouble start text gap none mark (chars ++ '"' :: rest)
      = .ok ⟨(gap.folded ++ text).reverse ++ chars, ⟨rest, (mark.past chars).next⟩⟩ := by
  intro chars
  induction chars with
  | nil =>
    intro text gap mark rest _ _ hmark
    rw [List.nil_append, List.append_nil, readDouble_close hmark]
    rfl
  | cons c chars ih =>
    intro text gap mark rest hchars hgap hmark
    obtain ⟨hc, hchars⟩ := List.forall_mem_cons.mp hchars
    unfold isQuotable at hc
    simp only [Bool.and_eq_true, Bool.not_eq_true', bne_iff_ne] at hc
    obtain ⟨⟨hbreak, hquote⟩, hslash⟩ := hc
    rw [List.cons_append]
    cases hblank : isBlank c with
    | true =>
      rw [readDouble_blank hblank, ih text _ _ rest hchars (hasBreak_blank hgap c)
        (Nat.succ_ne_zero _), folded_blank hgap, List.cons_append, List.reverse_cons,
        List.append_assoc, Mark.past_cons]
      rfl
    | false =>
      rw [readDouble_plain hblank hbreak hquote hslash hmark,
        ih _ .closed _ rest hchars rfl (Nat.succ_ne_zero _), Mark.past_cons]
      show Except.ok (QuotedScalar.mk ((c :: (gap.folded ++ text)).reverse ++ chars) _) = _
      rw [List.reverse_cons, List.append_assoc]
      rfl

theorem spells_raw {chars : List Char} (h : ∀ c ∈ chars, isQuotable c = true) :
    Spells chars chars :=
  fun start mark rest hmark => readDouble_raw start chars [] .closed mark rest h rfl hmark

end QuotedScalar

/-- Does a comment begin on the line: with a number sign behind a blank? -/
def hasComment (afterBlank : Bool) : List Char → Bool
  | [] => false
  | c :: rest => (afterBlank && c == '#') || hasComment (isBlank c) rest

/-- Does a colon end a word of the line, because a blank or nothing at all follows it? -/
def hasColon : List Char → Bool
  | [] => false
  | c :: rest => (c == ':' && endsWord rest) || hasColon rest

namespace PlainScalar

/-- The characters of a word that a plain scalar takes as a whole. A colon may stand in it among
blocks, but not at its end. -/
structure Frame.Takes (frame : Frame) (word : List Char) : Prop where
  inner : ∀ c ∈ word, isBlank c = false ∧ isBreak c = false ∧
    (frame.inFlow = true → isFlowPunctuation c = false ∧ c ≠ ':')
  last : word.getLast? ≠ some ':'

variable {frame : Frame}

theorem read_taken {c : Char} {text rest : List Char} {mark : Mark} (hblank : isBlank c = false)
    (hbreak : isBreak c = false)
    (hclash : (frame.inFlow && c == ':' && startsFlowClash rest) = false)
    (hend : frame.endsAt c rest = false) :
    read frame text .closed mark mark (c :: rest)
      = read frame (c :: text) .closed (mark.past [c]) (mark.past [c]) rest := by
  rw [read, if_neg (by simp [hblank]), if_neg (by simp [hbreak]), if_neg (by simp [Gap.isOpen]),
    if_neg (by simp [hclash]), if_neg (by simp [hend])]
  rfl

theorem Frame.Takes.tail {c : Char} {word : List Char} (h : frame.Takes (c :: word)) :
    frame.Takes word := by
  refine ⟨fun d hd => h.inner d (List.mem_cons_of_mem c hd), fun hlast => h.last ?_⟩
  cases word with
  | nil => exact absurd hlast (by simp)
  | cons d word => rw [List.getLast?_cons_cons]; exact hlast

/-- A word does not end at its first character. -/
theorem Frame.Takes.goesOn {c : Char} {word : List Char} (h : frame.Takes (c :: word))
    (rest : List Char) :
    (frame.inFlow && c == ':' && startsFlowClash (word ++ rest)) = false ∧
      frame.endsAt c (word ++ rest) = false := by
  obtain ⟨_, _, hflow⟩ := h.inner c (by simp)
  have hclash : (frame.inFlow && c == ':') = false := by
    cases hin : frame.inFlow with
    | false => rfl
    | true => simpa using (hflow hin).2
  -- A colon would end the word in front of a blank, but no blank is in it and no colon at its end.
  have hcolon : (c == ':' && endsWord (word ++ rest)) = false := by
    cases word with
    | nil =>
      have hne : c ≠ ':' := fun hc => h.last (by rw [hc]; rfl)
      simp [hne]
    | cons d word =>
      obtain ⟨hblank, hbreak, _⟩ := h.inner d (by simp)
      show (c == ':' && (isBlank d || isBreak d)) = false
      rw [hblank, hbreak]
      exact Bool.and_false _
  refine ⟨by rw [hclash]; rfl, ?_⟩
  unfold Frame.endsAt
  rw [hcolon, Bool.false_or]
  cases hin : frame.inFlow with
  | false => rfl
  | true => exact (hflow hin).1

/-- **A word is read as it stands.** -/
theorem read_word : ∀ (word text : List Char) (mark : Mark) (rest : List Char),
    frame.Takes word →
    read frame text .closed mark mark (word ++ rest)
      = read frame (word.reverse ++ text) .closed (mark.past word) (mark.past word) rest := by
  intro word
  induction word with
  | nil => intro text mark rest _; rfl
  | cons c word ih =>
    intro text mark rest h
    obtain ⟨hblank, hbreak, _⟩ := h.inner c (by simp)
    -- Neither a line end nor the margin matters within a word, as the gap stays closed.
    obtain ⟨hclash, hend⟩ := h.goesOn rest
    rw [List.cons_append, read_taken hblank hbreak hclash hend, ih _ _ _ h.tail, List.reverse_cons,
      List.append_assoc, Mark.past_cons]
    rfl

/-- Inside a line nothing but a number sign is excluded. -/
theorem excludes_inside {c : Char} {rest : List Char} {mark : Mark} (hflow : frame.inFlow = false)
    (hcolumn : frame.margin ≤ mark.column) (hmark : mark.column ≠ 0) :
    frame.excludes mark (c :: rest) = (c == '#') := by
  have hless : ¬ mark.column < frame.margin := by omega
  unfold Frame.excludes
  simp [hflow, hless, hmark]

/-- **Among blocks a line is read as it stands**, with the blanks inside of it, if no comment begins
on it and no colon ends it early. -/
theorem read_inline (hflow : frame.inFlow = false) :
    ∀ (line text : List Char) (gap : Gap) (stop mark : Mark) (rest : List Char),
    (∀ c ∈ line, isBreak c = false) → hasComment gap.isOpen line = false → hasColon line = false →
    (∀ c, line.getLast? = some c → isBlank c = false) → (line = [] → gap = .closed ∧ stop = mark) →
    gap.hasBreak = false → frame.margin ≤ mark.column → mark.column ≠ 0 →
    read frame text gap stop mark (line ++ rest)
      = read frame (line.reverse ++ (gap.folded ++ text)) .closed (mark.past line)
          (mark.past line) rest := by
  intro line
  induction line with
  | nil =>
    intro text gap stop mark rest _ _ _ _ hclosed _ _ _
    obtain ⟨rfl, rfl⟩ := hclosed rfl
    rfl
  | cons c line ih =>
    intro text gap stop mark rest hline hcomment hcolon hlast _ hgap hmargin hmark
    obtain ⟨hbreak, hline⟩ := List.forall_mem_cons.mp hline
    rw [hasComment, Bool.or_eq_false_iff] at hcomment
    rw [hasColon, Bool.or_eq_false_iff] at hcolon
    have hmarginNext : frame.margin ≤ (mark.past [c]).column := Nat.le_succ_of_le hmargin
    have hlastNext : ∀ d, line.getLast? = some d → isBlank d = false := by
      intro d hd
      refine hlast d ?_
      cases line with
      | nil => exact absurd hd (by simp)
      | cons e line => rw [List.getLast?_cons_cons]; exact hd
    have hreverse : ∀ front : List Char, (c :: line).reverse ++ front = line.reverse
      ++ (c :: front) := by simp
    rw [hreverse, ← Mark.past_cons]
    cases hblank : isBlank c with
    | true =>
      have hopen : (gap.blank c).isOpen = isBlank c := by
        rw [hblank]
        cases gap <;> rfl
      have hnonempty : line ≠ [] := by
        rintro rfl
        rw [hlast c rfl] at hblank
        cases hblank
      have hfolded := QuotedScalar.folded_blank hgap c
      rw [List.cons_append, read, if_pos hblank, if_neg (by simp [hgap]),
        ih text _ stop _ rest hline (by rw [hopen]; exact hcomment.2) hcolon.2 hlastNext
          (fun hnil => absurd hnil hnonempty) (QuotedScalar.hasBreak_blank hgap c) hmarginNext
          (Nat.succ_ne_zero _), hfolded]
      rfl
    | false =>
      -- The colon is looked at together with what follows it, which is on the line.
      have hends : frame.endsAt c (line ++ rest) = false := by
        unfold Frame.endsAt
        rw [hflow, Bool.false_and, Bool.or_false]
        cases line with
        | nil =>
          have hne := hcolon.1
          rw [show endsWord ([] : List Char) = true from rfl, Bool.and_true] at hne
          rw [hne, Bool.false_and]
        | cons d line => exact hcolon.1
      have hexcluded : (gap.isOpen && frame.excludes mark (c :: (line ++ rest))) = false := by
        rw [excludes_inside hflow hmargin hmark]
        exact hcomment.1
      rw [hblank] at hcomment
      rw [List.cons_append, read, if_neg (by rw [hblank]; decide), if_neg (by rw [hbreak]; decide),
        if_neg (by rw [hexcluded]; decide), if_neg (by simp [hflow]),
          if_neg (by rw [hends]; decide),
        ih _ .closed _ _ rest hline hcomment.2 hcolon.2 hlastNext
          (fun _ => ⟨rfl, rfl⟩) rfl hmarginNext (Nat.succ_ne_zero _)]
      rfl

/-- The punctuation of a flow collection ends a word. -/
theorem read_ends {c : Char} {text rest : List Char} {mark : Mark} (hflow : frame.inFlow = true)
    (h : isFlowPunctuation c = true) :
    read frame text .closed mark mark (c :: rest)
      = .ok ⟨text.reverse, mark, false, ⟨c :: rest, mark⟩⟩ := by
  have hne : c ≠ ':' ∧ isBlank c = false ∧ isBreak c = false := by
    unfold isFlowPunctuation at h
    simp only [Bool.or_eq_true, beq_iff_eq] at h
    rcases h with (((rfl | rfl) | rfl) | rfl) | rfl <;> decide
  have hends : frame.endsAt c rest = true := by
    unfold Frame.endsAt
    rw [hflow, h]
    exact Bool.or_true _
  rw [read, if_neg (by simp [hne.2.1]), if_neg (by simp [hne.2.2]), if_neg (by simp [Gap.isOpen]),
    if_neg (by simp [hne.1]), if_pos hends]
  rfl

end PlainScalar

namespace Lexer

variable {indents : List Nat} {around : List (List Token.Kind)}

theorem token_quote {lexer : Lexer} {rest : List Char} :
    lexer.token '"' rest = lexer.doubleQuoted rest := by
  have hform : lexer.form? '"' rest = some .doubleQuoted := by
    unfold form?
    simp [isBoundary]
  unfold token
  rw [hform]

/-- **A text in double quotes is a scalar.** -/
theorem readsScalar_quoted {spelled text : List Char} (h : QuotedScalar.Spells spelled text)
    (mark : Mark) (rest : List Char) :
    ReadsScalar '"' (spelled ++ '"' :: rest) mark indents around (.scalar text .doubleQuoted) rest
      (mark.past ('"' :: (spelled ++ ['"']))) false := by
  intro lexer ready allowed here here' hat hready hstands
  have hread := h mark mark.next rest (Nat.succ_ne_zero _)
  have hplace : (mark.next.past spelled).next = mark.past ('"' :: (spelled ++ ['"'])) :=
    (mark.next.past_past spelled ['"']).trans (mark.past_cons '"' _)
  rw [hplace] at hread
  refine ⟨mark, mark.past ('"' :: (spelled ++ ['"'])), ?_⟩
  rw [token_quote]
  unfold doubleQuoted nodeToken
  rw [hready, Outcome.ok_bind]
  dsimp only
  rw [hstands.mark_eq, hread]
  rfl

theorem form?_plain {lexer : Lexer} {c : Char} {rest : List Char}
    (hindicator : isIndicator c = false)
    (hblank : isBlank c = false) (hbreak : isBreak c = false) (hdot : c ≠ '.') :
    lexer.form? c rest = some .plain := by
  have hdash : c ≠ '-' := fun h => by rw [h] at hindicator; exact absurd hindicator (by decide)
  have hboundary := isBoundary_cons hdash hdot rest
  unfold isIndicator isFlowPunctuation at hindicator
  simp only [Bool.or_eq_false_iff, beq_eq_false_iff_ne] at hindicator
  unfold form? beginsPlain
  simp_all [isIndicator, isFlowPunctuation]

theorem isAlphanum_ne {c d : Char} (hc : c.isAlphanum = true) (hd : d.isAlphanum = false) :
    c ≠ d := by
  rintro rfl
  rw [hc] at hd
  exact absurd hd (by decide)

/-- Letters and digits have no meaning of their own inside a word. -/
theorem word_of_isAlphanum {c : Char} (h : c.isAlphanum = true) :
    isBlank c = false ∧ isBreak c = false ∧ isFlowPunctuation c = false ∧ c ≠ ':' := by
  unfold isBlank isBreak isFlowPunctuation
  simp only [Bool.or_eq_false_iff, beq_eq_false_iff_ne]
  refine ⟨⟨?_, ?_⟩, ⟨⟨?_, ?_⟩, ?_⟩, ⟨⟨⟨⟨?_, ?_⟩, ?_⟩, ?_⟩, ?_⟩, ?_⟩ <;>
    exact isAlphanum_ne h (by decide)

theorem not_isIndicator_of_isAlphanum {c : Char} (h : c.isAlphanum = true) :
    isIndicator c = false := by
  obtain ⟨-, -, hflow, hcolon⟩ := word_of_isAlphanum h
  unfold isIndicator
  rw [hflow]
  simp only [Bool.or_eq_false_iff, beq_eq_false_iff_ne, true_and]
  refine ⟨⟨⟨⟨⟨⟨⟨⟨⟨⟨⟨⟨⟨?_, ?_⟩, hcolon⟩, ?_⟩, ?_⟩, ?_⟩, ?_⟩, ?_⟩, ?_⟩, ?_⟩, ?_⟩, ?_⟩, ?_⟩, ?_⟩ <;>
    exact isAlphanum_ne h (by decide)

/-- A plain scalar may begin with a letter or a digit. -/
theorem begins_of_isAlphanum {c : Char} (h : c.isAlphanum = true) :
    BeginsToken c ∧ ∀ (lexer : Lexer) (rest : List Char), lexer.form? c rest = some .plain := by
  obtain ⟨hblank, hbreak, -, -⟩ := word_of_isAlphanum h
  exact ⟨⟨hbreak, hblank, isAlphanum_ne h (by decide), isAlphanum_ne h (by decide)⟩,
    fun lexer rest => form?_plain (not_isIndicator_of_isAlphanum h) hblank hbreak
      (isAlphanum_ne h (by decide))⟩

/-- A plain scalar may begin with a minus sign if a blank does not follow it. -/
theorem form?_minus {lexer : Lexer} {d : Char} {rest : List Char} (hblank : isBlank d = false)
    (hbreak : isBreak d = false) (hdash : d ≠ '-') :
    lexer.form? '-' (d :: rest) = some .plain := by
  have hboundary : isBoundary ('-' :: d :: rest) = false := by
    unfold isBoundary
    split
    · rename_i h
      exact absurd (List.cons.inj (List.cons.inj h).2).1 hdash
    · rename_i h
      exact absurd (List.cons.inj h).1 (by decide)
    · rfl
  have hends : endsWord (d :: rest) = false := by
    show (isBlank d || isBreak d) = false
    rw [hblank, hbreak]
    rfl
  unfold isBlank at hblank
  rw [Bool.or_eq_false_iff, beq_eq_false_iff_ne, beq_eq_false_iff_ne] at hblank
  unfold form? beginsPlain
  simp [hboundary, hends, startsWith, hblank.1.symm, hblank.2.symm]

/-- **A plain scalar** is what its words make of the text. -/
theorem readsScalar_plain {c : Char} {text text' word : List Char} {mark mark' stop : Mark}
    {crossed : Bool}
    (hform : ∀ lexer : Lexer, lexer.inFlow = (!around.isEmpty) → lexer.mark = mark →
      lexer.form? c text = some .plain)
    (hread : ∀ start, PlainScalar.read ⟨start, !around.isEmpty, marginOf indents⟩ [c] .closed
      (mark.past [c]) (mark.past [c]) text = .ok ⟨word, stop, crossed, ⟨text', mark'⟩⟩) :
    ReadsScalar c text mark indents around (.scalar word .plain) text' mark' crossed := by
  intro lexer ready allowed here here' hat hready hstands
  refine ⟨mark, stop, ?_⟩
  unfold token
  rw [hform lexer hat.inFlow_eq hat.mark_eq]
  dsimp only
  unfold plain
  rw [hready, Outcome.ok_bind]
  dsimp only
  rw [hstands.mark_eq, hstands.inFlow_eq, hstands.margin_eq, hread]
  rfl

/-- A plain scalar inside a flow collection, up to the punctuation behind it. -/
theorem readsScalar_flowWord {c d : Char} {word rest : List Char} {outside : List Token.Kind}
    (hform : ∀ lexer : Lexer, lexer.form? c (word ++ d :: rest) = some .plain)
    (hword : ∀ e ∈ word,
      isBlank e = false ∧ isBreak e = false ∧ isFlowPunctuation e = false ∧ e ≠ ':')
    (hd : isFlowPunctuation d = true) (mark : Mark) :
    ReadsScalar c (word ++ d :: rest) mark indents (outside :: around) (.scalar (c :: word) .plain)
      (d :: rest) (mark.past (c :: word)) false := by
  refine @readsScalar_plain _ _ _ _ _ _ _ _ (mark.past (c :: word)) _ (fun lexer _ _ => hform lexer)
    fun start => ?_
  have htakes : (PlainScalar.Frame.mk start true (marginOf indents)).Takes word := by
    refine ⟨fun e he => ⟨(hword e he).1, (hword e he).2.1, fun _ => (hword e he).2.2⟩,
      fun hlast => ?_⟩
    exact (hword ':' (List.mem_of_getLast? hlast)).2.2.2 rfl
  show PlainScalar.read ⟨start, true, marginOf indents⟩ [c] .closed (mark.past [c])
    (mark.past [c]) _ = _
  rw [PlainScalar.read_word word [c] (mark.past [c]) (d :: rest) htakes, Mark.past_cons,
    PlainScalar.read_ends rfl hd, List.reverse_append, List.reverse_reverse]
  rfl

end Lexer

end Provisioning.Yaml
