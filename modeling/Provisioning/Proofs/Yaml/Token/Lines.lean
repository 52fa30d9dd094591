import Provisioning.Proofs.Yaml.Token.Words

/-!
# Blocks, line by line

In block context the column of a line says where it belongs, and what it does not belong to is
closed as soon as its first token is met, several blocks at once. To follow a text block by
block all the same, `Lexer.Faces` says where a lexer stands in front of a line when some of the
blocks that are about to be closed already count as closed: `Faces.close` closes one more, and
once none of those left is too deep, the token can be met.

A line begins with a key or with the dash of an entry, and ends with a scalar, a comment or
nothing; either way the lexer then faces the line below.
-/

namespace Provisioning.Yaml

open Pending

/-- The indentation of a line. -/
def spaces (n : Nat) : List Char := List.replicate n ' '

/-- What stands in front of the first token of a line: some empty lines and its indentation. -/
def lead (blank column : Nat) : List Char := List.replicate blank '\n' ++ spaces column

/-- What a line begins with behind its indentation: a token, or nothing at the end of the text. -/
def StartsLine (next : List Char) : Prop :=
  next = [] ∨ ∃ c rest, next = c :: rest ∧ Lexer.BeginsToken c

theorem spaces_succ (n : Nat) : spaces (n + 1) = ' ' :: spaces n := List.replicate_succ

theorem lead_zero (column : Nat) : lead 0 column = spaces column := rfl

theorem lead_succ (blank column : Nat) : lead (blank + 1) column = '\n' :: lead blank column := by
  unfold lead
  rw [List.replicate_succ, List.cons_append]

theorem toToken_spaces (inFlow allowed : Bool) : ∀ (n : Nat) (mark : Mark) (rest : List Char),
    Cursor.toToken inFlow false allowed mark (spaces n ++ rest)
      = Cursor.toToken inFlow false allowed (mark.right n) rest := by
  intro n
  induction n with
  | zero => intro mark rest; rfl
  | succ n ih =>
    intro mark rest
    have hnext := Mark.next_right mark n
    rw [spaces_succ, List.cons_append, Cursor.toToken, if_neg (by decide), if_neg (by decide),
      if_pos (by simp), Mark.past_space, ih, hnext]

theorem toToken_startsLine {next : List Char} (h : StartsLine next) (inFlow allowed : Bool)
    (mark : Mark) : Cursor.toToken inFlow false allowed mark next = (⟨next, mark⟩, allowed) := by
  rcases h with rfl | ⟨c, rest, rfl, hc⟩
  · rfl
  · exact Lexer.toToken_begins hc inFlow allowed mark rest

theorem Mark.newline_right (mark : Mark) (column : Nat) :
    mark.newline.right column = ⟨mark.line + 1, column, column⟩ := by
  unfold newline right
  rw [Nat.zero_add]

theorem toToken_line {next : List Char} (h : StartsLine next) {column : Nat} :
    ∀ (blank : Nat) (allowed : Bool) (mark : Mark),
    Cursor.toToken false false allowed mark ('\n' :: (lead blank column ++ next))
      = (⟨next, ⟨mark.line + 1 + blank, column, column⟩⟩, true) := by
  intro blank
  induction blank with
  | zero =>
    intro allowed mark
    rw [lead_zero, Cursor.toToken, if_pos (by decide), toToken_spaces, toToken_startsLine h,
      Mark.newline_right, Bool.not_false, Bool.or_true]
  | succ blank ih =>
    intro allowed mark
    have hline : mark.newline.line + 1 + blank = mark.line + 1 + (blank + 1) := by
      show mark.line + 1 + 1 + blank = _
      omega
    rw [lead_succ, List.cons_append, Cursor.toToken, if_pos (by decide), ih, hline]

/-- A comment goes up to the end of its line. -/
theorem toToken_comment {next : List Char} (hnext : StartsLine next) {blank column : Nat}
    (allowed : Bool) : ∀ (line : List Char) (mark : Mark), (∀ c ∈ line, isBreak c = false) →
    ∃ n, Cursor.toToken false true allowed mark (line ++ '\n' :: (lead blank column ++ next))
      = (⟨next, ⟨n, column, column⟩⟩, true) := by
  intro line
  induction line with
  | nil =>
    intro mark _
    have hbelow := @toToken_line next hnext column blank allowed mark
    rw [Cursor.toToken, if_pos (by decide)] at hbelow
    refine ⟨mark.line + 1 + blank, ?_⟩
    rw [List.nil_append, Cursor.toToken, if_pos (by decide)]
    exact hbelow
  | cons c line ih =>
    intro mark hline
    obtain ⟨hbreak, hline⟩ := List.forall_mem_cons.mp hline
    rw [List.cons_append, Cursor.toToken, if_neg (by rw [hbreak]; decide), if_pos (by rfl)]
    exact ih (mark.past [c]) hline

namespace Lexer

/-- **A lexer in front of a line** at a column, with these blocks still open and tokens of these
kinds read, if the blocks that the line closes are taken from the one and added to the other. -/
def Faces (next : List Char) (column : Nat) (indents : List Nat) (kinds : List Token.Kind)
    (lexer : Lexer) : Prop :=
  ∃ (text : List Char) (mark : Mark) (allowed : Bool) (place : Mark) (closed : List Nat)
    (read : List Token.Kind),
    lexer.At text mark (closed ++ indents) allowed (Loose read) [] ∧
    Cursor.toToken false false allowed mark text = (⟨next, place⟩, true) ∧ place.column = column ∧
    (∀ indent ∈ closed, column < indent) ∧ kinds = read ++ List.replicate closed.length .blockEnd

variable {lexer : Lexer} {text next rest : List Char} {mark : Mark} {column indent : Nat}
  {indents outer : List Nat} {allowed : Bool} {kinds : List Token.Kind} {kind : Token.Kind}
  {blank : Nat}

/-- The gap in front of a line is crossed, and nothing counts as closed yet. -/
theorem At.faces {place : Mark} (h : lexer.At text mark indents allowed (Loose kinds) [])
    (hgap : Cursor.toToken false false allowed mark text = (⟨next, place⟩, true))
    (hcolumn : place.column = column) : lexer.Faces next column indents kinds :=
  ⟨text, mark, allowed, place, [], kinds, h, hgap, hcolumn, by simp, (List.append_nil kinds).symm⟩

/-- The end of one line and what stands in front of the next. -/
theorem At.faces_line (h : lexer.At ('\n' :: (lead blank column ++ next)) mark indents allowed
    (Loose kinds) []) (hnext : StartsLine next) : lexer.Faces next column indents kinds :=
  h.faces (toToken_line hnext blank allowed mark) rfl

/-- A line that is less indented than the innermost block is outside of it. -/
theorem Faces.close (h : lexer.Faces next column (indent :: indents) kinds)
    (hdeep : column < indent) : lexer.Faces next column indents (kinds ++ [.blockEnd]) := by
  obtain ⟨text, mark, allowed, place, closed, read, hat, hgap, hcolumn, hclosed, rfl⟩ := h
  -- The lexer does not move: one more of its blocks counts as closed.
  refine ⟨text, mark, allowed, place, closed ++ [indent], read, ?_, hgap, hcolumn, ?_, ?_⟩
  · rw [List.append_assoc]
    exact hat
  · intro other hother
    rcases List.mem_append.mp hother with hother | hother
    · exact hclosed other hother
    · rw [List.mem_singleton.mp hother]
      exact hdeep
  · rw [List.append_assoc, List.length_append, List.length_singleton, List.replicate_succ']

/-- A line meets its first token once everything that it closes is closed. -/
theorem Faces.meets (h : lexer.Faces next column indents kinds)
    (hopen : ∀ indent, indents.head? = some indent → indent ≤ column) :
    ∃ place : Mark, place.column = column ∧ lexer.Meets next place indents true (Loose kinds)
      [] := by
  obtain ⟨text, mark, allowed, place, closed, read, hat, hgap, rfl, hclosed, rfl⟩ := h
  have hmeets := hat.meets_closing hgap
  -- The lexer closes blocks while they are too deep, which is true of just those that
  -- count as closed.
  have hkept : indents.takeWhile (place.column < ·) = [] ∧
      indents.dropWhile (place.column < ·) = indents := by
    cases indents with
    | nil => exact ⟨rfl, rfl⟩
    | cons indent indents =>
      have hle := hopen indent rfl
      have hdeep : decide (place.column < indent) = false := by simpa using hle
      rw [List.takeWhile_cons, List.dropWhile_cons, hdeep]
      exact ⟨rfl, rfl⟩
  have hall : ∀ indent ∈ closed, decide (place.column < indent) = true := by simpa using hclosed
  rw [List.takeWhile_append_of_pos hall, List.dropWhile_append_of_pos hall, hkept.1, hkept.2,
    List.append_nil] at hmeets
  exact ⟨place, rfl, hmeets⟩

/-- **The end of the text closes the block at its margin.** -/
theorem Faces.yields (h : lexer.Faces [] column indents kinds)
    (hopen : ∀ indent, indents.head? = some indent → indent ≤ column) :
    lexer.Yields (kinds ++ List.replicate indents.length .blockEnd ++ [.streamEnd]) := by
  obtain ⟨place, -, hmeets⟩ := h.meets hopen
  exact hmeets.yields

/-! ## Words -/

/-- A word that begins with `c` is one plain scalar wherever it stands among blocks. -/
structure BlockWord (c : Char) (word : List Char) : Prop where
  begins : BeginsToken c
  form : ∀ (lexer : Lexer) (rest : List Char), lexer.form? c (word ++ rest) = some .plain
  inner : ∀ d ∈ word, isBlank d = false ∧ isBreak d = false
  last : word.getLast? ≠ some ':'

variable {c : Char} {word : List Char}

theorem BlockWord.takes (h : BlockWord c word) (start : Mark) (margin : Nat) :
    (PlainScalar.Frame.mk start false margin).Takes word :=
  ⟨fun d hd => ⟨(h.inner d hd).1, (h.inner d hd).2, fun hflow => absurd hflow Bool.false_ne_true⟩,
    h.last⟩

/-- **A text that begins with `c` is one plain scalar wherever a line of a block ends with it.**
There may be blanks in it. -/
structure LineWord (c : Char) (word : List Char) : Prop where
  begins : BeginsToken c
  form : ∀ (lexer : Lexer) (rest : List Char), lexer.inFlow = false → lexer.mark.column ≠ 0 →
    lexer.form? c (word ++ '\n' :: rest) = some .plain
  inner : ∀ d ∈ word, isBreak d = false
  uncommented : hasComment false word = false
  uncut : hasColon word = false
  ends : ∀ d, word.getLast? = some d → isBlank d = false

/-- Without blanks there is neither a comment nor a colon that ends a word, but for one
at the end. -/
theorem not_hasComment_of_inner : ∀ word : List Char, (∀ d ∈ word, isBlank d = false) →
    hasComment false word = false
  | [], _ => rfl
  | d :: word, h => by
    obtain ⟨hd, hword⟩ := List.forall_mem_cons.mp h
    rw [hasComment, hd, not_hasComment_of_inner word hword]
    rfl

theorem not_hasColon_of_inner :
    ∀ word : List Char, (∀ d ∈ word, isBlank d = false ∧ isBreak d = false) →
    word.getLast? ≠ some ':' → hasColon word = false
  | [], _, _ => rfl
  | [d], _, hlast => by
    have hne : d ≠ ':' := fun h => hlast (by rw [h]; rfl)
    rw [hasColon, beq_eq_false_iff_ne.mpr hne]
    rfl
  | d :: e :: word, h, hlast => by
    obtain ⟨_, hword⟩ := List.forall_mem_cons.mp h
    obtain ⟨hblank, hbreak⟩ := hword e List.mem_cons_self
    rw [List.getLast?_cons_cons] at hlast
    have hends : endsWord (e :: word) = false := by
      show (isBlank e || isBreak e) = false
      rw [hblank, hbreak]
      rfl
    rw [hasColon, hends, not_hasColon_of_inner (e :: word) hword hlast, Bool.and_false]
    rfl

theorem BlockWord.lineWord (h : BlockWord c word) : LineWord c word where
  begins := h.begins
  form lexer _ _ _ := h.form lexer _
  inner d hd := (h.inner d hd).2
  uncommented := not_hasComment_of_inner word fun d hd => (h.inner d hd).1
  uncut := not_hasColon_of_inner word h.inner h.last
  ends d hd := (h.inner d (List.mem_of_getLast? hd)).1

/-- A colon in front of a blank ends a word. -/
theorem read_colon (start stop : Mark) (margin : Nat) (text : List Char)
    (hends : endsWord rest = true) :
    PlainScalar.read ⟨start, false, margin⟩ text .closed stop stop (':' :: rest)
      = .ok ⟨text.reverse, stop, false, ⟨':' :: rest, stop⟩⟩ := by
  have hend : (PlainScalar.Frame.mk start false margin).endsAt ':' rest = true := by
    unfold PlainScalar.Frame.endsAt
    rw [hends]
    rfl
  rw [PlainScalar.read, if_neg (by decide), if_neg (by decide), if_neg (by simp [Gap.isOpen]),
    if_neg (by simp), if_pos hend]
  rfl

/-- The indentation of a line that does not belong to a plain scalar ends it. -/
theorem read_spaces (hnext : StartsLine next) (start stop : Mark) (margin : Nat)
    (text further : List Char) : ∀ (n : Nat) (mark : Mark), mark.column + n < margin →
    PlainScalar.read ⟨start, false, margin⟩ text (.breaks (some '\n') further) stop mark
      (spaces n ++ next)
      = .ok ⟨text.reverse, stop, true, ⟨next, mark.right n⟩⟩ := by
  intro n
  induction n with
  | zero =>
    intro mark hmargin
    rcases hnext with rfl | ⟨c, rest, rfl, hbreak, hblank, _⟩
    · rfl
    · have hout : (PlainScalar.Frame.mk start false margin).excludes mark (c :: rest) = true := by
        have hless : mark.column < margin := by omega
        unfold PlainScalar.Frame.excludes
        simp [hless]
      show PlainScalar.read _ _ _ _ _ (c :: rest) = _
      rw [PlainScalar.read, if_neg (by simp [hblank]), if_neg (by simp [hbreak]),
        if_pos (by rw [hout]; rfl)]
      rfl
  | succ n ih =>
    intro mark hmargin
    have hnextMark := Mark.next_right mark n
    have hless : mark.next.column + n < margin := by
      show mark.column + 1 + n < margin
      omega
    rw [spaces_succ, List.cons_append, PlainScalar.read, if_pos (by decide), if_neg (by simp)]
    show PlainScalar.read _ _ (.breaks (some '\n') further) _ _ _ = _
    rw [Mark.past_space, ih mark.next hless, hnextMark]

/-- Empty lines do not end a plain scalar, but the line below them does. -/
theorem read_lead (hnext : StartsLine next) (start stop : Mark) {margin : Nat} (text : List Char)
    (hcolumn : column < margin) : ∀ (blank line : Nat) (further : List Char),
    PlainScalar.read ⟨start, false, margin⟩ text (.breaks (some '\n') further) stop ⟨line, 0, 0⟩
        (lead blank column ++ next)
      = .ok ⟨text.reverse, stop, true, ⟨next, ⟨line + blank, column, column⟩⟩⟩ := by
  intro blank
  induction blank with
  | zero =>
    intro line further
    have hless : (Mark.mk line 0 0).column + column < margin := by
      show 0 + column < margin
      omega
    have hmark : (Mark.mk line 0 0).right column = ⟨line + 0, column, column⟩ := by
      unfold Mark.right
      rw [Nat.zero_add]
      rfl
    rw [lead_zero, read_spaces hnext start stop margin text further column ⟨line, 0, 0⟩ hless,
      hmark]
  | succ blank ih =>
    intro line further
    have hmark : (Mark.mk line 0 0).newline = ⟨line + 1, 0, 0⟩ := rfl
    have hline : line + 1 + blank = line + (blank + 1) := by omega
    rw [lead_succ, List.cons_append, PlainScalar.read, if_neg (by decide),
      if_pos (by decide), hmark]
    exact hline ▸ ih (line + 1) ('\n' :: further)

/-- A word with a colon behind it. -/
theorem readsScalar_keyWord (h : BlockWord c word) (hends : endsWord rest = true) (mark : Mark) :
    ReadsScalar c (word ++ ':' :: rest) mark indents [] (.scalar (c :: word) .plain) (':' :: rest)
      (mark.past (c :: word)) false := by
  have hform : ∀ lexer : Lexer, lexer.form? c (word ++ ':' :: rest) = some .plain :=
    fun lexer => h.form lexer _
  refine @readsScalar_plain _ _ _ _ _ _ _ _ (mark.past (c :: word)) _ (fun lexer _ _ => hform lexer)
    fun start => ?_
  have hread := PlainScalar.read_word word [c] (mark.past [c]) (':' :: rest)
    (h.takes start (marginOf indents))
  have hstop := read_colon start (mark.past (c :: word)) (marginOf indents)
    (word.reverse ++ [c]) hends
  rw [Mark.past_cons, hstop, List.reverse_append, List.reverse_reverse] at hread
  exact hread

/-- A word at the end of its line. -/
theorem readsScalar_lastWord (h : LineWord c word) (hnext : StartsLine next)
    (hcolumn : column < marginOf indents) {mark : Mark} (hmargin : marginOf indents ≤ mark.column) :
    ReadsScalar c (word ++ '\n' :: (lead blank column ++ next)) mark indents []
      (.scalar (c :: word) .plain) next ⟨mark.line + 1 + blank, column, column⟩ true := by
  have hform : ∀ lexer : Lexer, lexer.inFlow = false → lexer.mark = mark →
      lexer.form? c (word ++ '\n' :: (lead blank column ++ next)) = some .plain := by
    intro lexer hflow hmark
    refine h.form lexer _ hflow ?_
    rw [hmark]
    omega
  refine @readsScalar_plain _ _ _ _ _ _ _ _ (mark.past (c :: word)) _ hform fun start => ?_
  have hbehind : marginOf indents ≤ (mark.past [c]).column := Nat.le_succ_of_le hmargin
  have hread := @PlainScalar.read_inline ⟨start, false, marginOf indents⟩ rfl word [c] .closed
    (mark.past [c]) (mark.past [c])
      ('\n' :: (lead blank column ++ next)) h.inner h.uncommented h.uncut
    h.ends (fun _ => ⟨rfl, rfl⟩) rfl hbehind (Nat.succ_ne_zero _)
  -- The line below is not indented enough to go on with the word.
  have hstop := read_lead hnext start (mark.past (c :: word)) (word.reverse ++ [c]) hcolumn blank
    (mark.line + 1) []
  rw [Mark.past_cons] at hread
  refine hread.trans ?_
  rw [PlainScalar.read, if_neg (by decide), if_pos (by decide)]
  refine hstop.trans ?_
  rw [List.reverse_append, List.reverse_reverse]
  rfl

/-- A word in front of a comment. -/
theorem readsScalar_commentedWord (h : BlockWord c word) (mark : Mark) :
    ReadsScalar c (word ++ ' ' :: '#' :: rest) mark indents [] (.scalar (c :: word) .plain)
      ('#' :: rest) (mark.past (c :: word)).next false := by
  have hform : ∀ lexer : Lexer, lexer.form? c (word ++ ' ' :: '#' :: rest) = some .plain :=
    fun lexer => h.form lexer _
  refine @readsScalar_plain _ _ _ _ _ _ _ _ (mark.past (c :: word)) _ (fun lexer _ _ => hform lexer)
    fun start => ?_
  have hread := PlainScalar.read_word word [c] (mark.past [c]) (' ' :: '#' :: rest)
    (h.takes start (marginOf indents))
  rw [Mark.past_cons] at hread
  have hout : (PlainScalar.Frame.mk start false (marginOf indents)).excludes
      (mark.past (c :: word)).next ('#' :: rest) = true := by
    unfold PlainScalar.Frame.excludes
    simp
  refine hread.trans ?_
  rw [PlainScalar.read, if_pos (by decide), if_neg (by simp), Mark.past_space, PlainScalar.read,
    if_neg (by decide), if_neg (by decide), if_pos (by rw [hout]; rfl), List.reverse_append,
      List.reverse_reverse]
  rfl

/-! ## What a line begins with -/

/-- **A key at the beginning of a line**, which may open its mapping. -/
theorem Faces.key (h : lexer.Faces (c :: word ++ ':' :: rest) column indents kinds)
    (hword : BlockWord c word) (hshort : byteLength (c :: word) ≤ 1024)
    (hends : endsWord rest = true)
    (hopen : ∀ indent, indents.head? = some indent → indent ≤ column) :
    lexer.Reaches fun next => ∃ mark : Mark, column < mark.column ∧
      next.At rest mark (opened .blockMappingStart indents [] column).2 false
        (Settled (kinds ++ (opened .blockMappingStart indents [] column).1
          ++ [.key] ++ [.scalar (c :: word) .plain] ++ [.value])) [] := by
  obtain ⟨place, rfl, hmeets⟩ := h.meets hopen
  -- The colon is on the line of the word and near enough for the word to be a key.
  have hfresh := isStale_past (keyRequired indents [] place) place hshort
  refine (hmeets.keyed (readsScalar_keyWord hword hends _) hfresh ?_ fun _ => hends).trans
    fun next hnext => Reaches.refl ⟨_, ?_, hnext⟩
  · intro _ indent hindent
    have hle := hopen indent hindent
    show indent ≤ place.column + (word.length + 1)
    omega
  · show place.column < place.column + (word.length + 1) + 1
    omega

/-- **A dash at the beginning of a line**, which may open its sequence. -/
theorem Faces.dash (h : lexer.Faces ('-' :: rest) column indents kinds)
    (hends : endsWord rest = true)
    (hopen : ∀ indent, indents.head? = some indent → indent ≤ column) :
    lexer.Reaches fun next => ∃ mark : Mark, mark.column = column + 1 ∧
      next.At rest mark (opened .blockSequenceStart indents [] column).2 true
        (Loose (kinds ++ (opened .blockSequenceStart indents [] column).1 ++ [.blockEntry]))
        [] := by
  obtain ⟨place, rfl, hmeets⟩ := h.meets hopen
  exact (hmeets.blockEntry hends).trans fun next hnext => Reaches.refl ⟨_, rfl, hnext⟩

/-! ## What a line ends with -/

/-- A blank in front of a token that is indented behind its block. -/
theorem At.meets_blank (h : lexer.At (' ' :: c :: rest) mark (indent :: indents) allowed
    (Loose kinds) []) (hc : BeginsToken c) (hindent : indent < mark.column) :
    lexer.Meets (c :: rest) mark.next (indent :: indents) allowed (Loose kinds) [] := by
  refine h.meets ?_ (steady_loose kinds _) fun _ other hother => ?_
  · rw [Cursor.toToken, if_neg (by decide), if_neg (by decide), if_pos (by simp)]
    exact toToken_begins hc _ _ _ _
  · cases hother
    show indent ≤ mark.column + 1
    omega

theorem keyRequired_right (hindent : indent < mark.column) :
    keyRequired (indent :: indents) [] mark.next = false := by
  have hne : indent ≠ mark.column + 1 := by omega
  unfold keyRequired Mark.next
  simp [hne]

/-- **A word at the end of a line.** -/
theorem At.lastWord
    (h : lexer.At (' ' :: (c :: word ++ '\n' :: (lead blank column ++ next))) mark
      (indent :: indents) allowed (Loose kinds) [])
    (hword : LineWord c word) (hnext : StartsLine next) (hcolumn : column ≤ indent)
    (hindent : indent < mark.column) :
    lexer.Reaches (Faces next column (indent :: indents)
      (kinds ++ [.scalar (c :: word) .plain])) := by
  have hmeets := h.meets_blank hword.begins hindent
  have hless : column < marginOf (indent :: indents) := Nat.lt_succ_of_le hcolumn
  have hmargin : marginOf (indent :: indents) ≤ mark.next.column := Nat.le_succ_of_le hindent
  refine (hmeets.scalar (readsScalar_lastWord hword hnext hless hmargin)
    fun _ => keyRequired_right hindent).trans fun last hlast => Reaches.refl ?_
  exact hlast.faces (toToken_startsLine hnext false true _) rfl

/-- **A word and a comment at the end of a line.** -/
theorem At.lastCommented {comment : List Char}
    (h : lexer.At
      (' ' :: (c :: word ++ ' ' :: '#' :: (comment ++ '\n' :: (lead blank column ++ next))))
      mark (indent :: indents) allowed (Loose kinds) [])
    (hword : BlockWord c word) (hcomment : ∀ d ∈ comment, isBreak d = false)
    (hnext : StartsLine next) (hindent : indent < mark.column) :
    lexer.Reaches (Faces next column (indent :: indents)
      (kinds ++ [.scalar (c :: word) .plain])) := by
  have hmeets := h.meets_blank hword.begins hindent
  refine (hmeets.scalar (readsScalar_commentedWord hword mark.next)
    fun _ => keyRequired_right hindent).trans fun last hlast => Reaches.refl ?_
  obtain ⟨line, hcrossed⟩ := toToken_comment hnext false comment _ hcomment
  have hgap : Cursor.toToken false false false (mark.next.past (c :: word)).next
      ('#' :: (comment ++ '\n' :: (lead blank column ++ next)))
        = (⟨next, ⟨line, column, column⟩⟩, true) := by
    rw [Cursor.toToken, if_neg (by decide), if_pos (by decide)]
    exact hcrossed
  exact hlast.faces hgap rfl

/-- **A text in quotes at the end of a line.** -/
theorem At.lastQuoted {spelled text : List Char}
    (h : lexer.At (' ' :: '"' :: (spelled ++ '"' :: '\n' :: (lead blank column ++ next))) mark
      (indent :: indents) allowed (Loose kinds) [])
    (hspells : QuotedScalar.Spells spelled text) (hnext : StartsLine next)
    (hindent : indent < mark.column) :
    lexer.Reaches (Faces next column (indent :: indents)
      (kinds ++ [.scalar text .doubleQuoted])) := by
  have hmeets := h.meets_blank ⟨rfl, rfl, by decide, by decide⟩ hindent
  refine (hmeets.scalar (readsScalar_quoted hspells mark.next _) fun _ =>
    keyRequired_right hindent).trans fun last hlast => Reaches.refl ?_
  exact hlast.faces_line hnext

/-- **Nothing but a blank at the end of a line.** -/
theorem At.lastBlank (h : lexer.At (' ' :: '\n' :: (lead blank column ++ next)) mark indents allowed
    (Loose kinds) []) (hnext : StartsLine next) : lexer.Faces next column indents kinds := by
  have hgap : Cursor.toToken false false allowed mark (' ' :: '\n' :: (lead blank column ++ next))
      = (⟨next, ⟨mark.line + 1 + blank, column, column⟩⟩, true) := by
    rw [Cursor.toToken, if_neg (by decide), if_neg (by decide), if_pos (by simp)]
    exact toToken_line hnext blank allowed mark.next
  exact h.faces hgap rfl

end Lexer

end Provisioning.Yaml
