import Provisioning.Proofs.Yaml.Token.Lines

/-!
# Literal block scalars

A literal block scalar whose lines all have the same indentation is read as these lines, each
with its line end. The first line sets the indentation, so it must not begin with a blank; a
line that is less indented ends the scalar and is left to be read.
-/

namespace Provisioning.Yaml

/-- Lines, each with its line end. -/
def unlines : List (List Char) → List Char
  | [] => []
  | line :: lines => line ++ '\n' :: unlines lines

/-- Lines at a column, each with its line end. -/
def indented (column : Nat) : List (List Char) → List Char
  | [] => []
  | line :: lines => spaces column ++ (line ++ '\n' :: indented column lines)

/-- A line of a literal block scalar: it is not empty, and its end is not within it. -/
def IsLine (line : List Char) : Prop := line ≠ [] ∧ ∀ c ∈ line, isBreak c = false

namespace BlockText

variable {column indent : Nat} {next rest : List Char} {c : Char}

theorem findIndentation_spaces (start : Mark) (hbreak : isBreak c = false)
    (hblank : isBlank c = false) (widest : Nat) : ∀ (n : Nat) (mark : Mark),
    findIndentation start widest [] mark (spaces n ++ c :: rest)
      = .ok (max widest (mark.right n).column, [], ⟨c :: rest, mark.right n⟩) := by
  unfold isBlank at hblank
  rw [Bool.or_eq_false_iff] at hblank
  intro n
  induction n with
  | zero =>
    intro mark
    show findIndentation start widest [] mark (c :: rest) = _
    rw [findIndentation, if_neg (by simp [hblank.1]), if_neg (by simp [hblank.2]),
      if_neg (by simp [hbreak])]
    rfl
  | succ n ih =>
    intro mark
    have hmark := Mark.next_right mark n
    rw [spaces_succ, List.cons_append, findIndentation, if_pos (by decide), ih, hmark]

theorem readLines_spaces (start : Mark) (block : BlockText) :
    ∀ (n : Nat) (mark : Mark), mark.column + n ≤ column →
    readLines start true column block false mark (spaces n ++ rest)
      = readLines start true column block false (mark.right n) rest := by
  intro n
  induction n with
  | zero => intro mark _; rfl
  | succ n ih =>
    intro mark hcolumn
    have hmark := Mark.next_right mark n
    have hbefore : mark.column ≠ column := by omega
    have hle : mark.next.column + n ≤ column := by
      show mark.column + 1 + n ≤ column
      omega
    rw [spaces_succ, List.cons_append, readLines, if_neg (by decide), if_neg (by simp),
      if_neg (by simp [hbefore]), if_pos (by decide), ih mark.next hle, hmark]

theorem readLines_within (start : Mark) (lineEnd : Option Char) (emptyLines : List Char)
    (afterBlank : Bool) : ∀ (line text : List Char) (mark : Mark), (∀ c ∈ line, isBreak c = false) →
    readLines start true column ⟨text, lineEnd, emptyLines, afterBlank⟩ true mark (line ++ rest)
      = readLines start true column ⟨line.reverse ++ text, lineEnd, emptyLines, afterBlank⟩ true
          (mark.past line) rest := by
  intro line
  induction line with
  | nil => intro text mark _; rfl
  | cons c line ih =>
    intro text mark hline
    obtain ⟨hc, hline⟩ := List.forall_mem_cons.mp hline
    rw [List.cons_append, readLines, if_neg (by simp [hc]), if_pos (by simp)]
    dsimp only
    rw [ih _ _ hline, Mark.past_cons, List.reverse_cons, List.append_assoc]
    rfl

/-- A line that does not belong to the scalar. -/
theorem readLines_outside (start : Mark) (hnext : StartsLine next) (block : BlockText)
    {mark : Mark} {n : Nat} (hcolumn : mark.column + n < column) :
    readLines start true column block false mark (spaces n ++ next)
      = .ok (block, ⟨next, mark.right n⟩) := by
  have hle : mark.column + n ≤ column := by omega
  rw [readLines_spaces start block n mark hle]
  rcases hnext with rfl | ⟨c, rest, rfl, hbreak, hblank, _⟩
  · rfl
  · have hbefore : (mark.right n).column ≠ column := by
      show mark.column + n ≠ column
      omega
    unfold isBlank at hblank
    rw [Bool.or_eq_false_iff] at hblank
    rw [readLines, if_neg (by simp [hbreak]), if_neg (by simp), if_neg (by simp [hbefore]),
      if_neg (by simp [hblank.1]), if_neg (by simp [hblank.2])]

/-- Empty lines in front of such a line are passed over. -/
theorem readLines_lead (start : Mark) (hnext : StartsLine next) {outside : Nat}
    (hout : outside < column) : ∀ (blank : Nat) (block : BlockText) (line : Nat),
    ∃ last : BlockText, readLines start true column block false ⟨line, 0, 0⟩
        (lead blank outside ++ next)
        = .ok (last, ⟨next, ⟨line + blank, outside, outside⟩⟩) ∧
      last.lineEnd = block.lineEnd ∧ last.text = block.text := by
  intro blank
  induction blank with
  | zero =>
    intro block line
    have hless : (Mark.mk line 0 0).column + outside < column := by
      show 0 + outside < column
      omega
    have hread := readLines_outside start hnext block hless
    have hmark : (Mark.mk line 0 0).right outside = ⟨line, outside, outside⟩ := by
      unfold Mark.right
      rw [Nat.zero_add]
    rw [hmark] at hread
    exact ⟨block, hread, rfl, rfl⟩
  | succ blank ih =>
    intro block line
    have hline : line + 1 + blank = line + (blank + 1) := by omega
    obtain ⟨last, hread, hlast⟩ :=
      ih { block with emptyLines := '\n' :: block.emptyLines } (line + 1)
    refine ⟨last, ?_, hlast⟩
    rw [lead_succ, List.cons_append, readLines, if_pos (by decide), ← hline]
    exact hread

/-- **The lines of a literal block scalar are read as they stand.** -/
theorem readLines_indented (start : Mark) (hnext : StartsLine next) {outside : Nat} (blank : Nat)
    (hout : outside < column) :
    ∀ (lines : List (List Char)) (block : BlockText) (line : Nat), (∀ line ∈ lines, IsLine line) →
    block.emptyLines = [] →
    ∃ last : BlockText, readLines start true column block false ⟨line, 0, 0⟩
        (indented column lines ++ (lead blank outside ++ next))
          = .ok (last, ⟨next, ⟨line + lines.length + blank, outside, outside⟩⟩) ∧
      last.lineEnd.toList ++ last.text
        = (unlines lines).reverse ++ (block.lineEnd.toList ++ block.text) := by
  -- The end of a line is kept apart from the text until the next line is met, so the two are put
  -- together in what is said of the last state.
  intro lines
  induction lines with
  | nil =>
    intro block line _ _
    obtain ⟨last, hread, hend, htext⟩ := readLines_lead start hnext hout blank block line
    refine ⟨last, hread, ?_⟩
    rw [hend, htext]
    rfl
  | cons text lines ih =>
    intro block line hlines hempty
    obtain ⟨⟨hne, hbreaks⟩, hothers⟩ := List.forall_mem_cons.mp hlines
    obtain ⟨c, word, rfl⟩ : ∃ c word, text = c :: word := List.exists_cons_of_ne_nil hne
    obtain ⟨hc, hword⟩ := List.forall_mem_cons.mp hbreaks
    have hle : (Mark.mk line 0 0).column + column ≤ column := by
      show 0 + column ≤ column
      omega
    have hat : ((Mark.mk line 0 0).right column).column = column := by
      show 0 + column = column
      omega
    have hbegin : block.beginLine true c
        = ⟨c :: (block.lineEnd.toList ++ block.text), none, [], isBlank c⟩ := by
      unfold beginLine
      rw [hempty]
      rfl
    obtain ⟨last, hread, htext⟩ :=
      ih ⟨word.reverse ++ c :: (block.lineEnd.toList ++ block.text), some '\n', [], isBlank c⟩
        (line + 1) hothers rfl
    refine ⟨last, ?_, ?_⟩
    · rw [indented, List.append_assoc, readLines_spaces start block column ⟨line, 0, 0⟩ hle,
        List.cons_append, List.cons_append, readLines, if_neg (by simp [hc]), if_neg (by simp),
          if_pos (by simp [hat]),
        hbegin, List.append_assoc, readLines_within start none [] (isBlank c) word _ _ hword,
        List.cons_append, readLines, if_pos (by decide)]
      rw [List.length_cons, ← Nat.add_assoc, Nat.add_right_comm line lines.length 1]
      exact hread
    · rw [htext, unlines]
      simp

/-- **A literal block scalar behind its indicator.** -/
theorem read_indented (start : Mark) {word : List Char} {lines : List (List Char)} {outside : Nat}
    (blank : Nat) (hlines : ∀ line ∈ (c :: word) :: lines, IsLine line) (hc : isBlank c = false)
    (hnext : StartsLine next) (hout : outside ≤ indent) (hcolumn : indent < column) (mark : Mark) :
    BlockText.read start true indent (indent + 1)
        ⟨'\n' :: (indented column ((c :: word) :: lines) ++ (lead blank outside ++ next)), mark⟩
      = .ok (unlines ((c :: word) :: lines),
          ⟨next, ⟨mark.line + 1 + ((c :: word) :: lines).length + blank, outside, outside⟩⟩) := by
  have hbreak : isBreak c = false := (hlines _ List.mem_cons_self).2 c List.mem_cons_self
  have hless : outside < column := by omega
  -- No empty lines are in front of the first line, so its column is the indentation.
  have hwidest : max (max (max 0 column) (indent + 1)) 1 = column := by omega
  have htext : indented column ((c :: word) :: lines) ++ (lead blank outside ++ next)
      = spaces column
        ++ c :: (word ++ '\n' :: (indented column lines ++ (lead blank outside ++ next))) := by
    rw [indented, List.append_assoc, List.cons_append, List.cons_append, List.append_assoc,
      List.cons_append]
  have hfind :=
    @findIndentation_spaces
      (word ++ '\n' :: (indented column lines ++ (lead blank outside ++ next)))
    c start hbreak hc 0 column mark.newline
  rw [Mark.newline_right, ← htext] at hfind
  obtain ⟨last, hread, hlast⟩ := readLines_indented start hnext blank hless ((c :: word) :: lines)
    (.ofEmptyLines []) (mark.line + 1) hlines rfl
  have hle : (Mark.mk (mark.line + 1) 0 0).column + column ≤ column := by
    show 0 + column ≤ column
    omega
  have hplace : (Mark.mk (mark.line + 1) 0 0).right column = ⟨mark.line + 1, column, column⟩ :=
    Mark.newline_right mark column
  rw [htext, readLines_spaces start _ column ⟨mark.line + 1, 0, 0⟩ hle, hplace] at hread
  have hheader : BlockHeader.read start
      ⟨'\n' :: (indented column ((c :: word) :: lines) ++ (lead blank outside ++ next)), mark⟩
      = .ok (⟨.clip, none⟩, ⟨indented column ((c :: word) :: lines) ++ (lead blank outside ++ next),
          mark.newline⟩) := rfl
  unfold BlockText.read
  rw [hheader, Outcome.ok_bind]
  dsimp only
  rw [hfind, Outcome.ok_bind, pure_bind]
  dsimp only
  rw [hwidest, hread, Outcome.ok_bind]
  show Except.ok (List.reverse (last.lineEnd.toList ++ last.text), _) = _
  rw [hlast]
  simp [ofEmptyLines]

end BlockText

namespace Lexer

open Pending

variable {lexer : Lexer} {text next rest : List Char} {mark mark' : Mark} {column indent : Nat}
  {indents : List Nat} {allowed : Bool} {kinds : List Token.Kind} {c : Char}

theorem token_bar (h : lexer.inFlow = false) :
    lexer.token '|' rest = lexer.block .literal rest := by
  have hform : lexer.form? '|' rest = some (.block .literal) := by
    unfold form?
    simp [isBoundary, h]
  unfold token
  rw [hform]

/-- A literal block scalar, of which is known what is read of it. -/
theorem Meets.literal
    (h : lexer.Meets ('|' :: rest) mark (indent :: indents) allowed (Loose kinds) [])
    (hread : BlockText.read mark true indent (indent + 1) ⟨rest, mark.next⟩
      = .ok (text, ⟨next, mark'⟩)) :
    lexer.Reaches
      (At next mark' (indent :: indents) true (Loose (kinds ++ [.scalar text .literal])) []) := by
  refine h.advance (steady_loose _ _) fun ready hat => ?_
  obtain ⟨given, hgiven, hstands⟩ := hat.abandonKey
  refine ⟨{ given.push (.scalar text .literal) mark mark' with
    cursor := ⟨next, mark'⟩, keyAllowed := true }, ?_, rfl, hstands.indents, rfl,
    (hstands.here.push ⟨.scalar text .literal, mark, mark'⟩).loose, hstands.around⟩
  rw [token_bar hat.inFlow_eq]
  unfold Lexer.block
  rw [hgiven, Outcome.ok_bind]
  dsimp only
  have hread' : BlockText.read given.mark (ScalarStyle.literal == .literal) (given.indents.headD 0)
      given.margin ⟨rest, given.mark.next⟩ = .ok (text, ⟨next, mark'⟩) := by
    rw [hstands.mark_eq, hstands.margin_eq, hstands.indents]
    exact hread
  rw [hread', hstands.mark_eq]
  rfl

/-- **A literal block scalar at the end of a line, and the lines below.** -/
theorem At.lastLiteral {word : List Char} {lines : List (List Char)} {outside blank : Nat}
    (h : lexer.At
      (' ' :: '|' :: '\n' ::
        (indented column ((c :: word) :: lines) ++ (lead blank outside ++ next)))
      mark (indent :: indents) allowed (Loose kinds) [])
    (hlines : ∀ line ∈ (c :: word) :: lines, IsLine line) (hc : isBlank c = false)
    (hnext : StartsLine next) (hout : outside ≤ indent) (hcolumn : indent < column)
    (hindent : indent < mark.column) :
    lexer.Reaches (Faces next outside (indent :: indents)
      (kinds ++ [.scalar (unlines ((c :: word) :: lines)) .literal])) := by
  have hmeets := h.meets_blank ⟨rfl, rfl, by decide, by decide⟩ hindent
  have hread := BlockText.read_indented mark.next blank hlines hc hnext hout hcolumn mark.next.next
  exact (hmeets.literal hread).trans fun last hlast =>
    Reaches.refl (hlast.faces (toToken_startsLine hnext false true _) rfl)

end Lexer

end Provisioning.Yaml
