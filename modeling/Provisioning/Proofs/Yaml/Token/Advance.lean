import Provisioning.Proofs.Yaml.Token.Standing

/-!
# Tokens one by one

How each kind of token leads a lexer on: the text behind it, the kinds it adds, and whether a
key may begin behind it. A scalar is read the same way wherever it stands, and comes in two
roles: as a node, where the key that may begin with it binds nothing, and as a key, which the
colon right behind it confirms.
-/

namespace Provisioning.Yaml

namespace Lexer

open Pending

variable {lexer : Lexer} {text text' rest : List Char} {mark mark' : Mark} {indents : List Nat}
  {allowed crossed : Bool} {here here' : Pending → Prop} {around : List (List Token.Kind)}
  {kinds front back : List Token.Kind} {kind : Token.Kind} {key : PossibleKey} {c : Char}

theorem isBoundary_cons {c : Char} (hdash : c ≠ '-') (hdot : c ≠ '.') (rest : List Char) :
    isBoundary (c :: rest) = false := by
  unfold isBoundary
  split
  · rename_i h
    exact absurd (List.cons.inj h).1 hdash
  · rename_i h
    exact absurd (List.cons.inj h).1 hdot
  · rfl

/-- A token may begin with this character wherever it stands. -/
def BeginsToken (c : Char) : Prop :=
  isBreak c = false ∧ isBlank c = false ∧ c ≠ '#' ∧ c ≠ '\uFEFF'

theorem toToken_begins (h : BeginsToken c) (inFlow allowed : Bool) (mark : Mark)
    (rest : List Char) :
    Cursor.toToken inFlow false allowed mark (c :: rest) = (⟨c :: rest, mark⟩, allowed) := by
  obtain ⟨hbreak, hblank, hhash, hbom⟩ := h
  unfold isBlank at hblank
  rw [Bool.or_eq_false_iff] at hblank
  rw [Cursor.toToken, hbreak]
  simp [hblank.1, hblank.2, hhash, hbom]

/-- A token without a gap in front of it. -/
theorem At.meets_here (h : lexer.At (c :: rest) mark indents allowed here around)
    (hc : BeginsToken c) (hsteady : Steady here mark)
    (hopen : around.isEmpty = true → ∀ indent, indents.head? = some indent → indent ≤ mark.column) :
    lexer.Meets (c :: rest) mark indents allowed here around :=
  h.meets (toToken_begins hc _ _ _ _) hsteady hopen

theorem At.indicator_cursor (h : lexer.At (c :: rest) mark indents allowed here around)
    (kind : Token.Kind) : (lexer.indicator kind 1).cursor = ⟨rest, mark.right 1⟩ := by
  unfold Lexer.indicator
  rw [h.mark_eq, h.cursor]
  rfl

/-- A token of one character. What is said of the level is said of it with this token behind it. -/
theorem At.indicator (h : lexer.At (c :: rest) mark indents allowed here around) (kind : Token.Kind)
    (hpush : ∀ level start stop, here level → here' (level.push ⟨kind, start, stop⟩))
    (allowed' : Bool) : At rest (mark.right 1) indents allowed' here' around
      { lexer.indicator kind 1 with keyAllowed := allowed' } :=
  ⟨h.indicator_cursor kind, h.indents, rfl, hpush lexer.level _ _ h.here, h.around⟩

/-! ## Keys -/

/-- Is what begins here a key in any case: in block context, at the column of the block? -/
def keyRequired (indents : List Nat) (around : List (List Token.Kind)) (mark : Mark) : Bool :=
  around.isEmpty && indents.head? == some mark.column

theorem At.expectKey (h : lexer.At text mark indents true (Loose kinds) around) :
    ∃ next, lexer.expectKey = .ok next ∧ next.At text mark indents true
      (Keyed ⟨mark, keyRequired indents around mark⟩ kinds []) around := by
  obtain ⟨given, hgiven, hat⟩ := h.abandonKey
  refine ⟨{ given with level := given.level.expectKey ⟨mark, keyRequired indents around mark⟩ }, ?_,
    hat.cursor, hat.indents, hat.allowed, hat.here.expectKey _, hat.around⟩
  unfold Lexer.expectKey
  rw [if_pos h.allowed, hgiven, Outcome.ok_bind]
  dsimp only
  rw [hat.mark_eq, hat.inFlow_eq, hat.indents, Bool.not_not]
  rfl

theorem At.expectNoKey (h : lexer.At text mark indents false here around) :
    lexer.expectKey = .ok lexer := by
  unfold Lexer.expectKey
  rw [h.allowed]
  rfl

/-- In front of a node it does not matter whether a key may begin. -/
theorem At.expectNode (h : lexer.At text mark indents allowed (Loose kinds) around)
    (hfree : allowed = true → keyRequired indents around mark = false) :
    ∃ next, lexer.expectKey = .ok next ∧
      next.At text mark indents allowed (Loose kinds) around := by
  cases allowed with
  | false => exact ⟨lexer, h.expectNoKey, h⟩
  | true =>
    obtain ⟨next, hnext, hat⟩ := h.expectKey
    refine ⟨next, hnext, hat.imp fun level hlevel => ?_⟩
    -- A key that may begin here binds nothing, and what follows need not know of it.
    have hloose := hlevel.loose (hfree rfl)
    rw [List.append_nil] at hloose
    exact hloose

/-! ## Flow collections -/

/-- The kind of token that opens a flow collection, and the character. -/
inductive Opens : Char → Token.Kind → Prop where
  | sequence : Opens '[' .flowSequenceStart
  | mapping : Opens '\x7b' .flowMappingStart

/-- The kind of token that closes a flow collection, and the character. -/
inductive Closes : Char → Token.Kind → Prop where
  | sequence : Closes ']' .flowSequenceEnd
  | mapping : Closes '\x7d' .flowMappingEnd

theorem token_opens (h : Opens c kind) : lexer.token c rest = lexer.flowStart kind := by
  have hform : lexer.form? c rest = some (.flowStart kind) := by
    unfold form?
    cases h <;> simp [isBoundary]
  unfold token
  rw [hform]

theorem token_closes (h : Closes c kind) : lexer.token c rest = lexer.flowEnd kind := by
  have hform : lexer.form? c rest = some (.flowEnd kind) := by
    unfold form?
    cases h <;> simp [isBoundary]
  unfold token
  rw [hform]

theorem token_comma : lexer.token ',' rest = lexer.flowEntry := by
  have hform : lexer.form? ',' rest = some .flowEntry := by
    unfold form?
    simp [isBoundary]
  unfold token
  rw [hform]

theorem Opens.begins (h : Opens c kind) : BeginsToken c := by
  cases h <;> exact ⟨rfl, rfl, by decide, by decide⟩

theorem Closes.begins (h : Closes c kind) : BeginsToken c := by
  cases h <;> exact ⟨rfl, rfl, by decide, by decide⟩

theorem begins_comma : BeginsToken ',' := ⟨rfl, rfl, by decide, by decide⟩

/-- A flow collection opens: a level of its own begins. -/
theorem Meets.flowStart (h : lexer.Meets (c :: rest) mark indents allowed (Loose kinds) around)
    (hopens : Opens c kind) (hfree : allowed = true → keyRequired indents around mark = false) :
    lexer.Reaches (At rest (mark.right 1) indents true (Loose [])
      ((kinds ++ [kind]) :: around)) := by
  refine h.advance (steady_loose [] _) fun ready hat => ?_
  obtain ⟨next, hnext, hstands⟩ := hat.expectNode hfree
  have hpushed := hstands.here.push ⟨kind, mark, mark.right 1⟩
  refine ⟨{ next.indicator kind 1 with
    level := .empty, outer := (next.indicator kind 1).level :: next.outer, keyAllowed := true },
    ?_, ?_, hstands.indents, rfl, settled_empty.loose, .cons ?_ hstands.around⟩
  · rw [token_opens hopens]
    unfold Lexer.flowStart
    rw [hnext]
    rfl
  · exact hstands.indicator_cursor kind
  · show Loose _ (next.level.push ⟨kind, next.mark, next.mark.right 1⟩)
    rw [hstands.mark_eq]
    exact hpushed

/-- A flow collection closes: its tokens join those around it. -/
theorem Meets.flowEnd {outside : List Token.Kind}
    (h : lexer.Meets (c :: rest) mark indents allowed (Loose kinds) (outside :: around))
    (hcloses : Closes c kind) :
    lexer.Reaches
      (At rest (mark.right 1) indents false (Loose (outside ++ kinds ++ [kind])) around) := by
  refine h.advance (steady_loose _ _) fun ready hat => ?_
  obtain ⟨next, hnext, hstands⟩ := hat.abandonKey
  obtain ⟨level, outer, hlevel, houter, hsplit⟩ := List.forall₂_cons_left_iff.mp hstands.around
  have hjoined := hlevel.append next.level.before
  rw [hstands.here.before] at hjoined
  let closed : Lexer := { next with level := level.append next.level.before, outer }
  -- The level around has taken up the tokens of the collection, but not yet its end.
  have hclosed : closed.At (c :: rest) mark indents allowed (Loose (outside ++ kinds)) around :=
    ⟨hstands.cursor, hstands.indents, hstands.allowed, hjoined, houter⟩
  refine ⟨{ closed.indicator kind 1 with keyAllowed := false }, ?_,
    hclosed.indicator kind (fun _ start stop hlevel => hlevel.push ⟨kind, start, stop⟩) false⟩
  rw [token_closes hcloses]
  unfold Lexer.flowEnd
  rw [hnext, Outcome.ok_bind]
  dsimp only
  rw [hsplit]
  rfl

/-- A comma behind an entry. -/
theorem Meets.flowEntry (h : lexer.Meets (',' :: rest) mark indents allowed (Loose kinds) around) :
    lexer.Reaches (At rest (mark.right 1) indents true (Loose (kinds ++ [.flowEntry])) around) := by
  refine h.advance (steady_loose _ _) fun ready hat => ?_
  obtain ⟨next, hnext, hstands⟩ := hat.abandonKey
  refine ⟨{ next.indicator .flowEntry 1 with keyAllowed := true }, ?_,
    hstands.indicator .flowEntry (fun _ start stop hlevel =>
      (hlevel.push ⟨.flowEntry, start, stop⟩).loose) true⟩
  rw [token_comma]
  unfold Lexer.flowEntry
  rw [hnext]
  rfl

/-! ## Block collections -/

/-- The least column for what belongs to the innermost of these blocks. -/
def marginOf : List Nat → Nat
  | [] => 0
  | indent :: _ => indent + 1

/-- The kinds of the tokens that open a block here, and the columns of the blocks with it. -/
def opened (kind : Token.Kind) (indents : List Nat) (around : List (List Token.Kind))
    (column : Nat) : List Token.Kind × List Nat :=
  if around.isEmpty && decide (marginOf indents ≤ column) then ([kind], column :: indents)
  else ([], indents)

theorem At.margin_eq (h : lexer.At text mark indents allowed here around) :
    lexer.margin = marginOf indents := by
  unfold margin
  rw [h.indents]
  cases indents <;> rfl

theorem At.opening_eq (h : lexer.At text mark indents allowed here around) (kind : Token.Kind)
    (place : Mark) :
    ∃ tokens, lexer.opening kind place = (tokens, (opened kind indents around place.column).2) ∧
      tokens.reverse.map Token.kind = (opened kind indents around place.column).1 := by
  unfold opening opened
  rw [h.inFlow_eq, h.margin_eq, h.indents, Bool.not_not]
  by_cases hdeep : (around.isEmpty && decide (marginOf indents ≤ place.column)) = true
  · rw [if_pos hdeep, if_pos hdeep]
    exact ⟨_, rfl, rfl⟩
  · rw [if_neg hdeep, if_neg hdeep]
    exact ⟨_, rfl, rfl⟩

theorem token_dash (h : endsWord rest = true) : lexer.token '-' rest = lexer.blockEntry := by
  have hboundary : isBoundary ('-' :: rest) = false := by
    unfold isBoundary
    split
    · rename_i hrest
      rw [(List.cons.inj hrest).2] at h
      exact absurd h (by simp [endsWord, isBlank, isBreak])
    · rename_i hrest
      exact absurd (List.cons.inj hrest).1 (by decide)
    · rfl
  have hform : lexer.form? '-' rest = some .blockEntry := by
    unfold form?
    simp [hboundary, h]
  unfold token
  rw [hform]

/-- A dash in front of an entry, which may open the sequence. -/
theorem Meets.blockEntry (h : lexer.Meets ('-' :: rest) mark indents true (Loose kinds) [])
    (hends : endsWord rest = true) :
    lexer.Reaches
      (At rest (mark.right 1) (opened .blockSequenceStart indents [] mark.column).2 true
        (Loose (kinds ++ (opened .blockSequenceStart indents [] mark.column).1 ++ [.blockEntry]))
        []) := by
  refine h.advance (steady_loose _ _) fun ready hat => ?_
  obtain ⟨tokens, hopening, hkinds⟩ := hat.opening_eq .blockSequenceStart mark
  -- The sequence opens first, in the place of the dash.
  have hopened : (ready.openBlock .blockSequenceStart).At ('-' :: rest) mark
      (opened .blockSequenceStart indents [] mark.column).2 true
      (Loose (kinds ++ (opened .blockSequenceStart indents [] mark.column).1)) [] := by
    unfold openBlock
    rw [hat.mark_eq, hopening, ← hkinds]
    exact ⟨hat.cursor, rfl, hat.allowed, hat.here.append tokens, hat.around⟩
  obtain ⟨next, hnext, hstands⟩ := hopened.abandonKey
  refine ⟨{ next.indicator .blockEntry 1 with keyAllowed := true }, ?_,
    hstands.indicator .blockEntry (fun _ start stop hlevel =>
      (hlevel.push ⟨.blockEntry, start, stop⟩).loose) true⟩
  rw [token_dash hends]
  unfold Lexer.blockEntry
  rw [hat.allowed, Bool.not_true, Bool.and_false]
  dsimp only [Bool.false_eq_true, ↓reduceIte]
  rw [hnext]
  rfl

/-! ## Scalars -/

/-- **A scalar is read here**, which begins with `c`: its kind, the text and the place behind it,
and whether line ends are crossed in front of that text. -/
def ReadsScalar (c : Char) (text : List Char) (mark : Mark) (indents : List Nat)
    (around : List (List Token.Kind)) (kind : Token.Kind) (text' : List Char) (mark' : Mark)
    (crossed : Bool) : Prop :=
  ∀ (lexer ready : Lexer) (allowed : Bool) (here here' : Pending → Prop),
    lexer.At (c :: text) mark indents allowed here around → lexer.expectKey = .ok ready →
    ready.At (c :: text) mark indents allowed here' around →
    ∃ start stop, lexer.token c text = .ok { ready.push kind start stop with
      cursor := ⟨text', mark'⟩, keyAllowed := crossed }

/-- A scalar that is a node. -/
theorem Meets.scalar (h : lexer.Meets (c :: text) mark indents allowed (Loose kinds) around)
    (hreads : ReadsScalar c text mark indents around kind text' mark' crossed)
    (hfree : allowed = true → keyRequired indents around mark = false) :
    lexer.Reaches (At text' mark' indents crossed (Loose (kinds ++ [kind])) around) := by
  refine h.advance (steady_loose _ _) fun ready hat => ?_
  obtain ⟨next, hnext, hstands⟩ := hat.expectNode hfree
  obtain ⟨start, stop, htoken⟩ := hreads ready next allowed _ _ hat hnext hstands
  exact ⟨_, htoken, rfl, hstands.indents, rfl, hstands.here.push ⟨kind, start, stop⟩,
    hstands.around⟩

/-- A scalar that a colon behind it may make a key. -/
theorem Meets.keyScalar (h : lexer.Meets (c :: text) mark indents true (Loose kinds) around)
    (hreads : ReadsScalar c text mark indents around kind text' mark' crossed)
    (hfresh : PossibleKey.isStale ⟨mark, keyRequired indents around mark⟩ mark' = false) :
    lexer.Reaches (At text' mark' indents crossed
      (Keyed ⟨mark, keyRequired indents around mark⟩ kinds [kind]) around) := by
  refine h.advance (steady_keyed hfresh) fun ready hat => ?_
  obtain ⟨next, hnext, hstands⟩ := hat.expectKey
  obtain ⟨start, stop, htoken⟩ := hreads ready next true _ _ hat hnext hstands
  exact ⟨_, htoken, rfl, hstands.indents, rfl, hstands.here.push ⟨kind, start, stop⟩,
    hstands.around⟩

theorem token_colon (h : (lexer.inFlow || endsWord rest) = true) :
    lexer.token ':' rest = lexer.value := by
  have hform : lexer.form? ':' rest = some .value := by
    unfold form?
    simp only [h, isBoundary_cons (show ':' ≠ '-' by decide) (show ':' ≠ '.' by decide)]
    simp
  unfold token
  rw [hform]

/-- A colon behind a key, which may open the mapping. -/
theorem Meets.value
    (h : lexer.Meets (':' :: rest) mark indents allowed (Keyed key front back) around)
    (hends : around.isEmpty = true → endsWord rest = true) :
    lexer.Reaches
      (At rest (mark.right 1) (opened .blockMappingStart indents around key.mark.column).2 false
        (Settled (front ++ (opened .blockMappingStart indents around key.mark.column).1
          ++ [.key] ++ back ++ [.value])) around) := by
  refine h.advance (steady_settled _ _) fun ready hat => ?_
  obtain ⟨tokens, hopening, hkinds⟩ := hat.opening_eq .blockMappingStart key.mark
  -- The key and the mapping that it opens go in front of the scalar that was read before them.
  have hconfirmed :
      At (':' :: rest) mark (opened .blockMappingStart indents around key.mark.column).2
        ready.keyAllowed
        (Settled (front ++ (opened .blockMappingStart indents around key.mark.column).1
          ++ [.key] ++ back)) around
        { ready with
          indents := (opened .blockMappingStart indents around key.mark.column).2
          level := ready.level.confirm (⟨.key, key.mark, key.mark⟩ :: tokens) } := by
    refine ⟨hat.cursor, rfl, rfl, ?_, hat.around⟩
    have hsettled := hat.here.confirm (⟨.key, key.mark, key.mark⟩ :: tokens)
    rw [List.reverse_cons, List.map_append, hkinds, ← List.append_assoc] at hsettled
    exact hsettled
  refine ⟨_, ?_, hconfirmed.indicator .value
    (fun _ start stop hlevel => hlevel.push ⟨.value, start, stop⟩) false⟩
  have hcolon : (ready.inFlow || endsWord rest) = true := by
    rw [hat.inFlow_eq]
    by_cases hblock : around.isEmpty
    · rw [hends hblock, Bool.or_true]
    · rw [Bool.not_eq_true] at hblock
      rw [hblock]
      rfl
  rw [token_colon hcolon]
  unfold Lexer.value
  rw [hat.here.possible]
  dsimp only
  rw [hopening]
  rfl

/-- **A key**: a scalar with a colon right behind it. -/
theorem Meets.keyed (h : lexer.Meets (c :: text) mark indents true (Loose kinds) around)
    (hreads : ReadsScalar c text mark indents around kind (':' :: rest) mark' crossed)
    (hfresh : PossibleKey.isStale ⟨mark, keyRequired indents around mark⟩ mark' = false)
    (hopen : around.isEmpty = true → ∀ indent, indents.head? = some indent → indent ≤ mark'.column)
    (hends : around.isEmpty = true → endsWord rest = true) :
    lexer.Reaches (At rest (mark'.right 1) (opened .blockMappingStart indents around mark.column).2
      false (Settled (kinds ++ (opened .blockMappingStart indents around mark.column).1
        ++ [.key] ++ [kind] ++ [.value])) around) := by
  refine (h.keyScalar hreads hfresh).trans fun next hnext => ?_
  exact (hnext.meets_here ⟨rfl, rfl, by decide, by decide⟩ (steady_keyed hfresh) hopen).value hends

end Lexer

end Provisioning.Yaml
