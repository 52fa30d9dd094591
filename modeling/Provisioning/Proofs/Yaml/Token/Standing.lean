import Mathlib.Data.List.Forall2
import Mathlib.Data.List.TakeWhile
import Provisioning.Outcome
import Provisioning.Yaml.Token.Lexer

/-!
# Where a lexer stands

What a lexer reads next depends on the text that is left, the open block collections, whether a
key may begin, and on each flow level the kinds of its tokens and whether a late colon may
still claim some of them as a key: this is `Lexer.At`. A key that nothing requires may be given
up at any time without changing the kinds, so only the level that is read keeps account of it.

`Lexer.Reaches` says that a lexer delivers what a later one delivers. It is proved with the text
behind a token still in place, so tokens that are read one by one are read in a row.
-/

namespace Provisioning.Yaml

open Provisioning.Outcome (bind_eq_ok)

theorem byteLength_append (front back : List Char) :
    byteLength (front ++ back) = byteLength front + byteLength back := by
  induction front with
  | nil => exact (Nat.zero_add _).symm
  | cons c front ih => rw [List.cons_append, byteLength, byteLength, ih, Nat.add_assoc]

namespace Mark

theorem next_right (mark : Mark) (n : Nat) : mark.next.right n = mark.right (n + 1) := by
  unfold right next
  dsimp only
  rw [Nat.add_assoc, Nat.add_assoc, Nat.add_comm 1]

theorem past_space (mark : Mark) : mark.past [' '] = mark.next := rfl

theorem past_past (mark : Mark) (front back : List Char) :
    (mark.past front).past back = mark.past (front ++ back) := by
  unfold past
  dsimp only
  rw [List.length_append, byteLength_append, Nat.add_assoc, Nat.add_assoc]

theorem past_cons (mark : Mark) (c : Char) (text : List Char) :
    (mark.past [c]).past text = mark.past (c :: text) := mark.past_past [c] text

end Mark

/-- A key is as long as its text in bytes. -/
theorem isStale_past {text : List Char} (required : Bool) (mark : Mark)
    (h : byteLength text ≤ 1024) :
    PossibleKey.isStale ⟨mark, required⟩ (mark.past text) = false := by
  unfold PossibleKey.isStale Mark.past
  simp only [Nat.lt_irrefl, decide_false, Bool.false_or, decide_eq_false_iff_not, Nat.not_lt]
  omega

namespace Pending

/-- A level with tokens of these kinds, whose key may be given up. -/
structure Loose (kinds : List Token.Kind) (level : Pending) : Prop where
  listed : (level.after ++ level.before).reverse.map Token.kind = kinds
  free : ∀ key, level.key = some key → key.required = false
  settled : level.key = none → level.after = []

/-- A level with tokens of these kinds and no possible key. -/
structure Settled (kinds : List Token.Kind) (level : Pending) : Prop where
  key : level.key = none
  before : level.before.reverse.map Token.kind = kinds
  after : level.after = []

/-- A level whose possible key begins between tokens of these kinds. -/
structure Keyed (key : PossibleKey) (front back : List Token.Kind) (level : Pending) : Prop where
  possible : level.key = some key
  front : level.before.reverse.map Token.kind = front
  back : level.after.reverse.map Token.kind = back

/-- What is said of a level stays true when stale keys are given up here. -/
def Steady (here : Pending → Prop) (now : Mark) : Prop :=
  ∀ level, here level → ∃ next, level.expire now = .ok next ∧ here next

variable {kinds front back : List Token.Kind} {key : PossibleKey} {level : Pending}

theorem settled_empty : Settled [] empty := ⟨rfl, rfl, rfl⟩

theorem Settled.loose (h : Settled kinds level) : Loose kinds level := by
  refine ⟨?_, fun key hkey => absurd (h.key.symm.trans hkey) (by simp), fun _ => h.after⟩
  rw [h.after]
  exact h.before

theorem Loose.settled_of_key (h : Loose kinds level) (hkey : level.key = none) :
    Settled kinds level := by
  have hlisted := h.listed
  rw [h.settled hkey] at hlisted
  exact ⟨hkey, hlisted, h.settled hkey⟩

theorem Loose.append (h : Loose kinds level) (tokens : List Token) :
    Loose (kinds ++ tokens.reverse.map Token.kind) (level.append tokens) := by
  obtain ⟨before, key, after⟩ := level
  cases key with
  | none =>
    have hafter : after = [] := h.settled rfl
    subst hafter
    refine ⟨?_, by simp [Pending.append], fun _ => rfl⟩
    show ((tokens ++ before).reverse).map Token.kind = _
    rw [List.reverse_append, List.map_append, (h.settled_of_key rfl).before]
  | some key =>
    refine ⟨?_, h.free, fun hnone => absurd hnone (by simp [Pending.append])⟩
    show ((tokens ++ after ++ before).reverse).map Token.kind = _
    rw [List.append_assoc, List.reverse_append, List.map_append, h.listed]

theorem append_nil (level : Pending) : level.append [] = level := by
  obtain ⟨before, key, after⟩ := level
  cases key <;> rfl

theorem push_eq_append (level : Pending) (token : Token) :
    level.push token = level.append [token] := by
  unfold Pending.push Pending.append
  cases level.key <;> rfl

theorem Loose.push (h : Loose kinds level) (token : Token) :
    Loose (kinds ++ [token.kind]) (level.push token) := by
  rw [push_eq_append]
  exact h.append [token]

/-- Blocks that close at a place. -/
theorem Loose.closed (h : Loose kinds level) (closed : List Nat) (mark : Mark) :
    Loose (kinds ++ List.replicate closed.length .blockEnd)
      (level.append (closed.map fun _ => ⟨.blockEnd, mark, mark⟩)) := by
  have happended := h.append (closed.map fun _ => ⟨.blockEnd, mark, mark⟩)
  rw [List.map_const', List.reverse_replicate, List.map_replicate] at happended
  rw [List.map_const']
  exact happended

theorem Settled.push (h : Settled kinds level) (token : Token) :
    Settled (kinds ++ [token.kind]) (level.push token) := by
  obtain ⟨before, key, after⟩ := level
  cases h.key
  refine ⟨rfl, ?_, h.after⟩
  show (token :: before).reverse.map Token.kind = _
  rw [List.reverse_cons, List.map_append, h.before]
  rfl

/-- Giving up a key keeps the kinds. -/
theorem Loose.abandon (h : Loose kinds level) (now : Mark) :
    ∃ next, level.abandon now = .ok next ∧ Settled kinds next := by
  unfold Pending.abandon
  cases hkey : level.key with
  | none => exact ⟨level, rfl, h.settled_of_key hkey⟩
  | some key =>
    dsimp only
    rw [h.free key hkey]
    exact ⟨level.release, rfl, rfl, h.listed, rfl⟩

theorem steady_loose (kinds : List Token.Kind) (now : Mark) : Steady (Loose kinds) now := by
  intro level h
  unfold Pending.expire
  cases hkey : level.key with
  | none => exact ⟨level, rfl, h⟩
  | some key =>
    dsimp only
    by_cases hstale : key.isStale now
    · rw [if_pos hstale]
      obtain ⟨next, habandon, hnext⟩ := h.abandon now
      exact ⟨next, habandon, hnext.loose⟩
    · rw [if_neg hstale]
      exact ⟨level, rfl, h⟩

theorem steady_settled (kinds : List Token.Kind) (now : Mark) : Steady (Settled kinds) now := by
  intro level h
  refine ⟨level, ?_, h⟩
  unfold Pending.expire
  rw [h.key]

theorem steady_keyed {now : Mark} (hfresh : key.isStale now = false) :
    Steady (Keyed key front back) now := by
  intro level h
  refine ⟨level, ?_, h⟩
  unfold Pending.expire
  rw [h.possible]
  dsimp only
  rw [hfresh]
  rfl

/-- A key that may begin at the end of a level. -/
theorem Settled.expectKey (h : Settled kinds level) (key : PossibleKey) :
    Keyed key kinds [] (level.expectKey key) := by
  refine ⟨rfl, h.before, ?_⟩
  show level.after.reverse.map Token.kind = []
  rw [h.after]
  rfl

theorem Keyed.push (h : Keyed key front back level) (token : Token) :
    Keyed key front (back ++ [token.kind]) (level.push token) := by
  obtain ⟨before, possible, after⟩ := level
  cases h.possible
  refine ⟨rfl, h.front, ?_⟩
  show (token :: after).reverse.map Token.kind = _
  rw [List.reverse_cons, List.map_append, h.back]
  rfl

/-- A key that nothing requires binds nothing. -/
theorem Keyed.loose (h : Keyed key front back level) (hfree : key.required = false) :
    Loose (front ++ back) level := by
  refine ⟨?_, ?_, fun hnone => absurd (h.possible.symm.trans hnone) (by simp)⟩
  · rw [List.reverse_append, List.map_append, h.front, h.back]
  · intro other hother
    rw [h.possible] at hother
    cases hother
    exact hfree

/-- A colon settles a key: the tokens in front of it come between the two parts. -/
theorem Keyed.confirm (h : Keyed key front back level) (tokens : List Token) :
    Settled (front ++ tokens.reverse.map Token.kind ++ back) (level.confirm tokens) := by
  refine ⟨rfl, ?_, rfl⟩
  dsimp only [Pending.confirm]
  rw [List.reverse_append, List.reverse_append, List.map_append, List.map_append,
    h.front, h.back]

end Pending

namespace Lexer

open Pending

/-- **A lexer in front of a text**: the place, the open blocks, whether a key may begin, what is
said of the current flow level, and the kinds of the tokens on the levels around it. -/
structure At (text : List Char) (mark : Mark) (indents : List Nat) (allowed : Bool)
    (here : Pending → Prop) (around : List (List Token.Kind)) (lexer : Lexer) : Prop where
  cursor : lexer.cursor = ⟨text, mark⟩
  indents : lexer.indents = indents
  allowed : lexer.keyAllowed = allowed
  here : here lexer.level
  around : List.Forall₂ Loose around lexer.outer

/-- **A lexer delivers what a later one delivers**, of which something holds. -/
def Reaches (there : Lexer → Prop) (lexer : Lexer) : Prop :=
  ∃ next : Lexer, lexer.run = next.run ∧ there next

/-- The tokens of a text that has no fault are of these kinds. -/
def Yields (kinds : List Token.Kind) (lexer : Lexer) : Prop :=
  ∃ tokens, lexer.run = (tokens, none) ∧ tokens.map Token.kind = kinds

/-- Behind the gap in front of the next token a lexer stands like this. -/
def Meets (text : List Char) (mark : Mark) (indents : List Nat) (allowed : Bool)
    (here : Pending → Prop) (around : List (List Token.Kind)) (lexer : Lexer) : Prop :=
  ∃ ready : Lexer, lexer.toToken = .ok ready ∧ ready.At text mark indents allowed here around

variable {lexer : Lexer} {text text' rest : List Char} {mark mark' : Mark}
  {indents indents' : List Nat}
  {allowed allowed' : Bool} {here here' : Pending → Prop} {around around' : List (List Token.Kind)}
  {kinds front back : List Token.Kind} {key : PossibleKey} {c : Char}

theorem Reaches.refl {there : Lexer → Prop} (h : there lexer) : lexer.Reaches there :=
  ⟨lexer, rfl, h⟩

theorem Reaches.trans {there beyond : Lexer → Prop} (h : lexer.Reaches there)
    (hnext : ∀ next, there next → next.Reaches beyond) : lexer.Reaches beyond := by
  obtain ⟨next, hrun, hthere⟩ := h
  obtain ⟨last, hrun', hbeyond⟩ := hnext next hthere
  exact ⟨last, hrun.trans hrun', hbeyond⟩

theorem Reaches.yields {there : Lexer → Prop} (h : lexer.Reaches there)
    (hnext : ∀ next, there next → next.Yields kinds) : lexer.Yields kinds := by
  obtain ⟨next, hrun, hthere⟩ := h
  obtain ⟨tokens, hrun', hkinds⟩ := hnext next hthere
  exact ⟨tokens, hrun.trans hrun', hkinds⟩

theorem At.mark_eq (h : lexer.At text mark indents allowed here around) : lexer.mark = mark := by
  unfold Lexer.mark
  rw [h.cursor]

theorem At.inFlow_eq (h : lexer.At text mark indents allowed here around) :
    lexer.inFlow = !around.isEmpty := by
  unfold Lexer.inFlow
  have hlength := h.around.length_eq
  cases hout : lexer.outer with
  | nil =>
    rw [hout] at hlength
    rw [List.length_eq_zero_iff.mp hlength]
    rfl
  | cons level outer =>
    rw [hout] at hlength
    cases around with
    | nil => exact absurd hlength (by simp)
    | cons => rfl

theorem At.imp (h : lexer.At text mark indents allowed here around)
    (himp : ∀ level, here level → here' level) : lexer.At text mark indents allowed here' around :=
  ⟨h.cursor, h.indents, h.allowed, himp _ h.here, h.around⟩

/-! ## Stale keys -/

theorem outer_expire {around : List (List Token.Kind)} {outer : List Pending} (now : Mark)
    (h : List.Forall₂ Loose around outer) :
    ∃ next, outer.mapM (·.expire now) = .ok next ∧ List.Forall₂ Loose around next := by
  induction h with
  | nil => exact ⟨[], rfl, .nil⟩
  | @cons kinds level around outer hlevel _ ih =>
    obtain ⟨first, hfirst, hloose⟩ := steady_loose kinds now level hlevel
    obtain ⟨others, hothers, hall⟩ := ih
    refine ⟨first :: others, ?_, .cons hloose hall⟩
    rw [List.mapM_cons, hfirst, Outcome.ok_bind, hothers]
    rfl

theorem At.expireKeys (h : lexer.At text mark indents allowed here around)
    (hsteady : Steady here mark) :
    ∃ next, lexer.expireKeys = .ok next ∧ next.At text mark indents allowed here around := by
  -- The levels around are only loose, so whether their keys go does not matter.
  obtain ⟨outer, houter, haround⟩ := outer_expire mark h.around
  obtain ⟨level, hlevel, hhere⟩ := hsteady lexer.level h.here
  refine ⟨{ lexer with level, outer }, ?_, h.cursor, h.indents, h.allowed, hhere, haround⟩
  unfold Lexer.expireKeys
  rw [h.mark_eq, houter, hlevel]
  rfl

/-! ## One step -/

/-- A token that is indented enough closes no block. -/
theorem At.closeBlocks_eq (h : lexer.At text mark indents allowed here around)
    (hopen : around.isEmpty = true → ∀ indent, indents.head? = some indent → indent ≤ mark.column) :
    lexer.closeBlocks (mark.column < ·) = lexer := by
  unfold closeBlocks
  rw [h.inFlow_eq]
  by_cases hflow : around.isEmpty
  · have hnone : indents.takeWhile (mark.column < ·) = [] ∧
        indents.dropWhile (mark.column < ·) = indents := by
      cases indents with
      | nil => exact ⟨rfl, rfl⟩
      | cons indent indents =>
        have hle := hopen hflow indent rfl
        have hdeep : decide (mark.column < indent) = false := by simpa using hle
        rw [List.takeWhile_cons, List.dropWhile_cons, hdeep]
        exact ⟨rfl, rfl⟩
    -- Nothing is closed, so no token is added.
    rw [hflow, h.indents, hnone.1, hnone.2, ← h.indents]
    show { lexer with level := lexer.level.append [] } = lexer
    rw [append_nil]
  · rw [Bool.not_eq_true] at hflow
    rw [hflow]
    rfl

/-- The gap in front of a token that closes no block. -/
theorem At.meets (h : lexer.At text mark indents allowed here around)
    (hgap : Cursor.toToken (!around.isEmpty) false allowed mark text = (⟨text', mark'⟩, allowed'))
    (hsteady : Steady here mark')
    (hopen : around.isEmpty = true → ∀ indent, indents.head? = some indent →
      indent ≤ mark'.column) :
    lexer.Meets text' mark' indents allowed' here around := by
  have hmoved : At text' mark' indents allowed' here around
      { lexer with cursor := ⟨text', mark'⟩, keyAllowed := allowed' } :=
    ⟨rfl, h.indents, rfl, h.here, h.around⟩
  obtain ⟨ready, hready, hat⟩ := hmoved.expireKeys hsteady
  refine ⟨ready, ?_, hat⟩
  unfold Lexer.toToken
  rw [h.inFlow_eq, h.allowed, h.mark_eq, h.cursor, hgap]
  dsimp only
  rw [hready, Outcome.ok_bind, hat.mark_eq]
  exact congrArg Except.ok (hat.closeBlocks_eq hopen)

/-- The gap in front of a token in block context, which closes the blocks it does not belong to. -/
theorem At.meets_closing (h : lexer.At text mark indents allowed (Loose kinds) [])
    (hgap : Cursor.toToken false false allowed mark text = (⟨text', mark'⟩, allowed')) :
    lexer.Meets text' mark' (indents.dropWhile (mark'.column < ·)) allowed'
      (Loose
        (kinds ++ List.replicate (indents.takeWhile (mark'.column < ·)).length .blockEnd)) [] := by
  have hmoved : At text' mark' indents allowed' (Loose kinds) []
      { lexer with cursor := ⟨text', mark'⟩, keyAllowed := allowed' } :=
    ⟨rfl, h.indents, rfl, h.here, h.around⟩
  obtain ⟨ready, hready, hat⟩ := hmoved.expireKeys (steady_loose kinds mark')
  refine ⟨ready.closeBlocks (mark'.column < ·), ?_, ?_⟩
  · unfold Lexer.toToken
    rw [h.inFlow_eq, h.allowed, h.mark_eq, h.cursor]
    rw [show (!([] : List (List Token.Kind)).isEmpty) = false from rfl, hgap]
    dsimp only
    rw [hready, Outcome.ok_bind, hat.mark_eq]
    rfl
  · unfold closeBlocks
    rw [hat.inFlow_eq, hat.mark_eq, hat.indents]
    exact ⟨hat.cursor, rfl, hat.allowed,
      hat.here.closed (indents.takeWhile (mark'.column < ·)) mark', hat.around⟩

/-- **A token leads a lexer on.** -/
theorem Meets.advance (h : lexer.Meets (c :: rest) mark indents allowed here around)
    (hsteady : Steady here' mark')
    (htoken : ∀ ready : Lexer, ready.At (c :: rest) mark indents allowed here around →
      ∃ next, ready.token c rest = .ok next ∧
        next.At text' mark' indents' allowed' here' around') :
    lexer.Reaches (At text' mark' indents' allowed' here' around') := by
  obtain ⟨ready, hready, hat⟩ := h
  obtain ⟨next, hnext, hthere⟩ := htoken ready hat
  -- Stale keys go twice: in front of the token, which `Meets` has done, and behind it.
  obtain ⟨last, hlast, hstands⟩ := hthere.expireKeys hsteady
  refine ⟨last, run_of_token ?_, hstands⟩
  unfold step
  rw [hready, Outcome.ok_bind, hat.cursor]
  dsimp only
  rw [hnext, Outcome.ok_bind, hlast]
  rfl

theorem closeAllBlocks_eq (h : lexer.inFlow = false) :
    lexer.closeAllBlocks = { lexer with
      indents := []
      level := lexer.level.append
        (lexer.indents.map fun _ => ⟨.blockEnd, lexer.mark, lexer.mark⟩) } := by
  have hall : lexer.indents.takeWhile (fun _ => true) = lexer.indents :=
    List.takeWhile_eq_self_iff.mpr fun _ _ => rfl
  have hnone : lexer.indents.dropWhile (fun _ => true) = [] :=
    List.dropWhile_eq_nil_iff.mpr fun _ _ => rfl
  unfold closeAllBlocks closeBlocks
  rw [h, hall, hnone]
  rfl

/-- A key is given up on the level that is read. -/
theorem At.abandonKey (h : lexer.At text mark indents allowed (Loose kinds) around) :
    ∃ next, lexer.abandonKey = .ok next ∧
      next.At text mark indents allowed (Settled kinds) around := by
  obtain ⟨level, hlevel, hsettled⟩ := h.here.abandon mark
  refine ⟨{ lexer with level }, ?_, h.cursor, h.indents, h.allowed, hsettled, h.around⟩
  unfold Lexer.abandonKey
  rw [h.mark_eq, hlevel]
  rfl

theorem At.finish (h : lexer.At [] mark indents allowed (Loose kinds) []) :
    ∃ last, lexer.finish = .ok last ∧
      last.deliverable.map Token.kind
        = kinds ++ List.replicate indents.length .blockEnd ++ [.streamEnd] := by
  -- The end of the text counts as the beginning of a line, where every block is closed.
  let final := if mark.column == 0 then mark else mark.newline
  have hclosed :
      At [] final [] allowed (Loose (kinds ++ List.replicate indents.length .blockEnd)) []
        { lexer with
          cursor := ⟨[], final⟩, indents := []
          level := lexer.level.append (lexer.indents.map fun _ => ⟨.blockEnd, final, final⟩) } := by
    refine ⟨rfl, rfl, h.allowed, ?_, h.around⟩
    rw [h.indents]
    exact h.here.closed indents final
  obtain ⟨given, hgiven, hsettled⟩ := hclosed.abandonKey
  have hpushed : At [] final [] allowed
      (Settled (kinds ++ List.replicate indents.length .blockEnd ++ [.streamEnd])) []
      (given.push .streamEnd final final) :=
    ⟨hsettled.cursor, hsettled.indents, hsettled.allowed,
      hsettled.here.push ⟨.streamEnd, final, final⟩, hsettled.around⟩
  obtain ⟨last, hlast, hat⟩ := hpushed.expireKeys (steady_settled _ final)
  refine ⟨last, ?_, ?_⟩
  · unfold Lexer.finish
    rw [h.mark_eq]
    show ({ lexer with cursor := ⟨[], final⟩ }.closeAllBlocks.abandonKey >>= fun given =>
      (given.push .streamEnd final final).expireKeys) = .ok last
    rw [closeAllBlocks_eq (show Lexer.inFlow { lexer with cursor := ⟨[], final⟩ }
      = false from h.inFlow_eq)]
    dsimp only [Lexer.mark]
    rw [hgiven, Outcome.ok_bind]
    exact hlast
  · have houter : last.outer = [] := List.forall₂_nil_left_iff.mp hat.around
    unfold Lexer.deliverable
    rw [houter]
    show (last.level.before.reverse ++ if last.level.key.isSome then [] else []).map Token.kind = _
    rw [ite_self, List.append_nil, hat.here.before]

/-- **The end of the text closes what is still open.** -/
theorem Meets.yields (h : lexer.Meets [] mark indents allowed (Loose kinds) []) :
    lexer.Yields (kinds ++ List.replicate indents.length .blockEnd ++ [.streamEnd]) := by
  obtain ⟨ready, hready, hat⟩ := h
  obtain ⟨last, hlast, hkinds⟩ := hat.finish
  refine ⟨last.deliverable, run_of_finished ?_, hkinds⟩
  unfold step
  rw [hready, Outcome.ok_bind, hat.cursor]
  dsimp only
  rw [hlast]
  rfl

end Lexer

end Provisioning.Yaml
