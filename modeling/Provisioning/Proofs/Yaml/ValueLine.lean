import Provisioning.Proofs.Yaml.Acceptance
import Provisioning.Proofs.Yaml.MappingStates
import Provisioning.Proofs.Yaml.Token.Extent

/-!
# The value on a line of an accepted text

A key at the margin has the rest of its line as value, whatever stands there, and the next key at
the margin below it. `Accepted.value` says what that value is if the text is accepted: a collection
that begins on the line, or a scalar that the line must be rid of before the next key. Of the scalar
it says when it is the line itself (`IsScalarLine`).

The line is read token by token, and each kind of token has its own lemma. A token that is refused
ends the case, since the text is accepted. The one token that can go beyond its line is a scalar in
single quotes. Here the same line is written a second time below (`Repeats`), so the quote ends
there at the latest, and the line behind it is refused.
-/

namespace Provisioning.Yaml

open Provisioning.Outcome (bind_eq_ok)
open Lexer (BeginsToken BeginsScalar isIndicator)

/-! ## Gaps -/

/-- A character inside a line that is a token's or a space. -/
def IsInline (c : Char) : Prop := isBreak c = false ∧ c ≠ '\t' ∧ c ≠ '\uFEFF'

/-- A line, or what is left of it, without any token. -/
inductive IsGap : List Char → Prop where
  | blank (n : Nat) : IsGap (spaces n)
  | comment (n : Nat) (rest : List Char) : IsGap (spaces n ++ '#' :: rest)

variable {line next rest : List Char} {c : Char} {blank column n : Nat}

/-- Behind a scalar nothing but a comment may follow at once. -/
theorem IsGap.hash (h : IsGap (c :: rest)) (hc : isBlank c = false) : c = '#' := by
  generalize hline : c :: rest = line at h
  cases h with
  | blank n =>
    cases n with
    | zero => cases hline
    | succ n =>
      cases hline
      cases hc
  | comment n others =>
    cases n with
    | zero => exact (List.cons.inj hline).1
    | succ n =>
      cases hline
      cases hc

/-- Behind its indentation a line has a token or nothing. -/
theorem gap_or_token : ∀ {line : List Char}, (∀ c ∈ line, IsInline c) →
    IsGap line ∨ ∃ n c rest, line = spaces n ++ c :: rest ∧ BeginsToken c := by
  intro line
  induction line with
  | nil => exact fun _ => .inl (.blank 0)
  | cons c line ih =>
    intro hline
    obtain ⟨⟨hbreak, htab, hmark⟩, hothers⟩ := List.forall_mem_cons.mp hline
    by_cases hspace : c = ' '
    · cases hspace
      rcases ih hothers with hgap | ⟨n, c, rest, rfl, hc⟩
      · cases hgap with
        | blank n => exact .inl (.blank (n + 1))
        | comment n rest => exact .inl (.comment (n + 1) rest)
      · exact .inr ⟨n + 1, c, rest, rfl, hc⟩
    · by_cases hhash : c = '#'
      · cases hhash
        exact .inl (.comment 0 line)
      · refine .inr ⟨0, c, line, rfl, hbreak, ?_, hhash, hmark⟩
        unfold isBlank
        rw [beq_eq_false_iff_ne.mpr hspace, beq_eq_false_iff_ne.mpr htab]
        rfl

theorem toToken_gap (h : IsGap line) (hline : ∀ c ∈ line, isBreak c = false)
    (hnext : StartsLine next) (allowed : Bool) (mark : Mark) :
    ∃ n, Cursor.toToken false false allowed mark (line ++ '\n' :: (lead blank column ++ next))
      = (⟨next, ⟨n, column, column⟩⟩, true) := by
  cases h with
  | blank n =>
    rw [toToken_spaces]
    exact ⟨_, toToken_line hnext blank allowed _⟩
  | comment n rest =>
    rw [List.append_assoc, toToken_spaces, List.cons_append, Cursor.toToken, if_neg (by decide),
      if_pos (by decide)]
    exact toToken_comment hnext allowed rest _ fun d hd => hline d (by simp [hd])

/-! ## What the value is -/

/-- **A line that is a plain scalar as a whole**: one may begin with its first character, no comment
follows, and it does not end with a space. -/
structure IsScalarLine (line : List Char) : Prop where
  begins : ∃ c rest, line = c :: rest ∧ BeginsScalar c rest
  uncommented : ¬[' ', '#'] <:+: line
  ends : line.getLast? ≠ some ' '

/-- **What a scalar tells of the line it was read from**: it is no longer than the line, and is the
line itself just if the line is a plain scalar as a whole. -/
structure Tells (text line : List Char) : Prop where
  length : text.length ≤ line.length
  exactly : line ≠ [] → (text = line ↔ IsScalarLine line)

variable {text left : List Char}

/-- A scalar that is shorter than its line is not the line. -/
theorem Tells.shorter (hlength : text.length < line.length) (hline : ¬IsScalarLine line) :
    Tells text line := by
  refine ⟨Nat.le_of_lt hlength, fun _ => ⟨?_, fun h => absurd h hline⟩⟩
  rintro rfl
  exact absurd hlength (Nat.lt_irrefl _)

/-- A comment begins behind a space, if it is not known to follow a blank. -/
theorem hasComment_iff : ∀ {line : List Char}, (∀ c ∈ line, IsInline c) → ∀ afterBlank : Bool,
    hasComment afterBlank line = true ↔ (afterBlank = true ∧ line.head? = some '#') ∨
      [' ', '#'] <:+: line := by
  intro line
  induction line with
  | nil => simp [hasComment]
  | cons c line ih =>
    intro hline afterBlank
    obtain ⟨⟨_, htab, _⟩, hothers⟩ := List.forall_mem_cons.mp hline
    have hblank : isBlank c = true ↔ c = ' ' := by
      unfold isBlank
      simp [htab]
    have hhead : line.head? = some '#' ↔ ['#'] <+: line := by
      cases line with
      | nil => simp
      | cons d others => simp [List.cons_prefix_cons, eq_comm]
    rw [hasComment, Bool.or_eq_true, Bool.and_eq_true, beq_iff_eq, ih hothers, List.infix_cons_iff,
      List.cons_prefix_cons, hblank, hhead, List.head?_cons, Option.some.injEq, @eq_comm _ ' ' c]

theorem hasComment_behind (hc : isBlank c = false) (rest : List Char) :
    hasComment false (c :: rest) = hasComment false rest := by
  rw [hasComment, hc]
  rfl

/-- A line that is a plain scalar but for the blanks at its end. -/
theorem Tells.wholeLine {blanks : List Char} {d : Char} (hline : c :: rest = text ++ blanks)
    (hinline : ∀ d ∈ c :: rest, IsInline d) (hblanks : ∀ d ∈ blanks, isBlank d = true)
    (hlast : text.getLast? = some d) (hd : isBlank d = false) (hbegins : BeginsScalar c rest)
    (hcomment : hasComment false (c :: rest) = false) : Tells text (c :: rest) := by
  have huncommented : ¬[' ', '#'] <:+: c :: rest := fun hinfix => by
    rw [(hasComment_iff hinline false).mpr (.inr hinfix)] at hcomment
    cases hcomment
  refine ⟨?_, fun _ => ?_⟩
  · rw [hline, List.length_append]
    exact Nat.le_add_right _ _
  · rcases List.eq_nil_or_concat blanks with rfl | ⟨others, blank, rfl⟩
    · rw [List.append_nil] at hline
      refine iff_of_true hline.symm ⟨⟨c, rest, rfl, hbegins⟩, huncommented, ?_⟩
      rw [hline, hlast]
      rintro ⟨⟩
      cases hd
    · rw [List.concat_eq_append] at hline hblanks
      -- The blank at the end is a space, so the line is no scalar and longer than the text.
      have hmem : blank ∈ c :: rest := by
        rw [hline]
        simp
      have hspace : blank = ' ' := by
        have hblank := hblanks blank (by simp)
        unfold isBlank at hblank
        simpa [(hinline blank hmem).2.1] using hblank
      refine iff_of_false ?_ fun hscalar => hscalar.ends ?_
      · intro heq
        have hlength := congrArg List.length (heq.trans hline)
        simp at hlength
      · rw [hline, ← List.append_assoc, List.getLast?_concat, hspace]

theorem not_isScalarLine (h : isIndicator c = true) (hmark : c ≠ '-' ∧ c ≠ '?' ∧ c ≠ ':') :
    ¬IsScalarLine (c :: rest) := by
  rintro ⟨⟨d, others, heq, hbegins⟩, -, -⟩
  cases heq
  rcases hbegins with ⟨-, hindicator⟩ | ⟨hc, -⟩
  · rw [h] at hindicator
    cases hindicator
  · rcases hc with rfl | rfl | rfl
    · exact hmark.1 rfl
    · exact hmark.2.1 rfl
    · exact hmark.2.2 rfl

/-- An indentation is no part of a scalar. -/
theorem Tells.indented (h : Tells text line) (n : Nat) : Tells text (spaces n ++ line) := by
  cases n with
  | zero => exact h
  | succ n =>
    have hlength := h.length
    have hspace : isBlank ' ' = true := rfl
    rw [spaces_succ, List.cons_append]
    refine .shorter ?_ ?_
    · rw [List.length_cons, List.length_append]
      omega
    · rintro ⟨⟨c, others, heq, hbegins⟩, -, -⟩
      cases heq
      rcases hbegins with ⟨hblank, -⟩ | ⟨hmark, -⟩
      · cases hspace.symm.trans hblank
      · exact absurd hmark (by decide)

/-! ## Behind the value -/

namespace Builder

variable {front : List Node → Prop} {builder : Builder} {kinds : List Token.Kind}

theorem NextKey.goesOn (h : NextKey front text builder) : builder.stack ≠ [] := by
  obtain ⟨-, -, hstack, -⟩ := h
  rw [hstack]
  exact nofun

theorem ValueRead.goesOn (h : ValueRead front text builder) : builder.stack ≠ [] := by
  obtain ⟨-, -, hstack, -⟩ := h
  rw [hstack]
  exact nofun

theorem ValueDue.goesOn (h : ValueDue front builder) : builder.stack ≠ [] := by
  obtain ⟨-, -, hstack, -, -, -⟩ := h
  rw [hstack]
  exact nofun

theorem ValueOpen.goesOn (h : ValueOpen front builder) : builder.stack ≠ [] := by
  obtain ⟨-, hstack⟩ := h
  rw [hstack]
  exact nofun

theorem Attains.nextKey (h : Attains kinds (ValueRead front text)) :
    Attains (kinds ++ [.key]) (NextKey front text) :=
  h.snoc .key fun _ _ _ _ _ hread hfeed => ⟨(hread.key hfeed).goesOn, hread.key hfeed⟩

theorem Attains.leftOut (h : Attains kinds (ValueDue front)) :
    Attains (kinds ++ [.key]) (NextKey front []) :=
  h.snoc .key fun _ _ _ _ _ hdue hfeed => ⟨(hdue.key hfeed).goesOn, hdue.key hfeed⟩

theorem Attains.property {kind : Token.Kind} (h : Attains kinds (ValueDue front))
    (hkind : (∃ name, kind = .anchor name) ∨ ∃ handle octets, kind = .tag handle octets) :
    Attains (kinds ++ [kind]) (ValueDue front) :=
  h.snoc kind fun _ _ _ _ _ hdue hfeed =>
    ⟨(hdue.property hkind hfeed).goesOn, hdue.property hkind hfeed⟩

theorem Attains.flowStart {kind : Token.Kind} (h : Attains kinds (ValueDue front))
    (hkind : kind = .flowSequenceStart ∨ kind = .flowMappingStart) :
    Attains (kinds ++ [kind]) (ValueOpen front) :=
  h.snoc kind fun _ _ _ _ _ hdue hfeed =>
    ⟨(hdue.flowStart hkind hfeed).goesOn, hdue.flowStart hkind hfeed⟩

theorem Attains.valueRead (h : Attains kinds (ValueDue front)) (text : List Char)
    (style : ScalarStyle) : Attains (kinds ++ [.scalar text style]) (ValueRead front text) :=
  h.snoc _ fun _ _ _ _ _ hdue hfeed => ⟨(hdue.scalar hfeed).goesOn, hdue.scalar hfeed⟩

end Builder

namespace Lexer

open Pending (Settled)
open Builder (Attains ValueDue ValueRead ValueOpen NextKey)

variable {α : Type} {read : Reader α} {a : α} {lexer : Lexer} {front : List Node → Prop}
  {mark : Mark} {kinds : List Token.Kind} {kind : Token.Kind} {below : List Char}

theorem IsFlow.inside (h : IsFlow kind) : kind ≠ .key ∧ kind ≠ .blockEnd := by
  cases h <;> exact ⟨nofun, nofun⟩

theorem ReadsNode.inside {indents : List Nat} {cursor : Cursor} {allowed : Bool}
    (h : ReadsNode c rest mark indents kind cursor allowed) : kind ≠ .key ∧ kind ≠ .blockEnd := by
  cases h <;> exact ⟨nofun, nofun⟩

/-- A line inside the mapping at the margin meets its first token. -/
theorem At.meets_token (h : lexer.At (spaces n ++ c :: rest) mark [0] false (Settled kinds) [])
    (hc : BeginsToken c) : lexer.Meets (c :: rest) (mark.right n) [0] false (Settled kinds) [] := by
  refine h.meets ?_ (Pending.steady_settled _ _) fun _ indent hindent => ?_
  · exact (toToken_spaces false false n mark _).trans (toToken_begins hc false false _ _)
  · cases hindent
    exact Nat.zero_le _

theorem right_ne_zero (h : mark.column ≠ 0) (n : Nat) : (mark.right n).column ≠ 0 := by
  show mark.column + n ≠ 0
  omega

/-- **Behind a scalar nothing follows on its line.** -/
theorem Accepted.behindScalar (h : lexer.Accepted read a)
    (hat : lexer.At (line ++ '\n' :: (lead blank column ++ below)) mark [0] false (Settled kinds)
      [])
    (hcolumn : mark.column ≠ 0) (hline : ∀ c ∈ line, IsInline c) (hbelow : StartsLine below)
    (hattains : Attains kinds (ValueRead front text)) : IsGap line ∧
      lexer.Faces below column [0] kinds := by
  rcases gap_or_token hline with hgap | ⟨n, c, rest, rfl, hc⟩
  · have hloose := hat.imp fun _ hlevel => hlevel.loose
    obtain ⟨_, hcrossed⟩ := toToken_gap hgap (fun c hc => (hline c hc).1) hbelow false mark
    exact ⟨hgap, hloose.faces hcrossed rfl⟩
  · rw [List.append_assoc] at hat
    obtain ⟨next, hnext, ⟨kind, hflow, hdelivers⟩ | ⟨kind, _, _, hreads, hthere⟩⟩ :=
      h.token hat (hat.meets_token hc) (right_ne_zero hcolumn n) hattains
    · exact (hnext.not_refused hdelivers (hattains.refused kind fun _ _ _ _ hread =>
        hread.refuses hflow.inside.1 hflow.inside.2)).elim
    · exact (hnext.not_refused hthere.delivers (hattains.refused kind fun _ _ _ _ hread =>
        hread.refuses hreads.inside.1 hreads.inside.2)).elim

/-! ## Quotes left open -/

/-- **A line that stands a second time further below**, inside double quotes and in front
of a key. -/
inductive Repeats (line : List Char) : List Char → Prop where
  | again {before : List Char} {column : Nat} {c : Char} {word rest : List Char} :
      (∀ d ∈ before, d ≠ '\'') → 0 < column → BlockWord c word →
        byteLength (c :: word) ≤ 1024 → endsWord rest = true →
      Repeats line
        (before ++ (line ++ '"' :: '\n' :: (lead 0 column ++ (c :: word ++ ':' :: rest))))

theorem behindQuote_of_not_mem :
    ∀ {before : List Char}, (∀ d ∈ before, d ≠ '\'') → behindQuote before = none := by
  intro before
  induction before with
  | nil => exact fun _ => rfl
  | cons d before ih =>
    intro hbefore
    obtain ⟨hd, hothers⟩ := List.forall_mem_cons.mp hbefore
    exact (behindQuote_cons hd before).trans (ih hothers)

/-- A quote that the line leaves open is closed within the same line further below. -/
theorem Repeats.behindQuote {p : List Char} (h : Repeats (p ++ '\'' :: line) below)
    (hp : p.getLast? ≠ some '\'') (hopen : behindQuote line = none) :
    ∃ behind column c word rest, behind <:+ p ++ '\'' :: line ∧ 0 < column ∧ BlockWord c word ∧
      byteLength (c :: word) ≤ 1024 ∧ endsWord rest = true ∧
      Yaml.behindQuote below
        = some (behind ++ '"' :: '\n' :: (lead 0 column ++ (c :: word ++ ':' :: rest))) := by
  obtain ⟨hbefore, hcolumn, hword, hshort, hends⟩ := h
  obtain ⟨behind, hsuffix, hbehind⟩ :=
    behindQuote_twice hp hopen (show startsWith '\'' ('"' :: _) = false from rfl)
  refine ⟨behind, _, _, _, _, hsuffix, hcolumn, hword, hshort, hends, ?_⟩
  rw [behindQuote_none (behindQuote_of_not_mem hbefore), List.append_assoc]
  exact hbehind

/-- **No quote is left open**: behind the quote that closes it the line below is refused. -/
theorem Accepted.not_open {p : List Char} (h : lexer.Accepted read a)
    (hat : lexer.At rest mark [0] false (Settled kinds) []) (hcolumn : mark.column ≠ 0)
    (hrest : behindQuote below = some rest) (hrepeats : Repeats (p ++ '\'' :: line) below)
    (hp : p.getLast? ≠ some '\'') (hopen : behindQuote line = none)
    (hinline : ∀ c ∈ p ++ '\'' :: line, IsInline c)
    (hattains : Attains kinds (ValueRead front text)) : False := by
  obtain ⟨behind, column, c, word, others, hsuffix, hdeep, hword, hshort, hends, hbehind⟩ :=
    hrepeats.behindQuote hp hopen
  cases hrest.symm.trans hbehind
  have hline : ∀ d ∈ behind ++ ['"'], IsInline d := by
    intro d hd
    rcases List.mem_append.mp hd with hd | hd
    · exact hinline d (hsuffix.subset hd)
    · cases List.mem_singleton.mp hd
      exact ⟨rfl, by decide, by decide⟩
  have hsplit : behind ++ '"' :: '\n' :: (lead 0 column ++ (c :: word ++ ':' :: others))
      = (behind ++ ['"']) ++ '\n' :: (lead 0 column ++ (c :: word ++ ':' :: others)) := by
    rw [List.append_assoc]
    rfl
  rw [hsplit] at hat
  have hstarts : StartsLine (c :: word ++ ':' :: others) := .inr ⟨c, _, rfl, hword.begins⟩
  obtain ⟨-, hfaces⟩ := h.behindScalar hat hcolumn hline hstarts hattains
  -- The key there is indented, so it opens a mapping, and that is what is refused.
  obtain ⟨next, ⟨_, _, hthere⟩, hnext⟩ :=
    h.reaches (hfaces.key hword hshort hends fun indent hindent => by
      cases hindent
      exact Nat.zero_le _)
  have hopened : (opened .blockMappingStart [0] [] column).1 = [.blockMappingStart] := by
    unfold opened
    rw [decide_eq_true (show marginOf [0] ≤ column from hdeep)]
    rfl
  rw [hopened] at hthere
  exact hnext.not_refused hthere.delivers.front.front.front
    (hattains.refused .blockMappingStart fun _ _ _ _ hread => hread.refuses nofun nofun)

/-! ## The value -/

/-- **The value on a line, read of an accepted text**: a collection, or a scalar with the next key
below it. What the scalar tells is told of the line behind its indentation. -/
inductive HasValue (read : Reader α) (a : α) (front : List Node → Prop) (below line : List Char) :
    Prop where
  | collection {last : Lexer} {kinds : List Token.Kind} :
      last.Accepted read a → last.Delivers kinds → Attains kinds (ValueOpen front) →
      HasValue read a front below line
  | scalar {last : Lexer} {kinds : List Token.Kind} {text rest : List Char} {n : Nat} :
      last.Accepted read a → last.Faces below 0 [0] kinds → Attains (kinds ++ [.key])
        (NextKey front text) →
      line = spaces n ++ rest → rest.head? ≠ some ' ' → Tells text rest →
        HasValue read a front below line

theorem BeginsToken.not_space (h : BeginsToken c) : (c :: rest).head? ≠ some ' ' := by
  obtain ⟨-, hblank, -, -⟩ := h
  rintro ⟨⟩
  cases hblank

/-- A line without a token leaves the value out. -/
theorem Accepted.leftOut (h : lexer.Accepted read a)
    (hat : lexer.At (line ++ '\n' :: below) mark [0] false (Settled kinds) []) (hgap : IsGap line)
    (hline : ∀ c ∈ line, IsInline c) (hbelow : StartsLine below)
    (hattains : Attains kinds (ValueDue front)) :
    HasValue read a front below line := by
  have hat : lexer.At (line ++ '\n' :: (lead 0 0 ++ below)) mark [0] false (Settled kinds) [] := hat
  have hloose := hat.imp fun _ hlevel => hlevel.loose
  obtain ⟨_, hcrossed⟩ := toToken_gap hgap (fun c hc => (hline c hc).1) hbelow false mark
  have hfaces := hloose.faces hcrossed rfl
  cases hgap with
  | blank n =>
    exact .scalar h hfaces hattains.leftOut (List.append_nil _).symm nofun
      ⟨Nat.le_refl _, fun hne => absurd rfl hne⟩
  | comment n rest =>
    exact .scalar h hfaces hattains.leftOut rfl nofun
      (Tells.shorter (Nat.succ_pos _) (not_isScalarLine (by decide) (by decide)))

/-- A scalar that ends on its line. -/
theorem Accepted.endsBefore (h : lexer.Accepted read a)
    (hat : lexer.At (left ++ '\n' :: below) mark [0] false (Settled kinds) [])
    (hcolumn : mark.column ≠ 0)
    (hleft : ∀ c ∈ left, IsInline c) (hbelow : StartsLine below)
    (hattains : Attains kinds (ValueRead front text))
    (hc : BeginsToken c) (htells : IsGap left → Tells text (c :: rest)) :
    HasValue read a front below (spaces n ++ c :: rest) := by
  have hat : lexer.At (left ++ '\n' :: (lead 0 0 ++ below)) mark [0] false (Settled kinds) [] := hat
  obtain ⟨hgap, hfaces⟩ := h.behindScalar hat hcolumn hleft hbelow hattains
  exact .scalar h hfaces hattains.nextKey rfl hc.not_space (htells hgap)

/-- A scalar that ends with its line, or only at the line below. -/
theorem Accepted.endsBelow {line : Nat} (h : lexer.Accepted read a)
    (hat : lexer.At below ⟨line, 0, 0⟩ [0] true (Settled kinds) []) (hbelow : StartsLine below)
    (hattains : Attains kinds (ValueRead front text)) (hc : BeginsToken c)
    (htells : Tells text (c :: rest)) : HasValue read a front below (spaces n ++ c :: rest) := by
  have hloose := hat.imp fun _ hlevel => hlevel.loose
  exact .scalar h (hloose.faces (toToken_startsLine hbelow false true _) rfl) hattains.nextKey rfl
    hc.not_space htells

/-- Properties in front of a value are no part of it, and a line with properties is no scalar. -/
theorem HasValue.behindProperty (h : HasValue read a front below left) (hc : BeginsToken c)
    (hlength : left.length ≤ rest.length) (hnot : ¬IsScalarLine (c :: rest)) :
    HasValue read a front below (spaces n ++ c :: rest) := by
  cases h with
  | collection haccepted hdelivers hattains => exact .collection haccepted hdelivers hattains
  | scalar haccepted hfaces hattains hleft _ htells =>
    refine .scalar haccepted hfaces hattains rfl hc.not_space (Tells.shorter ?_ hnot)
    have htext := htells.length
    rw [hleft, List.length_append] at hlength
    exact Nat.lt_succ_of_le (htext.trans (by omega))

theorem BeginsScalar.onLine (h : BeginsScalar c (rest ++ '\n' :: below)) : BeginsScalar c rest := by
  rcases h with h | ⟨hc, hends⟩
  · exact .inl h
  · refine .inr ⟨hc, ?_⟩
    cases rest with
    | nil => cases hends
    | cons d others => exact hends

/-- A plain scalar on the line of its key. -/
theorem Accepted.plainValue {scalar : PlainScalar} (h : lexer.Accepted read a)
    (hat : lexer.At scalar.cursor.rest scalar.cursor.mark [0] scalar.crossedBreak
      (Settled kinds) [])
    (hends : PlainScalar.Ends below rest .closed [c] scalar) (hinline : ∀ d ∈ c :: rest, IsInline d)
    (hbelow : StartsLine below) (hattains : Attains kinds (ValueRead front scalar.text))
    (hc : BeginsToken c) (hbegins : BeginsScalar c rest) :
    HasValue read a front below (spaces n ++ c :: rest) := by
  obtain ⟨-, hothers⟩ := List.forall_mem_cons.mp hinline
  have hcomment := hasComment_behind hc.2.1 rest
  cases hends with
  | line hcrossed hcursor hline hblanks hlast hd hnone =>
    rw [hcrossed, hcursor] at hat
    exact h.endsBelow hat hbelow hattains hc
      (Tells.wholeLine hline hinline hblanks hlast hd hbegins (hcomment.trans hnone))
  | before hcrossed hsuffix hrest hcolumn hd hlength hsome =>
    rename_i d left
    rw [hcrossed, hrest] at hat
    refine h.endsBefore hat hcolumn (fun d hd => hothers d (hsuffix.subset hd)) hbelow hattains hc
      fun hgap => ?_
    refine Tells.shorter ?_ fun hscalar => hscalar.uncommented ?_
    · simp only [Gap.folded, List.nil_append, List.length_cons, List.length_nil] at hlength ⊢
      omega
    · have hinfix := (hasComment_iff hinline false).mp (hcomment.trans (hsome (hgap.hash hd)))
      simpa using hinfix

/-- A scalar in single quotes that begins on the line of its key. -/
theorem Accepted.quotedValue {scalar : QuotedScalar} {start : Mark} {p : List Char}
    (h : lexer.Accepted read a)
    (hat : lexer.At scalar.cursor.rest scalar.cursor.mark [0] false (Settled kinds) [])
    (hread : QuotedScalar.readSingle start [] .closed mark (rest ++ '\n' :: below) = .ok scalar)
    (hinline : ∀ d ∈ p ++ '\'' :: rest, IsInline d) (hbelow : StartsLine below)
    (hattains : Attains kinds (ValueRead front scalar.text))
    (hrepeats : Repeats (p ++ '\'' :: rest) below)
    (hp : p.getLast? ≠ some '\'') : HasValue read a front below (spaces n ++ '\'' :: rest) := by
  obtain ⟨hbehind, hcolumn, hlength⟩ := QuotedScalar.readSingle_behind hread
  cases hquote : Yaml.behindQuote rest with
  | none =>
    -- The scalar goes on below its line.
    rw [behindQuote_none hquote, behindQuote_cons (by decide)] at hbehind
    exact (h.not_open hat hcolumn hbehind hrepeats hp hquote hinline hattains).elim
  | some left =>
    have hbreak : startsWith '\'' ('\n' :: below) = false := rfl
    have hrest := hbehind.symm.trans (behindQuote_some hquote fun _ => hbreak)
    have hsuffix : left <:+ rest := (List.suffix_cons _ _).trans (behindQuote_suffix hquote)
    have hleft : ∀ d ∈ left, IsInline d := fun d hd => hinline d
      (List.mem_append_right p (List.mem_cons_of_mem _ (hsuffix.subset hd)))
    rw [Option.some.inj hrest] at hat hlength
    refine h.endsBefore hat hcolumn hleft hbelow hattains ⟨rfl, rfl, by decide, by decide⟩ fun _ =>
      Tells.shorter ?_ (not_isScalarLine (by decide) (by decide))
    simp only [Gap.folded, List.append_nil, List.length_nil, List.length_append,
      List.length_cons] at hlength ⊢
    omega

/-- What is left of a line that names a value: a suffix, and no quote in front of a quote. -/
structure Remains (name line : List Char) : Prop where
  suffix : ∃ p, ' ' :: name = p ++ line ∧ (startsWith '\'' line = true → p.getLast? ≠ some '\'')

/-- In front of a quote that a value begins with, no quote stands in the name. -/
theorem Remains.quote {name : List Char} (h : Remains name (spaces n ++ '\'' :: rest)) :
    ∃ p, name = p ++ '\'' :: rest ∧ p.getLast? ≠ some '\'' := by
  obtain ⟨p, hsplit, hp⟩ := h.suffix
  have hlast : (p ++ spaces n).getLast? ≠ some '\'' := by
    cases n with
    | zero =>
      rw [show p ++ spaces 0 = p from List.append_nil p]
      exact hp rfl
    | succ n =>
      rw [show spaces (n + 1) = spaces n ++ [' '] from List.replicate_succ', ← List.append_assoc,
        List.getLast?_concat]
      decide
  rw [← List.append_assoc] at hsplit
  -- The space that stands in front of the name is not the quote.
  cases hfront : p ++ spaces n with
  | nil =>
    rw [hfront] at hsplit
    exact absurd (List.cons.inj hsplit).1 (by decide)
  | cons d front =>
    rw [hfront] at hsplit hlast
    refine ⟨front, (List.cons.inj hsplit).2, fun hquote => hlast ?_⟩
    rw [List.getLast?_cons, hquote]
    rfl

/-- Behind a property, after which no quote may follow at once. -/
theorem Remains.behind {name : List Char} (h : Remains name (spaces n ++ c :: rest))
    (hsuffix : left <:+ rest) (hquote : startsWith '\'' left = false) : Remains name left := by
  obtain ⟨p, hsplit, -⟩ := h.suffix
  obtain ⟨taken, rfl⟩ := hsuffix
  refine ⟨⟨p ++ (spaces n ++ c :: taken), ?_, fun hstarts =>
    absurd (hstarts.symm.trans hquote) nofun⟩⟩
  rw [hsplit]
  simp

theorem Remains.inline {name : List Char} (h : Remains name line)
    (hname : ∀ d ∈ name, IsInline d ∧ d ≠ '"') : ∀ d ∈ line, IsInline d ∧ d ≠ '"' := by
  obtain ⟨p, hsplit, -⟩ := h.suffix
  intro d hd
  have hmem : d ∈ ' ' :: name := by
    rw [hsplit]
    exact List.mem_append_right p hd
  rcases List.mem_cons.mp hmem with rfl | hmem
  · exact ⟨⟨rfl, by decide, by decide⟩, by decide⟩
  · exact hname d hmem

/-- The punctuation of a flow collection on the line of a key. -/
theorem Accepted.flowValue (h : lexer.Accepted read a)
    (hdelivers : lexer.Delivers (kinds ++ [kind]))
    (hflow : IsFlow kind) (hattains : Attains kinds (ValueDue front)) :
      HasValue read a front below line := by
  have hrefused : (kind = .flowSequenceEnd ∨ kind = .flowMappingEnd ∨ kind = .flowEntry) → False :=
    fun hkind =>
      h.not_refused hdelivers (hattains.refused kind fun _ _ _ _ hdue => hdue.refuses hkind)
  cases hflow with
  | sequenceStart => exact .collection h hdelivers (hattains.flowStart (.inl rfl))
  | mappingStart => exact .collection h hdelivers (hattains.flowStart (.inr rfl))
  | sequenceEnd => exact (hrefused (.inl rfl)).elim
  | mappingEnd => exact (hrefused (.inr (.inl rfl))).elim
  | entry => exact (hrefused (.inr (.inr rfl))).elim

/-- **The value behind a key at the margin of an accepted text.** -/
theorem Accepted.value {name : List Char} (hname : ∀ d ∈ name, IsInline d ∧ d ≠ '"')
    (hbelow : StartsLine below) (hrepeats : Repeats name below) (h : lexer.Accepted read a)
    (hat : lexer.At (line ++ '\n' :: below) mark [0] false (Settled kinds) [])
    (hcolumn : mark.column ≠ 0)
    (hremains : Remains name line) (hattains : Attains kinds (ValueDue front)) :
    HasValue read a front below line := by
  induction hlength : line.length using Nat.strongRecOn generalizing line lexer mark kinds with
  | ind length ih =>
    have hinline := hremains.inline hname
    rcases gap_or_token fun d hd => (hinline d hd).1 with hgap | ⟨n, c, rest, rfl, hc⟩
    · exact h.leftOut hat hgap (fun d hd => (hinline d hd).1) hbelow hattains
    rw [List.append_assoc, List.cons_append] at hat
    have htoken : ∀ d ∈ c :: rest, IsInline d :=
      fun d hd => (hinline d (List.mem_append_right _ hd)).1
    obtain ⟨-, hothers⟩ := List.forall_mem_cons.mp htoken
    have hright := right_ne_zero hcolumn n
    -- Behind a property the value is still due, and the line is shorter.
    have hproperty : ∀ {next : Lexer} {kind : Token.Kind} {cursor : Cursor}, next.Accepted read a →
        next.At cursor.rest cursor.mark [0] false (Settled (kinds ++ [kind])) [] →
        OnLine rest below cursor ∧ startsWith '\'' cursor.rest = false →
        ((∃ name, kind = .anchor name) ∨ ∃ handle octets, kind = .tag handle octets) →
        ¬IsScalarLine (c :: rest) → HasValue read a front below (spaces n ++ c :: rest) := by
      rintro next kind cursor hnext hthere ⟨⟨⟨left, hsuffix, hleft⟩, hinside⟩, hquote⟩ hkind hnot
      rw [hleft] at hthere hquote
      have hunquoted : startsWith '\'' left = false := by
        cases left with
        | nil => rfl
        | cons d others => exact hquote
      have hshorter : left.length < length := by
        have hle := hsuffix.length_le
        rw [← hlength, List.length_append, List.length_cons]
        omega
      exact (ih _ hshorter hnext hthere hinside (hremains.behind hsuffix hunquoted)
        (hattains.property hkind)
        rfl).behindProperty hc hsuffix.length_le hnot
    obtain ⟨next, hnext, ⟨kind, hflow, hdelivers⟩ | ⟨kind, cursor, allowed, hreads, hthere⟩⟩ :=
      h.token hat (hat.meets_token hc) hright hattains
    · exact hnext.flowValue hdelivers hflow hattains
    have hon : OnLine rest below ⟨rest ++ '\n' :: below, (mark.right n).next⟩ :=
      ⟨⟨rest, List.suffix_refl _, rfl⟩, Nat.succ_ne_zero _⟩
    cases hreads with
    | anchor hanchor hread =>
      subst hanchor
      exact hproperty hnext hthere (readName_onLine hread hon) (.inl ⟨_, rfl⟩)
        (not_isScalarLine (by decide) (by decide))
    | aliasTo =>
      exact (hnext.not_refused hthere.delivers (hattains.refused _ fun _ _ _ _ hdue =>
        hdue.refuses_alias)).elim
    | tag htag hread =>
      subst htag
      have htagged : OnLine ('!' :: rest) below ⟨'!' :: (rest ++ '\n' :: below), mark.right n⟩ :=
        ⟨⟨'!' :: rest, List.suffix_refl _, rfl⟩, hright⟩
      have hshorter := readTag_length_lt hread
      obtain ⟨⟨⟨left, hsuffix, hleft⟩, hinside⟩, hquote⟩ := readTag_onLine hread htagged
      -- The mark of the tag is behind it, so what is left is left of the rest.
      rcases List.suffix_cons_iff.mp hsuffix with rfl | hsuffix
      · rw [hleft] at hshorter
        exact absurd hshorter (Nat.lt_irrefl _)
      · exact hproperty hnext hthere ⟨⟨⟨left, hsuffix, hleft⟩, hinside⟩, hquote⟩ (.inr ⟨_, _, rfl⟩)
          (not_isScalarLine (by decide) (by decide))
    | block hmark hread =>
      obtain ⟨rfl, last, rfl⟩ :=
        BlockText.read_empty hread hon (fun d hd => (hothers d hd).1) hbelow
      refine hnext.endsBelow hthere hbelow (hattains.valueRead [] _) hc
        (Tells.shorter (Nat.succ_pos _) ?_)
      rcases hmark with rfl | rfl
      · exact not_isScalarLine (by decide) (by decide)
      · exact not_isScalarLine (by decide) (by decide)
    | singleQuoted hquote hread =>
      subst hquote
      obtain ⟨p, rfl, hp⟩ := hremains.quote
      exact hnext.quotedValue hthere hread (fun d hd => (hname d hd).1) hbelow
        (hattains.valueRead _ _) hrepeats hp
    | doubleQuoted hquote =>
      exact absurd hquote (hinline c (by simp)).2
    | plain hbegins hread =>
      have hmargin : marginOf [0] ≤ (mark.right n).next.column := Nat.succ_le_succ (Nat.zero_le _)
      have hends := PlainScalar.read_line rfl (Nat.succ_pos _) hbelow rest [c] .closed _ _ _
        (fun d hd => (hothers d hd).1) rfl hmargin ⟨c, [], rfl, hc.2.1⟩ nofun hread
      exact hnext.plainValue hthere hends htoken hbelow (hattains.valueRead _ _) hc hbegins.onLine

end Lexer

end Provisioning.Yaml
