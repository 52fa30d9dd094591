import Provisioning.Proofs.Yaml.Token.Lines

/-!
# How far a node on a line goes

The properties of a node stay on their line. A plain scalar stays on it too if the line below is not
indented, and then it is the rest of its line up to a comment (`PlainScalar.read_line`); a block
scalar is empty in that case (`BlockText.read_empty`). Only quotes may reach beyond the line: a
single-quoted scalar goes up to the first quote that is not written twice, wherever that is
(`QuotedScalar.readSingle_behind`).
-/

namespace Provisioning.Yaml

open Provisioning.Outcome (bind_eq_ok)

/-- **A place inside a line**: what is left of the line, and the lines below it. -/
structure OnLine (line below : List Char) (cursor : Cursor) : Prop where
  left : ∃ left, left <:+ line ∧ cursor.rest = left ++ '\n' :: below
  column : cursor.mark.column ≠ 0

namespace OnLine

variable {line below rest : List Char} {cursor : Cursor} {c : Char} {mark : Mark}

/-- Past a character of the line. -/
theorem next (h : OnLine line below cursor) (hrest : cursor.rest = c :: rest) (hc : c ≠ '\n')
    (hmark : mark.column ≠ 0) : OnLine line below ⟨rest, mark⟩ := by
  obtain ⟨left, hsuffix, hleft⟩ := h.left
  rw [hrest] at hleft
  cases left with
  | nil => exact absurd (List.cons.inj hleft).1 hc
  | cons d left =>
    obtain ⟨rfl, hbehind⟩ := List.cons.inj hleft
    exact ⟨⟨left, (List.suffix_cons c left).trans hsuffix, hbehind⟩, hmark⟩

theorem takeWhile {kind : Char → Bool} (h : OnLine line below cursor) (hkind : kind '\n' = false) :
    OnLine line below (cursor.takeWhile kind).2 := by
  obtain ⟨left, hsuffix, hleft⟩ := h.left
  have hcolumn := h.column
  refine ⟨⟨left.dropWhile kind, (List.dropWhile_suffix kind).trans hsuffix, ?_⟩, ?_⟩
  · show cursor.rest.dropWhile kind = _
    rw [hleft]
    clear hleft hsuffix
    induction left with
    | nil =>
      rw [List.nil_append, List.dropWhile_cons, hkind]
      rfl
    | cons d left ih =>
      rw [List.cons_append, List.dropWhile_cons, List.dropWhile_cons]
      by_cases hd : kind d
      · rw [if_pos hd, if_pos hd]
        exact ih
      · rw [if_neg hd, if_neg hd]
        rfl
  · show cursor.mark.column + _ ≠ 0
    omega

end OnLine

theorem startsWith_ne {c d : Char} (h : c ≠ d) (rest : List Char) :
    startsWith c (d :: rest) = false :=
  beq_eq_false_iff_ne.mpr h

/-! ## Properties -/

section

variable {line below : List Char} {start : Mark} {cursor : Cursor}

theorem not_startsWith_quote {text : List Char} (h : endsName text = true) :
    startsWith '\'' text = false := by
  cases text with
  | nil => rfl
  | cons c rest =>
    refine startsWith_ne ?_ rest
    rintro rfl
    cases h

/-- A name stays on its line, and no quote follows it. -/
theorem readName_onLine {activity : Activity} {result : List Char × Cursor}
    (h : readName activity start cursor = .ok result) (hon : OnLine line below cursor) :
    OnLine line below result.2 ∧ startsWith '\'' result.2.rest = false := by
  have htaken := hon.takeWhile (show isNameChar '\n' = false by decide)
  unfold readName at h
  dsimp only at h
  split at h
  · cases h
  · rename_i hends
    cases h
    refine ⟨htaken, ?_⟩
    rw [Bool.not_eq_true, Bool.or_eq_false_iff, Bool.not_eq_false'] at hends
    exact not_startsWith_quote hends.2

/-- Digits of an escaped octet end no line. -/
theorem octet?_inline {high low : Char} {octet : Nat} (h : octet? high low = some octet) :
    high ≠ '\n' ∧ low ≠ '\n' := by
  have hnone : QuotedScalar.hexValue? '\n' = none := by decide
  unfold octet? at h
  constructor
  · rintro rfl
    rw [hnone] at h
    cases h
  · rintro rfl
    rw [hnone] at h
    cases hhigh : QuotedScalar.hexValue? high with
    | none => rw [hhigh] at h; cases h
    | some value => rw [hhigh] at h; cases h

theorem readTagOctets_onLine {fault : Problem → Mark → TextFault} {anywhere : Bool}
    {octets : List UInt8} {owed : Nat} {mark : Mark} {rest : List Char}
    {result : List UInt8 × Cursor}
    (h : readTagOctets fault anywhere octets owed mark rest = .ok result)
    (hon : OnLine line below ⟨rest, mark⟩) : OnLine line below result.2 := by
  fun_induction readTagOctets with
  | case1 | case2 => cases h
  | case3 octets owed mark high low rest octet hoctet owed' howed ih =>
    obtain ⟨hhigh, hlow⟩ := octet?_inline hoctet
    have hcolumn : (mark.right 3).column ≠ 0 := Nat.succ_ne_zero _
    exact ih h (((hon.next rfl (by decide) hcolumn).next rfl hhigh hcolumn).next rfl hlow hcolumn)
  | case4 =>
    cases h
    exact hon
  | case5 | case6 => cases h
  | case7 octets owed mark c rest _ _ htag ih =>
    have hc : c ≠ '\n' := by
      rintro rfl
      exact absurd htag (by cases anywhere <;> decide)
    exact ih h (hon.next rfl hc (Nat.succ_ne_zero _))
  | case8 =>
    cases h
    exact hon

theorem readTagPart_onLine {activity : Activity} {anywhere : Bool} {handle : List Char}
    {result : List UInt8 × Cursor}
    (h : readTagPart activity start anywhere handle cursor = .ok result)
    (hon : OnLine line below cursor) : OnLine line below result.2 := by
  obtain ⟨⟨octets, behind⟩, hoctets, h⟩ := bind_eq_ok.mp h
  have hbehind := readTagOctets_onLine hoctets hon
  dsimp only at h
  split at h
  · cases h
  · cases h
    exact hbehind

theorem readHandle_onLine {inDirective : Bool} {result : List Char × Cursor}
    (h : readHandle inDirective start cursor = .ok result) (hon : OnLine line below cursor) :
    OnLine line below result.2 := by
  unfold readHandle at h
  split at h
  · rename_i rest hrest
    have hcolumn : cursor.mark.next.column ≠ 0 := Nat.succ_ne_zero _
    have hname :=
      (hon.next hrest (by decide) hcolumn).takeWhile (show isNameChar '\n' = false by decide)
    dsimp only at h
    split at h
    · rename_i behind hmark
      cases h
      exact hname.next hmark (by decide) (Nat.succ_ne_zero _)
    · split at h
      · cases h
      · cases h
        exact hname
  · cases h

theorem readTagParts_onLine {result : (List Char × List UInt8) × Cursor}
    (h : readTagParts start cursor = .ok result) (hon : OnLine line below cursor) :
    OnLine line below result.2 := by
  unfold readTagParts at h
  split at h
  · rename_i rest hrest
    obtain ⟨⟨octets, behind⟩, hpart, h⟩ := bind_eq_ok.mp h
    have hcolumn : (cursor.mark.right 2).column ≠ 0 := Nat.succ_ne_zero _
    have hbehind := readTagPart_onLine hpart
      ((hon.next hrest (by decide) hcolumn).next rfl (by decide) hcolumn)
    dsimp only at h hbehind
    split at h
    · rename_i hclose
      cases h
      exact hbehind.next hclose (by decide) (Nat.succ_ne_zero _)
    · cases h
  · obtain ⟨⟨handle, behind⟩, hhandle, h⟩ := bind_eq_ok.mp h
    have hbehind := readHandle_onLine hhandle hon
    dsimp only at h
    split at h
    · obtain ⟨⟨octets, last⟩, hpart, h⟩ := bind_eq_ok.mp h
      cases h
      exact readTagPart_onLine hpart hbehind
    · obtain ⟨⟨octets, last⟩, hpart, h⟩ := bind_eq_ok.mp h
      have hlast := readTagPart_onLine hpart hbehind
      dsimp only at h
      split at h
      · cases h
        exact hlast
      · cases h
        exact hlast

/-- **A tag stays on its line**, and no quote follows it. -/
theorem readTag_onLine {result : (List Char × List UInt8) × Cursor}
    (h : readTag false start cursor = .ok result) (hon : OnLine line below cursor) :
    OnLine line below result.2 ∧ startsWith '\'' result.2.rest = false := by
  obtain ⟨⟨tag, behind⟩, hparts, h⟩ := bind_eq_ok.mp h
  have hbehind := readTagParts_onLine hparts hon
  dsimp only at h
  rw [Bool.false_and, Bool.or_false] at h
  split at h
  · rename_i hends
    cases h
    refine ⟨hbehind, not_startsWith_quote ?_⟩
    cases hrest : behind.rest with
    | nil => rfl
    | cons c rest =>
      rw [hrest] at hends
      show (isBlank c || isBreak c || _ || _ || _ || _ || _ || _ || _ || _) = true
      rw [show (isBlank c || isBreak c) = true from hends]
      rfl
  · cases h

end

/-! ## Plain scalars -/

namespace PlainScalar

variable {frame : Frame} {below : List Char}

/-- What a plain scalar makes of a line behind the blanks and the text read so far: the rest of the
line but for the blanks at its end, or less than that up to a comment or a colon. -/
inductive Ends (below line : List Char) (gap : Gap) (text : List Char) (scalar : PlainScalar) :
    Prop where
  | line {last : Nat} {blanks : List Char} {c : Char} :
      scalar.crossedBreak = true → scalar.cursor = ⟨below, ⟨last, 0, 0⟩⟩ →
      (gap.folded ++ text).reverse ++ line = scalar.text ++ blanks →
        (∀ d ∈ blanks, isBlank d = true) →
      scalar.text.getLast? = some c → isBlank c = false → hasComment gap.isOpen line = false →
      Ends below line gap text scalar
  | before {c : Char} {left : List Char} :
      scalar.crossedBreak = false → (c :: left) <:+ line →
        scalar.cursor.rest = c :: left ++ '\n' :: below →
      scalar.cursor.mark.column ≠ 0 → isBlank c = false →
      scalar.text.length + (c :: left).length ≤ (gap.folded ++ text).length + line.length →
      (c = '#' → hasComment gap.isOpen line = true) → Ends below line gap text scalar

theorem reverse_read {c : Char} {front line : List Char} :
    (c :: front).reverse ++ line = front.reverse ++ c :: line := by
  rw [List.reverse_cons, List.append_assoc]
  rfl

/-- A blank or a character of the text is added to what is read. -/
theorem Ends.cons {c : Char} {line text text' : List Char} {gap gap' : Gap} {scalar : PlainScalar}
    (hfolded : gap'.folded ++ text' = c :: (gap.folded ++ text)) (hopen : gap'.isOpen = isBlank c)
    (hcomment : (gap.isOpen && c == '#') = false) (h : Ends below line gap' text' scalar) :
    Ends below (c :: line) gap text scalar := by
  have hline : hasComment gap.isOpen (c :: line) = hasComment gap'.isOpen line := by
    rw [hasComment, hcomment, Bool.false_or, hopen]
  cases h with
  | line hcrossed hcursor htext hblanks hlast hc hnone =>
    refine .line hcrossed hcursor ?_ hblanks hlast hc (hline.trans hnone)
    rw [← htext, hfolded, reverse_read]
  | before hcrossed hsuffix hrest hcolumn hc hlength hsome =>
    refine .before hcrossed (hsuffix.trans (List.suffix_cons c line)) hrest hcolumn hc ?_
      fun hhash => hline.trans (hsome hhash)
    rw [hfolded] at hlength
    simp only [List.length_cons] at hlength ⊢
    omega

/-- At the end of its line a scalar ends if the line below is not indented. -/
theorem read_lineEnd {text : List Char} {gap : Gap} {stop mark : Mark} {scalar : PlainScalar}
    (hflow : frame.inFlow = false) (hmargin : 0 < frame.margin) (hbelow : StartsLine below)
    (hgap : gap.hasBreak = false) (htext : ∃ c others, text = c :: others ∧ isBlank c = false)
    (hblanks : ∀ c ∈ gap.folded, isBlank c = true)
    (h : read frame text gap stop mark ('\n' :: below) = .ok scalar) :
      Ends below [] gap text scalar := by
  rw [read, if_neg (by decide), if_pos (by decide)] at h
  have hbreaks : gap.lineEnd '\n' = .breaks (some '\n') [] := by
    cases gap with
    | breaks first further => cases hgap
    | _ => rfl
  have hlead := Lexer.read_lead hbelow frame.start stop text hmargin 0 (mark.line + 1) []
  have hframe : frame = ⟨frame.start, false, frame.margin⟩ := by
    rw [← hflow]
  rw [hbreaks, show mark.newline = ⟨mark.line + 1, 0, 0⟩ from rfl, hframe] at h
  rw [show lead 0 0 ++ below = below from rfl] at hlead
  rw [hlead] at h
  cases h
  obtain ⟨c, others, rfl, hc⟩ := htext
  have hsplit : (gap.folded ++ c :: others).reverse ++ []
      = (c :: others).reverse ++ gap.folded.reverse := by
    rw [List.append_nil, List.reverse_append]
  have hlast : (c :: others).reverse.getLast? = some c := by
    rw [List.getLast?_reverse]
    rfl
  exact .line rfl rfl hsplit (fun d hd => hblanks d (List.mem_reverse.mp hd)) hlast hc rfl

/-- **On its line a plain scalar goes up to a comment or a colon**, or else it is the whole line but
for the blanks at its end. The line below does not belong to it if it is not indented. -/
theorem read_line (hflow : frame.inFlow = false) (hmargin : 0 < frame.margin)
    (hbelow : StartsLine below) :
    ∀ (line text : List Char) (gap : Gap) (stop mark : Mark) (scalar : PlainScalar),
      (∀ c ∈ line, isBreak c = false) → gap.hasBreak = false → frame.margin ≤ mark.column →
      (∃ c others, text = c :: others ∧ isBlank c = false) → (∀ c ∈ gap.folded, isBlank c = true) →
      read frame text gap stop mark (line ++ '\n' :: below) = .ok scalar →
      Ends below line gap text scalar := by
  intro line
  induction line with
  | nil =>
    intro text gap stop mark scalar _ hgap _ htext hblanks h
    exact read_lineEnd hflow hmargin hbelow hgap htext hblanks h
  | cons c line ih =>
    intro text gap stop mark scalar hline hgap hcolumn htext hblanks h
    obtain ⟨hbreak, hline⟩ := List.forall_mem_cons.mp hline
    have hnext : frame.margin ≤ (mark.past [c]).column := Nat.le_succ_of_le hcolumn
    rw [List.cons_append, read] at h
    by_cases hblank : isBlank c = true
    · have hhash : (c == '#') = false := by
        rw [beq_eq_false_iff_ne]
        rintro rfl
        exact absurd hblank (by decide)
      rw [if_pos hblank, hgap, Bool.and_false, Bool.false_and, if_neg Bool.false_ne_true] at h
      have hfolded := QuotedScalar.folded_blank hgap c
      have hends :=
        ih text (gap.blank c) stop (mark.past [c]) scalar hline (QuotedScalar.hasBreak_blank hgap c)
        hnext htext (by rw [hfolded]; exact List.forall_mem_cons.mpr ⟨hblank, hblanks⟩) h
      refine hends.cons (by rw [hfolded]; rfl) ?_ (by rw [hhash, Bool.and_false])
      rw [hblank]
      cases gap <;> rfl
    · rw [if_neg hblank, if_neg (by rw [hbreak]; exact Bool.false_ne_true)] at h
      rw [Bool.not_eq_true] at hblank
      have hlength : text.reverse.length + (c :: line).length
          ≤ (gap.folded ++ text).length + (c :: line).length := by
        rw [List.length_reverse, List.length_append]
        omega
      have hmark : mark.column ≠ 0 := by omega
      rw [excludes_inside hflow hcolumn hmark] at h
      by_cases hhash : (gap.isOpen && c == '#') = true
      · rw [if_pos hhash] at h
        cases h
        exact .before hgap (List.suffix_refl _) rfl hmark hblank hlength
          fun _ => by rw [hasComment, hhash, Bool.true_or]
      · rw [if_neg hhash, hflow, Bool.false_and, Bool.false_and, if_neg Bool.false_ne_true] at h
        rw [Bool.not_eq_true] at hhash
        by_cases hend : frame.endsAt c (line ++ '\n' :: below) = true
        · rw [if_pos hend] at h
          cases h
          refine .before hgap (List.suffix_refl _) rfl hmark hblank hlength ?_
          rintro rfl
          unfold Frame.endsAt at hend
          rw [hflow] at hend
          exact absurd hend (by simp)
        · rw [if_neg hend] at h
          have hends := ih (c :: (gap.folded ++ text)) .closed (mark.past [c])
            (mark.past [c]) scalar hline
            rfl hnext
            ⟨c, _, rfl, hblank⟩ (by simp [Gap.folded]) h
          have hfolded : Gap.closed.folded ++ c :: (gap.folded ++ text)
            = c :: (gap.folded ++ text) := rfl
          exact hends.cons hfolded hblank.symm hhash

end PlainScalar

/-! ## Single quotes -/

/-- What follows the first quote that is not written twice. -/
def behindQuote : List Char → Option (List Char)
  | [] => none
  | '\'' :: '\'' :: rest => behindQuote rest
  | '\'' :: rest => some rest
  | _ :: rest => behindQuote rest

section

variable {c : Char} {rest behind front back tail : List Char}

theorem behindQuote_cons (h : c ≠ '\'') (rest : List Char) :
    behindQuote (c :: rest) = behindQuote rest := by
  rw [behindQuote]
  · rintro rest rfl
    exact absurd rfl h
  · exact fun h' => h h'

theorem behindQuote_quote (h : startsWith '\'' rest = false) :
    behindQuote ('\'' :: rest) = some rest := by
  rw [behindQuote]
  rintro other rfl
  cases h

theorem behindQuote_suffix (h : behindQuote rest = some behind) : '\'' :: behind <:+ rest := by
  fun_induction behindQuote with
  | case1 => cases h
  | case2 rest ih => exact (ih h).trans ((List.suffix_cons _ _).trans (List.suffix_cons _ _))
  | case3 rest _ =>
    cases h
    exact List.suffix_refl _
  | case4 c rest _ _ ih => exact (ih h).trans (List.suffix_cons _ _)

/-- A text whose quotes are all written twice does not matter. -/
theorem behindQuote_none (h : behindQuote rest = none) (tail : List Char) :
    behindQuote (rest ++ tail) = behindQuote tail := by
  fun_induction behindQuote rest with
  | case1 => rfl
  | case2 rest ih => exact ih h
  | case3 => cases h
  | case4 c rest _ hquote ih =>
    rw [List.cons_append, behindQuote_cons fun hc => hquote hc]
    exact ih h

/-- Behind the quote that ends a text no other may follow. -/
theorem behindQuote_some (h : behindQuote rest = some behind)
    (htail : behind = [] → startsWith '\'' tail = false) :
    behindQuote (rest ++ tail) = some (behind ++ tail) := by
  fun_induction behindQuote rest with
  | case1 => cases h
  | case2 rest ih => exact ih h
  | case3 rest hsecond =>
    cases h
    refine behindQuote_quote ?_
    cases behind with
    | nil => exact htail rfl
    | cons d others =>
      refine startsWith_ne ?_ others
      rintro rfl
      exact hsecond others rfl
  | case4 c rest _ hquote ih =>
    rw [List.cons_append, behindQuote_cons fun hc => hquote hc]
    exact ih h

/-- A text that no quote ends is ended by its own opening quote, if both are written again. -/
theorem behindQuote_again (h : behindQuote rest = none) (htail : startsWith '\'' tail = false) :
    ∃ behind, behind <:+ rest ∧ behindQuote ('\'' :: (rest ++ tail)) = some (behind ++ tail) := by
  fun_induction behindQuote rest with
  | case1 => exact ⟨[], List.suffix_refl _, behindQuote_quote htail⟩
  | case2 rest ih =>
    obtain ⟨behind, hsuffix, hbehind⟩ := ih h
    exact ⟨behind, hsuffix.trans ((List.suffix_cons _ _).trans (List.suffix_cons _ _)), hbehind⟩
  | case3 => cases h
  | case4 c rest _ hquote ih =>
    exact ⟨c :: rest, List.suffix_refl _,
      behindQuote_quote (startsWith_ne (fun hc => hquote hc.symm) _)⟩

/-- **A quote that is left open on one line is closed by the same text on another**, at the latest
by the quote that opened it. -/
theorem behindQuote_twice (hfront : front.getLast? ≠ some '\'') (hback : behindQuote back = none)
    (htail : startsWith '\'' tail = false) :
    ∃ behind, behind <:+ front ++ '\'' :: back ∧
      behindQuote (front ++ '\'' :: (back ++ tail)) = some (behind ++ tail) := by
  cases hclosed : behindQuote front with
  | none =>
    obtain ⟨behind, hsuffix, hbehind⟩ := behindQuote_again hback htail
    refine ⟨behind, hsuffix.trans ((List.suffix_cons _ _).trans (List.suffix_append _ _)), ?_⟩
    rw [behindQuote_none hclosed]
    exact hbehind
  | some behind =>
    obtain ⟨before, hbefore⟩ := behindQuote_suffix hclosed
    refine ⟨behind ++ '\'' :: back, ⟨before ++ ['\''], ?_⟩, ?_⟩
    · rw [← hbefore]
      simp
    · rw [List.append_assoc]
      refine behindQuote_some hclosed fun hnil => absurd ?_ hfront
      rw [← hbefore, hnil, List.getLast?_concat]

end

namespace QuotedScalar

variable {start mark : Mark} {text rest : List Char} {gap : Gap} {scalar : QuotedScalar}

theorem length_blank_le (gap : Gap) (c : Char) :
    (gap.blank c).folded.length ≤ gap.folded.length + 1 := by
  cases gap with
  | closed => exact Nat.le_refl _
  | blanks cs => exact Nat.le_refl _
  | breaks first further => exact Nat.le_succ _

theorem length_lineEnd_le (gap : Gap) (c : Char) :
    (gap.lineEnd c).folded.length ≤ gap.folded.length + 1 := by
  have hfirst : (Gap.breaks (some c) []).folded.length = 1 := by
    unfold Gap.folded
    dsimp only
    split <;> rfl
  cases gap with
  | closed => exact Nat.le_of_eq hfirst
  | blanks cs => exact Nat.le_trans (Nat.le_of_eq hfirst) (Nat.le_add_left _ _)
  | breaks first further =>
    cases first with
    | none => exact Nat.le_refl _
    | some first =>
      show (Gap.breaks (some first) (c :: further)).folded.length ≤ _
      unfold Gap.folded
      dsimp only
      by_cases hfirst : (first == '\n') = true
      · rw [if_pos hfirst, if_pos hfirst]
        cases further with
        | nil => exact Nat.le_succ 1
        | cons second further => exact Nat.le_refl _
      · rw [if_neg hfirst, if_neg hfirst]
        exact Nat.le_refl _

/-- **A single-quoted scalar goes up to the first quote that is not written twice**, and is no
longer than what it was read from. -/
theorem readSingle_behind (h : readSingle start text gap mark rest = .ok scalar) :
    behindQuote rest = some scalar.cursor.rest ∧ scalar.cursor.mark.column ≠ 0 ∧
      scalar.text.length + scalar.cursor.rest.length
        < (gap.folded ++ text).length + rest.length := by
  fun_induction readSingle with
  | case1 => cases h
  | case2 text gap mark c rest hblank ih =>
    obtain ⟨hbehind, hcolumn, hlength⟩ := ih h
    have hquote : c ≠ '\'' := by
      rintro rfl
      exact absurd hblank (by decide)
    have hgap := length_blank_le gap c
    refine ⟨(behindQuote_cons hquote rest).trans hbehind, hcolumn, ?_⟩
    simp only [List.length_append, List.length_cons] at hlength ⊢
    omega
  | case3 text gap mark c rest _ hbreak ih =>
    obtain ⟨hbehind, hcolumn, hlength⟩ := ih h
    have hquote : c ≠ '\'' := by
      rintro rfl
      exact absurd hbreak (by decide)
    have hgap := length_lineEnd_le gap c
    refine ⟨(behindQuote_cons hquote rest).trans hbehind, hcolumn, ?_⟩
    simp only [List.length_append, List.length_cons] at hlength ⊢
    omega
  | case4 => cases h
  | case5 text gap mark c _ _ hquote rest _ ih =>
    obtain ⟨hbehind, hcolumn, hlength⟩ := ih h
    cases beq_iff_eq.mp hquote
    refine ⟨hbehind, hcolumn, ?_⟩
    simp only [Gap.folded, List.nil_append, List.length_cons] at hlength ⊢
    omega
  | case6 text gap mark c rest _ _ _ hquote hsecond =>
    cases beq_iff_eq.mp hquote
    cases h
    refine ⟨behindQuote_quote ?_, Nat.succ_ne_zero _, ?_⟩
    · cases rest with
      | nil => rfl
      | cons d others =>
      refine startsWith_ne ?_ others
      rintro rfl
      exact hsecond others rfl
    · show (gap.folded ++ text).reverse.length + rest.length < _
      rw [List.length_reverse, List.length_cons]
      omega
  | case7 text gap mark c rest _ _ _ hquote ih =>
    obtain ⟨hbehind, hcolumn, hlength⟩ := ih h
    have hne : c ≠ '\'' := fun hc => hquote (beq_iff_eq.mpr hc)
    refine ⟨(behindQuote_cons hne rest).trans hbehind, hcolumn, ?_⟩
    simp only [Gap.folded, List.nil_append, List.length_cons] at hlength ⊢
    omega

end QuotedScalar

/-! ## Block scalars -/

theorem OnLine.skipComment {line below : List Char} {cursor : Cursor}
    (h : OnLine line below cursor) : OnLine line below cursor.skipComment := by
  have hblanks : OnLine line below cursor.skipBlanks := h.takeWhile (by decide)
  unfold Cursor.skipComment
  dsimp only
  split
  · exact hblanks.takeWhile (by decide)
  · exact hblanks

/-- At the end of a line nothing is left of it. -/
theorem OnLine.skipBreak {line below : List Char} {cursor : Cursor} (h : OnLine line below cursor)
    (hline : ∀ c ∈ line, isBreak c = false) (hends : endsLine cursor.rest = true) :
    cursor.skipBreak = ⟨below, cursor.mark.newline⟩ := by
  obtain ⟨left, hsuffix, hleft⟩ := h.left
  rw [hleft] at hends
  cases left with
  | nil =>
    unfold Cursor.skipBreak
    rw [hleft]
    rfl
  | cons c left =>
    have hbreak := hline c (hsuffix.subset List.mem_cons_self)
    exact absurd hends (by rw [List.cons_append]; show ¬ isBreak c = true; rw [hbreak]; decide)

namespace BlockHeader

variable {line below : List Char} {start : Mark} {cursor : Cursor}

theorem readChomping_onLine (h : OnLine line below cursor) :
    OnLine line below (readChomping cursor).2 := by
  unfold readChomping
  split
  · exact h
  · rename_i c rest hrest
    split
    · exact h
    · rename_i chomping hchomping
      refine h.next hrest ?_ (Nat.succ_ne_zero _)
      rintro rfl
      cases hchomping

/-- An indentation is never zero. -/
theorem readIndentation_onLine {result : Option Nat × Cursor}
    (h : readIndentation start cursor = .ok result)
    (hon : OnLine line below cursor) :
    OnLine line below result.2 ∧ ∀ n ∈ result.1, 0 < n := by
  unfold readIndentation at h
  split at h
  · cases h
    exact ⟨hon, nofun⟩
  · rename_i c rest hrest
    split at h
    · cases h
    · rename_i hzero
      split at h
      · rename_i hdigit
        cases h
        have hc : c ≠ '\n' := by
          rintro rfl
          cases hdigit
        have hlow : 48 ≤ c.toNat := by
          unfold Char.isDigit at hdigit
          simp only [Bool.and_eq_true, decide_eq_true_eq, ge_iff_le,
            UInt32.le_iff_toNat_le] at hdigit
          exact hdigit.1
        have hne : c.toNat ≠ '0'.toNat := fun heq => hzero (beq_iff_eq.mpr (Char.toNat_inj.mp heq))
        have hpositive : 0 < c.toNat - 48 :=
          Nat.sub_pos_of_lt (Nat.lt_of_le_of_ne hlow (Ne.symm hne))
        refine ⟨hon.next hrest hc (Nat.succ_ne_zero _), fun n hn => ?_⟩
        cases hn
        exact hpositive
      · cases h
        exact ⟨hon, nofun⟩

theorem readIndicators_onLine {header : BlockHeader} {behind : Cursor}
    (h : readIndicators start cursor = .ok (header, behind)) (hon : OnLine line below cursor) :
    OnLine line below behind ∧ ∀ n ∈ header.indentation, 0 < n := by
  have hchomping := readChomping_onLine hon
  unfold readIndicators at h
  split at h
  · rename_i chomping between heq
    rw [heq] at hchomping
    obtain ⟨⟨indentation, last⟩, hindentation, h⟩ := bind_eq_ok.mp h
    cases h
    exact readIndentation_onLine hindentation hchomping
  · rename_i between heq
    rw [heq] at hchomping
    obtain ⟨⟨indentation, last⟩, hindentation, h⟩ := bind_eq_ok.mp h
    obtain ⟨hlast, hpositive⟩ := readIndentation_onLine hindentation hchomping
    cases indentation with
    | none =>
      cases h
      exact ⟨hlast, nofun⟩
    | some n =>
      cases h
      exact ⟨readChomping_onLine hlast, hpositive⟩

end BlockHeader

namespace BlockText

variable {line below text : List Char} {start : Mark} {literal : Bool} {margin : Nat}
  {cursor behind : Cursor}

/-- The line below a header does not belong to the scalar if it is not indented. -/
theorem readLines_none {column : Nat} (hcolumn : 0 < column) (hbelow : StartsLine below)
    (block : BlockText) (n : Nat) :
    readLines start literal column block false ⟨n, 0, 0⟩ below
      = .ok (block, ⟨below, ⟨n, 0, 0⟩⟩) := by
  rcases hbelow with rfl | ⟨c, rest, rfl, hbreak, hblank, _⟩
  · rfl
  · unfold isBlank at hblank
    rw [Bool.or_eq_false_iff] at hblank
    have hne : ((0 : Nat) == column) = false := beq_eq_false_iff_ne.mpr (by omega)
    rw [readLines, if_neg (by rw [hbreak]; decide), if_neg (by decide),
      if_neg (by rw [hne]; decide), if_neg (by rw [hblank.1]; decide),
        if_neg (by rw [hblank.2]; decide)]

theorem findIndentation_none (hbelow : StartsLine below) (n : Nat) :
    findIndentation start 0 [] ⟨n, 0, 0⟩ below = .ok (0, [], ⟨below, ⟨n, 0, 0⟩⟩) := by
  rcases hbelow with rfl | ⟨c, rest, rfl, hbreak, hblank, _⟩
  · rfl
  · unfold isBlank at hblank
    rw [Bool.or_eq_false_iff] at hblank
    rw [findIndentation, if_neg (by rw [hblank.1]; decide), if_neg (by rw [hblank.2]; decide),
      if_neg (by rw [hbreak]; decide)]
    rfl

/-- **A block scalar at the margin is empty** if the line below it is not indented. -/
theorem read_empty (h : read start literal 0 margin cursor = .ok (text, behind))
    (hon : OnLine line below cursor) (hline : ∀ c ∈ line, isBreak c = false)
    (hbelow : StartsLine below) : text = [] ∧ ∃ n, behind = ⟨below, ⟨n, 0, 0⟩⟩ := by
  obtain ⟨⟨header, between⟩, hheader, h⟩ := bind_eq_ok.mp h
  -- The header takes up its line, so the lines of the scalar would begin below it.
  obtain ⟨⟨n, rfl⟩, hindentation⟩ :
      (∃ n, between = ⟨below, ⟨n, 0, 0⟩⟩) ∧ ∀ n ∈ header.indentation, 0 < n := by
    obtain ⟨⟨header', last⟩, hindicators, hheader⟩ := bind_eq_ok.mp hheader
    obtain ⟨hlast, hpositive⟩ := BlockHeader.readIndicators_onLine hindicators hon
    dsimp only at hheader
    split at hheader
    · rename_i hends
      have hbreak := hlast.skipComment.skipBreak hline hends
      cases hheader
      exact ⟨⟨_, hbreak⟩, hpositive⟩
    · cases hheader
  -- Whatever its column is, the line below is not at it.
  have hlines : ∀ column, 0 < column →
      (readLines start literal column (ofEmptyLines []) false ⟨n, 0, 0⟩ below >>= fun result =>
        pure (result.1.finish header.chomping, result.2)) = .ok (text, behind) →
      text = [] ∧ ∃ n, behind = ⟨below, ⟨n, 0, 0⟩⟩ := by
    intro column hcolumn hread
    rw [readLines_none hcolumn hbelow, Outcome.ok_bind] at hread
    have hfinish : (ofEmptyLines []).finish header.chomping = [] := by
      cases header.chomping <;> rfl
    cases hread
    exact ⟨hfinish, n, rfl⟩
  dsimp only at h
  cases hheaderIndentation : header.indentation with
  | none =>
    rw [hheaderIndentation] at h
    dsimp only at h
    rw [findIndentation_none hbelow, Outcome.ok_bind] at h
    exact hlines _ (Nat.lt_of_lt_of_le Nat.zero_lt_one (Nat.le_max_right _ _)) h
  | some indentation =>
    rw [hheaderIndentation] at h
    exact hlines _ (Nat.lt_of_lt_of_le (hindentation indentation hheaderIndentation)
      (Nat.le_add_left _ _)) h

end BlockText

end Provisioning.Yaml
