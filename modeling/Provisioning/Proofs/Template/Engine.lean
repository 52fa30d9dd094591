import Provisioning.Outcome
import Provisioning.Proofs.Template.Replacement
import Provisioning.Template.Engine

/-!
# What the engine makes of the text of a body

A body is a text that was cut before, and its source is what the engine is given. Cutting the
source gives the body back: literal parts without braces are passed over, and a placeholder holds
a name with a blank on each side. Only where one literal ends and the next begins is forgotten, so
the pieces are compared by what they are filled to. A tidy body is then rendered just when the
context has a value for each of its fields, and all faults are the engine's own.
-/

namespace Provisioning.Template

/-- A piece with the name of its field. -/
def Piece.named {φ : Type} (name : φ → String) : Piece φ → Piece String
  | .literal text => .literal text
  | .field place => .field (name place)

namespace Engine

open Body (hasNoBrace isTidy not_mem_of_hasNoBrace placeholder_toList)

variable {φ : Type} {name value : φ → String} {context : List (String × String)}
  {passed rest : List Char}

/-! ## Passing over characters -/

/-- The brace that may end a stretch of characters. -/
def brace (inBraces : Bool) : Char := if inBraces then '\x7d' else '\x7b'

/-- A character that is not the brace is passed over. -/
theorem cut_passed {inBraces : Bool} {c : Char} (h : c ≠ brace inBraces) :
    cut inBraces passed (c :: rest) = cut inBraces (c :: passed) rest := by
  have hc : (c == brace inBraces) = false := beq_eq_false_iff_ne.mpr h
  cases rest with
  | nil => cases inBraces <;> simp [cut]
  | cons d rest =>
    cases inBraces with
    | false =>
      have hopen : (c == '\x7b') = false := hc
      rw [cut, hopen]
      rfl
    | true =>
      have hclose : (c == '\x7d') = false := hc
      rw [cut, hclose]
      rfl

theorem cut_stretch {inBraces : Bool} : ∀ {text : List Char} (passed rest : List Char),
    brace inBraces ∉ text →
    cut inBraces passed (text ++ rest) = cut inBraces (text.reverse ++ passed) rest := by
  intro text
  induction text with
  | nil => intro passed rest _; rfl
  | cons c text ih =>
    intro passed rest h
    have hc : c ≠ brace inBraces := fun heq => h (heq ▸ List.mem_cons_self)
    have htext : brace inBraces ∉ text := fun hmem => h (List.mem_cons_of_mem c hmem)
    rw [List.cons_append, cut_passed hc, ih _ _ htext, List.reverse_cons, List.append_assoc]
    rfl

theorem cut_opening : cut false passed ('\x7b' :: '\x7b' :: rest)
    = (cut true [] rest).map (.literal (String.ofList passed.reverse) :: ·) := by
  rw [cut]
  cases cut true [] rest <;> rfl

/-! ## Names in braces -/

theorem continuesName_of_isName : ∀ {word : List Char}, isName word = true →
    ∀ c ∈ word, continuesName c = true
  | [], h => absurd h (by decide)
  | c :: word, h => by
    rw [isName, Bool.and_eq_true, List.all_eq_true] at h
    refine List.forall_mem_cons.mpr ⟨?_, h.2⟩
    have hbegins := h.1
    unfold beginsName at hbegins
    unfold continuesName Char.isAlphanum
    rw [Bool.or_eq_true] at hbegins ⊢
    exact hbegins.imp (fun h => by rw [h]; rfl) id

/-- No character of a name is one of a few that stand around names. -/
theorem not_mem_of_isName {word : List Char} {c : Char} (h : isName word = true)
    (hc : continuesName c = false) : c ∉ word := fun hmem =>
  absurd (continuesName_of_isName h c hmem) (by rw [hc]; decide)

theorem isBlank_of_continuesName {c : Char} (h : continuesName c = true) : isBlank c = false := by
  unfold isBlank
  simp only [Bool.or_eq_false_iff, beq_eq_false_iff_ne]
  refine ⟨⟨⟨?_, ?_⟩, ?_⟩, ?_⟩ <;> rintro rfl <;> exact absurd h (by decide)

/-- A blank in front of a word is dropped and the word is kept. -/
theorem dropBlank_word {word : List Char} (hne : word ≠ []) (hword : ∀ c ∈ word, isBlank c = false)
    (rest : List Char) : (' ' :: (word ++ rest)).dropWhile isBlank = word ++ rest := by
  cases word with
  | nil => exact absurd rfl hne
  | cons c word =>
    have hkept : ¬isBlank c = true := by
      rw [hword c List.mem_cons_self]
      decide
    rw [List.dropWhile_cons_of_pos (by decide), List.cons_append, List.dropWhile_cons_of_neg hkept]

theorem trim_word {word : List Char} (h : isName word = true) :
    trim (' ' :: (word ++ [' '])) = word := by
  have hne : word ≠ [] := by rintro rfl; exact absurd h (by decide)
  have hblank : ∀ c ∈ word, isBlank c = false := fun c hc =>
    isBlank_of_continuesName (continuesName_of_isName h c hc)
  have hback : (' ' :: (word.reverse ++ [])).dropWhile isBlank = word.reverse ++ [] :=
    dropBlank_word (mt List.reverse_eq_nil_iff.mp hne)
      (fun c hc => hblank c (List.mem_reverse.mp hc)) []
  rw [List.append_nil] at hback
  unfold trim
  rw [dropBlank_word hne hblank, List.reverse_append]
  show ((' ' :: word.reverse).dropWhile isBlank).reverse = word
  rw [hback, List.reverse_reverse]

/-- A name with a blank on each side is a field. -/
theorem cut_name {name : String} (h : isName name.toList = true) :
    cut true [] (' ' :: (name.toList ++ [' ', '\x7d', '\x7d']) ++ rest)
      = (cut false [] rest).map (.field name :: ·) := by
  have hbrace : brace true ∉ ' ' :: (name.toList ++ [' ']) := by
    have hword : brace true ∉ name.toList := not_mem_of_isName h (by decide)
    have hspace : brace true ≠ ' ' := by decide
    simp [hword, hspace]
  have hsplit : ' ' :: (name.toList ++ [' ', '\x7d', '\x7d']) ++ rest
      = (' ' :: (name.toList ++ [' '])) ++ '\x7d' :: '\x7d' :: rest := by simp
  rw [hsplit, cut_stretch _ _ hbrace, cut]
  simp only [BEq.rfl, Bool.and_self, if_true, List.append_nil, List.reverse_reverse, trim_word h, h,
    String.ofList_toList]
  cases cut false [] rest <;> rfl

/-! ## The text of a body -/

/-- **Cutting the source of a tidy body gives the body**, but for where literals are parted. -/
theorem cut_source (hnames : ∀ field, isName (name field).toList = true) :
    ∀ (body : Body φ) (passed : List Char), isTidy body = true →
      ∃ pieces, cut false passed (body.source name) = .ok pieces ∧
        ∀ context, fill context pieces
          = (fill context (body.map (Piece.named name))).map (passed.reverse ++ ·) := by
  intro body
  induction body with
  | nil =>
    intro passed _
    refine ⟨_, rfl, fun context => ?_⟩
    show Except.ok ((String.ofList (passed.reverse ++ [])).toList ++ [])
      = Except.ok (passed.reverse ++ [])
    rw [String.toList_ofList, List.append_nil, List.append_nil]
  | cons piece body ih =>
    intro passed htidy
    cases piece with
    | literal text =>
      rw [isTidy, Bool.and_eq_true] at htidy
      obtain ⟨pieces, hcut, hfill⟩ := ih (text.toList.reverse ++ passed) htidy.2
      have hopen : brace false ∉ text.toList := (not_mem_of_hasNoBrace htidy.1).1
      refine ⟨pieces, (cut_stretch passed _ hopen).trans hcut, fun context => ?_⟩
      rw [hfill, List.reverse_append, List.reverse_reverse, List.map_cons, Piece.named, fill]
      cases fill context (body.map (Piece.named name)) with
      | error fault => rfl
      | ok filled => exact congrArg Except.ok (List.append_assoc _ _ _)
    | field field =>
      rw [isTidy, Bool.and_eq_true] at htidy
      obtain ⟨pieces, hcut, hfill⟩ := ih [] htidy.2
      refine ⟨.literal (String.ofList passed.reverse) :: .field (name field) :: pieces, ?_,
        fun context => ?_⟩
      · show cut false passed ((Body.placeholder (name field)).toList ++ Body.source name body) = _
        rw [placeholder_toList, List.cons_append, List.cons_append, cut_opening,
          cut_name (hnames field), hcut]
        rfl
      · rw [List.map_cons, Piece.named, fill, fill, fill, hfill, String.toList_ofList]
        cases context.lookup (name field) with
        | none => rfl
        | some value =>
          cases fill context (body.map (Piece.named name)) with
          | error fault => rfl
          | ok filled => rfl

/-- A body is filled if there are values for all its fields. -/
theorem fill_named (h : ∀ field, context.lookup (name field) = some (value field)) (body : Body φ) :
    fill context (body.map (Piece.named name)) = .ok (body.fill value) := by
  induction body with
  | nil => rfl
  | cons piece body ih =>
    cases piece with
    | literal text =>
      rw [List.map_cons, Piece.named, fill, ih]
      rfl
    | field field =>
      rw [List.map_cons, Piece.named, fill, h, ih]
      rfl

/-- A field without a value is found, whatever stands around it. -/
theorem fill_undefined {body : Body String} {name : String} (hmem : .field name ∈ body)
    (h : context.lookup name = none) : fill context body = .error undefinedName := by
  induction body with
  | nil => exact absurd hmem List.not_mem_nil
  | cons piece body ih =>
    rcases List.mem_cons.mp hmem with rfl | hrest
    · rw [fill, h]
    · cases piece with
      | literal text =>
        rw [fill, ih hrest]
        rfl
      | field other =>
        rw [fill, ih hrest]
        cases context.lookup other <;> rfl

/-- The source of a tidy body is cut, whatever the context, so only filling can fail. -/
theorem render_source_eq (hnames : ∀ field, isName (name field).toList = true) {body : Body φ}
    (htidy : isTidy body = true) :
    render (String.ofList (body.source name)) context
      = ((fill context (body.map (Piece.named name))).mapError Fault.execute).map
          String.ofList := by
  obtain ⟨pieces, hcut, hfill⟩ := cut_source hnames body [] htidy
  unfold render
  rw [String.toList_ofList, hcut, Outcome.ok_mapError, Outcome.ok_bind, hfill]
  cases fill context (body.map (Piece.named name)) <;> rfl

/-- **A tidy body is rendered as it is filled**, if the context has all its fields. -/
theorem render_source (hnames : ∀ field, isName (name field).toList = true) {body : Body φ}
    (htidy : isTidy body = true) (h : ∀ field, context.lookup (name field) = some (value field)) :
    render (String.ofList (body.source name)) context = .ok (String.ofList (body.fill value)) := by
  rw [render_source_eq hnames htidy, fill_named h]
  rfl

/-- The braces of a value are not looked at. -/
example : render "worker: \"\x7b\x7b worker \x7d\x7d\"\n" [("worker", "\x7b\x7b.device_1\x7d\x7d")]
    = .ok "worker: \"\x7b\x7b.device_1\x7d\x7d\"\n" := by rfl

/-- **A field that the context lacks stops the rendering.** -/
theorem render_source_undefined (hnames : ∀ field, isName (name field).toList = true)
    {body : Body φ} (htidy : isTidy body = true) {field : φ} (hmem : .field field ∈ body)
    (h : context.lookup (name field) = none) :
    render (String.ofList (body.source name)) context = .error (.execute undefinedName) := by
  have hnamed : Piece.field (name field) ∈ body.map (Piece.named name) :=
    List.mem_map.mpr ⟨_, hmem, rfl⟩
  rw [render_source_eq hnames htidy, fill_undefined hnamed h]
  rfl

/-! ## Faults -/

theorem cut_unclosed : ∀ (text passed : List Char), ¬['\x7d', '\x7d'] <:+: text →
    cut true passed text = .error unreadable := by
  intro text
  induction text with
  | nil => intro passed _; rfl
  | cons c text ih =>
    intro passed h
    have htext : ¬['\x7d', '\x7d'] <:+: text :=
      fun hin => h (hin.trans (List.suffix_cons c text).isInfix)
    cases text with
    | nil => rfl
    | cons d rest =>
      have hclose : (c == '\x7d' && d == '\x7d') = false := by
        rw [Bool.eq_false_iff, ne_eq, Bool.and_eq_true, beq_iff_eq, beq_iff_eq]
        rintro ⟨rfl, rfl⟩
        exact h ⟨[], rest, rfl⟩
      rw [cut, hclose]
      exact ih (c :: passed) htext

/-- **Braces that are never closed are a fault of the text**, whatever the context has. -/
theorem render_unclosed {front rest : String} (hfront : '\x7b' ∉ front.toList)
    (hrest : ¬['\x7d', '\x7d'] <:+: rest.toList) (context : List (String × String)) :
    render (front ++ "\x7b\x7b" ++ rest) context = .error (.parse unreadable) := by
  have htext : (front ++ "\x7b\x7b" ++ rest).toList
      = front.toList ++ '\x7b' :: '\x7b' :: rest.toList := by
    rw [String.toList_append, String.toList_append, List.append_assoc]
    rfl
  have hopen : brace false ∉ front.toList := hfront
  unfold render
  rw [htext, cut_stretch _ _ hopen, cut_opening, cut_unclosed _ _ hrest]
  rfl

example : render "name: \x7b\x7b name " [("name", "x")] = .error (.parse unreadable) := by rfl

theorem cut_error {inBraces : Bool} {text : List Char} {fault : TemplateFault}
    (h : cut inBraces passed text = .error fault) : fault = unreadable := by
  fun_induction cut inBraces passed text with
  | case1 _ _ _ _ _ ih => exact ih (Outcome.eq_error_of_bind_pure h)
  | case3 _ _ _ _ _ _ ih => exact ih h
  | case4 _ _ _ _ _ _ ih => exact ih (Outcome.eq_error_of_bind_pure h)
  | case6 _ _ _ _ _ ih => exact ih h
  | case8 => cases h
  | _ => cases h; rfl

theorem fill_error {body : Body String} {fault : TemplateFault}
    (h : fill context body = .error fault) : fault = undefinedName := by
  induction body with
  | nil => cases h
  | cons piece body ih =>
    cases piece with
    | literal text => exact ih (Outcome.eq_error_of_bind_pure h)
    | field name =>
      rw [fill] at h
      split at h
      · cases h; rfl
      · exact ih (Outcome.eq_error_of_bind_pure h)

/-- **Rendering fails with one of two faults**, and both are the engine's. -/
theorem render_error {source : String} {fault : Fault} (h : render source context = .error fault) :
    fault = .parse unreadable ∨ fault = .execute undefinedName := by
  unfold render at h
  cases hcut : cut false [] source.toList with
  | error wrong =>
    rw [hcut] at h
    cases h
    rw [cut_error hcut]
    exact .inl rfl
  | ok pieces =>
    rw [hcut] at h
    cases hfill : fill context pieces with
    | error wrong =>
      rw [Outcome.ok_mapError, Outcome.ok_bind, hfill] at h
      cases h
      rw [fill_error hfill]
      exact .inr rfl
    | ok text =>
      rw [Outcome.ok_mapError, Outcome.ok_bind, hfill] at h
      cases h

end Engine

end Provisioning.Template
