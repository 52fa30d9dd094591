import Provisioning.Template.Body

/-!
# Replacing placeholders in a text

`Body.fill` never looks at a text: a body is already cut into pieces. This module says that
nothing is gained by that. `replaceEach` passes once over a text from left to right and puts
replacements in the place of patterns, and on the text of a body it does what `fill` does.

The point is that no occurrence of a placeholder arises that is none of the body's own. A
placeholder begins and ends with a brace and stands on one line, and the literal parts of a
tidy body have no braces, so an occurrence can neither begin nor end in one. Between two
fields a line ends, so it cannot begin in one value and end in another. What is left is an
occurrence within one value.
-/

namespace Provisioning.Template

/-- One pass over a text from left to right. Where a pattern of the table begins, its
replacement stands instead, and the pass goes on behind the pattern; `skip` is how much of it
is still to be passed over. -/
def replaceEach (table : List (List Char × List Char)) : Nat → List Char → List Char
  | _, [] => []
  | skip + 1, _ :: rest => replaceEach table skip rest
  | 0, c :: rest =>
    match table.find? (fun entry => entry.1.isPrefixOf (c :: rest)) with
    | some entry => entry.2 ++ replaceEach table (entry.1.length - 1) rest
    | none => c :: replaceEach table 0 rest

/-- A text in which one pattern is replaced wherever it occurs. -/
def replaceAll (text pattern replacement : String) : String :=
  String.ofList (replaceEach [(pattern.toList, replacement.toList)] 0 text.toList)

variable {table : List (List Char × List Char)}

theorem replaceEach_skip : ∀ (passed rest : List Char),
    replaceEach table passed.length (passed ++ rest) = replaceEach table 0 rest := by
  intro passed
  induction passed with
  | nil => intro rest; rfl
  | cons c passed ih => intro rest; exact ih rest

/-- No pattern of the table begins within `text`, when `rest` follows it. -/
def Untouched (table : List (List Char × List Char)) (text rest : List Char) : Prop :=
  ∀ s, s ≠ [] → s <:+ text → ∀ entry ∈ table, ¬ entry.1 <+: s ++ rest

/-- A text in which no pattern begins is copied. -/
theorem replaceEach_of_untouched : ∀ (text rest : List Char), Untouched table text rest →
    replaceEach table 0 (text ++ rest) = text ++ replaceEach table 0 rest := by
  intro text
  induction text with
  | nil => intro rest _; rfl
  | cons c text ih =>
    intro rest h
    have hnone : table.find? (fun entry => entry.1.isPrefixOf (c :: (text ++ rest))) = none := by
      rw [List.find?_eq_none]
      intro entry hmem hpre
      exact h (c :: text) (by simp) (List.suffix_refl _) entry hmem
        (List.isPrefixOf_iff_prefix.mp hpre)
    -- What the pass has left is a suffix of the text, so no pattern begins in it either.
    have htail : Untouched table text rest := fun s hs hsuf =>
      h s hs (hsuf.trans (List.suffix_cons c text))
    show replaceEach table 0 (c :: (text ++ rest)) = _
    rw [replaceEach, hnone, ih rest htail]
    rfl

/-- Where a pattern begins, its replacement stands. -/
theorem replaceEach_of_find {pattern replacement rest : List Char} (hne : pattern ≠ [])
    (h : table.find? (fun entry => entry.1.isPrefixOf (pattern ++ rest))
      = some (pattern, replacement)) :
    replaceEach table 0 (pattern ++ rest) = replacement ++ replaceEach table 0 rest := by
  cases pattern with
  | nil => exact absurd rfl hne
  | cons c pattern =>
    rw [List.cons_append] at h ⊢
    rw [replaceEach, h]
    show replacement ++ replaceEach table ((c :: pattern).length - 1) (pattern ++ rest) = _
    rw [List.length_cons, Nat.add_sub_cancel, replaceEach_skip]

/-! ## Patterns in braces -/

/-- A pattern that begins and ends with a brace and stands on one line. -/
structure Braced (pattern : List Char) : Prop where
  opens : pattern.head? = some '\x7b'
  closes : pattern.getLast? = some '\x7d'
  oneLine : '\n' ∉ pattern

theorem Braced.ne_nil {pattern : List Char} (h : Braced pattern) : pattern ≠ [] := by
  intro he
  have := h.opens
  rw [he] at this
  exact absurd this (by simp)

/-- What follows has no closing brace before its first line end. -/
def LineClear (rest : List Char) : Prop :=
  ∃ first others, rest = first ++ '\n' :: others ∧ '\x7d' ∉ first

/-- A braced pattern does not reach from a text into what follows it on a clear line: its last
brace would be there, or a line end within it. -/
theorem Braced.prefix_of_lineClear {pattern s rest : List Char} (h : Braced pattern)
    (hr : LineClear rest) (hp : pattern <+: s ++ rest) : pattern <+: s := by
  obtain ⟨behind, hbehind⟩ := hp
  obtain ⟨first, others, hrest, hclear⟩ := hr
  -- The pattern ends in the text, or a part `q` of it lies in what follows.
  rcases List.append_eq_append_iff.mp hbehind with ⟨q, hs, _⟩ | ⟨q, hpat, hq⟩
  · exact ⟨q, hs.symm⟩
  · rcases List.eq_nil_or_concat q with rfl | ⟨front, last, rfl⟩
    · rw [List.append_nil] at hpat
      exact ⟨[], by rw [hpat, List.append_nil]⟩
    · exfalso
      have hlast : last = '\x7d' := by
        have := h.closes
        rw [hpat, List.concat_eq_append, ← List.append_assoc] at this
        simpa using this
      rw [hrest] at hq
      -- Its last brace would be on the clear line, or else the line end in front of it.
      rcases List.append_eq_append_iff.mp hq with ⟨d, hd, hline⟩ | ⟨d, hd, _⟩
      · cases d with
        | nil => exact hclear (by rw [← List.append_nil first, ← hd]; simp [hlast])
        | cons c d =>
          have hc : c = '\n' := by
            rw [List.cons_append] at hline
            exact (List.cons.inj hline).1.symm
          exact h.oneLine (by rw [hpat, hd, hc]; simp)
      · exact hclear (by rw [hd]; simp [hlast])

/-- A text that holds no pattern stays as it is in front of a clear line. -/
theorem untouched_of_free {text rest : List Char} (hb : ∀ entry ∈ table, Braced entry.1)
    (hr : LineClear rest) (h : ∀ entry ∈ table, ¬ entry.1 <:+: text) :
    Untouched table text rest := by
  intro s _ hsuf entry hmem hp
  have hin : entry.1 <+: s := (hb entry hmem).prefix_of_lineClear hr hp
  exact h entry hmem (hin.isInfix.trans hsuf.isInfix)

/-- A text without opening braces stays as it is. -/
theorem untouched_of_no_brace {text rest : List Char} (hb : ∀ entry ∈ table, Braced entry.1)
    (h : '\x7b' ∉ text) : Untouched table text rest := by
  intro s hs hsuf entry hmem hp
  have ho := (hb entry hmem).opens
  cases s with
  | nil => exact hs rfl
  | cons c s =>
    have hhead : c = '\x7b' := by
      obtain ⟨t, ht⟩ := hp
      have := congrArg List.head? ht
      rw [List.head?_append, ho] at this
      simpa using this.symm
    exact h (hsuf.mem (by simp [hhead]))

/-! ## Placeholders -/

namespace Body

theorem placeholder_toList (name : String) :
    (placeholder name).toList
      = '\x7b' :: '\x7b' :: ' ' :: (name.toList ++ [' ', '\x7d', '\x7d']) := by
  unfold placeholder
  rw [String.toList_append, String.toList_append]
  rfl

/-- The name of a field holds none of the characters that delimit it in a placeholder. -/
structure WordName (name : String) : Prop where
  noSpace : ' ' ∉ name.toList
  noBrace : '\x7b' ∉ name.toList
  oneLine : '\n' ∉ name.toList

theorem braced_placeholder {name : String} (h : WordName name) :
    Braced (placeholder name).toList := by
  rw [placeholder_toList]
  refine ⟨rfl, ?_, ?_⟩
  · rw [← List.cons_append, ← List.cons_append, ← List.cons_append, List.getLast?_append]
    rfl
  · have := h.oneLine
    simp [this]

/-- Two words with a space behind them are told apart by it. -/
theorem eq_of_word_begins {a b more rest : List Char} (ha : ' ' ∉ a) (hb : ' ' ∉ b)
    (h : a ++ ' ' :: more <+: b ++ ' ' :: rest) : a = b := by
  have htake : ∀ (w others : List Char), ' ' ∉ w →
      (w ++ ' ' :: others).takeWhile (· != ' ') = w := by
    intro w others hw
    rw [List.takeWhile_append_of_pos (fun c hc => by
      have : c ≠ ' ' := fun he => hw (he ▸ hc)
      simpa using this)]
    simp
  obtain ⟨behind, hbehind⟩ := h
  rw [← htake a (more ++ behind) ha, ← htake b rest hb, ← hbehind]
  simp

theorem eq_of_placeholder_begins {a b : String} {rest : List Char} (ha : WordName a)
    (hb : WordName b) (h : (placeholder a).toList <+: (placeholder b).toList ++ rest) :
    a = b := by
  rw [placeholder_toList, placeholder_toList] at h
  have htail : a.toList ++ ' ' :: ['\x7d', '\x7d']
      <+: b.toList ++ ' ' :: (['\x7d', '\x7d'] ++ rest) := by
    simpa using h
  exact String.toList_inj.mp (eq_of_word_begins ha.noSpace hb.noSpace htail)

/-- Within one placeholder no other begins: its braces open it and nothing else. -/
theorem not_placeholder_begins {a b : String} {s rest : List Char} (ha : WordName a)
    (hb : WordName b) (hne : a ≠ b) (hs : s ≠ []) (hsuf : s <:+ (placeholder b).toList) :
    ¬ (placeholder a).toList <+: s ++ rest := by
  intro hp
  rw [placeholder_toList b] at hsuf
  -- The suffix is all of the placeholder, or it begins with the second brace, or behind both.
  rcases List.suffix_cons_iff.mp hsuf with rfl | hsuf
  · rw [← placeholder_toList] at hp
    exact hne (eq_of_placeholder_begins ha hb hp)
  · rw [placeholder_toList] at hp
    rcases List.suffix_cons_iff.mp hsuf with rfl | hsuf
    · simp at hp
    · cases s with
      | nil => exact hs rfl
      | cons c s =>
        have hc : c = '\x7b' := by
          obtain ⟨behind, hbehind⟩ := hp
          exact (List.cons.inj hbehind).1.symm
        have hmem : '\x7b' ∈ ' ' :: (b.toList ++ [' ', '\x7d', '\x7d']) :=
          hsuf.mem (by simp [hc])
        simp [hb.noBrace] at hmem

/-! ## Filling as a replacement -/

variable {φ : Type}

/-- Does a line end among these pieces, with no field in front of it? -/
def endsLine : Body φ → Bool
  | [] => false
  | .literal text :: rest => text.toList.contains '\n' || endsLine rest
  | .field _ :: _ => false

/-- A text without braces. -/
def hasNoBrace (text : String) : Bool := text.toList.all fun c => c != '\x7b' && c != '\x7d'

/-- A body whose literal parts have no braces and whose lines have at most one field each. -/
def isTidy : Body φ → Bool
  | [] => true
  | .literal text :: rest => hasNoBrace text && isTidy rest
  | .field _ :: rest => endsLine rest && isTidy rest

theorem fill_literal (value : φ → String) (text : String) (rest : Body φ) :
    fill value (.literal text :: rest) = text.toList ++ fill value rest := rfl

theorem fill_field (value : φ → String) (field : φ) (rest : Body φ) :
    fill value (.field field :: rest) = (value field).toList ++ fill value rest := rfl

theorem fill_append (value : φ → String) (front rest : Body φ) :
    fill value (front ++ rest) = fill value front ++ fill value rest := List.flatMap_append

theorem hasNoBrace_of_eq {text : String} {chars : List Char} (h : text = String.ofList chars)
    (hc : (chars.all fun c => c != '\x7b' && c != '\x7d') = true) : hasNoBrace text = true := by
  rw [hasNoBrace, h, String.toList_ofList, hc]

theorem hasNoBrace_append {first second : String} (hfirst : hasNoBrace first = true)
    (hsecond : hasNoBrace second = true) : hasNoBrace (first ++ second) = true := by
  rw [hasNoBrace, String.toList_append, List.all_append, Bool.and_eq_true]
  exact ⟨hfirst, hsecond⟩

theorem not_mem_of_hasNoBrace {text : String} (h : hasNoBrace text = true) :
    '\x7b' ∉ text.toList ∧ '\x7d' ∉ text.toList := by
  rw [hasNoBrace, List.all_eq_true] at h
  constructor
  · intro hmem
    exact absurd (h _ hmem) (by decide)
  · intro hmem
    exact absurd (h _ hmem) (by decide)

theorem isTidy_line (text : String) (lines : List (Body φ)) :
    isTidy (line text :: lines).flatten = (hasNoBrace text && isTidy lines.flatten) := by
  have hend : hasNoBrace "\n" = true := hasNoBrace_of_eq rfl (by decide)
  rw [List.flatten_cons, line, List.cons_append, List.cons_append, isTidy, isTidy, hend]
  rfl

theorem isTidy_lineWith (before after : String) (field : φ) (lines : List (Body φ)) :
    isTidy (lineWith before field after :: lines).flatten
      = (hasNoBrace before && (hasNoBrace after && isTidy lines.flatten)) := by
  have hend : hasNoBrace "\n" = true := hasNoBrace_of_eq rfl (by decide)
  rw [List.flatten_cons, lineWith]
  simp only [List.cons_append, List.nil_append, isTidy, endsLine, hend]
  simp

theorem isTidy_flatten_nil : isTidy ([] : List (Body φ)).flatten = true := rfl

/-- Whatever the fields are filled with, the rest of a line behind a field is clear. -/
theorem lineClear_fill (value : φ → String) : ∀ body : Body φ,
    isTidy body = true → endsLine body = true → LineClear (fill value body) := by
  intro body
  induction body with
  | nil => intro _ h; exact absurd h (by simp [endsLine])
  | cons piece rest ih =>
    intro ht he
    cases piece with
    | field field => exact absurd he (by simp [endsLine])
    | literal text =>
      rw [isTidy, Bool.and_eq_true] at ht
      have hclear := (not_mem_of_hasNoBrace ht.1).2
      rw [fill_literal]
      by_cases hline : '\n' ∈ text.toList
      · obtain ⟨first, others, htext⟩ := List.append_of_mem hline
        refine ⟨first, others ++ fill value rest, ?_, ?_⟩
        · rw [htext, List.append_assoc, List.cons_append]
        · intro hmem
          exact hclear (by rw [htext]; exact List.mem_append_left _ hmem)
      · rw [endsLine, Bool.or_eq_true] at he
        rcases he with he | he
        · exact absurd (List.contains_iff_mem.mp he) hline
        · obtain ⟨first, others, hrest, hfirst⟩ := ih ht.2 he
          refine ⟨text.toList ++ first, others, by rw [hrest, List.append_assoc], ?_⟩
          intro hmem
          rcases List.mem_append.mp hmem with hmem | hmem
          · exact hclear hmem
          · exact hfirst hmem

/--
**A pass over a filled body is a pass over its fields.**

The literal parts are copied, and each field becomes what the pass makes of its value alone.
-/
theorem replaceEach_fill {before after : φ → String} (hb : ∀ entry ∈ table, Braced entry.1)
    (h : ∀ field rest, LineClear rest →
      replaceEach table 0 ((before field).toList ++ rest)
        = (after field).toList ++ replaceEach table 0 rest) :
    ∀ body : Body φ, isTidy body = true →
      replaceEach table 0 (fill before body) = fill after body := by
  intro body
  induction body with
  | nil => intro _; rfl
  | cons piece rest ih =>
    intro ht
    cases piece with
    | literal text =>
      rw [isTidy, Bool.and_eq_true] at ht
      have hopen := (not_mem_of_hasNoBrace ht.1).1
      rw [fill_literal, fill_literal, ← ih ht.2]
      exact replaceEach_of_untouched _ _ (untouched_of_no_brace hb hopen)
    | field field =>
      rw [isTidy, Bool.and_eq_true] at ht
      rw [fill_field, fill_field, ← ih ht.2]
      exact h field _ (lineClear_fill before rest ht.2 ht.1)

/-! ## All fields at once, or one after the other -/

/-- What a pass over the text of a body replaces: the placeholders of some fields. -/
def replacements (name value : φ → String) (fields : List φ) : List (List Char × List Char) :=
  fields.map fun field => ((placeholder (name field)).toList, (value field).toList)

variable {name value : φ → String}

theorem braced_replacements (hw : ∀ field, WordName (name field)) (fields : List φ) :
    ∀ entry ∈ replacements name value fields, Braced entry.1 := by
  intro entry hmem
  obtain ⟨field, _, rfl⟩ := List.mem_map.mp hmem
  exact braced_placeholder (hw field)

/-- At the placeholder of a field the table answers with its value. -/
theorem find_replacements (hw : ∀ field, WordName (name field))
    (hinj : Function.Injective name) {field : φ} (rest : List Char) : ∀ fields : List φ,
    field ∈ fields →
    (replacements name value fields).find?
        (fun entry => entry.1.isPrefixOf ((placeholder (name field)).toList ++ rest))
      = some ((placeholder (name field)).toList, (value field).toList) := by
  intro fields
  induction fields with
  | nil => intro hmem; exact absurd hmem (by simp)
  | cons other fields ih =>
    intro hmem
    rw [replacements, List.map_cons, List.find?_cons]
    by_cases hpre : (placeholder (name other)).toList
        <+: (placeholder (name field)).toList ++ rest
    · have he : other = field :=
        hinj (eq_of_placeholder_begins (hw other) (hw field) hpre)
      rw [List.isPrefixOf_iff_prefix.mpr hpre, he]
    · have hne : field ≠ other := by
        intro he
        exact hpre (he ▸ List.prefix_append _ _)
      rw [Bool.eq_false_iff.mpr fun hp => hpre (List.isPrefixOf_iff_prefix.mp hp)]
      exact ih ((List.mem_cons.mp hmem).resolve_left hne)

theorem replaceEach_placeholder (hw : ∀ field, WordName (name field))
    (hinj : Function.Injective name) {fields : List φ} {field : φ} (hmem : field ∈ fields)
    (rest : List Char) :
    replaceEach (replacements name value fields) 0 ((placeholder (name field)).toList ++ rest)
      = (value field).toList ++ replaceEach (replacements name value fields) 0 rest :=
  replaceEach_of_find (braced_placeholder (hw field)).ne_nil
    (find_replacements hw hinj rest fields hmem)

/-- **One pass for all fields fills the body.** -/
theorem replaceEach_source (hw : ∀ field, WordName (name field))
    (hinj : Function.Injective name) {fields : List φ} (hall : ∀ field, field ∈ fields)
    {body : Body φ} (ht : isTidy body = true) :
    replaceEach (replacements name value fields) 0 (source name body) = fill value body :=
  replaceEach_fill (braced_replacements hw fields)
    (fun field rest _ => replaceEach_placeholder hw hinj (hall field) rest) body ht

variable [DecidableEq φ]

/-- What stands for a field once the placeholders of some fields are replaced. -/
def partlyFilled (name value : φ → String) (done : List φ) (field : φ) : String :=
  if field ∈ done then value field else placeholder (name field)

/-- **One more field.** Its placeholders are replaced, and nothing else is touched: not the
values that are there, as they hold no placeholder, and not the placeholders of others. -/
theorem replaceAll_partlyFilled (hw : ∀ field, WordName (name field))
    (hinj : Function.Injective name)
    (hfree : ∀ field other, ¬ (placeholder (name other)).toList <:+: (value field).toList)
    {body : Body φ} (ht : isTidy body = true) (done : List φ) (field : φ) :
    replaceAll (String.ofList (fill (partlyFilled name value done) body))
        (placeholder (name field)) (value field)
      = String.ofList (fill (partlyFilled name value (field :: done)) body) := by
  rw [replaceAll, String.toList_ofList]
  refine congrArg String.ofList ?_
  have hb : ∀ entry ∈ replacements name value [field], Braced entry.1 :=
    braced_replacements hw [field]
  refine replaceEach_fill hb (fun other rest hr => ?_) body ht
  by_cases hdone : other ∈ done
  · -- a value that was put in before
    have h1 : partlyFilled name value done other = value other := if_pos hdone
    have h2 : partlyFilled name value (field :: done) other = value other :=
      if_pos (List.mem_cons_of_mem _ hdone)
    rw [h1, h2]
    refine replaceEach_of_untouched _ _ (untouched_of_free hb hr fun entry hmem => ?_)
    obtain ⟨g, _, rfl⟩ := List.mem_map.mp hmem
    exact hfree other g
  · -- a placeholder, either the one to be replaced or one that must stay
    have h1 : partlyFilled name value done other = placeholder (name other) := if_neg hdone
    by_cases he : other = field
    · subst he
      have h2 : partlyFilled name value (other :: done) other = value other :=
        if_pos List.mem_cons_self
      rw [h1, h2]
      exact replaceEach_placeholder hw hinj List.mem_cons_self rest
    · have h2 : partlyFilled name value (field :: done) other = placeholder (name other) :=
        if_neg fun hmem => (List.mem_cons.mp hmem).elim he hdone
      rw [h1, h2]
      refine replaceEach_of_untouched _ _ fun s hs hsuf entry hmem => ?_
      obtain ⟨g, hg, rfl⟩ := List.mem_map.mp hmem
      have hne : name g ≠ name other := fun hn =>
        he ((hinj hn).symm.trans (List.mem_singleton.mp hg))
      exact not_placeholder_begins (hw g) (hw other) hne hs hsuf

/-- **The order does not matter.** Replacing the placeholders of one field after the other, in
any order that leaves no field out, fills the body. -/
theorem foldl_replaceAll (hw : ∀ field, WordName (name field))
    (hinj : Function.Injective name)
    (hfree : ∀ field other, ¬ (placeholder (name other)).toList <:+: (value field).toList)
    {body : Body φ} (ht : isTidy body = true) {order : List φ} (hall : ∀ field, field ∈ order) :
    order.foldl (fun text field => replaceAll text (placeholder (name field)) (value field))
        (String.ofList (source name body))
      = String.ofList (fill value body) := by
  -- By induction on the fields that are left; what is done piles up in reverse.
  have hrun : ∀ (left done : List φ),
      left.foldl (fun text field => replaceAll text (placeholder (name field)) (value field))
          (String.ofList (fill (partlyFilled name value done) body))
        = String.ofList (fill (partlyFilled name value (left.reverse ++ done)) body) := by
    intro left
    induction left with
    | nil => intro done; rfl
    | cons field left ih =>
      intro done
      rw [List.foldl_cons, replaceAll_partlyFilled hw hinj hfree ht, ih, List.reverse_cons,
        List.append_assoc]
      rfl
  have hstart : partlyFilled name value [] = fun field => placeholder (name field) :=
    funext fun _ => if_neg (by simp)
  have hend : partlyFilled name value (order.reverse ++ []) = value :=
    funext fun field => if_pos (by simp [hall field])
  have := hrun order []
  rw [hstart, hend] at this
  exact this

end Body

end Provisioning.Template
