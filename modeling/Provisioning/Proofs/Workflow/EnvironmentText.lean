import Provisioning.Proofs.Yaml.IntegerSpelling
import Provisioning.Proofs.Yaml.Refusal
import Provisioning.Proofs.Yaml.TypedLayout
import Provisioning.Workflow.Document

/-!
# The text of a binding spells its value

The value that an action binds to a name may be written in many ways, but a program is given one
text for it. This text is a normal form: written in place of the word that the value was read from,
it is read as the same value. All words are covered that numbers can be spelled with, of any length
and in whatever base, except those that mean null or a floating-point number. What such a word is
read as is known exactly (`read_bindingText_iff`), and so the normal form is a matter of what plain
scalars mean.
-/

namespace Provisioning.Workflow

open Number (signedDecimal signedDecimal_cases)
open Outcome (Fails)
open Yaml (IsPlainLine Layout Meaning Node Reader SpellsInteger isClean isReserved isWide plainValue
  reservedWords)
open Yaml.Layout (Entry gives_of_proper gives_value_line gives_word isName_literal
  proper_literalWord record_fails stands_bindings stands_refused word)

/-- The text of an action that binds `K` to a word. -/
def bindingText (word : String) : String := "name: a\nimage: i\nenvironment:\n  K: " ++ word ++ "\n"

/-- The action that binds `K` to a value. -/
def binding (value : Value) : Action := ⟨"a", "i", none, none, .ofList [("K", value)]⟩

/-- A character that numbers and words for them are spelled with. -/
def isSpelling (c : Char) : Bool := c.isAlphanum || c == '+' || c == '.' || c == '_' || c == '-'

/-- A word of such characters. -/
def IsSpelling (word : String) : Prop := word ≠ "" ∧ ∀ c ∈ word.toList, isSpelling c = true

/-- **A word yields a value and a text**: the action that it is read as binds the value and has this
text for it, and is read of the text as well. -/
def Yields (word : String) (value : Value) (text : String) : Prop :=
  ∃ action : Action, Yaml.read Action.read (bindingText word) = .ok action ∧
    action.environment.get? "K" = some value ∧ action.envText? "K" = some text ∧
    Yaml.read Action.read (bindingText text) = .ok action

variable {text : String} {value : Value} {action : Action} {i : Int}

theorem get?_binding : (binding value).environment.get? "K" = some value := rfl

theorem envText?_binding : (binding value).envText? "K" = value.scalarText? := rfl

/-! ## Words -/

theorem isSpelling_cases {c : Char} (h : isSpelling c = true) :
    c.isAlphanum = true ∨ c = '+' ∨ c = '.' ∨ c = '_' ∨ c = '-' := by
  unfold isSpelling at h
  simp only [Bool.or_eq_true, beq_iff_eq] at h
  rcases h with (((h | h) | h) | h) | h
  · exact .inl h
  · exact .inr (.inl h)
  · exact .inr (.inr (.inl h))
  · exact .inr (.inr (.inr (.inl h)))
  · exact .inr (.inr (.inr (.inr h)))

theorem isSpelling_inner {c : Char} (h : isSpelling c = true) :
    (Yaml.isBlank c = false ∧ Yaml.isBreak c = false) ∧ c ≠ ':' ∧ isClean c = true := by
  rcases isSpelling_cases h with h | rfl | rfl | rfl | rfl
  · refine ⟨⟨(Yaml.Lexer.word_of_isAlphanum h).1, (Yaml.Lexer.word_of_isAlphanum h).2.1⟩, ?_,
      Yaml.isClean_of_isAlphanum h⟩
    rintro rfl
    exact absurd h (by decide)
  all_goals decide

/-- A word that is known by its characters can be checked. -/
theorem isSpelling_literal {chars : List Char} (htext : text = String.ofList chars)
    (h : (!chars.isEmpty && chars.all isSpelling) = true) : IsSpelling text := by
  rw [Bool.and_eq_true, Bool.not_eq_true', List.isEmpty_eq_false_iff] at h
  subst htext
  refine ⟨fun hempty => h.1 ?_, ?_⟩
  · rw [← String.toList_ofList (l := chars), hempty, String.toList_empty]
  · rw [String.toList_ofList]
    exact List.all_eq_true.mp h.2

/-- **Such a word is a plain scalar** as it stands, unless it is a dash, which announces an item. -/
theorem IsSpelling.line (h : IsSpelling text) (hdash : text ≠ "-") : IsPlainLine text.toList := by
  obtain ⟨hne, hall⟩ := h
  have htext : String.ofList text.toList = text := String.ofList_toList
  cases hchars : text.toList with
  | nil => exact absurd (String.toList_eq_nil_iff.mp hchars) hne
  | cons c rest =>
    rw [hchars] at hall htext
    have hinner := fun d hd => isSpelling_inner (hall d hd)
    have hbegins : Yaml.Lexer.BeginsScalar c rest := by
      rcases isSpelling_cases (hall c List.mem_cons_self) with hc | rfl | rfl | rfl | rfl
      · exact .inl ⟨(hinner c List.mem_cons_self).1.1, Yaml.Lexer.not_isIndicator_of_isAlphanum hc⟩
      · exact .inl (by decide)
      · exact .inl (by decide)
      · exact .inl (by decide)
      · refine .inr ⟨.inl rfl, ?_⟩
        cases rest with
        | nil => exact absurd htext.symm hdash
        | cons d others =>
          obtain ⟨hblank, hbreak⟩ := (hinner d (by simp)).1
          exact Bool.or_eq_false_iff.mpr ⟨hblank, hbreak⟩
    refine Yaml.isPlainLine_of_inner hbegins ?_ (fun d hd => (hinner d hd).1)
      fun hlast => (hinner ':' (List.mem_of_getLast? hlast)).2.1 rfl
    rintro rfl
    exact absurd (hall _ List.mem_cons_self) (by decide)

theorem IsSpelling.clean (h : IsSpelling text) : ∀ c ∈ text.toList, isClean c = true :=
  fun c hc => (isSpelling_inner (h.2 c hc)).2.2

/-! ## What is read -/

/-- The members of the action as they are laid out. -/
def bindingMembers (text : String) : List (String × Layout) :=
  [("name", word "a"), ("image", word "i"), ("environment", .mapping 2 [("K", word text)])]

theorem toList_bindingText :
    (bindingText text).toList = Layout.membersText [] 0 (bindingMembers text) := by
  unfold bindingText bindingMembers
  rw [String.toList_append, String.toList_append]
  simp [Layout.membersText, Layout.text, word, Yaml.spaces]

/-- The members of the action and what is read of them. -/
def bindingEntries (text : String) : List (Entry Action) := [
  .storing "name" (word "a") (fun name action => { action with name }) "a",
  .storing "image" (word "i") (fun image action => { action with image }) "i",
  .storing "environment" (.mapping 2 [("K", word text)])
    (fun bindings action => { action with environment := .ofList bindings })
      [("K", plainValue text.toList)]]

theorem isName_bindings : ∀ member ∈ [("K", word text)], Layout.IsName member.1 :=
  List.forall_mem_singleton.mpr (isName_literal rfl rfl)

theorem read_bindingText (h : IsSpelling text) (hdash : text ≠ "-")
    (hwide : isWide text.toList = false) :
    Yaml.read Action.read (bindingText text) = .ok (binding (plainValue text.toList)) := by
  let format := Reader.yamlReading
  have hvalue : ∀ member ∈ [("K", word text)], member.2.Gives 2 fun node =>
      Reader.Takes 126 Reader.value node member.2.value :=
    List.forall_mem_singleton.mpr (gives_value_line (h.line hdash) h.clean hwide)
  have henvironment : (Layout.mapping 2 ([("K", word text)].map id)).Stands false 0 fun node =>
      Reader.Takes 127 (Source.bindings Source.untyped) node
        ([("K", word text)].map fun member => (member.1, member.2.value)) :=
    stands_bindings (by omega) nofun (fun member hmem => isName_bindings member hmem)
      fun member hmem => hvalue member hmem
  have hentries : ∀ entry ∈ bindingEntries text,
      entry.Reads (Action.shape : Record Reader Action) 127 0 := by
    refine List.forall_mem_cons.mpr ⟨Entry.reads (isName_literal rfl rfl) rfl
      ((gives_of_proper (proper_literalWord rfl rfl)).imp (format.text "a")), ?_⟩
    refine List.forall_mem_cons.mpr ⟨Entry.reads (isName_literal rfl rfl) rfl
      ((gives_of_proper (proper_literalWord rfl rfl)).imp (format.text "i")), ?_⟩
    exact List.forall_mem_singleton.mpr
      (Entry.reads (isName_literal rfl rfl) rfl henvironment.gives)
  have hnodup : ["name", "image", "environment"].Nodup := by decide
  have hneeded : ∀ field ∈ (Action.shape : Record Reader Action).fields, field.required = true →
      field.name ∈ ["name", "image", "environment"] := by decide
  exact Entry.read_record (.inl rfl) toList_bindingText rfl hentries hnodup hneeded

/-- **An integer that no value can hold makes the text unreadable.** -/
theorem read_bindingText_fails (h : IsSpelling text) (hdash : text ≠ "-")
    (hwide : isWide text.toList = true) :
    Fails (Yaml.read (Action.read (m := Reader)) (bindingText text)) := by
  have hvalue : ∀ member ∈ [("K", word text)], member.2.Gives 2 (Reader.Refuses Reader.value) := by
    refine List.forall_mem_singleton.mpr ((gives_word (h.line hdash).lineWord h.clean).imp ?_)
    rintro _ ⟨head, htag, rfl⟩
    exact Reader.refuses_value_wide htag hwide
  have henvironment : (Layout.mapping 2 ([("K", word text)].map id)).Stands false 0
      (Reader.Refuses (Reader.bindings Reader.value)) :=
    stands_refused (by omega) nofun (fun member hmem => isName_bindings member hmem)
      (fun member hmem => hvalue member hmem) List.mem_cons_self fun node hnode => hnode
  have hnames : ∀ member ∈ bindingMembers text, Layout.IsName member.1 :=
    List.forall_mem_cons.mpr ⟨isName_literal rfl rfl, List.forall_mem_cons.mpr
      ⟨isName_literal rfl rfl, List.forall_mem_singleton.mpr (isName_literal rfl rfl)⟩⟩
  have hgives : ∀ member ∈ bindingMembers text, member.2.Gives 0 fun node =>
      member.1 = "environment" → Reader.Refuses (Reader.bindings Reader.value) node := by
    refine List.forall_mem_cons.mpr
      ⟨?_, List.forall_mem_cons.mpr ⟨?_, List.forall_mem_singleton.mpr ?_⟩⟩
    · exact (gives_of_proper (proper_literalWord rfl rfl)).imp fun node _ hname =>
        absurd hname (by decide)
    · exact (gives_of_proper (proper_literalWord rfl rfl)).imp fun node _ hname =>
        absurd hname (by decide)
    · exact henvironment.gives.imp fun node hnode _ => hnode
  have htext : (bindingText text).toList
      = Layout.membersText [] 0 ((bindingMembers text).map id) := by
    rw [List.map_id, toList_bindingText]
  have hmem : ("environment", Layout.mapping 2 [("K", word text)]) ∈ bindingMembers text := by
    simp [bindingMembers]
  exact record_fails (.inl rfl) htext (fun member hmem => hnames member hmem)
    (fun member hmem => hgives member hmem)
    hmem rfl fun node hnode => Reader.refuses_map _ (hnode rfl)

/-- A dash announces an item, for which there is no room behind a colon. -/
theorem read_dash_fails : Fails (Yaml.read (Action.read (m := Reader)) (bindingText "-")) := by
  have hfails : (Yaml.read (Action.read (m := Reader)) (bindingText "-")).isOk = false := by
    decide +kernel
  refine Outcome.fails_of_ne_ok fun action hread => ?_
  rw [hread] at hfails
  cases hfails

/-- **What is read of a word**: the action that binds the value it spells, if a value can
hold that. -/
theorem read_bindingText_iff (h : IsSpelling text) :
    Yaml.read Action.read (bindingText text) = .ok action ↔
    text ≠ "-" ∧ isWide text.toList = false ∧ action = binding (plainValue text.toList) := by
  constructor
  · intro hread
    have hdash : text ≠ "-" := by
      rintro rfl
      exact read_dash_fails.ne_ok _ hread
    cases hwide : isWide text.toList with
    | true => exact absurd hread ((read_bindingText_fails h hdash hwide).ne_ok _)
    | false =>
      rw [read_bindingText h hdash hwide] at hread
      exact ⟨hdash, rfl, (Except.ok.inj hread).symm⟩
  · rintro ⟨hdash, hwide, rfl⟩
    exact read_bindingText h hdash hwide

/-! ## The normal form -/

/-- A word that means some value is read as this value. -/
theorem read_of_meaning {meaning : Meaning} (h : IsSpelling text)
    (hmeaning : Meaning.ofPlain text.toList = meaning)
    (hdash : text ≠ "-") (hvalue : Meaning.toValue text.toList meaning = .ok value) :
    Yaml.read Action.read (bindingText text) = .ok (binding value) := by
  have hwide : isWide text.toList = false := by
    unfold isWide
    rw [hmeaning]
    split
    · cases hvalue
    · rfl
  have hplain : plainValue text.toList = value := by
    unfold plainValue
    rw [hmeaning, hvalue]
  exact (read_bindingText_iff h).mpr ⟨hdash, hwide, by rw [hplain]⟩

theorem isSpelling_signedDecimal (i : Int) : IsSpelling (String.ofList (signedDecimal i)) := by
  have hdigit : ∀ {c : Char}, c.isDigit = true → isSpelling c = true := by
    intro c hc
    unfold isSpelling Char.isAlphanum
    rw [hc, Bool.or_true, Bool.true_or, Bool.true_or, Bool.true_or, Bool.true_or]
  refine ⟨?_, ?_⟩
  · intro hempty
    have hchars := Yaml.Meaning.signedDecimal_isEmpty i
    rw [← String.toList_ofList (l := signedDecimal i), hempty] at hchars
    exact absurd hchars (by decide)
  · rw [String.toList_ofList]
    intro c hc
    obtain ⟨d, digits, hdigits, htext | htext⟩ := signedDecimal_cases i
    · exact hdigit (hdigits c (htext ▸ hc))
    · rw [htext] at hc
      rcases List.mem_cons.mp hc with rfl | hc
      · decide
      · exact hdigit (hdigits c hc)

/-- The decimal text of an integer is read as the integer. -/
theorem read_signedDecimal (hlow : -2 ^ 63 ≤ i) (hhigh : i < 2 ^ 64) :
    Yaml.read Action.read (bindingText (String.ofList (signedDecimal i)))
      = .ok (binding (.int i)) := by
  have hmeaning : Meaning.ofPlain (String.ofList (signedDecimal i)).toList = .int i := by
    rw [String.toList_ofList]
    exact Yaml.Meaning.ofPlain_signedDecimal hlow hhigh
  refine read_of_meaning (isSpelling_signedDecimal i) hmeaning ?_ rfl
  intro hdash
  rw [hdash] at hmeaning
  cases hmeaning

theorem read_bool (b : Bool) :
    Yaml.read Action.read (bindingText (if b then "true" else "false"))
      = .ok (binding (.bool b)) := by
  cases b with
  | true =>
    exact read_of_meaning (isSpelling_literal rfl rfl) Yaml.Meaning.ofPlain_true (by decide) rfl
  | false =>
    exact read_of_meaning (isSpelling_literal rfl rfl) Yaml.Meaning.ofPlain_false (by decide) rfl

/-- A word that means a text yields itself. -/
theorem yields_string (h : IsSpelling text) (hdash : text ≠ "-")
    (hmeaning : Meaning.ofPlain text.toList = .string) :
    Yields text (.text text) text := by
  have hread : Yaml.read Action.read (bindingText text) = .ok (binding (.text text)) :=
    read_of_meaning h hmeaning hdash (by rw [Meaning.toValue, String.ofList_toList])
  exact ⟨_, hread, get?_binding, envText?_binding, hread⟩

/-- Whatever else is read yields one of the three kinds of scalars that have a normal form. -/
theorem yields_of_read (h : IsSpelling text)
    (hread : Yaml.read Action.read (bindingText text) = .ok action)
    (hvalue : action.environment.get? "K" = some value) (hnull : value ≠ .null)
    (hfloat : ∀ number, value ≠ .float number) : ∃ normal, Yields text value normal := by
  obtain ⟨hdash, hwide, rfl⟩ := (read_bindingText_iff h).mp hread
  have hplain : plainValue text.toList = value := Option.some.inj (get?_binding.symm.trans hvalue)
  rw [hplain] at hread
  unfold plainValue at hplain
  unfold isWide at hwide
  cases hmeaning : Meaning.ofPlain text.toList with
  | null => rw [hmeaning] at hplain; exact absurd hplain.symm hnull
  | float number => rw [hmeaning] at hplain; exact absurd hplain.symm (hfloat number)
  | wideInt n => rw [hmeaning] at hwide; cases hwide
  | bool b =>
    rw [hmeaning] at hplain
    cases hplain
    exact ⟨_, _, hread, get?_binding, envText?_binding, read_bool b⟩
  | int i =>
    rw [hmeaning] at hplain
    cases hplain
    obtain ⟨-, hlow, hhigh⟩ := Yaml.ofPlain_eq_int_iff.mp hmeaning
    exact ⟨_, _, hread, get?_binding, envText?_binding, read_signedDecimal hlow hhigh⟩
  | string =>
    rw [hmeaning, Meaning.toValue, String.ofList_toList] at hplain
    obtain rfl : value = .text text := hplain.symm
    exact ⟨text, yields_string h hdash hmeaning⟩

/-- A word yields an integer just if it spells one of 64 bits. -/
theorem yields_int_iff (h : IsSpelling text) :
    Yields text (.int i) (String.ofList (signedDecimal i)) ↔
    SpellsInteger text.toList i ∧ -2 ^ 63 ≤ i ∧ i < 2 ^ 64 := by
  constructor
  · rintro ⟨action, hread, hvalue, -, -⟩
    obtain ⟨-, -, rfl⟩ := (read_bindingText_iff h).mp hread
    have hplain : plainValue text.toList = .int i :=
      Option.some.inj (get?_binding.symm.trans hvalue)
    unfold plainValue at hplain
    cases hmeaning : Meaning.ofPlain text.toList with
    | int j =>
      rw [hmeaning] at hplain
      cases hplain
      exact Yaml.ofPlain_eq_int_iff.mp hmeaning
    | _ => rw [hmeaning] at hplain; cases hplain
  · intro hspells
    have hmeaning := Yaml.ofPlain_eq_int_iff.mpr hspells
    have hdash : text ≠ "-" := by
      rintro rfl
      cases hmeaning
    exact ⟨_, read_of_meaning h hmeaning hdash rfl, get?_binding, envText?_binding,
      read_signedDecimal hspells.2.1 hspells.2.2⟩

/-- **The text of a binding is a normal form of the word it was read from**, for every word that is
read as something other than null and floating-point numbers. All spellings of an integer, and
nothing else, yield its decimal text. Digits behind a zero are left as they are, and so is whatever
begins with a letter, but for a few words. -/
theorem envText_normalForm (text : String) (h : IsSpelling text) :
    (∀ action value, Yaml.read Action.read (bindingText text) = .ok action →
      action.environment.get? "K" = some value → value ≠ .null → (∀ number, value ≠ .float number) →
      ∃ normal, action.envText? "K" = some normal ∧
        Yaml.read Action.read (bindingText normal) = .ok action) ∧
    (∀ i, Yields text (.int i) (String.ofList (signedDecimal i)) ↔
      SpellsInteger text.toList i ∧ -2 ^ 63 ≤ i ∧ i < 2 ^ 64) ∧
    ((∀ c ∈ text.toList, c.isDigit = true) → text.toList.head? = some '0' → text.toList.length ≠ 1 →
      Yields text (.text text) text) ∧
    (∀ c rest, text.toList = c :: rest → c.isAlpha = true → text ∉ reservedWords →
      Yields text (.text text) text) := by
  refine ⟨?_, fun i => yields_int_iff h, ?_, ?_⟩
  · intro action value hread hvalue hnull hfloat
    obtain ⟨normal, other, hother, -, htext, hnormal⟩ := yields_of_read h hread hvalue hnull hfloat
    cases hread.symm.trans hother
    exact ⟨normal, htext, hnormal⟩
  · intro hdigits hzero hlength
    have hpadded := (Yaml.isPaddedDigits_of_digits hdigits).mpr ⟨hzero, hlength⟩
    refine yields_string h ?_ (Yaml.ofPlain_of_isPaddedDigits hpadded)
    rintro rfl
    cases hzero
  · intro c rest hchars hc hreserved
    have hmeaning : Meaning.ofPlain text.toList = .string := by
      have hword := Yaml.not_isReserved hreserved
      rw [hchars] at hword ⊢
      exact Yaml.ofPlain_of_head (.inl hc) hword
    refine yields_string h ?_ hmeaning
    rintro rfl
    cases hchars
    cases hc

/-- A number in base sixteen, digits behind a zero, a word, and a truth value that is not written as
its text. -/
theorem envText_normalForm_words :
    Yields "-0x1F" (.int (-31)) "-31" ∧ Yields "0700" (.text "0700") "0700" ∧
      Yields "off" (.text "off") "off" ∧
      ∃ action normal, Yaml.read Action.read (bindingText "True") = .ok action ∧
        action.environment.get? "K" = some (.bool true) ∧ action.envText? "K" = some normal ∧
        Yaml.read Action.read (bindingText normal) = .ok action := by
  obtain ⟨-, hint, -, -⟩ := envText_normalForm "-0x1F" (isSpelling_literal rfl rfl)
  obtain ⟨-, -, hpadded, -⟩ := envText_normalForm "0700" (isSpelling_literal rfl rfl)
  obtain ⟨-, -, -, hword⟩ := envText_normalForm "off" (isSpelling_literal rfl rfl)
  obtain ⟨hnormal, -, -, -⟩ := envText_normalForm "True" (isSpelling_literal rfl rfl)
  have hspells : SpellsInteger "-0x1F".toList (-31) :=
    ⟨['0', 'x', '1', 'F'], 31, ⟨(['0', 'x'], 16), by decide, ['1', 'F'], rfl, by decide, by decide⟩,
      .inr ⟨rfl, rfl⟩⟩
  have hdigits : ∀ c ∈ "0700".toList, c.isDigit = true := List.all_eq_true.mp (by decide)
  have hbool : Meaning.ofPlain "True".toList = .bool true := by decide
  have htrue : Yaml.read Action.read (bindingText "True") = .ok (binding (.bool true)) :=
    read_of_meaning (isSpelling_literal rfl rfl) hbool (by decide) rfl
  refine ⟨(hint (-31)).mpr ⟨hspells, by decide, by decide⟩, hpadded hdigits rfl (by decide),
    hword 'o' ['f', 'f'] rfl (by decide) (by decide), ?_⟩
  obtain ⟨normal, htext, hread⟩ := hnormal _ _ htrue get?_binding nofun nofun
  exact ⟨_, normal, htrue, get?_binding, htext, hread⟩

end Provisioning.Workflow
