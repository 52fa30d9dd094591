import Provisioning.Proofs.Yaml.Building
import Provisioning.Proofs.Yaml.JsonText
import Provisioning.Proofs.Yaml.Token.Lines

/-!
# Lists in brackets on one line

A short list of texts is often written on the line of its key: `[wheel, adm]`, or with the texts in
quotes. Each comma has a space behind it. A lexer reads such a line as a flow sequence and then
faces the line below.
-/

namespace Provisioning.Yaml

open Lexer Pending

/-- A text inside of brackets, in double quotes or without. -/
inductive FlowText where
  | word (text : String)
  | quoted (text : String)

namespace FlowText

/-- The text that is meant. -/
def text : FlowText → String
  | word text | quoted text => text

/-- The characters that spell it. -/
def chars : FlowText → List Char
  | word text => text.toList
  | quoted text => '"' :: (text.toList ++ ['"'])

/-- The style that it is written in. -/
def style : FlowText → ScalarStyle
  | word _ => .plain
  | quoted _ => .doubleQuoted

/-- The kind of its token. -/
def kind (entry : FlowText) : Token.Kind := .scalar entry.text.toList entry.style

/-- **A text that can be read inside of brackets.** A word has letters and digits only and must not
spell anything else than a text. -/
inductive Proper : FlowText → Prop where
  | word {text : String} : text.toList ≠ [] → text.toList.all Char.isAlphanum = true →
      Meaning.ofPlain text.toList = .string → Proper (.word text)
  | quoted {text : String} :
      (∀ c ∈ text.toList, QuotedScalar.isQuotable c = true ∧ isClean c = true) →
      Proper (.quoted text)

/-- The entries behind the first one. -/
def following (entries : List FlowText) : List Char := entries.flatMap fun entry =>
    ',' :: ' ' :: entry.chars

/-- The kinds of their tokens. -/
def followingKinds (entries : List FlowText) : List Token.Kind :=
  entries.flatMap fun entry => .flowEntry :: [entry.kind]

variable {entry : FlowText} {entries : List FlowText} {lexer : Lexer} {mark : Mark}
  {indents : List Nat} {allowed : Bool} {kinds outside : List Token.Kind}
  {around : List (List Token.Kind)}
  {rest next : List Char} {block blank column : Nat}

/-! ## The tokens -/

theorem Proper.begins (h : entry.Proper) :
    ∃ c others, entry.chars = c :: others ∧ BeginsToken c := by
  cases h with
  | @word text hne hword _ =>
    obtain ⟨c, others, hchars⟩ := List.exists_cons_of_ne_nil hne
    rw [hchars] at hword
    obtain ⟨hc, -⟩ := List.forall_mem_cons.mp (List.all_eq_true.mp hword)
    exact ⟨c, others, hchars, (begins_of_isAlphanum hc).1⟩
  | quoted _ => exact ⟨'"', _, rfl, rfl, rfl, by decide, by decide⟩

/-- **A text leads a lexer over its token**, up to the comma or the bracket behind it. -/
theorem Proper.leads (h : entry.Proper) (hrest : Punctuated rest)
    (hmeets : lexer.Meets (entry.chars ++ rest) mark indents allowed (Loose kinds)
      (outside :: around)) :
    lexer.Reaches (Within rest indents false (kinds ++ [entry.kind]) (outside :: around)) := by
  cases h with
  | @word text hne hword _ =>
    obtain ⟨c, others, hchars⟩ := List.exists_cons_of_ne_nil hne
    obtain ⟨d, rest, rfl, hd⟩ := hrest
    rw [hchars] at hword
    obtain ⟨hc, hothers⟩ := List.forall_mem_cons.mp (List.all_eq_true.mp hword)
    have hkind : (FlowText.word text).kind = .scalar (c :: others) .plain := by
      show Token.Kind.scalar text.toList .plain = _
      rw [hchars]
    have hspelled : (FlowText.word text).chars ++ d :: rest = c :: (others ++ d :: rest) := by
      show text.toList ++ d :: rest = _
      rw [hchars, List.cons_append]
    rw [hspelled] at hmeets
    rw [hkind]
    exact (hmeets.scalar (readsScalar_flowWord (fun lexer => (begins_of_isAlphanum hc).2 lexer _)
      (fun e he => word_of_isAlphanum (hothers e he)) hd mark) fun _ => rfl).trans
      fun next hnext => Reaches.refl ⟨_, hnext⟩
  | @quoted text htext =>
    have hspelled : (FlowText.quoted text).chars ++ rest = '"' :: (text.toList ++ '"' :: rest) := by
      show '"' :: (text.toList ++ ['"']) ++ rest = _
      rw [List.cons_append, List.append_assoc, List.cons_append, List.nil_append]
    have hspells : QuotedScalar.Spells text.toList text.toList :=
      QuotedScalar.spells_raw fun c hc => (htext c hc).1
    rw [hspelled] at hmeets
    exact (hmeets.scalar (readsScalar_quoted hspells mark rest) fun _ => rfl).trans
      fun next hnext => Reaches.refl ⟨_, hnext⟩

theorem punctuated_following (entries : List FlowText) (rest : List Char) :
    Punctuated (following entries ++ ']' :: rest) := by
  cases entries with
  | nil => exact ⟨']', rest, rfl, rfl⟩
  | cons entry entries => exact ⟨',', _, rfl, rfl⟩

/-- Inside of brackets a space in front of a token is passed over. -/
theorem meets_behindSpace {c : Char}
    (h : lexer.Within (' ' :: c :: rest) indents allowed kinds (outside :: around))
    (hc : BeginsToken c) :
    ∃ mark allowed, lexer.Meets (c :: rest) mark indents allowed (Loose kinds)
      (outside :: around) := by
  obtain ⟨mark, hat⟩ := h
  refine ⟨mark.next, allowed, hat.meets ?_ (steady_loose kinds _) fun h => absurd h (by simp)⟩
  exact (toToken_spaces true allowed 1 mark (c :: rest)).trans (toToken_begins hc true allowed _ _)

/-- The entries behind the first one, and the bracket. -/
theorem leads_following : ∀ entries : List FlowText, (∀ entry ∈ entries, entry.Proper) →
    ∀ (lexer : Lexer) (kinds : List Token.Kind),
    lexer.Within (following entries ++ ']' :: rest) indents false kinds (outside :: around) →
    lexer.Reaches (Within rest indents false
      (outside ++ kinds ++ (followingKinds entries ++ [.flowSequenceEnd])) around) := by
  intro entries
  induction entries with
  | nil =>
    intro _ lexer kinds h
    exact leads_close .sequence h
  | cons entry entries ih =>
    intro hentries lexer kinds h
    obtain ⟨hentry, hentries⟩ := List.forall_mem_cons.mp hentries
    obtain ⟨c, others, hchars, hc⟩ := hentry.begins
    have hsplit : following (entry :: entries) ++ ']' :: rest
        = ',' :: ' ' :: (entry.chars ++ (following entries ++ ']' :: rest)) := by
      simp [following]
    rw [hsplit] at h
    refine (leads_comma h).trans fun next hnext => ?_
    rw [hchars, List.cons_append] at hnext
    obtain ⟨mark, allowed, hmeets⟩ := meets_behindSpace hnext hc
    rw [← List.cons_append, ← hchars] at hmeets
    refine (hentry.leads (punctuated_following entries rest) hmeets).trans fun next hnext => ?_
    have hlast := ih hentries next _ hnext
    simpa [followingKinds] using hlast

/-- **A list in brackets at the end of a line.** -/
theorem lastFlow (hentries : ∀ other ∈ entry :: entries, other.Proper)
    (h : lexer.At
      (' ' :: '[' :: (entry.chars ++
        (following entries ++ ']' :: '\n' :: (lead blank column ++ next))))
      mark (block :: indents) allowed (Loose kinds) [])
    (hnext : StartsLine next) (hblock : block < mark.column) :
    lexer.Reaches (Faces next column (block :: indents)
      (kinds ++ .flowSequenceStart :: entry.kind ::
        (followingKinds entries ++ [.flowSequenceEnd]))) := by
  obtain ⟨hentry, hentries⟩ := List.forall_mem_cons.mp hentries
  obtain ⟨c, others, hchars, hc⟩ := hentry.begins
  have hmeets := h.meets_blank Opens.sequence.begins hblock
  refine (hmeets.flowStart .sequence fun _ => keyRequired_right hblock).trans fun next hfirst => ?_
  rw [hchars, List.cons_append] at hfirst
  have hfirst := hfirst.meets_here hc (steady_loose _ _) (fun h => absurd h (by simp))
  rw [← List.cons_append, ← hchars] at hfirst
  refine (hentry.leads (punctuated_following entries _) hfirst).trans fun next hbehind => ?_
  refine (leads_following entries hentries next _ hbehind).trans fun next hlast => Reaches.refl ?_
  obtain ⟨mark, hlast⟩ := hlast
  have hfaces := hlast.faces_line hnext
  simpa using hfaces

/-! ## The node -/

theorem Proper.builds (h : entry.Proper) :
    Builds false [entry.kind] fun node => node.Means (.string entry.text) := by
  refine (Builds.scalar entry.text.toList entry.style).imp ?_
  rintro _ ⟨head, htag, rfl⟩
  have hmeans : Node.Means (.scalar head entry.text.toList entry.style)
      (.string (String.ofList entry.text.toList)) := by
    refine .string htag fun hplain => ?_
    cases h with
    | word _ _ hmeaning => exact hmeaning
    | quoted _ => cases hplain
  rw [String.ofList_toList] at hmeans
  exact hmeans

/-- **The tokens of a list in brackets build a node that means it.** -/
theorem builds_flow (hentries : ∀ other ∈ entry :: entries, other.Proper) :
    Builds false
      (.flowSequenceStart :: entry.kind :: (followingKinds entries ++ [.flowSequenceEnd]))
      fun node => node.Means (.array ((entry :: entries).map fun other => .string other.text)) := by
  refine (Builds.flowSequence fun other hother => (hentries other hother).builds).imp ?_
  rintro _ ⟨head, nodes, htag, rfl, hnodes⟩
  exact .array htag (List.forall₂_map_right_iff.mpr hnodes.flip)

/-! ## The characters -/

theorem Proper.clean (h : entry.Proper) : ∀ c ∈ entry.chars, isClean c = true := by
  cases h with
  | word _ hword _ => exact fun c hc => isClean_of_isAlphanum (List.all_eq_true.mp hword c hc)
  | quoted htext =>
    exact clean_cons (by decide)
      (clean_append (fun c hc => (htext c hc).2) (clean_cons (by decide) (by simp)))

theorem clean_following : ∀ entries : List FlowText, (∀ entry ∈ entries, entry.Proper) →
    ∀ c ∈ following entries, isClean c = true := by
  intro entries
  induction entries with
  | nil => intro _ c hc; exact absurd hc (by simp [following])
  | cons entry entries ih =>
    intro h
    obtain ⟨hentry, hentries⟩ := List.forall_mem_cons.mp h
    have hrest := ih hentries
    unfold following at hrest ⊢
    rw [List.flatMap_cons]
    exact clean_append (clean_cons (by decide) (clean_cons (by decide) hentry.clean)) hrest

end FlowText

end Provisioning.Yaml
