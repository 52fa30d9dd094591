import Provisioning.Proofs.Yaml.Token.Words
import Provisioning.Proofs.Yaml.WholeText

/-!
# The text of a JSON document read as YAML

The compact text of a JSON document is a flow collection on one line, or a scalar inside of one.
`Json.kinds` are the kinds of its tokens. The lexer yields them, because every string is a scalar
in double quotes and every name is close enough to its colon; they build a node that means the
document; so whatever a reader takes such nodes for, it reads from the text.
-/

namespace Provisioning

open Yaml (byteLength isDirect ScalarStyle Token)

namespace Json

mutual

/-- The kinds of the tokens of a document. -/
def kinds : Json → List Token.Kind
  | null | float _ => [.scalar ['n', 'u', 'l', 'l'] .plain]
  | bool true => [.scalar ['t', 'r', 'u', 'e'] .plain]
  | bool false => [.scalar ['f', 'a', 'l', 's', 'e'] .plain]
  | int value => [.scalar (Number.signedDecimal value) .plain]
  | string value => [.scalar value.toList .doubleQuoted]
  | array [] => [.flowSequenceStart, .flowSequenceEnd]
  | array (item :: items) => .flowSequenceStart :: (kinds item ++ itemsKinds items)
  | object [] => [.flowMappingStart, .flowMappingEnd]
  | object ((name, member) :: members) =>
    .flowMappingStart :: .key :: .scalar name.toList .doubleQuoted :: .value ::
      (kinds member ++ membersKinds members)

/-- The kinds of the tokens of the items behind the first, and of the end of the array. -/
def itemsKinds : List Json → List Token.Kind
  | [] => [.flowSequenceEnd]
  | item :: items => .flowEntry :: (kinds item ++ itemsKinds items)

/-- The kinds of the tokens of the members behind the first, and of the end of the object. -/
def membersKinds : List (String × Json) → List Token.Kind
  | [] => [.flowMappingEnd]
  | (name, member) :: members =>
    .flowEntry :: .key :: .scalar name.toList .doubleQuoted :: .value ::
      (kinds member ++ membersKinds members)

end

/-- Is the document an array or an object? -/
def isCollection : Json → Bool
  | array _ | object _ => true
  | _ => false

/-- Does a name, as it is written, have no more bytes than a key in short form may have? -/
def IsShort (name : String) : Prop := byteLength (writeString name) ≤ 1024

instance (name : String) : Decidable (IsShort name) := Nat.decLe _ _

/-- A name that is a key in short form. -/
def ShortName (name : String) : Prop := (∀ c ∈ name.toList, isDirect c = true) ∧ IsShort name

/-- A document whose text is read as YAML the way it is meant: the characters of its strings may
stand in a text, its names are short, and its numbers are integers of 64 bits. -/
inductive Portable : Json → Prop where
  | null : Portable .null
  | bool {value : Bool} : Portable (.bool value)
  | int {value : Int} : -2 ^ 63 ≤ value → value < 2 ^ 64 → Portable (.int value)
  | float {value : Number.Binary64} : value.isFinite = false → Portable (.float value)
  | string {value : String} : (∀ c ∈ value.toList, isDirect c = true) → Portable (.string value)
  | array {items : List Json} : (∀ item ∈ items, Portable item) → Portable (.array items)
  | object {members : List (String × Json)} : (∀ member ∈ members, ShortName member.1) →
      (∀ member ∈ members, Portable member.2) → Portable (.object members)

end Json

namespace Yaml

open Json (Portable ShortName)
open Lexer Pending

/-! ## The tokens -/

/-- Within a flow collection on one line places do not matter. -/
def Lexer.Within (text : List Char) (indents : List Nat) (allowed : Bool) (kinds : List Token.Kind)
    (around : List (List Token.Kind)) (lexer : Lexer) : Prop :=
  ∃ mark, lexer.At text mark indents allowed (Loose kinds) around

/-- What ends a value inside a flow collection. -/
def Punctuated (text : List Char) : Prop := ∃ c rest, text = c :: rest ∧ isFlowPunctuation c = true

/-- **The text of a document leads a lexer over its tokens.** -/
def Leads (json : Json) : Prop :=
  ∀ (lexer : Lexer) (rest : List Char) (indents : List Nat) (allowed : Bool)
    (kinds outside : List Token.Kind) (around : List (List Token.Kind)), Punctuated rest →
    lexer.Within (json.write ++ rest) indents allowed kinds (outside :: around) →
    lexer.Reaches (Within rest indents false (kinds ++ json.kinds) (outside :: around))

variable {lexer : Lexer} {indents : List Nat} {allowed : Bool} {kinds outside : List Token.Kind}
  {around : List (List Token.Kind)} {rest : List Char}

theorem punctuated_items (items : List Json) (rest : List Char) :
    Punctuated (Json.writeItems items ++ rest) := by
  cases items with
  | nil => exact ⟨']', rest, rfl, rfl⟩
  | cons item items => exact ⟨',', _, rfl, rfl⟩

theorem punctuated_members (members : List (String × Json)) (rest : List Char) :
    Punctuated (Json.writeMembers members ++ rest) := by
  cases members with
  | nil => exact ⟨'\x7d', rest, rfl, rfl⟩
  | cons member members => exact ⟨',', _, rfl, rfl⟩

/-- A word is one plain scalar. -/
theorem leads_word {c : Char} {word : List Char} (hc : BeginsToken c)
    (hform : ∀ (lexer : Lexer) (rest : List Char), lexer.form? c (word ++ rest) = some .plain)
    (hword : ∀ e ∈ word,
      isBlank e = false ∧ isBreak e = false ∧ isFlowPunctuation e = false ∧ e ≠ ':')
    (hpunctuated : Punctuated rest)
    (h : lexer.Within (c :: word ++ rest) indents allowed kinds (outside :: around)) :
    lexer.Reaches (Within rest indents false (kinds ++ [.scalar (c :: word) .plain])
      (outside :: around)) := by
  obtain ⟨mark, hat⟩ := h
  obtain ⟨d, rest, rfl, hd⟩ := hpunctuated
  have hmeets := hat.meets_here hc (steady_loose kinds mark) (fun h => absurd h (by simp))
  refine (hmeets.scalar (readsScalar_flowWord (fun lexer => hform lexer _) hword hd mark)
    fun _ => rfl).trans fun next hnext => Reaches.refl ⟨_, hnext⟩

/-- Letters are one plain scalar. -/
theorem leads_letters {c : Char} {word : List Char} (hword : (c :: word).all Char.isAlphanum = true)
    (hpunctuated : Punctuated rest)
    (h : lexer.Within (c :: word ++ rest) indents allowed kinds (outside :: around)) :
    lexer.Reaches (Within rest indents false (kinds ++ [.scalar (c :: word) .plain])
      (outside :: around)) := by
  obtain ⟨hc, hword⟩ := List.forall_mem_cons.mp (List.all_eq_true.mp hword)
  exact leads_word (begins_of_isAlphanum hc).1
    (fun lexer rest => (begins_of_isAlphanum hc).2 lexer (word ++ rest))
    (fun e he => word_of_isAlphanum (hword e he)) hpunctuated h

/-- A string is one scalar in double quotes. -/
theorem leads_string {s : String} (hs : ∀ c ∈ s.toList, isDirect c = true)
    (h : lexer.Within (Json.writeString s ++ rest) indents allowed kinds (outside :: around)) :
    lexer.Reaches (Within rest indents false (kinds ++ [.scalar s.toList .doubleQuoted])
      (outside :: around)) := by
  obtain ⟨mark, hat⟩ := h
  unfold Json.writeString at hat
  rw [List.cons_append, List.append_assoc] at hat
  have hmeets := hat.meets_here ⟨rfl, rfl, by decide, by decide⟩ (steady_loose kinds mark)
    (fun h => absurd h (by simp))
  exact (hmeets.scalar (readsScalar_quoted (QuotedScalar.spells_escaped hs) mark rest) fun _ =>
    rfl).trans fun next hnext => Reaches.refl ⟨_, hnext⟩

/-- A name and its colon. -/
theorem leads_name {name : String} (hname : ShortName name)
    (h : lexer.Within (Json.writeString name ++ ':' :: rest) indents true kinds
      (outside :: around)) :
    lexer.Reaches (Within rest indents false
      (kinds ++ [.key, .scalar name.toList .doubleQuoted, .value]) (outside :: around)) := by
  obtain ⟨mark, hat⟩ := h
  unfold Json.writeString at hat
  rw [List.cons_append, List.append_assoc] at hat
  have hmeets := hat.meets_here ⟨rfl, rfl, by decide, by decide⟩ (steady_loose kinds mark)
    (fun h => absurd h (by simp))
  have hfresh := isStale_past (keyRequired indents (outside :: around) mark) mark hname.2
  refine (hmeets.keyed (readsScalar_quoted (QuotedScalar.spells_escaped hname.1) mark (':' :: rest))
    hfresh (fun h => absurd h (by simp)) (fun h => absurd h (by simp))).trans
    fun next hnext => Reaches.refl ?_
  refine ⟨_, hnext.imp fun level hlevel => ?_⟩
  -- A key inside a flow collection opens no block.
  have hopened : opened .blockMappingStart indents (outside :: around) mark.column
    = ([], indents) := rfl
  rw [hopened] at hlevel
  simpa using hlevel.loose

theorem within_step {c : Char} (h : lexer.Within (c :: rest) indents allowed kinds around)
    (hc : BeginsToken c) (hflow : around.isEmpty = false) :
    ∃ mark, lexer.Meets (c :: rest) mark indents allowed (Loose kinds) around := by
  obtain ⟨mark, hat⟩ := h
  exact ⟨mark, hat.meets_here hc (steady_loose kinds mark)
    (fun h => absurd (hflow.symm.trans h) (by simp))⟩

/-- A comma leads to the next entry. -/
theorem leads_comma (h : lexer.Within (',' :: rest) indents allowed kinds (outside :: around)) :
    lexer.Reaches (Within rest indents true (kinds ++ [.flowEntry]) (outside :: around)) := by
  obtain ⟨mark, hmeets⟩ := within_step h begins_comma rfl
  exact hmeets.flowEntry.trans fun next hnext => Reaches.refl ⟨_, hnext⟩

/-- A bracket leads out of the collection. -/
theorem leads_close {c : Char} {kind : Token.Kind} (hcloses : Closes c kind)
    (h : lexer.Within (c :: rest) indents allowed kinds (outside :: around)) :
    lexer.Reaches (Within rest indents false (outside ++ kinds ++ [kind]) around) := by
  obtain ⟨mark, hmeets⟩ := within_step h hcloses.begins rfl
  exact (hmeets.flowEnd hcloses).trans fun next hnext => Reaches.refl ⟨_, hnext⟩

/-- The items behind the first one, and the end of the array. -/
theorem leads_items : ∀ (items : List Json), (∀ item ∈ items, Leads item) →
    ∀ (lexer : Lexer) (allowed : Bool) (kinds : List Token.Kind),
    lexer.Within (Json.writeItems items ++ rest) indents allowed kinds (outside :: around) →
    lexer.Reaches
      (Within rest indents false (outside ++ kinds ++ Json.itemsKinds items) around) := by
  intro items
  induction items with
  | nil =>
    intro _ lexer allowed kinds h
    exact leads_close .sequence h
  | cons item items ih =>
    intro hitems lexer allowed kinds h
    obtain ⟨hitem, hitems⟩ := List.forall_mem_cons.mp hitems
    rw [Json.writeItems, List.cons_append, List.append_assoc] at h
    rw [Json.itemsKinds]
    refine (leads_comma h).trans fun next hnext => ?_
    -- A comma or the bracket follows, which is where the item ends.
    refine (hitem next _ _ _ _ _ _ (punctuated_items items rest) hnext).trans fun next hnext => ?_
    have hlast := ih hitems next false _ hnext
    simpa only [List.append_assoc, List.cons_append, List.nil_append] using hlast

/-- The members behind the first one, and the end of the object. -/
theorem leads_members : ∀ (members : List (String × Json)),
    (∀ member ∈ members, ShortName member.1) → (∀ member ∈ members, Leads member.2) →
    ∀ (lexer : Lexer) (allowed : Bool) (kinds : List Token.Kind),
    lexer.Within (Json.writeMembers members ++ rest) indents allowed kinds (outside :: around) →
    lexer.Reaches
      (Within rest indents false (outside ++ kinds ++ Json.membersKinds members) around) := by
  intro members
  induction members with
  | nil =>
    intro _ _ lexer allowed kinds h
    exact leads_close .mapping h
  | cons member members ih =>
    obtain ⟨name, member⟩ := member
    intro hnames hmembers lexer allowed kinds h
    obtain ⟨hname, hnames⟩ := List.forall_mem_cons.mp hnames
    obtain ⟨hmember, hmembers⟩ := List.forall_mem_cons.mp hmembers
    rw [Json.writeMembers, List.cons_append, List.append_assoc, List.cons_append,
      List.append_assoc] at h
    rw [Json.membersKinds]
    refine (leads_comma h).trans fun next hnext => ?_
    refine (leads_name hname hnext).trans fun next hnext => ?_
    refine (hmember next _ _ _ _ _ _ (punctuated_members members rest) hnext).trans
      fun next hnext => ?_
    have hlast := ih hnames hmembers next false _ hnext
    simpa only [List.append_assoc, List.cons_append, List.nil_append] using hlast

/-- An object leads from wherever a flow collection may begin, even at the start of a text. -/
theorem leads_object {members : List (String × Json)} {mark : Mark}
    (hnames : ∀ member ∈ members, ShortName member.1)
    (hmembers : ∀ member ∈ members, Leads member.2)
    (h : lexer.Meets ((Json.object members).write ++ rest) mark indents allowed
      (Loose kinds) around)
    (hfree : allowed = true → keyRequired indents around mark = false) :
    lexer.Reaches (Within rest indents false (kinds ++ (Json.object members).kinds) around) := by
  cases members with
  | nil =>
    rw [Json.write, List.cons_append, List.cons_append, List.nil_append] at h
    refine (h.flowStart .mapping hfree).trans fun next hnext => ?_
    have hlast := leads_close .mapping ⟨_, hnext⟩
    simpa only [Json.kinds, List.append_assoc, List.cons_append, List.nil_append] using hlast
  | cons member members =>
    obtain ⟨name, member⟩ := member
    obtain ⟨hname, hnames⟩ := List.forall_mem_cons.mp hnames
    obtain ⟨hmember, hmembers⟩ := List.forall_mem_cons.mp hmembers
    rw [Json.write, List.cons_append, List.append_assoc, List.cons_append, List.append_assoc] at h
    refine (h.flowStart .mapping hfree).trans fun next hnext => ?_
    refine (leads_name hname ⟨_, hnext⟩).trans fun next hnext => ?_
    refine (hmember next _ _ _ _ _ _ (punctuated_members members rest) hnext).trans
      fun next hnext => ?_
    have hlast := leads_members members hnames hmembers next false _ hnext
    simpa only [Json.kinds, List.append_assoc, List.cons_append, List.nil_append] using hlast

/-- An array leads from wherever a flow collection may begin, too. -/
theorem leads_array {items : List Json} {mark : Mark} (hitems : ∀ item ∈ items, Leads item)
    (h : lexer.Meets ((Json.array items).write ++ rest) mark indents allowed (Loose kinds) around)
    (hfree : allowed = true → keyRequired indents around mark = false) :
    lexer.Reaches (Within rest indents false (kinds ++ (Json.array items).kinds) around) := by
  cases items with
  | nil =>
    rw [Json.write, List.cons_append, List.cons_append, List.nil_append] at h
    refine (h.flowStart .sequence hfree).trans fun next hnext => ?_
    have hlast := leads_close .sequence ⟨_, hnext⟩
    simpa only [Json.kinds, List.append_assoc, List.cons_append, List.nil_append] using hlast
  | cons item items =>
    obtain ⟨hitem, hitems⟩ := List.forall_mem_cons.mp hitems
    rw [Json.write, List.cons_append, List.append_assoc] at h
    refine (h.flowStart .sequence hfree).trans fun next hnext => ?_
    refine (hitem next _ _ _ _ _ _ (punctuated_items items rest) ⟨_, hnext⟩).trans fun next hnext =>
      ?_
    have hlast := leads_items items hitems next false _ hnext
    simpa only [Json.kinds, List.append_assoc, List.cons_append, List.nil_append] using hlast

/-- The text of a collection begins with a token. No gap is in front of it, as the text
is compact. -/
theorem meets_collection {json : Json} (hcollection : json.isCollection = true) {mark : Mark}
    (h : lexer.At (json.write ++ rest) mark indents allowed (Loose kinds) around)
    (hopen : around.isEmpty = true → ∀ indent, indents.head? = some indent → indent ≤ mark.column) :
    lexer.Meets (json.write ++ rest) mark indents allowed (Loose kinds) around := by
  cases json with
  | array items =>
    cases items <;> exact h.meets_here (Opens.begins .sequence) (steady_loose kinds mark) hopen
  | object members =>
    cases members <;> exact h.meets_here (Opens.begins .mapping) (steady_loose kinds mark) hopen
  | _ => exact absurd hcollection (by simp [Json.isCollection])

theorem leads_integer (i : Int) : Leads (.int i) := by
  intro lexer rest indents allowed kinds outside around hrest h
  obtain ⟨d, digits, hdigits, htext⟩ := Number.signedDecimal_cases i
  have hall : ∀ e ∈ d :: digits, e.isAlphanum = true := by
    intro e he
    unfold Char.isAlphanum
    rw [hdigits e he, Bool.or_true]
  obtain ⟨hblank, hbreak, _, _⟩ := word_of_isAlphanum (hall d (by simp))
  rw [Json.write] at h
  rw [Json.kinds]
  rcases htext with htext | htext
  · rw [htext] at h ⊢
    exact leads_letters (List.all_eq_true.mpr hall) hrest h
  · rw [htext] at h ⊢
    have hdash : d ≠ '-' := isAlphanum_ne (hall d (by simp)) (by decide)
    exact leads_word ⟨rfl, rfl, by decide, by decide⟩
      (fun lexer rest => form?_minus hblank hbreak hdash)
      (fun e he => word_of_isAlphanum (hall e he)) hrest h

/-- **The text of a portable document leads a lexer over its tokens.** -/
theorem leads_of_portable {json : Json} (h : Portable json) : Leads json := by
  induction h with
  | null => exact fun _ _ _ _ _ _ _ hrest h => leads_letters (by decide) hrest h
  | @bool value =>
    cases value with
    | false => exact fun _ _ _ _ _ _ _ hrest h => leads_letters (by decide) hrest h
    | true => exact fun _ _ _ _ _ _ _ hrest h => leads_letters (by decide) hrest h
  | @int value _ _ => exact leads_integer value
  | @float value hfinite =>
    intro lexer rest indents allowed kinds outside around hrest h
    rw [Json.write, Json.writeFloat, hfinite] at h
    exact leads_letters (by decide) hrest h
  | string hs => exact fun _ _ _ _ _ _ _ _ h => leads_string hs h
  | array _ ih =>
    intro lexer rest indents allowed kinds outside around _ ⟨mark, hat⟩
    exact leads_array ih (meets_collection rfl hat fun h => absurd h (by simp)) fun _ => rfl
  | object hnames _ ih =>
    intro lexer rest indents allowed kinds outside around _ ⟨mark, hat⟩
    exact leads_object hnames ih (meets_collection rfl hat fun h => absurd h (by simp)) fun _ => rfl

/-! ## The node -/

theorem itemsKinds_eq : ∀ items : List Json, Json.itemsKinds items
    = items.flatMap (fun item => .flowEntry :: item.kinds) ++ [.flowSequenceEnd] := by
  intro items
  induction items with
  | nil => rfl
  | cons item items ih =>
    rw [Json.itemsKinds, ih, List.flatMap_cons, List.cons_append, List.cons_append,
      List.append_assoc]

/-- The kinds of the tokens of a member. -/
def memberKinds : String × Json → List Token.Kind :=
  Builds.pairKinds (fun member => member.1.toList) .doubleQuoted (fun member => member.2.kinds)

theorem membersKinds_eq : ∀ members : List (String × Json), Json.membersKinds members
    = members.flatMap (fun member => .flowEntry :: memberKinds member) ++ [.flowMappingEnd] := by
  intro members
  induction members with
  | nil => rfl
  | cons member members ih =>
    rw [Json.membersKinds, ih, List.flatMap_cons, List.cons_append, List.cons_append,
      List.append_assoc]
    rfl

theorem builds_members {member : String × Json} {members : List (String × Json)}
    {holds : Node → Json → Prop}
    (h : ∀ other ∈ member :: members, Builds false other.2.kinds (holds · other.2)) :
    Builds false (.flowMappingStart :: (memberKinds member ++
        (members.flatMap (fun member => .flowEntry :: memberKinds member) ++ [.flowMappingEnd])))
      fun node => ∃ (head : NodeHead) (parts : List Node) (named : List (String × Node)),
        head.tag = none ∧ node = .mapping head parts true ∧ Node.Labels parts named ∧
        List.Forall₂ (fun member node => member.1 = node.1 ∧ holds node.2 member.2)
          (member :: members) named := by
  have hquoted : ScalarStyle.doubleQuoted ≠ .plain := by decide
  refine (Builds.flowMapping h fun _ _ hplain => absurd hplain hquoted).imp ?_
  rintro node ⟨head, parts, named, htag, hnode, hlabels, hnamed⟩
  refine ⟨head, parts, named, htag, hnode, hlabels, hnamed.imp fun member node hmember => ?_⟩
  exact ⟨by rw [hmember.1, String.ofList_toList], hmember.2⟩

/-- **The tokens of a portable document build a node that means it.** -/
theorem builds_of_portable {json : Json} (h : Portable json) :
    Builds false json.kinds (Node.Means · json) := by
  induction h with
  | null =>
    refine (Builds.scalar _ _).imp ?_
    rintro _ ⟨head, htag, rfl⟩
    exact .null htag Meaning.ofPlain_null
  | @bool value =>
    cases value with
    | false =>
      refine (Builds.scalar _ _).imp ?_
      rintro _ ⟨head, htag, rfl⟩
      exact .bool htag Meaning.ofPlain_false
    | true =>
      refine (Builds.scalar _ _).imp ?_
      rintro _ ⟨head, htag, rfl⟩
      exact .bool htag Meaning.ofPlain_true
  | int hlow hhigh =>
    refine (Builds.scalar _ _).imp ?_
    rintro _ ⟨head, htag, rfl⟩
    exact Node.means_integer hlow hhigh htag
  | float hfinite =>
    refine (Builds.scalar _ _).imp ?_
    rintro _ ⟨head, htag, rfl⟩
    exact .notFinite htag Meaning.ofPlain_null hfinite
  | @string value _ =>
    refine (Builds.scalar _ _).imp ?_
    rintro _ ⟨head, htag, rfl⟩
    have hmeans : Node.Means _ (.string (String.ofList value.toList)) :=
      .string htag (fun h : ScalarStyle.doubleQuoted = .plain => absurd h (by decide))
    rw [String.ofList_toList] at hmeans
    exact hmeans
  | @array items _ ih =>
    cases items with
    | nil =>
      refine Builds.flowSequence_nil.imp ?_
      rintro _ ⟨head, htag, rfl⟩
      exact .array htag .nil
    | cons item items =>
      rw [Json.kinds, itemsKinds_eq]
      refine (Builds.flowSequence ih).imp ?_
      rintro _ ⟨head, nodes, htag, rfl, hnodes⟩
      exact .array htag hnodes.flip
  | @object members _ _ ih =>
    cases members with
    | nil =>
      refine Builds.flowMapping_nil.imp ?_
      rintro _ ⟨head, htag, rfl⟩
      exact .object htag .nil rfl .nil
    | cons member members =>
      obtain ⟨name, member⟩ := member
      rw [Json.kinds, membersKinds_eq]
      refine (builds_members ih).imp ?_
      rintro _ ⟨head, parts, named, htag, rfl, hlabels, hnamed⟩
      have hparts : _ ∧ List.Forall₂ (fun json node => Node.Means node json)
          (((name, member) :: members).map Prod.snd) (named.map Prod.snd) :=
        Partners.pairs_iff.mp hnamed
      exact .object htag hlabels hparts.1.symm hparts.2.flip

/-! ## The characters -/

theorem isClean_of_isDirect {c : Char} (hlow : 0x20 ≤ c.toNat) (h : isDirect c = true) :
    isClean c = true := by
  unfold isDirect at h
  rw [Bool.or_eq_true, Bool.or_eq_true] at h
  rcases h with (h | h) | h
  · exact isClean_of_printable hlow (by simpa using h)
  · simp only [Bool.and_eq_true, decide_eq_true_eq] at h
    have hreturn : c ≠ '\r' := fun he => by rw [he] at hlow; exact absurd hlow (by decide)
    have hnext : c ≠ '\u0085' := fun he => by rw [he] at h; exact absurd h.1.1.1.1 (by decide)
    unfold isClean isPermitted
    simp [h.1.1.1.1, h.1.1.1.2, hreturn, hnext]
  · have hlarge : 0x10000 ≤ c.toNat := by simpa using h
    have hreturn : c ≠ '\r' := fun he => by rw [he] at hlow; exact absurd hlow (by decide)
    have hnext : c ≠ '\u0085' := fun he => by rw [he] at hlarge; exact absurd hlarge (by decide)
    unfold isClean isPermitted
    simp [hlarge, hreturn, hnext]

theorem isClean_digitChar : ∀ n, n < 32 →
    isClean (Nat.digitChar (n / 16)) = true ∧ isClean (Nat.digitChar (n % 16)) = true := by
  decide

theorem clean_escapeChar {c : Char} (h : isDirect c = true) :
    ∀ d ∈ Json.escapeChar c, isClean d = true := by
  unfold Json.escapeChar
  split
  · exact List.all_eq_true.mp (by decide)
  · exact List.all_eq_true.mp (by decide)
  · exact List.all_eq_true.mp (by decide)
  · exact List.all_eq_true.mp (by decide)
  · exact List.all_eq_true.mp (by decide)
  · exact List.all_eq_true.mp (by decide)
  · exact List.all_eq_true.mp (by decide)
  · split
    · rename_i hcontrol
      obtain ⟨hhigh, hlow⟩ := isClean_digitChar c.toNat hcontrol
      intro d hd
      simp only [List.mem_cons, List.not_mem_nil, or_false] at hd
      rcases hd with rfl | rfl | rfl | rfl | rfl | rfl
      · decide
      · decide
      · decide
      · decide
      · exact hhigh
      · exact hlow
    · rename_i hcontrol
      intro d hd
      rw [List.mem_singleton] at hd
      rw [hd]
      exact isClean_of_isDirect (by omega) h

theorem clean_writeString {s : String} (h : ∀ c ∈ s.toList, isDirect c = true) :
    ∀ d ∈ Json.writeString s, isClean d = true := by
  have hescaped : ∀ d ∈ s.toList.flatMap Json.escapeChar, isClean d = true := by
    intro d hd
    obtain ⟨c, hc, hd⟩ := List.mem_flatMap.mp hd
    exact clean_escapeChar (h c hc) d hd
  exact clean_cons (by decide) (clean_append hescaped (clean_cons (by decide) (by simp)))

theorem clean_items : ∀ items : List Json, (∀ item ∈ items, ∀ c ∈ item.write, isClean c = true) →
    ∀ c ∈ Json.writeItems items, isClean c = true := by
  intro items
  induction items with
  | nil => intro _; exact List.all_eq_true.mp (by decide)
  | cons item items ih =>
    intro h
    obtain ⟨hitem, hitems⟩ := List.forall_mem_cons.mp h
    rw [Json.writeItems]
    exact clean_cons (by decide) (clean_append hitem (ih hitems))

theorem clean_members : ∀ members : List (String × Json), (∀ member ∈ members, ShortName member.1) →
    (∀ member ∈ members, ∀ c ∈ member.2.write, isClean c = true) →
    ∀ c ∈ Json.writeMembers members, isClean c = true := by
  intro members
  induction members with
  | nil => intro _ _; exact List.all_eq_true.mp (by decide)
  | cons member members ih =>
    obtain ⟨name, member⟩ := member
    intro hnames h
    obtain ⟨hname, hnames⟩ := List.forall_mem_cons.mp hnames
    obtain ⟨hmember, hmembers⟩ := List.forall_mem_cons.mp h
    rw [Json.writeMembers]
    exact clean_cons (by decide) (clean_append (clean_writeString hname.1)
      (clean_cons (by decide) (clean_append hmember (ih hnames hmembers))))

/-- A first item or member is written as a further one is, behind another character. -/
theorem mem_write_object {members : List (String × Json)} {c : Char}
    (h : c ∈ (Json.object members).write) : c = '\x7b' ∨ c ∈ Json.writeMembers members := by
  cases members with
  | nil =>
    rw [Json.write] at h
    exact List.mem_cons.mp h
  | cons member members =>
    rw [Json.write, List.mem_cons] at h
    rw [Json.writeMembers]
    exact h.imp_right (List.mem_cons_of_mem _)

theorem mem_write_array {items : List Json} {c : Char} (h : c ∈ (Json.array items).write) :
    c = '[' ∨ c ∈ Json.writeItems items := by
  cases items with
  | nil =>
    rw [Json.write] at h
    exact List.mem_cons.mp h
  | cons item items =>
    rw [Json.write, List.mem_cons] at h
    rw [Json.writeItems]
    exact h.imp_right (List.mem_cons_of_mem _)

theorem clean_integer (value : Int) : ∀ c ∈ (Json.int value).write, isClean c = true := by
  intro c hc
  obtain ⟨d, digits, hdigits, htext⟩ := Number.signedDecimal_cases value
  have hdigit : ∀ e : Char, e.isDigit = true → isClean e = true := by
    intro e he
    refine isClean_of_isAlphanum ?_
    unfold Char.isAlphanum
    rw [he, Bool.or_true]
  rw [Json.write] at hc
  rcases htext with htext | htext
  · exact hdigit c (hdigits c (htext ▸ hc))
  · rw [htext, List.mem_cons] at hc
    rcases hc with rfl | hc
    · decide
    · exact hdigit c (hdigits c hc)

/-- **The text of a portable document is clean.** -/
theorem clean_write {json : Json} (h : Portable json) : ∀ c ∈ json.write, isClean c = true := by
  induction h with
  | null => exact List.all_eq_true.mp (by decide)
  | @bool value => cases value <;> exact List.all_eq_true.mp (by decide)
  | @int value _ _ => exact clean_integer value
  | @float value hfinite =>
    rw [Json.write, Json.writeFloat, hfinite]
    exact List.all_eq_true.mp (by decide : ['n', 'u', 'l', 'l'].all isClean = true)
  | string hs => exact clean_writeString hs
  | array _ ih =>
    intro c hc
    rcases mem_write_array hc with rfl | hc
    · decide
    · exact clean_items _ ih c hc
  | object hnames _ ih =>
    intro c hc
    rcases mem_write_object hc with rfl | hc
    · decide
    · exact clean_members _ hnames ih c hc

/-! ## The text -/

/-- A lexer that is led over a collection yields its tokens and the end of the text. -/
theorem yields_of_leads {json : Json} (hcollection : json.isCollection = true)
    (hleads : ∀ lexer : Lexer, lexer.Meets (json.write ++ []) .origin [] true (Loose []) [] →
      lexer.Reaches (Within [] [] false ([] ++ json.kinds) [])) :
    (Lexer.ofText json.write).Yields (json.kinds ++ [.streamEnd]) := by
  have hstart : (Lexer.ofText json.write).At (json.write ++ []) .origin [] true (Loose []) [] :=
    ⟨by rw [List.append_nil]; rfl, rfl, rfl, settled_empty.loose, .nil⟩
  have hmeets := meets_collection hcollection hstart (fun _ _ h => nomatch h)
  refine (hleads _ hmeets).yields fun next hnext => ?_
  obtain ⟨mark, hat⟩ := hnext
  have hend := (hat.meets rfl (steady_loose _ mark) (fun _ _ h => nomatch h)).yields
  simpa using hend

theorem yields_object {members : List (String × Json)}
    (hnames : ∀ member ∈ members, ShortName member.1)
    (hmembers : ∀ member ∈ members, Leads member.2) :
    (Lexer.ofText (Json.object members).write).Yields
      ((Json.object members).kinds ++ [.streamEnd]) :=
  yields_of_leads rfl fun _ hmeets => leads_object hnames hmembers hmeets fun _ => rfl

theorem yields_collection {json : Json} (h : Portable json)
    (hcollection : json.isCollection = true) :
    (Lexer.ofText json.write).Yields (json.kinds ++ [.streamEnd]) := by
  cases h with
  | array hitems =>
    exact yields_of_leads rfl fun _ hmeets =>
      leads_array (fun item hitem => leads_of_portable (hitems item hitem)) hmeets fun _ => rfl
  | object hnames hmembers =>
    exact yields_object hnames fun member hmember => leads_of_portable (hmembers member hmember)
  | _ => exact absurd hcollection (by simp [Json.isCollection])

theorem kinds_collection {json : Json} (hcollection : json.isCollection = true) :
    ∃ kind kinds, json.kinds = kind :: kinds ∧ BeginsRoot kind := by
  cases json with
  | array items =>
    cases items with
    | nil => exact ⟨_, _, rfl, .flowSequence⟩
    | cons item items => exact ⟨_, _, rfl, .flowSequence⟩
  | object members =>
    cases members with
    | nil => exact ⟨_, _, rfl, .flowMapping⟩
    | cons member members => exact ⟨_, _, rfl, .flowMapping⟩
  | _ => exact absurd hcollection (by simp [Json.isCollection])

/-- **The text of a portable collection is read as what a reader takes its nodes for.** -/
theorem read_collection {α : Type} {read : Reader α} {json : Json} {a : α} (h : Portable json)
    (hcollection : json.isCollection = true)
    (htakes : Reader.yamlReading.Reads depthLimit read json a) :
    Yaml.read read json.text = .ok a := by
  have hlist : json.text.toList = json.write := String.toList_ofList
  obtain ⟨kind, kinds, hkinds, hroot⟩ := kinds_collection hcollection
  have hyields := yields_collection h hcollection
  have hbuilds := builds_of_portable h
  rw [hkinds] at hyields hbuilds
  exact read_of_yields (by rw [hlist]; exact clean_write h) (by rw [hlist]; exact hyields) hroot
    hbuilds htakes

theorem read_text {α : Type} {read : Reader α} {members : List (String × Json)} {a : α}
    (h : Portable (.object members))
    (htakes : Reader.yamlReading.Reads depthLimit read (.object members) a) :
    Yaml.read read (Json.object members).text = .ok a :=
  read_collection h rfl htakes

end Yaml

end Provisioning
