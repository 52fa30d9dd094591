import Provisioning.Proofs.Yaml.FlowLine
import Provisioning.Proofs.Yaml.Token.Literal
import Provisioning.Proofs.Yaml.WholeText

/-!
# Documents laid out in lines

Texts that people write put every member of a mapping and every item of a sequence on a line of
its own, and indent what belongs to it. A `Layout` is a document with the columns and the styles
of such a text. If it is `Proper`, its text leads a lexer over the kinds of its tokens, which
build a node that means the document.
-/

namespace Provisioning.Yaml

open Lexer Pending

/-- A document and how its text is laid out. A plain word has the meaning it is given as only if
the layout is proper. -/
inductive Layout where
  /-- A word without quotes. -/
  | plain (word : String) (meaning : Json)
  /-- A word without quotes and a comment behind it. -/
  | commented (word comment : String) (meaning : Json)
  /-- A text in double quotes that needs no escapes. -/
  | quoted (text : String)
  /-- Nothing, which means null. -/
  | absent
  /-- The lines of a text, at a column of their own. -/
  | literal (column : Nat) (lines : List String)
  /-- Texts in brackets on one line. -/
  | flow (entry : FlowText) (entries : List FlowText)
  /-- Items behind dashes at a column. -/
  | sequence (column : Nat) (items : List Layout)
  /-- Items behind dashes at the column of the names of the mapping around them. -/
  | aligned (column : Nat) (items : List Layout)
  /-- Members at a column. -/
  | mapping (column : Nat) (members : List (String × Layout))

/-- The text of some lines. -/
def textOfLines (lines : List String) : String := String.ofList (unlines (lines.map String.toList))

namespace Layout

mutual

/-- The document. -/
def json : Layout → Json
  | plain _ meaning | commented _ _ meaning => meaning
  | quoted text => .string text
  | absent => .null
  | literal _ lines => .string (textOfLines lines)
  | flow entry entries => .array ((entry :: entries).map fun other => .string other.text)
  | sequence _ items | aligned _ items => .array (itemsJson items)
  | mapping _ members => .object (membersJson members)

/-- The documents of the items. -/
def itemsJson : List Layout → List Json
  | [] => []
  | item :: items => json item :: itemsJson items

/-- The members of the document. -/
def membersJson : List (String × Layout) → List (String × Json)
  | [] => []
  | (name, member) :: members => (name, json member) :: membersJson members

end

mutual

/-- The text behind the dash of an item or the colon of a key, up to the end of its last line. A
mapping begins right behind a dash, but on the line below a colon. -/
def text (dash : Bool) : Layout → List Char
  | plain word _ => ' ' :: (word.toList ++ ['\n'])
  | commented word comment _ => ' ' :: (word.toList ++ ' ' :: '#' :: (comment.toList ++ ['\n']))
  | quoted text => ' ' :: '"' :: (text.toList ++ ['"', '\n'])
  | absent => [' ', '\n']
  | literal column lines => ' ' :: '|' :: '\n' :: indented column (lines.map String.toList)
  | flow entry entries => ' ' :: '[' :: (entry.chars ++ (FlowText.following entries ++ [']', '\n']))
  | sequence column items | aligned column items => itemsText ('\n' :: spaces column) column items
  | mapping column members =>
    membersText (if dash then [' '] else '\n' :: spaces column) column members

/-- The text of items with something in front of the first. -/
def itemsText (front : List Char) (column : Nat) : List Layout → List Char
  | [] => []
  | item :: items => front ++ '-' :: (text true item ++ itemsText (spaces column) column items)

/-- The text of members with something in front of the first. -/
def membersText (front : List Char) (column : Nat) : List (String × Layout) → List Char
  | [] => []
  | (name, member) :: members =>
    front ++ (name.toList
      ++ ':' :: (text false member ++ membersText (spaces column) column members))

end

mutual

/-- The kinds of the tokens. -/
def kinds : Layout → List Token.Kind
  | plain word _ | commented word _ _ => [.scalar word.toList .plain]
  | quoted text => [.scalar text.toList .doubleQuoted]
  | absent => []
  | literal _ lines => [.scalar (unlines (lines.map String.toList)) .literal]
  | flow entry entries =>
    .flowSequenceStart :: entry.kind :: (FlowText.followingKinds entries ++ [.flowSequenceEnd])
  | sequence _ items => .blockSequenceStart :: (itemsKinds items ++ [.blockEnd])
  | aligned _ items => itemsKinds items
  | mapping _ members => .blockMappingStart :: membersKinds members

/-- The kinds of the tokens of the items. -/
def itemsKinds : List Layout → List Token.Kind
  | [] => []
  | item :: items => .blockEntry :: (kinds item ++ itemsKinds items)

/-- The kinds of the tokens of the members and of the end of the mapping. -/
def membersKinds : List (String × Layout) → List Token.Kind
  | [] => [.blockEnd]
  | (name, member) :: members =>
    .key :: .scalar name.toList .plain :: .value :: (kinds member ++ membersKinds members)

end

theorem itemsJson_eq_map (items : List Layout) : itemsJson items = items.map json := by
  induction items with
  | nil => rfl
  | cons item items ih => rw [itemsJson, ih, List.map_cons]

theorem membersJson_eq_map (members : List (String × Layout)) :
    membersJson members = members.map fun member => (member.1, member.2.json) := by
  induction members with
  | nil => rfl
  | cons member members ih => rw [membersJson, ih, List.map_cons]

/-- The kinds of the tokens of a member. -/
def memberKinds : String × Layout → List Token.Kind :=
  Builds.pairKinds (fun member : String × Layout => member.1.toList) .plain
    (fun member => member.2.kinds)

theorem itemsKinds_eq (items : List Layout) :
    itemsKinds items = items.flatMap fun item => .blockEntry :: item.kinds := by
  induction items with
  | nil => rfl
  | cons item items ih => rw [itemsKinds, ih, List.flatMap_cons, List.cons_append]

theorem membersKinds_eq (members : List (String × Layout)) :
    membersKinds members = members.flatMap memberKinds ++ [.blockEnd] := by
  induction members with
  | nil => rfl
  | cons member members ih => rw [membersKinds, ih, List.flatMap_cons, List.append_assoc]; rfl

/-! ## What a layout needs -/

/-- A word that needs no quotes. -/
structure IsWord (word : List Char) : Prop where
  plain : ∃ c rest, word = c :: rest ∧ BlockWord c rest
  clean : ∀ c ∈ word, isClean c = true

/-- A text that is one plain scalar at the end of a line. -/
def IsLineWord (word : List Char) : Prop := ∃ c rest, word = c :: rest ∧ LineWord c rest

theorem IsWord.lineWord {word : List Char} (h : IsWord word) : IsLineWord word := by
  obtain ⟨c, rest, hplain, hword⟩ := h.plain
  exact ⟨c, rest, hplain, hword.lineWord⟩

/-- The name of a member: a word that means itself, short enough for a key. -/
structure IsName (name : String) : Prop where
  word : IsWord name.toList
  short : byteLength name.toList ≤ 1024
  meaning : Meaning.ofPlain name.toList = .string

/-- A word means a document wherever it stands without quotes. -/
def WordMeans (word : List Char) (json : Json) : Prop :=
  ∀ head : NodeHead, head.tag = none → Node.Means (.scalar head word .plain) json

/-- A character that stands for itself in double quotes. -/
def isBare (c : Char) : Bool := 0x20 ≤ c.toNat && c.toNat ≤ 0x7E && c != '"' && c != '\\'

/-- A line of a literal text. -/
def IsTextLine (line : String) : Prop := IsLine line.toList ∧ ∀ c ∈ line.toList, isClean c = true

/-- **A layout that can be read**, behind a dash or a colon inside a block at a column. -/
inductive Proper : Bool → Nat → Layout → Prop where
  | plain {dash : Bool} {block : Nat} {word : String} {meaning : Json} :
      IsWord word.toList → WordMeans word.toList meaning → Proper dash block (.plain word meaning)
  | commented {dash : Bool} {block : Nat} {word comment : String} {meaning : Json} :
      IsWord word.toList → WordMeans word.toList meaning →
      (∀ c ∈ comment.toList, isBreak c = false ∧ isClean c = true) →
        Proper dash block (.commented word comment meaning)
  | quoted {dash : Bool} {block : Nat} {text : String} :
      (∀ c ∈ text.toList, isBare c = true) → Proper dash block (.quoted text)
  | absent {block : Nat} : Proper false block .absent
  | literal {dash : Bool} {block column : Nat} {line : String} {lines : List String} :
      block < column → (∀ c, line.toList.head? = some c → isBlank c = false) →
      (∀ other ∈ line :: lines, IsTextLine other) →
        Proper dash block (.literal column (line :: lines))
  | flow {dash : Bool} {block : Nat} {entry : FlowText} {entries : List FlowText} :
      (∀ other ∈ entry :: entries, other.Proper) → Proper dash block (.flow entry entries)
  | sequence {dash : Bool} {block column : Nat} {item : Layout} {items : List Layout} :
      block < column → (∀ other ∈ item :: items, Proper true column other) →
      Proper dash block (.sequence column (item :: items))
  | aligned {column : Nat} {item : Layout} {items : List Layout} :
      (∀ other ∈ item :: items, Proper true column other) →
      Proper false column (.aligned column (item :: items))
  | mapping {dash : Bool} {block column : Nat} {member : String × Layout}
      {members : List (String × Layout)} :
      block < column → (dash = true → column = block + 2) →
      (∀ other ∈ member :: members, IsName other.1) →
      (∀ other ∈ member :: members, Proper false column other.2) →
      Proper dash block (.mapping column (member :: members))

/-! ## The tokens -/

theorem isQuotable_of_isBare {c : Char} (h : isBare c = true) :
    QuotedScalar.isQuotable c = true := by
  simp only [isBare, Bool.and_eq_true, decide_eq_true_eq, bne_iff_ne, ne_eq] at h
  obtain ⟨⟨⟨hlow, hhigh⟩, hquote⟩, hslash⟩ := h
  have hne : ∀ d : Char, d.toNat < 0x20 ∨ 0x7E < d.toNat → c ≠ d := by
    rintro d hd rfl
    omega
  unfold QuotedScalar.isQuotable isBreak
  rw [beq_eq_false_iff_ne.mpr (hne '\n' (by decide)),
    beq_eq_false_iff_ne.mpr (hne '\u2028' (by decide)),
      beq_eq_false_iff_ne.mpr (hne '\u2029' (by decide)), bne_iff_ne.mpr hquote,
      bne_iff_ne.mpr hslash]
  rfl

/-- **A layout leads a lexer over its tokens**, up to the beginning of a line that does not belong
to it. A blank or a line end behind the dash or the colon shows that the word ends there. -/
structure Leads (dash : Bool) (block : Nat) (layout : Layout) : Prop where
  ends : ∀ rest, endsWord (layout.text dash ++ rest) = true
  leads : ∀ (lexer : Lexer) (mark : Mark) (outer : List Nat) (kinds : List Token.Kind)
    (blank column : Nat) (next : List Char), StartsLine next → column ≤ block →
      block < mark.column → (dash = true → mark.column = block + 1) →
    lexer.At (layout.text dash ++ (lead blank column ++ next)) mark (block :: outer) dash
      (Loose kinds) [] →
    lexer.Reaches (Faces next column (block :: outer) (kinds ++ layout.kinds))

variable {lexer : Lexer} {mark : Mark} {outer indents : List Nat} {kinds : List Token.Kind}
  {block column below blank : Nat} {next rest : List Char} {dash : Bool}

theorem leads_plain {word : String} {meaning : Json} (hword : IsLineWord word.toList) :
    Leads dash block (.plain word meaning) := by
  refine ⟨fun rest => rfl, fun lexer mark outer kinds blank column next hnext hcolumn hblock _ h =>
    ?_⟩
  obtain ⟨c, rest, hplain, hlineWord⟩ := hword
  rw [Layout.text, List.cons_append, List.append_assoc, hplain] at h
  rw [Layout.kinds, hplain]
  exact h.lastWord hlineWord hnext hcolumn hblock

theorem leads_commented {word comment : String} {meaning : Json} (hword : IsWord word.toList)
    (hcomment : ∀ c ∈ comment.toList, isBreak c = false) :
    Leads dash block (.commented word comment meaning) := by
  refine ⟨fun rest => rfl, fun lexer mark outer kinds blank column next hnext _ hblock _ h => ?_⟩
  obtain ⟨c, rest, hplain, hblockWord⟩ := hword.plain
  have htext : (Layout.commented word comment meaning).text dash ++ (lead blank column ++ next)
      = ' ' :: (c :: rest
        ++ ' ' :: '#' :: (comment.toList ++ '\n' :: (lead blank column ++ next))) := by
    rw [Layout.text, hplain]
    simp
  rw [htext] at h
  rw [Layout.kinds, hplain]
  exact h.lastCommented hblockWord hcomment hnext hblock

theorem leads_quoted {text : String} (htext : ∀ c ∈ text.toList, QuotedScalar.isQuotable c = true) :
    Leads dash block (.quoted text) := by
  refine ⟨fun rest => rfl, fun lexer mark outer kinds blank column next hnext hcolumn hblock _ h =>
    ?_⟩
  have hwritten : (Layout.quoted text).text dash ++ (lead blank column ++ next)
      = ' ' :: '"' :: (text.toList ++ '"' :: '\n' :: (lead blank column ++ next)) := by
    rw [Layout.text]
    simp
  rw [hwritten] at h
  exact h.lastQuoted (QuotedScalar.spells_raw htext) hnext hblock

theorem leads_absent : Leads false block .absent := by
  refine ⟨fun rest => rfl, fun lexer mark outer kinds blank column next hnext _ _ _ h => ?_⟩
  rw [Layout.kinds, List.append_nil]
  exact Reaches.refl (h.lastBlank hnext)

theorem leads_literal {line : String} {lines : List String} (hcolumn : block < column)
    (hfirst : ∀ c, line.toList.head? = some c → isBlank c = false)
    (hlines : ∀ other ∈ line :: lines, IsTextLine other) :
    Leads dash block (.literal column (line :: lines)) := by
  refine ⟨fun rest => rfl, fun lexer mark outer kinds blank below next hnext hbelow hblock _ h =>
    ?_⟩
  obtain ⟨c, word, hline⟩ : ∃ c word, line.toList = c :: word :=
    List.exists_cons_of_ne_nil (hlines line List.mem_cons_self).1.1
  have hall : ∀ other ∈ (line :: lines).map String.toList, IsLine other := by
    intro other hother
    obtain ⟨text, htext, rfl⟩ := List.mem_map.mp hother
    exact (hlines text htext).1
  rw [Layout.text, List.map_cons, hline] at h
  rw [List.map_cons, hline] at hall
  rw [Layout.kinds, List.map_cons, hline]
  exact h.lastLiteral hall (hfirst c (by rw [hline]; rfl)) hnext hbelow hcolumn hblock

theorem leads_flow {entry : FlowText} {entries : List FlowText}
    (hentries : ∀ other ∈ entry :: entries, other.Proper) :
      Leads dash block (.flow entry entries) := by
  refine ⟨fun rest => rfl, fun lexer mark outer kinds blank column next hnext _ hblock _ h => ?_⟩
  have htext : (Layout.flow entry entries).text dash ++ (lead blank column ++ next) = ' ' :: '[' ::
      (entry.chars
        ++ (FlowText.following entries ++ ']' :: '\n' :: (lead blank column ++ next))) := by
    rw [Layout.text]
    simp
  rw [htext] at h
  exact FlowText.lastFlow hentries h hnext hblock

/-! ### Collections -/

theorem opened_deeper (kind : Token.Kind) (h : marginOf indents ≤ column) :
    opened kind indents [] column = ([kind], column :: indents) := by
  unfold opened
  simp [h]

/-- What is within the margin is no less indented than the innermost block. -/
theorem le_of_marginOf (h : marginOf indents ≤ column) :
    ∀ indent, indents.head? = some indent → indent ≤ column := by
  intro indent hindent
  cases indents with
  | nil => exact absurd hindent (by simp)
  | cons first others =>
    cases hindent
    exact Nat.le_of_succ_le h

theorem opened_level (kind : Token.Kind) :
    opened kind (column :: outer) [] column = ([], column :: outer) := by
  unfold opened marginOf
  simp

theorem IsName.startsLine {name : String} (h : IsName name) (rest : List Char) :
    StartsLine (name.toList ++ rest) := by
  obtain ⟨c, word, hplain, hword⟩ := h.word.plain
  rw [hplain]
  exact .inr ⟨c, word ++ rest, rfl, hword.begins⟩

theorem startsLine_dash (rest : List Char) : StartsLine ('-' :: rest) :=
  .inr ⟨'-', rest, rfl, rfl, rfl, by decide, by decide⟩

/-- A name and its colon at the beginning of a line. -/
theorem faces_name {name : String} (hname : IsName name) (hends : endsWord rest = true)
    (hopen : ∀ indent, indents.head? = some indent → indent ≤ column)
    (h : lexer.Faces (name.toList ++ ':' :: rest) column indents kinds) :
    lexer.Reaches fun next => ∃ mark : Mark, column < mark.column ∧
      next.At rest mark (opened .blockMappingStart indents [] column).2 false
        (Settled (kinds ++ (opened .blockMappingStart indents [] column).1
          ++ [.key] ++ [.scalar name.toList .plain] ++ [.value])) [] := by
  obtain ⟨c, word, hplain, hword⟩ := hname.word.plain
  have hshort := hname.short
  rw [hplain] at hshort
  rw [hplain] at h ⊢
  exact h.key hword hshort hends hopen

/-- The first name behind a dash counts as the beginning of a line. -/
theorem faces_behindDash (h : lexer.At (' ' :: next) mark indents true (Loose kinds) [])
    (hnext : StartsLine next)
    (hcolumn : mark.column + 1 = column) : lexer.Faces next column indents kinds := by
  have hgap : Cursor.toToken false false true mark (' ' :: next) = (⟨next, mark.next⟩, true) := by
    rw [Cursor.toToken, if_neg (by decide), if_neg (by decide), if_pos (by simp)]
    exact toToken_startsLine hnext false true _
  exact h.faces hgap hcolumn

/-- **A member leads over its tokens**, which may open its mapping, to the beginning of the
next line. -/
theorem leads_member {name : String} {value : Layout} {opening : List Token.Kind}
    (hname : IsName name) (hvalue : Leads false column value) (hnext : StartsLine next)
    (hbelow : below ≤ column)
    (hopen : ∀ indent, indents.head? = some indent → indent ≤ column)
    (hopened : opened .blockMappingStart indents [] column = (opening, column :: outer))
    (h : lexer.Faces (name.toList ++ ':' :: (value.text false ++ (lead blank below ++ next))) column
      indents kinds) :
    lexer.Reaches (Faces next below (column :: outer)
      (kinds ++ opening ++ [.key] ++ [.scalar name.toList .plain] ++ [.value] ++ value.kinds)) := by
  refine (faces_name hname (hvalue.ends _) hopen h).trans fun lexer hkey => ?_
  obtain ⟨mark, hmark, hat⟩ := hkey
  rw [hopened] at hat
  exact hvalue.leads lexer mark outer _ blank below next hnext hbelow hmark nofun
    (hat.imp fun _ => Settled.loose)

/-- From the colon of a member on, the members of a mapping lead over their tokens. -/
theorem leads_behindName (hnext : StartsLine next) (hbelow : below ≤ column) :
    ∀ (members : List (String × Layout)) (value : Layout),
    (∀ member ∈ members, IsName member.1) → Leads false column value →
    (∀ member ∈ members, Leads false column member.2) →
    ∀ (lexer : Lexer) (mark : Mark) (kinds : List Token.Kind), column < mark.column →
    lexer.At
      (value.text false ++
        (membersText (spaces column) column members ++ (lead blank below ++ next)))
      mark (column :: outer) false (Loose kinds) [] →
    lexer.Reaches (Faces next below (column :: outer)
      (kinds ++ value.kinds ++ members.flatMap memberKinds)) := by
  -- A value is followed up to the name below it, so each step crosses a value and the
  -- name behind it.
  intro members
  induction members with
  | nil =>
    intro value _ hvalue _ lexer mark kinds hmark h
    rw [List.flatMap_nil, List.append_nil]
    exact hvalue.leads lexer mark outer kinds blank below next hnext hbelow hmark (by simp) h
  | cons member members ih =>
    intro value hnames hvalue hmembers lexer mark kinds hmark h
    obtain ⟨name, following⟩ := member
    obtain ⟨hname, hnames⟩ := List.forall_mem_cons.mp hnames
    obtain ⟨hfollowing, hmembers⟩ := List.forall_mem_cons.mp hmembers
    rw [membersText, List.append_assoc, List.append_assoc, List.cons_append, List.append_assoc] at h
    have hline := hname.startsLine (':' :: (following.text false ++
      (membersText (spaces column) column members ++ (lead blank below ++ next))))
    refine (hvalue.leads lexer mark outer kinds 0 column _ hline (Nat.le_refl _) hmark
      (by simp) h).trans fun lexer hfaces => ?_
    have hopen : ∀ indent, (column :: outer).head? = some indent → indent ≤ column := by simp
    refine (faces_name hname (hfollowing.ends _) hopen hfaces).trans fun lexer hkey => ?_
    obtain ⟨mark, hmark, hat⟩ := hkey
    rw [opened_level, List.append_nil] at hat
    have hrest :=
      ih following hnames hfollowing hmembers lexer mark _ hmark (hat.imp fun _ => Settled.loose)
    simpa [memberKinds, Builds.pairKinds] using hrest

/-- **The members of a mapping lead over their tokens**, from the first name on. -/
theorem leads_members {member : String × Layout} {members : List (String × Layout)}
    (hnext : StartsLine next) (hbelow : below ≤ column) (hmargin : marginOf indents ≤ column)
    (hnames : ∀ other ∈ member :: members, IsName other.1)
    (hmembers : ∀ other ∈ member :: members, Leads false column other.2)
    (h : lexer.Faces (membersText [] column (member :: members) ++ (lead blank below ++ next))
      column indents kinds) :
    lexer.Reaches (Faces next below (column :: indents)
      (kinds ++ .blockMappingStart :: (member :: members).flatMap memberKinds)) := by
  obtain ⟨name, value⟩ := member
  obtain ⟨hname, hnames⟩ := List.forall_mem_cons.mp hnames
  obtain ⟨hvalue, hmembers⟩ := List.forall_mem_cons.mp hmembers
  rw [membersText, List.nil_append, List.append_assoc, List.cons_append, List.append_assoc] at h
  refine (faces_name hname (hvalue.ends _) (le_of_marginOf hmargin) h).trans fun lexer hkey => ?_
  obtain ⟨mark, hmark, hat⟩ := hkey
  rw [opened_deeper _ hmargin] at hat
  have hrest :=
    leads_behindName hnext hbelow members value hnames hvalue hmembers lexer mark _ hmark
    (hat.imp fun _ => Settled.loose)
  simpa [memberKinds, Builds.pairKinds] using hrest

/-- The text of items with empty lines in front of each. -/
def entriesText (column : Nat) : List (Nat × Layout) → List Char
  | [] => []
  | (blank, item) :: entries =>
    lead blank column ++ '-' :: (item.text true ++ entriesText column entries)

/-- The kinds of the tokens of such items. -/
def entriesKinds (entries : List (Nat × Layout)) : List Token.Kind :=
  entries.flatMap fun entry => .blockEntry :: entry.2.kinds

theorem itemsText_eq (column : Nat) (items : List Layout) :
    itemsText (spaces column) column items
      = entriesText column (items.map fun item => (0, item)) := by
  induction items with
  | nil => rfl
  | cons item items ih => rw [itemsText, ih]; rfl

theorem itemsKinds_eq_entries (items : List Layout) :
    itemsKinds items = entriesKinds (items.map fun item => (0, item)) := by
  rw [itemsKinds_eq, entriesKinds, List.flatMap_map]

/-- From the dash of an item on, the items of a sequence lead over their tokens. -/
theorem leads_behindDash (hnext : StartsLine next) (hbelow : below ≤ column) :
    ∀ (entries : List (Nat × Layout)) (item : Layout), Leads true column item →
    (∀ entry ∈ entries, Leads true column entry.2) →
    ∀ (lexer : Lexer) (mark : Mark) (kinds : List Token.Kind), mark.column = column + 1 →
    lexer.At (item.text true ++ (entriesText column entries ++ (lead blank below ++ next)))
      mark (column :: outer) true (Loose kinds) [] →
    lexer.Reaches (Faces next below (column :: outer)
      (kinds ++ item.kinds ++ entriesKinds entries)) := by
  intro entries
  induction entries with
  | nil =>
    intro item hitem _ lexer mark kinds hmark h
    have hless : column < mark.column := by omega
    rw [entriesKinds, List.flatMap_nil, List.append_nil]
    exact hitem.leads lexer mark outer kinds blank below next hnext hbelow hless (fun _ => hmark) h
  | cons entry entries ih =>
    intro item hitem hentries lexer mark kinds hmark h
    obtain ⟨before, following⟩ := entry
    obtain ⟨hfollowing, hentries⟩ := List.forall_mem_cons.mp hentries
    have hless : column < mark.column := by omega
    rw [entriesText, List.append_assoc, List.cons_append, List.append_assoc] at h
    have hline := startsLine_dash (following.text true ++
      (entriesText column entries ++ (lead blank below ++ next)))
    refine (hitem.leads lexer mark outer kinds before column _ hline (Nat.le_refl _) hless
      (fun _ => hmark) h).trans fun lexer hfaces => ?_
    have hopen : ∀ indent, (column :: outer).head? = some indent → indent ≤ column := by simp
    refine (hfaces.dash (hfollowing.ends _) hopen).trans fun lexer hdash => ?_
    obtain ⟨mark, hmark, hat⟩ := hdash
    rw [opened_level, List.append_nil] at hat
    have hrest := ih following hfollowing hentries lexer mark _ hmark hat
    simpa [entriesKinds] using hrest

/-- **The items of a sequence lead over their tokens**, from the first dash on. -/
theorem leads_items {item : Layout} {entries : List (Nat × Layout)} (hnext : StartsLine next)
    (hbelow : below ≤ column) (hmargin : marginOf indents ≤ column) (hitem : Leads true column item)
    (hentries : ∀ entry ∈ entries, Leads true column entry.2)
    (h : lexer.Faces
      ('-' :: (item.text true ++ (entriesText column entries ++ (lead blank below ++ next))))
      column indents kinds) :
    lexer.Reaches (Faces next below (column :: indents)
      (kinds ++ .blockSequenceStart :: .blockEntry :: (item.kinds ++ entriesKinds entries))) := by
  refine (h.dash (hitem.ends _) (le_of_marginOf hmargin)).trans fun lexer hdash => ?_
  obtain ⟨mark, hmark, hat⟩ := hdash
  rw [opened_deeper _ hmargin] at hat
  have hrest := leads_behindDash hnext hbelow entries item hitem hentries lexer mark _ hmark hat
  simpa using hrest

/-- The text of a sequence behind the line end in front of its first dash. -/
theorem itemsText_below (item : Layout) (items : List Layout) (rest : List Char) :
    itemsText ('\n' :: spaces column) column (item :: items) ++ rest
      = '\n' :: (lead 0 column ++ '-' :: (item.text true ++
          (entriesText column (items.map fun item => (0, item)) ++ rest))) := by
  rw [itemsText, itemsText_eq, List.append_assoc, List.cons_append, List.cons_append,
    List.append_assoc]
  rfl

theorem leads_sequence {item : Layout} {items : List Layout} (hcolumn : block < column)
    (hitems : ∀ other ∈ item :: items, Leads true column other) :
    Leads dash block (.sequence column (item :: items)) := by
  refine ⟨fun rest => rfl, fun lexer mark outer kinds blank below next hnext hbelow _ _ h => ?_⟩
  obtain ⟨hitem, hitems⟩ := List.forall_mem_cons.mp hitems
  rw [Layout.text, itemsText_below] at h
  have hle : below ≤ column := by omega
  have hless : below < column := by omega
  have hmargin : marginOf (block :: outer) ≤ column := hcolumn
  have hentries : ∀ entry ∈ items.map fun item => (0, item), Leads true column entry.2 := by
    simpa using hitems
  refine (leads_items hnext hle hmargin hitem hentries (h.faces_line (startsLine_dash _))).trans
    fun lexer hfaces => Reaches.refl ?_
  have hclosed := hfaces.close hless
  rw [Layout.kinds, itemsKinds, itemsKinds_eq_entries]
  simpa using hclosed

/-- The dashes of an aligned sequence open no block, so there is none to close. -/
theorem leads_aligned {item : Layout} {items : List Layout}
    (hitems : ∀ other ∈ item :: items, Leads true column other) :
    Leads false column (.aligned column (item :: items)) := by
  refine ⟨fun rest => rfl, fun lexer mark outer kinds blank below next hnext hbelow _ _ h => ?_⟩
  obtain ⟨hitem, hitems⟩ := List.forall_mem_cons.mp hitems
  rw [Layout.text, itemsText_below] at h
  have hopen : ∀ indent, (column :: outer).head? = some indent → indent ≤ column := by simp
  have hentries : ∀ entry ∈ items.map fun item => (0, item), Leads true column entry.2 := by
    simpa using hitems
  refine ((h.faces_line (startsLine_dash _)).dash (hitem.ends _) hopen).trans fun lexer hdash => ?_
  obtain ⟨mark, hmark, hat⟩ := hdash
  rw [opened_level, List.append_nil] at hat
  have hrest := leads_behindDash hnext hbelow _ item hitem hentries lexer mark _ hmark hat
  rw [Layout.kinds, itemsKinds, itemsKinds_eq_entries]
  simpa using hrest

theorem leads_mapping {member : String × Layout} {members : List (String × Layout)}
    (hcolumn : block < column) (hdash : dash = true → column = block + 2)
    (hnames : ∀ other ∈ member :: members, IsName other.1)
    (hmembers : ∀ other ∈ member :: members, Leads false column other.2) :
    Leads dash block (.mapping column (member :: members)) := by
  refine ⟨fun rest => by cases dash <;> rfl,
    fun lexer mark outer kinds blank below next hnext hbelow _ hplace h => ?_⟩
  have hline :
      StartsLine (membersText [] column (member :: members) ++ (lead blank below ++ next)) := by
    have hname : IsName member.1 := (List.forall_mem_cons.mp hnames).1
    rw [membersText, List.nil_append, List.append_assoc]
    exact hname.startsLine _
  -- Both ways the lexer faces the first name, on this line or the next.
  have hfaces :
      lexer.Faces (membersText [] column (member :: members) ++ (lead blank below ++ next)) column
        (block :: outer) kinds := by
    cases dash with
    | false =>
      have htext : (Layout.mapping column (member :: members)).text false
          ++ (lead blank below ++ next)
          = '\n' :: (lead 0 column
            ++ (membersText [] column (member :: members) ++ (lead blank below ++ next))) := by
        show ('\n' :: spaces column ++ _) ++ _ = _
        rw [List.append_assoc]
        rfl
      rw [htext] at h
      exact h.faces_line hline
    | true => exact faces_behindDash h hline (hdash rfl ▸ congrArg (· + 1) (hplace rfl))
  have hle : below ≤ column := by omega
  have hless : below < column := by omega
  have hmargin : marginOf (block :: outer) ≤ column := hcolumn
  refine (leads_members hnext hle hmargin hnames hmembers hfaces).trans fun lexer hfaces =>
    Reaches.refl ?_
  have hclosed := hfaces.close hless
  rw [Layout.kinds, membersKinds_eq]
  simpa using hclosed

/-- **A proper layout leads a lexer over its tokens.** -/
theorem leads_of_proper {layout : Layout} (h : Proper dash block layout) :
    Leads dash block layout := by
  induction h with
  | plain hword => exact leads_plain hword.lineWord
  | commented hword _ hcomment => exact leads_commented hword fun c hc => (hcomment c hc).1
  | quoted htext => exact leads_quoted fun c hc => isQuotable_of_isBare (htext c hc)
  | absent => exact leads_absent
  | literal hcolumn hfirst hlines => exact leads_literal hcolumn hfirst hlines
  | flow hentries => exact leads_flow hentries
  | sequence hcolumn _ ih => exact leads_sequence hcolumn ih
  | aligned _ ih => exact leads_aligned ih
  | mapping hcolumn hdash hnames _ ih => exact leads_mapping hcolumn hdash hnames ih

/-! ## The node -/

/-- Members named as those of the layout, one by one, are those of a mapping that means it. -/
theorem means_mapping {head : NodeHead} {parts : List Node} {named : List (String × Node)}
    {column : Nat} {members : List (String × Layout)} (htag : head.tag = none)
    (hlabels : Node.Labels parts named)
    (h : List.Forall₂ (Builds.HoldsNamed (fun member : String × Layout => member.1.toList)
      fun member node => node.Means member.2.json) members named) :
    Node.Means (.mapping head parts true) (Layout.mapping column members).json := by
  have hpairs : List.Forall₂ (fun (named : String × Node) (member : String × Json) =>
      named.1 = member.1 ∧ named.2.Means member.2) named (membersJson members) := by
    rw [membersJson_eq_map]
    refine Partners.partners_map h fun member _ node hmember => ?_
    obtain ⟨hname, hmeans⟩ := hmember
    exact ⟨by rw [hname, String.ofList_toList], hmeans⟩
  obtain ⟨hnames, hmeans⟩ := Partners.pairs_iff.mp hpairs
  exact .object htag hlabels hnames hmeans

/-- **The tokens of a proper layout build a node that means its document**, and if there are none
then a value that is left out means it. -/
theorem ofValue_of_proper {layout : Layout} (h : Proper dash block layout) :
    (dash = true → Builds true layout.kinds fun node => node.Means layout.json) ∧
      Builds.OfValue layout.kinds fun node => node.Means layout.json := by
  have hbuilds : ∀ {dash : Bool} {layout : Layout},
      (Builds true layout.kinds fun node => node.Means layout.json) →
      (dash = true → Builds true layout.kinds fun node => node.Means layout.json) ∧
        Builds.OfValue layout.kinds fun node => node.Means layout.json :=
    fun h => ⟨fun _ => h, Builds.ofValue h⟩
  have htext : ∀ (text : List Char) (style : ScalarStyle), style ≠ .plain →
      Builds true [.scalar text style] fun node => node.Means (.string (String.ofList text)) := by
    intro text style hstyle
    refine (Builds.scalar text style).toBlock.imp ?_
    rintro _ ⟨head, htag, rfl⟩
    exact .string htag fun h => absurd h hstyle
  -- Only a value behind a colon can be left out, so behind a dash there are tokens to build from.
  induction h with
  | plain _ hmeans =>
    refine hbuilds ((Builds.scalar _ _).toBlock.imp ?_)
    rintro _ ⟨head, htag, rfl⟩
    exact hmeans head htag
  | commented _ hmeans _ =>
    refine hbuilds ((Builds.scalar _ _).toBlock.imp ?_)
    rintro _ ⟨head, htag, rfl⟩
    exact hmeans head htag
  | @quoted _ _ text _ =>
    have hquoted := htext text.toList .doubleQuoted (by decide)
    rw [String.ofList_toList] at hquoted
    exact hbuilds hquoted
  | absent => exact ⟨by simp, Builds.ofValue_absent fun mark => .null rfl Meaning.ofPlain_empty⟩
  | literal _ _ _ => exact hbuilds (htext _ _ (by decide))
  | flow hentries => exact hbuilds (FlowText.builds_flow hentries).toBlock
  | @sequence _ _ column item items _ _ ih =>
    have hsequence := Builds.blockSequence fun other hother => (ih other hother).1 rfl
    refine hbuilds ?_
    rw [Layout.kinds, itemsKinds_eq]
    refine hsequence.imp ?_
    rintro _ ⟨head, nodes, htag, rfl, hnodes⟩
    rw [Layout.json, itemsJson_eq_map]
    exact .array htag (List.forall₂_map_right_iff.mpr hnodes.flip)
  | @aligned column item items _ ih =>
    have hsequence := Builds.ofValue_aligned fun other hother => (ih other hother).1 rfl
    refine ⟨by simp, ?_⟩
    rw [Layout.kinds, itemsKinds_eq]
    refine hsequence.imp ?_
    rintro _ ⟨head, nodes, htag, rfl, hnodes⟩
    rw [Layout.json, itemsJson_eq_map]
    exact .array htag (List.forall₂_map_right_iff.mpr hnodes.flip)
  | @mapping _ _ column member members _ _ hnames _ ih =>
    have hstyle : ∀ other ∈ member :: members, ScalarStyle.plain = .plain →
        Meaning.ofPlain other.1.toList = .string :=
          fun other hother _ => (hnames other hother).meaning
    refine hbuilds ?_
    rw [Layout.kinds, membersKinds_eq]
    refine (Builds.blockMapping (fun other hother => (ih other hother).2) hstyle).imp ?_
    rintro _ ⟨head, parts, named, htag, rfl, hlabels, hnamed⟩
    exact means_mapping htag hlabels hnamed

/-! ## The characters -/

theorem clean_spaces (n : Nat) : ∀ c ∈ spaces n, isClean c = true := by
  intro c hc
  rw [List.eq_of_mem_replicate hc]
  decide

theorem isClean_of_isBare {c : Char} (h : isBare c = true) : isClean c = true := by
  simp only [isBare, Bool.and_eq_true, decide_eq_true_eq] at h
  exact isClean_of_printable h.1.1.1 h.1.1.2

theorem clean_indented (column : Nat) : ∀ lines : List (List Char),
    (∀ line ∈ lines, ∀ c ∈ line, isClean c = true) → ∀ c ∈ indented column lines,
    isClean c = true := by
  intro lines
  induction lines with
  | nil => intro _ c hc; exact absurd hc (by simp [indented])
  | cons line lines ih =>
    intro h
    obtain ⟨hline, hlines⟩ := List.forall_mem_cons.mp h
    exact clean_append (clean_spaces column)
      (clean_append hline (clean_cons (by decide) (ih hlines)))

theorem clean_items {column : Nat} : ∀ (items : List Layout) (front : List Char),
    (∀ item ∈ items, ∀ c ∈ item.text true, isClean c = true) → (∀ c ∈ front, isClean c = true) →
    ∀ c ∈ itemsText front column items, isClean c = true := by
  intro items
  induction items with
  | nil => intro front _ _ c hc; exact absurd hc (by simp [itemsText])
  | cons item items ih =>
    intro front h hfront
    obtain ⟨hitem, hitems⟩ := List.forall_mem_cons.mp h
    exact clean_append hfront (clean_cons (by decide)
      (clean_append hitem (ih (spaces column) hitems (clean_spaces column))))

theorem clean_members {column : Nat} : ∀ (members : List (String × Layout)) (front : List Char),
    (∀ member ∈ members, IsName member.1) →
    (∀ member ∈ members, ∀ c ∈ member.2.text false, isClean c = true) →
      (∀ c ∈ front, isClean c = true) →
    ∀ c ∈ membersText front column members, isClean c = true := by
  intro members
  induction members with
  | nil => intro front _ _ _ c hc; exact absurd hc (by simp [membersText])
  | cons member members ih =>
    intro front hnames h hfront
    obtain ⟨hname, hnames⟩ := List.forall_mem_cons.mp hnames
    obtain ⟨hmember, hmembers⟩ := List.forall_mem_cons.mp h
    have hrest := ih (spaces column) hnames hmembers (clean_spaces column)
    exact clean_append hfront (clean_append hname.word.clean
      (clean_cons (by decide) (clean_append hmember hrest)))

theorem clean_commented {word comment : String} {meaning : Json} (h : IsWord word.toList)
    (hcomment : ∀ c ∈ comment.toList, isClean c = true) :
    ∀ c ∈ (Layout.commented word comment meaning).text dash, isClean c = true :=
  clean_cons (by decide) (clean_append h.clean (clean_cons (by decide) (clean_cons (by decide)
    (clean_append hcomment (clean_cons (by decide) (by simp))))))

theorem clean_word {word : String} {meaning : Json} (h : ∀ c ∈ word.toList, isClean c = true) :
    ∀ c ∈ (Layout.plain word meaning).text dash, isClean c = true :=
  clean_cons (by decide) (clean_append h (clean_cons (by decide) (by simp)))

theorem clean_quoted {text : String} (h : ∀ c ∈ text.toList, isClean c = true) :
    ∀ c ∈ (Layout.quoted text).text dash, isClean c = true :=
  clean_cons (by decide) (clean_cons (by decide) (clean_append h (List.all_eq_true.mp (by decide))))

/-- **The text of a proper layout is clean.** -/
theorem clean_of_proper {layout : Layout} (h : Proper dash block layout) :
    ∀ c ∈ layout.text dash, isClean c = true := by
  have hline : ∀ column, ∀ c ∈ '\n' :: spaces column, isClean c = true :=
    fun column => clean_cons (by decide) (clean_spaces column)
  induction h with
  | plain hword _ => exact clean_word hword.clean
  | commented hword _ hcomment => exact clean_commented hword fun c hc => (hcomment c hc).2
  | quoted htext => exact clean_quoted fun c hc => isClean_of_isBare (htext c hc)
  | absent => exact List.all_eq_true.mp (by decide)
  | literal _ _ hlines =>
    refine clean_cons (by decide) (clean_cons (by decide) (clean_cons (by decide)
      (clean_indented _ _ fun line hmem => ?_)))
    obtain ⟨text, htext, rfl⟩ := List.mem_map.mp hmem
    exact (hlines text htext).2
  | flow hentries =>
    obtain ⟨hentry, hothers⟩ := List.forall_mem_cons.mp hentries
    exact clean_cons (by decide) (clean_cons (by decide) (clean_append hentry.clean
      (clean_append (FlowText.clean_following _ hothers) (List.all_eq_true.mp (by decide)))))
  | sequence _ _ ih => exact clean_items _ _ ih (hline _)
  | aligned _ ih => exact clean_items _ _ ih (hline _)
  | @mapping dash _ column _ _ _ _ hnames _ ih =>
    refine clean_members _ _ hnames ih ?_
    cases dash with
    | false => exact hline column
    | true => exact clean_cons (by decide) (by simp)

/-! ## The text of a document -/

/-- **A layout behind a colon gives a node** of which something holds. -/
structure Gives (block : Nat) (holds : Node → Prop) (layout : Layout) : Prop where
  leads : Leads false block layout
  builds : Builds.OfValue layout.kinds holds
  clean : ∀ c ∈ layout.text false, isClean c = true

theorem Gives.imp {holds holds' : Node → Prop} {layout : Layout} (h : layout.Gives block holds)
    (himp : ∀ node, holds node → holds' node) : layout.Gives block holds' :=
  ⟨h.leads, h.builds.imp himp, h.clean⟩

theorem gives_of_proper {layout : Layout} (h : Proper false block layout) :
    layout.Gives block fun node => node.Means layout.json :=
  ⟨leads_of_proper h, (ofValue_of_proper h).2, clean_of_proper h⟩

/-- A word gives a scalar, whatever this means. -/
theorem gives_word {word : String} {meaning : Json} (h : IsLineWord word.toList)
    (hclean : ∀ c ∈ word.toList, isClean c = true) :
    (Layout.plain word meaning).Gives block fun node =>
      ∃ head : NodeHead, head.tag = none ∧ node = .scalar head word.toList .plain :=
  ⟨leads_plain h, Builds.ofValue (Builds.scalar _ _).toBlock, clean_word hclean⟩

/-- A text in quotes gives a scalar. -/
theorem gives_quoted {text : String} (h : ∀ c ∈ text.toList, QuotedScalar.isQuotable c = true)
    (hclean : ∀ c ∈ text.toList, isClean c = true) :
    (Layout.quoted text).Gives block fun node =>
      ∃ head : NodeHead, head.tag = none ∧ node = .scalar head text.toList .doubleQuoted :=
  ⟨leads_quoted h, Builds.ofValue (Builds.scalar _ _).toBlock, clean_quoted hclean⟩

/-- A comment behind a word is no part of the scalar. -/
theorem gives_commented {word comment : String} {meaning : Json} (h : IsWord word.toList)
    (hcomment : ∀ c ∈ comment.toList, isBreak c = false ∧ isClean c = true) :
    (Layout.commented word comment meaning).Gives block fun node =>
      ∃ head : NodeHead, head.tag = none ∧ node = .scalar head word.toList .plain :=
  ⟨leads_commented h fun c hc => (hcomment c hc).1, Builds.ofValue (Builds.scalar _ _).toBlock,
    clean_commented h fun c hc => (hcomment c hc).2⟩

/-- A lexer at the beginning of a text faces its first line, also if the text has empty lines in
front of it. -/
theorem faces_start {text : List Char} (hline : StartsLine text) (blank : Nat) :
    (Lexer.ofText (lead blank 0 ++ text)).Faces text 0 [] [] := by
  have hstart : (Lexer.ofText (lead blank 0 ++ text)).At (lead blank 0 ++ text) .origin [] true
      (Loose []) [] :=
    ⟨rfl, rfl, rfl, settled_empty.loose, .nil⟩
  cases blank with
  | zero => exact hstart.faces (toToken_startsLine hline false true .origin) rfl
  | succ blank =>
    rw [lead_succ, List.cons_append] at hstart ⊢
    exact hstart.faces_line hline

theorem clean_lead (blank column : Nat) : ∀ c ∈ lead blank column, isClean c = true := by
  refine clean_append (fun c hc => ?_) (clean_spaces column)
  rw [List.eq_of_mem_replicate hc]
  decide

/-- **The text of a mapping at the left margin yields the tokens of its members.** The end of the
text closes the mapping, the only block that is still open. -/
theorem yields_members {text : String} {blank : Nat} {member : String × Layout}
    {members : List (String × Layout)}
    (htext : text.toList = membersText (lead blank 0) 0 (member :: members))
    (hnames : ∀ other ∈ member :: members, IsName other.1)
    (hleads : ∀ other ∈ member :: members, Leads false 0 other.2) :
    (Lexer.ofText text.toList).Yields
      (.blockMappingStart :: ((member :: members).flatMap memberKinds ++ [.blockEnd])
        ++ [.streamEnd]) := by
  have hsplit : membersText (lead blank 0) 0 (member :: members)
      = lead blank 0 ++ (membersText [] 0 (member :: members) ++ (lead 0 0 ++ [])) := by
    rw [lead_zero, spaces, List.replicate_zero, List.append_nil, List.append_nil]
    rfl
  have hline : StartsLine (membersText [] 0 (member :: members) ++ (lead 0 0 ++ [])) := by
    rw [membersText, List.nil_append, List.append_assoc]
    exact (hnames member List.mem_cons_self).startsLine _
  have hfaces := faces_start hline blank
  rw [← hsplit, ← htext] at hfaces
  have hmargin : marginOf [] ≤ 0 := Nat.le_refl 0
  refine (leads_members (.inl rfl) (Nat.le_refl 0) hmargin hnames hleads hfaces).yields
    fun lexer hend => ?_
  have hlast := hend.yields (by simp)
  simpa using hlast

section

variable {ι : Type} {text : String} {front : List Char} {member : ι → String × Layout} {entry : ι}
  {entries : List ι} {holdsOf : ι → Node → Prop}

/-- **The text of a mapping at the left margin holds its nodes.** The members are those of some
entries, of which more may be known. -/
theorem stream_mapping (hfront : front = [] ∨ front = ['\n'])
    (htext : text.toList = membersText front 0 ((entry :: entries).map member))
    (hnames : ∀ other ∈ entry :: entries, IsName (member other).1)
    (hgives : ∀ other ∈ entry :: entries, (member other).2.Gives 0 (holdsOf other)) :
    ∃ (steps : Nat) (head : NodeHead) (parts : List Node) (named : List (String × Node)),
      Stream.ofText text = ⟨some (.mapping head parts true), steps, none, false⟩ ∧ head.tag = none ∧
      Node.Labels parts named ∧
      List.Forall₂ (fun other named => (member other).1 = named.1 ∧ holdsOf other named.2)
        (entry :: entries) named := by
  obtain ⟨blank, rfl⟩ : ∃ blank, front = lead blank 0 := by
    rcases hfront with rfl | rfl
    · exact ⟨0, rfl⟩
    · exact ⟨1, rfl⟩
  have hmemberNames : ∀ other ∈ (entry :: entries).map member, IsName other.1 :=
    List.forall_mem_map.mpr hnames
  have hleads : ∀ other ∈ (entry :: entries).map member, Leads false 0 other.2 :=
    List.forall_mem_map.mpr fun other hother => (hgives other hother).leads
  have hcleanMembers : ∀ other ∈ (entry :: entries).map member, ∀ c ∈ other.2.text false,
      isClean c = true :=
    List.forall_mem_map.mpr fun other hother => (hgives other hother).clean
  have hkinds : ((entry :: entries).map member).flatMap memberKinds
      = (entry :: entries).flatMap (Builds.pairKinds (fun other => (member other).1.toList) .plain
          fun other => (member other).2.kinds) := by
    rw [List.flatMap_map]
    rfl
  have hyields := yields_members htext hmemberNames hleads
  rw [← List.map_cons, hkinds] at hyields
  have hstyle : ∀ other ∈ entry :: entries, ScalarStyle.plain = .plain →
      Meaning.ofPlain (member other).1.toList = .string :=
        fun other hother _ => (hnames other hother).meaning
  have hclean : ∀ c ∈ text.toList, isClean c = true := by
    rw [htext]
    exact clean_members _ _ hmemberNames hcleanMembers (clean_lead blank 0)
  obtain ⟨steps, _, hstream, head, parts, named, htag, rfl, hlabels, hnamed⟩ :=
    stream_of_yields hclean hyields .blockMapping
      (Builds.blockMapping (fun other hother => (hgives other hother).builds) hstyle)
  refine ⟨steps, head, parts, named, hstream, htag, hlabels, hnamed.imp fun other node hother => ?_⟩
  exact ⟨by rw [hother.1, String.ofList_toList], hother.2⟩

/-- **Such a text is read as what a reader takes its nodes for.** -/
theorem read_mapping {α : Type} {read : Reader α} {a : α} (hfront : front = [] ∨ front = ['\n'])
    (htext : text.toList = membersText front 0 ((entry :: entries).map member))
    (hnames : ∀ other ∈ entry :: entries, IsName (member other).1)
    (hgives : ∀ other ∈ entry :: entries, (member other).2.Gives 0 (holdsOf other))
    (htakes : ∀ (head : NodeHead) (parts : List Node) (named : List (String × Node)),
      head.tag = none → Node.Labels parts named →
      List.Forall₂ (fun other named => (member other).1 = named.1 ∧ holdsOf other named.2)
        (entry :: entries) named →
      Reader.Takes depthLimit read (.mapping head parts true) a) :
    Yaml.read read text = .ok a := by
  obtain ⟨steps, head, parts, named, hstream, htag, hlabels, hnamed⟩ :=
    stream_mapping hfront htext hnames hgives
  exact read_of_stream hstream (htakes head parts named htag hlabels hnamed)

end

theorem read_members {α : Type} {read : Reader α} {a : α} {text : String} {front : List Char}
    {member : String × Layout} {members : List (String × Layout)}
    {holdsOf : String × Layout → Node → Prop} (hfront : front = [] ∨ front = ['\n'])
    (htext : text.toList = membersText front 0 (member :: members))
    (hnames : ∀ other ∈ member :: members, IsName other.1)
    (hgives : ∀ other ∈ member :: members, other.2.Gives 0 (holdsOf other))
    (htakes : ∀ (head : NodeHead) (parts : List Node) (named : List (String × Node)),
      Node.Labels parts named →
      List.Forall₂ (fun other named => other.1 = named.1 ∧ holdsOf other named.2)
        (member :: members) named →
      Reader.Takes depthLimit read (.mapping head parts true) a) :
    Yaml.read read text = .ok a := by
  rw [← List.map_id (member :: members)] at htext
  exact read_mapping hfront htext hnames hgives fun head parts named _ => htakes head parts named

theorem clean_entries {column : Nat} : ∀ entries : List (Nat × Layout),
    (∀ entry ∈ entries, ∀ c ∈ entry.2.text true, isClean c = true) →
    ∀ c ∈ entriesText column entries, isClean c = true := by
  intro entries
  induction entries with
  | nil => intro _ c hc; exact absurd hc (by simp [entriesText])
  | cons entry entries ih =>
    intro h
    obtain ⟨hentry, hentries⟩ := List.forall_mem_cons.mp h
    exact clean_append (clean_lead entry.1 column) (clean_cons (by decide)
      (clean_append hentry (ih hentries)))

/-- **The text of items at the left margin is read as what a reader takes its nodes for**, with
empty lines between them and behind them. -/
theorem read_entries {α : Type} {read : Reader α} {a : α} {text : String} {last : Nat}
    {entry : Nat × Layout} {entries : List (Nat × Layout)}
    (htext : text.toList = entriesText 0 (entry :: entries) ++ lead last 0)
    (hproper : ∀ other ∈ entry :: entries, Proper true 0 other.2)
    (htakes : Reader.yamlReading.Reads depthLimit read
      (.array ((entry :: entries).map fun other => other.2.json)) a) :
    Yaml.read read text = .ok a := by
  have hleads : ∀ other ∈ entry :: entries, Leads true 0 other.2 :=
    fun other hother => leads_of_proper (hproper other hother)
  have hyields : (Lexer.ofText text.toList).Yields
      (.blockSequenceStart :: (entriesKinds (entry :: entries) ++ [.blockEnd])
        ++ [.streamEnd]) := by
    obtain ⟨hentry, hentries⟩ := List.forall_mem_cons.mp hleads
    have hfaces := faces_start (startsLine_dash (entry.2.text true ++
      (entriesText 0 entries ++ (lead last 0 ++ [])))) entry.1
    have hsplit : text.toList = lead entry.1 0 ++ '-' :: (entry.2.text true ++
        (entriesText 0 entries ++ (lead last 0 ++ []))) := by
      rw [htext, entriesText, List.append_nil, List.append_assoc, List.cons_append,
        List.append_assoc]
    rw [← hsplit] at hfaces
    have hmargin : marginOf [] ≤ 0 := Nat.le_refl 0
    refine (leads_items (.inl rfl) (Nat.le_refl 0) hmargin hentry hentries hfaces).yields
      fun lexer hend => ?_
    have hlast := hend.yields (by simp)
    simpa [entriesKinds] using hlast
  have hclean : ∀ c ∈ text.toList, isClean c = true := by
    rw [htext]
    exact clean_append (clean_entries _ fun other hother => clean_of_proper (hproper other hother))
      (clean_lead last 0)
  refine read_of_yields hclean hyields .blockSequence
    (Builds.blockSequence fun other hother => (ofValue_of_proper (hproper other hother)).1 rfl) ?_
  rintro _ ⟨head, nodes, htag, rfl, hnodes⟩
  exact htakes _ (.array htag (List.forall₂_map_right_iff.mpr hnodes.flip))

/-- **A text of empty lines holds no document**, and is read as what a reader takes nothing for. -/
theorem read_blank {α : Type} {read : Reader α} {a : α} {text : String} {blank : Nat}
    (htext : text.toList = lead blank 0)
    (htakes : ∀ mark, Reader.Takes depthLimit read (.void mark) a) :
    Yaml.read read text = .ok a := by
  have hyields : (Lexer.ofText text.toList).Yields [.streamEnd] := by
    have hfaces := faces_start (.inl rfl) blank
    rw [List.append_nil, ← htext] at hfaces
    exact hfaces.yields (by simp)
  have hclean : ∀ c ∈ text.toList, isClean c = true := by
    rw [htext]
    exact clean_lead blank 0
  obtain ⟨tokens, hrun, hkinds⟩ := hyields
  obtain ⟨start, stop, others, rfl, hothers⟩ := Builds.cons_of_kinds hkinds
  cases List.map_eq_nil_iff.mp hothers
  have hstream : Stream.ofTokens [⟨.streamEnd, start, stop⟩] none
    = ⟨some (.void start), 1, none, false⟩ := rfl
  exact read_of_stream (by rw [ofText_clean hclean, hrun]; exact hstream) (htakes start)

end Layout

end Provisioning.Yaml
