import Provisioning.Proofs.Yaml.PlainLine
import Provisioning.Proofs.Yaml.Reading
import Provisioning.Proofs.Yaml.Refusal

/-!
# Layouts as readers take them

A text need not mean a document for a reader to take it for something: what stands where a text is
asked for is a text even if it is spelled like a number. So what is known of the parts of a layout
is here which reader takes them for what. Records, bindings and lists are taken for what is made of
their parts, whatever the layouts of these are, and refused with any of their parts.
-/

namespace Provisioning.Yaml

/-! ## Plain scalars -/

/-- What any value may be that is written without quotes. -/
def plainValue (word : List Char) : Value :=
  match Meaning.toValue word (Meaning.ofPlain word) with
  | .ok value => value
  | .error _ => .null

/-- Does a word spell an integer that no value can hold? -/
def isWide (word : List Char) : Bool :=
  match Meaning.ofPlain word with
  | .wideInt _ => true
  | _ => false

/-- A safe word is a text, or one of those that mean null or a truth value. -/
theorem not_isWide_of_safe {word : List Char} (h : isPlainSafe word = true) :
    isWide word = false := by
  unfold isWide
  cases hreserved : isReserved word with
  | false => rw [ofPlain_of_safe h hreserved]
  | true =>
    simp only [isReserved, Bool.or_eq_true, beq_iff_eq] at hreserved
    rcases hreserved with (((((((rfl | rfl) | rfl) | rfl) | rfl) | rfl) | rfl) | rfl) | rfl
    all_goals decide

namespace Reader

variable {levels : Nat} {head : NodeHead} {word text : List Char} {style : ScalarStyle}
  {value : Value}

theorem takes_value_scalar (htag : head.tag = none)
    (h : Meaning.toValue text (if style == .plain then Meaning.ofPlain text else .string)
      = .ok value) :
    Takes levels Reader.value (.scalar head text style) value :=
  fun scope followed hlevels => takes_scalarWithin htag h scope.depth scope followed hlevels

theorem takes_value_plain (htag : head.tag = none) (h : isWide word = false) :
    Takes levels Reader.value (.scalar head word .plain) (plainValue word) := by
  refine takes_value_scalar htag ?_
  show Meaning.toValue word (Meaning.ofPlain word) = _
  unfold plainValue
  unfold isWide at h
  cases hmeaning : Meaning.ofPlain word with
  | wideInt n => rw [hmeaning] at h; cases h
  | _ => rfl

/-- No value can hold an integer that is too wide. -/
theorem refuses_value_wide (htag : head.tag = none) (h : isWide word = true) :
    Refuses Reader.value (.scalar head word .plain) := by
  unfold isWide at h
  cases hmeaning : Meaning.ofPlain word with
  | wideInt n =>
    refine refuses_value htag ⟨.invalidType (.wideInt n) .anyValue, ?_⟩
    show Meaning.toValue word (Meaning.ofPlain word) = _
    rw [hmeaning]
    rfl
  | _ => rw [hmeaning] at h; cases h

theorem takes_value_quoted (htag : head.tag = none) :
    Takes levels Reader.value (.scalar head text .doubleQuoted) (.text (String.ofList text)) :=
  takes_value_scalar htag rfl

end Reader

namespace Layout

/-- **A layout in a block stands for a node** of which something holds. -/
structure Stands (dash : Bool) (block : Nat) (holds : Node → Prop) (layout : Layout) : Prop where
  leads : Leads dash block layout
  builds : Builds true layout.kinds holds
  clean : ∀ c ∈ layout.text dash, isClean c = true

variable {dash : Bool} {block column : Nat} {holds : Node → Prop} {layout : Layout}

theorem Stands.gives (h : layout.Stands false block holds) : layout.Gives block holds :=
  ⟨h.leads, Builds.ofValue h.builds, h.clean⟩

theorem Stands.imp {holds' : Node → Prop} (h : layout.Stands dash block holds)
    (himp : ∀ node, holds node → holds' node) : layout.Stands dash block holds' :=
  ⟨h.leads, h.builds.imp himp, h.clean⟩

theorem stands_of_proper (h : Proper true block layout) :
    layout.Stands true block fun node => node.Means layout.json :=
  ⟨leads_of_proper h, (ofValue_of_proper h).1 rfl, clean_of_proper h⟩

/-! ## Values -/

/-- What any value may be that is laid out like this. A word counts for what it spells. -/
def value : Layout → Value
  | plain word _ | commented word _ _ => plainValue word.toList
  | layout => layout.json.toValue

theorem plainValue_of_means {word : List Char} {json : Json} (h : WordMeans word json) :
    plainValue word = json.toValue := by
  have hmeaning : ∀ {meaning : Meaning} {value : Value}, Meaning.ofPlain word = meaning →
      Meaning.toValue word meaning = .ok value → plainValue word = value := by
    intro meaning value hmeaning hvalue
    unfold plainValue
    rw [hmeaning, hvalue]
  cases h ⟨.origin, none, none⟩ rfl with
  | null _ hword => exact hmeaning hword rfl
  | notFinite _ hword => exact hmeaning hword rfl
  | bool _ hword => exact hmeaning hword rfl
  | int _ hword => exact hmeaning hword rfl
  | string _ hword => exact hmeaning (hword rfl) rfl

theorem value_of_proper (h : Proper dash block layout) : layout.value = layout.json.toValue := by
  cases h with
  | plain _ hmeans => exact plainValue_of_means hmeans
  | commented _ hmeans _ => exact plainValue_of_means hmeans
  | _ => rfl

theorem gives_value_of_proper {levels : Nat} (h : Proper false block layout)
    (hfits : layout.json.Fits levels) :
    layout.Gives block fun node => Reader.Takes levels Reader.value node layout.value := by
  rw [value_of_proper h]
  exact (gives_of_proper h).imp fun node hmeans => Reader.takes_value hfits hmeans

theorem value_wordOrNull (text : String) : (wordOrNull text).value = plainValue text.toList := by
  unfold wordOrNull
  by_cases hempty : text = ""
  · rw [if_pos (by simp [hempty]), hempty]
    rfl
  · rw [if_neg (by simp [hempty])]
    rfl

/-- **A text that is laid out as a mapping at the left margin is read as the value of the
document.** -/
theorem read_value {text : String} {member : String × Layout} {members : List (String × Layout)}
    (htext : text.toList = membersText [] 0 (member :: members))
    (hnames : ∀ other ∈ member :: members, IsName other.1)
    (hproper : ∀ other ∈ member :: members, Proper false 0 other.2)
    (hfits : (Json.object (membersJson (member :: members))).Fits depthLimit) :
    Yaml.read Reader.value text = .ok (Json.object (membersJson (member :: members))).toValue := by
  rw [← List.map_id (member :: members)] at htext
  refine read_mapping (.inl rfl) htext hnames (fun other hother =>
    gives_of_proper (hproper other hother)) fun head parts named htag hlabels hnamed => ?_
  have hmeans : Node.Means (.mapping head parts true)
      (Layout.mapping 0 (member :: members)).json := by
    refine means_mapping htag hlabels (hnamed.imp fun other named hother => ⟨?_, hother.2⟩)
    rw [String.ofList_toList]
    exact hother.1.symm
  exact Reader.takes_value hfits hmeans

/-- A line that is one plain scalar is read as the value that it spells. -/
theorem gives_value_line {levels : Nat} {word : String} {meaning : Json}
    (h : IsPlainLine word.toList)
    (hclean : ∀ c ∈ word.toList, isClean c = true) (hwide : isWide word.toList = false) :
    (Layout.plain word meaning).Gives block fun node =>
      Reader.Takes levels Reader.value node (plainValue word.toList) := by
  refine (gives_word h.lineWord hclean).imp ?_
  rintro _ ⟨head, htag, rfl⟩
  exact Reader.takes_value_plain htag hwide

theorem gives_value_lineOrNull {levels : Nat} {text : String}
    (h : text = "" ∨ IsPlainLine text.toList)
    (hclean : ∀ c ∈ text.toList, isClean c = true) (hwide : isWide text.toList = false) :
    (wordOrNull text).Gives block fun node =>
      Reader.Takes levels Reader.value node (plainValue text.toList) := by
  unfold wordOrNull
  by_cases hempty : text = ""
  · rw [if_pos (by simp [hempty]), hempty]
    exact gives_value_of_proper .absent .null
  · rw [if_neg (by simp [hempty])]
    exact gives_value_line (h.resolve_left hempty) hclean hwide

/-! ## Texts -/

/-- A text is read for what it is, whatever it spells. -/
theorem gives_text_line {levels : Nat} {word : String} {meaning : Json}
    (h : IsPlainLine word.toList) (hclean : ∀ c ∈ word.toList, isClean c = true) :
    (Layout.plain word meaning).Gives block fun node =>
      Reader.Takes levels (Reader.textAs .text) node word := by
  refine (gives_word h.lineWord hclean).imp ?_
  rintro _ ⟨head, -, rfl⟩
  have htakes := Reader.takes_textAs .text levels head word.toList .plain
  rw [String.ofList_toList] at htakes
  exact htakes

theorem gives_text_quoted {levels : Nat} {text : String}
    (h : ∀ c ∈ text.toList, QuotedScalar.isQuotable c = true)
    (hclean : ∀ c ∈ text.toList, isClean c = true) :
    (Layout.quoted text).Gives block fun node =>
      Reader.Takes levels (Reader.textAs .text) node text := by
  refine (gives_quoted h hclean).imp ?_
  rintro _ ⟨head, -, rfl⟩
  have htakes := Reader.takes_textAs .text levels head text.toList .doubleQuoted
  rw [String.ofList_toList] at htakes
  exact htakes

theorem gives_value_quoted {levels : Nat} {text : String}
    (h : ∀ c ∈ text.toList, QuotedScalar.isQuotable c = true)
    (hclean : ∀ c ∈ text.toList, isClean c = true) :
    (Layout.quoted text).Gives block fun node =>
      Reader.Takes levels Reader.value node (.text text) := by
  refine (gives_quoted h hclean).imp ?_
  rintro _ ⟨head, htag, rfl⟩
  have htakes : Reader.Takes levels Reader.value (.scalar head text.toList .doubleQuoted)
      (.text (String.ofList text.toList)) := Reader.takes_value_quoted htag
  rw [String.ofList_toList] at htakes
  exact htakes

/-! ## Collections -/

theorem clean_line (column : Nat) : ∀ c ∈ '\n' :: spaces column, isClean c = true :=
  clean_cons (by decide) (clean_spaces column)

section

variable {ι : Type} {entry : ι} {entries : List ι} {holdsOf : ι → Node → Prop}

/-- A mapping stands for the nodes of its members. -/
theorem stands_mapping {member : ι → String × Layout} (hcolumn : block < column)
    (hdash : dash = true → column = block + 2)
    (hnames : ∀ other ∈ entry :: entries, IsName (member other).1)
    (hgives : ∀ other ∈ entry :: entries, (member other).2.Gives column (holdsOf other)) :
    (Layout.mapping column ((entry :: entries).map member)).Stands dash block fun node =>
      ∃ (head : NodeHead) (parts : List Node) (named : List (String × Node)),
        node = .mapping head parts true ∧ Node.Labels parts named ∧
          List.Forall₂ (fun other named => (member other).1 = named.1 ∧ holdsOf other named.2)
            (entry :: entries) named := by
  have hmemberNames : ∀ other ∈ (entry :: entries).map member, IsName other.1 :=
    List.forall_mem_map.mpr hnames
  have hleads : ∀ other ∈ (entry :: entries).map member, Leads false column other.2 :=
    List.forall_mem_map.mpr fun other hother => (hgives other hother).leads
  have hclean : ∀ other ∈ (entry :: entries).map member, ∀ c ∈ other.2.text false,
      isClean c = true :=
    List.forall_mem_map.mpr fun other hother => (hgives other hother).clean
  refine ⟨leads_mapping hcolumn hdash hmemberNames hleads, ?_, ?_⟩
  · have hstyle : ∀ other ∈ entry :: entries, ScalarStyle.plain = .plain →
        Meaning.ofPlain (member other).1.toList = .string :=
          fun other hother _ => (hnames other hother).meaning
    have hbuilds := Builds.blockMapping (fun other hother => (hgives other hother).builds) hstyle
    rw [Layout.kinds, membersKinds_eq, List.flatMap_map]
    refine hbuilds.imp ?_
    rintro _ ⟨head, parts, named, -, rfl, hlabels, hnamed⟩
    refine ⟨head, parts, named, rfl, hlabels, hnamed.imp fun other node hother => ?_⟩
    exact ⟨by rw [hother.1, String.ofList_toList], hother.2⟩
  · refine clean_members _ _ hmemberNames hclean ?_
    cases dash with
    | false => exact clean_line column
    | true => exact clean_cons (by decide) (by simp)

/-- A sequence stands for the nodes of its items. -/
theorem stands_sequence {item : ι → Layout} (hcolumn : block < column)
    (hitems : ∀ other ∈ entry :: entries, (item other).Stands true column (holdsOf other)) :
    (Layout.sequence column ((entry :: entries).map item)).Stands dash block fun node =>
      ∃ (head : NodeHead) (nodes : List Node), node = .sequence head nodes true ∧
        List.Forall₂ holdsOf (entry :: entries) nodes := by
  have hleads : ∀ other ∈ (entry :: entries).map item, Leads true column other :=
    List.forall_mem_map.mpr fun other hother => (hitems other hother).leads
  have hclean : ∀ other ∈ (entry :: entries).map item, ∀ c ∈ other.text true, isClean c = true :=
    List.forall_mem_map.mpr fun other hother => (hitems other hother).clean
  refine ⟨leads_sequence hcolumn hleads, ?_, clean_items _ _ hclean (clean_line column)⟩
  rw [Layout.kinds, itemsKinds_eq, List.flatMap_map]
  refine (Builds.blockSequence fun other hother => (hitems other hother).builds).imp ?_
  rintro _ ⟨head, nodes, -, rfl, hnodes⟩
  exact ⟨head, nodes, rfl, hnodes⟩

end

/-! ## Lists and bindings -/

section

variable {ι β : Type} {read : Reader β} {levels : Nat} {entry : ι} {entries : List ι}

/-- **A sequence is read as the list of what its items are read as.** -/
theorem stands_list {item : ι → Layout} {value : ι → β} (hcolumn : block < column)
    (hitems : ∀ other ∈ entry :: entries, (item other).Stands true column fun node =>
      Reader.Takes levels read node (value other)) :
    (Layout.sequence column ((entry :: entries).map item)).Stands dash block fun node =>
      Reader.Takes (levels + 1) (Reader.list read) node ((entry :: entries).map value) := by
  refine (stands_sequence hcolumn hitems).imp ?_
  rintro _ ⟨head, nodes, rfl, hnodes⟩
  exact Reader.takes_list (Partners.partners_map hnodes fun _ _ _ htakes => htakes)

/-- **A mapping is read as the bindings of its names.** -/
theorem stands_bindings {member : ι → String × Layout} {value : ι → β} (hcolumn : block < column)
    (hdash : dash = true → column = block + 2)
    (hnames : ∀ other ∈ entry :: entries, IsName (member other).1)
    (hgives : ∀ other ∈ entry :: entries, (member other).2.Gives column fun node =>
      Reader.Takes levels read node (value other)) :
    (Layout.mapping column ((entry :: entries).map member)).Stands dash block fun node =>
      Reader.Takes (levels + 1) (Reader.bindings read) node
        ((entry :: entries).map fun other => ((member other).1, value other)) := by
  refine (stands_mapping hcolumn hdash hnames hgives).imp ?_
  rintro _ ⟨head, parts, named, rfl, hlabels, hnamed⟩
  exact Reader.takes_bindings hlabels (Partners.partners_map hnamed fun _ _ _ hother =>
    ⟨hother.1.symm, hother.2⟩)

end

/-! ## Refusals -/

section

variable {ι α : Type} {entry other : ι} {entries : List ι} {holdsOf : ι → Node → Prop}
  {member : ι → String × Layout}

/-- **A mapping that is read as bindings is refused with any of its values.** -/
theorem stands_refused {read : Reader α} (hcolumn : block < column)
    (hdash : dash = true → column = block + 2)
    (hnames : ∀ other ∈ entry :: entries, IsName (member other).1)
    (hgives : ∀ other ∈ entry :: entries, (member other).2.Gives column (holdsOf other))
    (hmem : other ∈ entry :: entries) (h : ∀ node, holdsOf other node → Reader.Refuses read node) :
    (Layout.mapping column ((entry :: entries).map member)).Stands dash block
      (Reader.Refuses (Reader.bindings read)) := by
  refine (stands_mapping hcolumn hdash hnames hgives).imp ?_
  rintro _ ⟨head, parts, named, rfl, hlabels, hnamed⟩
  obtain ⟨⟨name, node⟩, hnode, -, hholds⟩ := Partners.exists_partner hnamed other hmem
  exact Reader.refuses_bindings hlabels hnode (h node hholds)

/-- **A text of members at the left margin is refused as a record with any of its values.** -/
theorem record_fails {record : Record Reader α} {field : Field Reader α} {text : String}
    {front : List Char} (hfront : front = [] ∨ front = ['\n'])
    (htext : text.toList = membersText front 0 ((entry :: entries).map member))
    (hnames : ∀ other ∈ entry :: entries, IsName (member other).1)
    (hgives : ∀ other ∈ entry :: entries, (member other).2.Gives 0 (holdsOf other))
    (hmem : other ∈ entry :: entries) (hfield : record.field? (member other).1 = some field)
    (h : ∀ node, holdsOf other node → Reader.Refuses field.read node) :
    Outcome.Fails (Yaml.read (Reader.record record) text) := by
  obtain ⟨steps, head, parts, named, hstream, -, hlabels, hnamed⟩ :=
    stream_mapping hfront htext hnames hgives
  obtain ⟨⟨name, node⟩, hnode, rfl, hholds⟩ := Partners.exists_partner hnamed other hmem
  exact read_fails hstream (Reader.refuses_record hlabels hnode hfield (h node hholds))

end

/-! ## Records -/

/-- A member of a mapping and what a field of a record makes of it. -/
structure Entry (α : Type) where
  name : String
  layout : Layout
  store : α → α

namespace Entry

variable {α β : Type} {record : Record Reader α} {levels : Nat} {entries : List (Entry α)}

/-- The name and the layout. -/
def member (entry : Entry α) : String × Layout := (entry.name, entry.layout)

/-- An entry of which something is read that a field stores. -/
def storing (name : String) (layout : Layout) (store : β → α → α) (b : β) : Entry α :=
  ⟨name, layout, store b⟩

/-- The record that the entries fill, one after the other. -/
def fill (entries : List (Entry α)) (a : α) : α := entries.foldl (fun a entry => entry.store a) a

/-- **An entry is read as a field** of the record. -/
structure Reads (record : Record Reader α) (levels column : Nat) (entry : Entry α) : Prop where
  isName : IsName entry.name
  field : ∃ field, record.field? entry.name = some field ∧
    entry.layout.Gives column fun node => Reader.Takes levels field.read node entry.store

/-- What is read of an entry is stored by its field. -/
theorem reads {name : String} {layout : Layout} {required : Bool} {read : Reader β}
    {store : β → α → α} {b : β}
    (hname : IsName name) (hfield : record.field? name = some ⟨name, required, store <$> read⟩)
    (hgives : layout.Gives column fun node => Reader.Takes levels read node b) :
    Reads record levels column (storing name layout store b) :=
  ⟨hname, _, hfield, hgives.imp fun _ => Reader.takes_map store⟩

/-- What the field of an entry is known to make of the node of the entry. -/
def Takes (record : Record Reader α) (levels : Nat) (entry : Entry α) (node : Node) : Prop :=
  ∀ field, record.field? entry.name = some field → Reader.Takes levels field.read node entry.store

theorem Reads.gives {entry : Entry α} (h : entry.Reads record levels column) :
    (member entry).2.Gives column (Takes record levels entry) := by
  obtain ⟨field, hfield, hgives⟩ := h.field
  refine hgives.imp fun node htakes other hother => ?_
  rw [hfield] at hother
  cases hother
  exact htakes

theorem fills {named : List (String × Node)}
    (h : List.Forall₂ (fun entry named => (member entry).1 = named.1 ∧
      Takes record levels entry named.2) entries named)
    (hentries : ∀ entry ∈ entries, entry.Reads record levels column) :
    ∀ a, record.Fills (Reader.Takes levels) a named (fill entries a) := by
  induction h with
  | nil => exact fun _ => .nil
  | @cons entry named entries others hentry _ ih =>
    intro a
    obtain ⟨hfirst, hentries⟩ := List.forall_mem_cons.mp hentries
    obtain ⟨field, hfield, -⟩ := hfirst.field
    obtain ⟨name, node⟩ := named
    obtain ⟨rfl, htakes⟩ := hentry
    exact .cons hfield (htakes field hfield) (ih hentries (entry.store a))

/-- **The nodes of the entries of a record are read as the record that the entries fill.** -/
theorem takes_record {head : NodeHead} {nodes : List Node} {named : List (String × Node)}
    (hentries : ∀ entry ∈ entries, entry.Reads record levels column)
    (hnodup : (entries.map Entry.name).Nodup)
    (hneeded : ∀ field ∈ record.fields, field.required = true → field.name ∈ entries.map Entry.name)
    (hlabels : Node.Labels nodes named)
    (hnamed : List.Forall₂ (fun entry named => (member entry).1 = named.1 ∧
      Takes record levels entry named.2) entries named) :
    Reader.Takes (levels + 1) (Reader.record record) (.mapping head nodes true)
      (fill entries record.blank) := by
  have hnames : named.map Prod.fst = entries.map Entry.name := by
    have hpairs : List.Forall₂ (fun name (named : String × Node) => name = named.1)
        (entries.map Entry.name) named :=
      List.forall₂_map_left_iff.mpr (hnamed.imp fun _ _ hentry => hentry.1)
    exact Partners.map_partners hpairs fun _ _ _ heq => heq.symm
  refine Reader.takes_record hlabels (fills hnamed hentries _) ?_ ?_
  · rw [hnames]
    exact hnodup
  · rw [hnames]
    exact hneeded

/-- **A mapping is read as the record that its entries fill.** -/
theorem stands_record {entry : Entry α} (hcolumn : block < column)
    (hdash : dash = true → column = block + 2)
    (hentries : ∀ other ∈ entry :: entries, other.Reads record levels column)
    (hnodup : ((entry :: entries).map Entry.name).Nodup)
    (hneeded : ∀ field ∈ record.fields, field.required = true →
      field.name ∈ (entry :: entries).map Entry.name) :
    (Layout.mapping column ((entry :: entries).map member)).Stands dash block fun node =>
      Reader.Takes (levels + 1)
        (Reader.record record) node (fill (entry :: entries) record.blank) := by
  refine (stands_mapping hcolumn hdash (fun other hother => (hentries other hother).isName)
    fun other hother => (hentries other hother).gives).imp ?_
  rintro _ ⟨head, nodes, named, rfl, hlabels, hnamed⟩
  exact takes_record hentries hnodup hneeded hlabels hnamed

/-- **A text of entries at the left margin is read as the record that they fill.** -/
theorem read_record {entry : Entry α} {text : String} {front : List Char}
    (hfront : front = [] ∨ front = ['\n'])
    (htext : text.toList = membersText front 0 ((entry :: entries).map member))
    (hlevels : levels + 1 = depthLimit)
    (hentries : ∀ other ∈ entry :: entries, other.Reads record levels 0)
    (hnodup : ((entry :: entries).map Entry.name).Nodup)
    (hneeded : ∀ field ∈ record.fields, field.required = true →
      field.name ∈ (entry :: entries).map Entry.name) :
    Yaml.read (Reader.record record) text = .ok (fill (entry :: entries) record.blank) := by
  refine read_mapping hfront htext (fun other hother => (hentries other hother).isName)
    (fun other hother => (hentries other hother).gives) fun head nodes named _ hlabels hnamed => ?_
  rw [← hlevels]
  exact takes_record hentries hnodup hneeded hlabels hnamed

end Entry

end Layout

end Provisioning.Yaml
