import Provisioning.Proofs.Partners
import Provisioning.Proofs.Source.Reading
import Provisioning.Proofs.Yaml.Meaning
import Provisioning.Yaml.Reader

/-!
# The YAML reader reads nodes that mean a document

Each way of reading takes a node that means a document for what the document is, wherever
enough levels are left: this is `Takes`. So YAML is a format in the sense of `JsonReading`, and that
is a statement about nodes only; which texts have these nodes is another matter.
-/

namespace Provisioning.Yaml

namespace Reader

variable {α σ : Type}

/-- **A reader takes a node for `a`**, wherever so many levels are left. -/
def Takes (levels : Nat) (read : Reader α) (node : Node) (a : α) : Prop :=
  ∀ (scope : Scope) (followed : Nat), levels ≤ scope.depth →
    read scope node followed = .ok (a, followed)

/-! ## Scalars -/

theorem takes_textAs (expected : Expected) (levels : Nat) (head : NodeHead) (text : List Char)
    (style : ScalarStyle) :
    Takes levels (textAs expected) (.scalar head text style) (String.ofList text) :=
  fun _ _ _ => rfl

theorem takes_flag {head : NodeHead} {text : List Char} {value : Bool} (levels : Nat)
    (h : Meaning.bool? text = some value) :
    Takes levels (plainly "bool" .boolean Meaning.bool?) (.scalar head text .plain) value := by
  intro scope followed _
  show settle _ scope _ followed = _
  unfold settle
  dsimp only
  rw [h]
  rfl

theorem takes_natural {head : NodeHead} {text : List Char} {value : UInt64} (levels : Nat)
    (h : Meaning.natural64? text = some value) :
    Takes levels (plainly "int" .natural Meaning.natural64?) (.scalar head text .plain) value := by
  intro scope followed _
  show settle _ scope _ followed = _
  unfold settle
  dsimp only
  rw [h]
  rfl

theorem takes_map {β : Type} {levels : Nat} {read : Reader α} {node : Node} {a : α} (f : α → β)
    (h : Takes levels read node a) : Takes levels (f <$> read) node (f a) := by
  intro scope followed hlevels
  show (f <$> read scope node) followed = _
  show (read scope node followed >>= fun result => pure (f result.1, result.2)) = _
  rw [h scope followed hlevels]
  rfl

/-- A node that is there, and no alias. -/
def Present (node : Node) : Prop := isAbsent node = .ok false ∧
    ∀ mark anchor, node ≠ .aliasTo mark anchor

theorem takes_optional {levels : Nat} {read : Reader α} {node : Node} {a : α}
    (hpresent : Present node) (h : Takes levels read node a) :
    Takes levels (optional read) node (some a) := by
  intro scope followed hlevels
  have hread := takes_map some h scope followed hlevels
  unfold optional follow
  split
  · rename_i mark anchor
    exact absurd rfl (hpresent.2 mark anchor)
  · dsimp only
    rw [hpresent.1]
    exact hread

theorem takes_choice {known : List (String × α)} {a : α} {head : NodeHead} {text : List Char}
    {style : ScalarStyle} (levels : Nat) (htag : head.tag = none)
    (h : known.lookup (String.ofList text) = some a) :
    Takes levels (choice known) (.scalar head text style) a := by
  intro scope followed _
  have hname : localName? (Node.scalar head text style).tag? = none := by
    show localName? head.tag = none
    rw [htag]
    rfl
  unfold choice
  dsimp only
  rw [hname]
  dsimp only
  unfold settle chosen
  rw [h]
  rfl

/-! ## Collections -/

theorem settle_of_ok {mark : Mark} {scope : Scope} {read : Following α} {followed : Nat}
    {result : α × Nat} (h : read followed = .ok result) :
    settle mark scope read followed = .ok result := by
  unfold settle
  rw [h]

/-- Entering a collection spends one level. -/
theorem enter_bind {scope : Scope} {levels : Nat} (h : levels + 1 ≤ scope.depth) (mark : Mark)
    (read : Scope → Following α) (followed : Nat) :
    ∃ inner, levels ≤ inner.depth ∧ inner.depth + 1 = scope.depth ∧
      ((do let inner ← scope.enter mark; read inner) : Following α) followed
        = read inner followed := by
  obtain ⟨depth, hdepth⟩ : ∃ depth, scope.depth = depth + 1 := ⟨scope.depth - 1, by omega⟩
  refine ⟨{ scope with depth }, by show levels ≤ depth; omega, hdepth.symm, ?_⟩
  have henter : scope.enter mark = .ok { scope with depth } := by
    unfold Scope.enter
    rw [hdepth]
  rw [henter]
  rfl

theorem readItems_takes {levels : Nat} {read : Reader α} {nodes : List Node} {as : List α}
    (h : List.Forall₂ (Takes levels read) nodes as) {scope : Scope} (hlevels : levels ≤ scope.depth)
    (followed : Nat) : ∀ index : Nat,
    readItems scope true read index nodes followed = .ok (as, followed) := by
  induction h with
  | nil => intro index; rfl
  | @cons node a nodes as hnode _ ih =>
    intro index
    have hfirst := hnode (scope.item index) followed hlevels
    show (read (scope.item index) node followed >>= fun result =>
      (do let others ← readItems scope true read (index + 1) nodes
          return result.1 :: others : Following (List α)) result.2) = _
    rw [hfirst, Outcome.ok_bind]
    show (readItems scope true read (index + 1) nodes followed >>= fun result =>
      pure (a :: result.1, result.2)) = _
    rw [ih]
    rfl

theorem takes_list {levels : Nat} {read : Reader α} {head : NodeHead} {nodes : List Node}
    {as : List α} (h : List.Forall₂ (Takes levels read) nodes as) :
    Takes (levels + 1) (list read) (.sequence head nodes true) as := by
  intro scope followed hlevels
  obtain ⟨inner, hinner, -, henter⟩ := enter_bind hlevels head.mark
    (fun inner => readItems inner true read 0 nodes) followed
  show settle head.mark scope _ followed = _
  refine settle_of_ok (henter.trans ?_)
  exact readItems_takes h hinner followed 0

/-- No document at all is an empty list. -/
theorem takes_list_void (levels : Nat) (read : Reader α) (mark : Mark) :
    Takes levels (list read) (.void mark) [] :=
  fun _ _ _ => rfl

/-- Keys and values that are read in turn, each changing what was collected before it. -/
inductive Collects {κ : Type} (scope : Scope) (key : σ → Node → Following κ)
    (value : σ → κ → Reader σ) : σ → List Node → σ → Prop where
  | nil {s : σ} : Collects scope key value s [] s
  | cons {s t u : σ} {first second : Node} {name : κ} {parts : List Node} :
      (∀ followed, key s first followed = .ok (name, followed)) →
      (∀ followed, value s name (scope.entry first) second followed = .ok (t, followed)) →
      Collects scope key value t parts u → Collects scope key value s (first :: second :: parts) u

theorem readParts_collects {κ : Type} {scope : Scope} {key : σ → Node → Following κ}
    {value : σ → κ → Reader σ} {s t : σ} {parts : List Node}
    (h : Collects scope key value s parts t) (followed : Nat) :
    readParts scope true key value s parts followed = .ok (t, followed) := by
  induction h with
  | nil => rfl
  | @cons s t u first second name parts hkey hvalue _ ih =>
    show (key s first followed >>= fun result =>
      (value s result.1 (scope.entry first) second result.2 >>= fun result =>
        readParts scope true key value result.1 parts result.2)) = _
    rw [hkey, Outcome.ok_bind, hvalue, Outcome.ok_bind]
    exact ih

theorem entry_depth (scope : Scope) (key : Node) : (scope.entry key).depth = scope.depth := by
  unfold Scope.entry
  split
  · rfl
  · rfl

theorem takes_bindings {levels : Nat} {read : Reader α} {head : NodeHead} {parts : List Node}
    {named : List (String × Node)} {as : List (String × α)} (hlabels : Node.Labels parts named)
    (h : List.Forall₂ (fun member a => member.1 = a.1 ∧ Takes levels read member.2 a.2) named as) :
    Takes (levels + 1) (bindings read) (.mapping head parts true) as := by
  -- Pairs are collected in reverse, in front of those that were collected before.
  have hcollects : ∀ scope : Scope, levels ≤ scope.depth → ∀ collected : List (String × α),
      Collects scope (fun _ key => textAs .text scope key)
        (fun collected name scope node => do
          let value ← read scope node
          return (name, value) :: collected)
        collected parts (as.reverse ++ collected) := by
    intro scope hlevels
    induction hlabels generalizing as with
    | nil => rw [List.forall₂_nil_left_iff.mp h]; exact fun collected => .nil
    | @cons keyHead text style node parts named _ _ _ ih =>
      obtain ⟨⟨name, a⟩, as, ⟨rfl, hnode⟩, has, rfl⟩ := List.forall₂_cons_left_iff.mp h
      intro collected
      rw [List.reverse_cons, List.append_assoc]
      refine .cons (fun _ => rfl) (fun followed => ?_)
        (ih has ((String.ofList text, a) :: collected))
      exact takes_map (fun a => (String.ofList text, a) :: collected) hnode
        (scope.entry (.scalar keyHead text style)) followed (by rw [entry_depth]; exact hlevels)
  intro scope followed hlevels
  obtain ⟨inner, hinner, -, henter⟩ := enter_bind hlevels head.mark (fun inner => do
    let collected ← readParts inner true (fun _ key => textAs .text inner key)
      (fun collected name scope node => do
        let value ← read scope node
        return (name, value) :: collected) [] parts
    return collected.reverse) followed
  show settle head.mark scope _ followed = _
  refine settle_of_ok (henter.trans ?_)
  show (readParts inner true _ _ [] parts followed >>= fun result =>
    pure (result.1.reverse, result.2)) = _
  rw [readParts_collects (hcollects inner hinner []) followed]
  rw [List.append_nil]
  show Except.ok (as.reverse.reverse, followed) = _
  rw [List.reverse_reverse]

/-! ## Records -/

/-- The name of a field that the record does not have yet. -/
theorem readFieldName_new (record : Record Reader α) (a : α) {names : List String}
    {text : List Char} (h : String.ofList text ∉ names) (scope : Scope) (head : NodeHead)
    (style : ScalarStyle) (followed : Nat) :
    readFieldName record scope (a, names) (.scalar head text style) followed
      = .ok (String.ofList text, followed) := by
  have hnot : names.contains (String.ofList text) = false := by
    rw [List.contains_eq_mem, decide_eq_false_iff_not]
    exact h
  show (if (record.field? (String.ofList text)).isSome && names.contains (String.ofList text)
      then refuse _ else pure _ : Following String) followed = _
  rw [hnot, Bool.and_false]
  rfl

/-- Members that fill a record are collected, if none of their names was there before. -/
theorem collects_of_fills {record : Record Reader α} {levels : Nat} {scope : Scope}
    (hlevels : levels ≤ scope.depth) {parts : List Node} {named : List (String × Node)}
    (hlabels : Node.Labels parts named) : ∀ (a b : α) (names : List String),
    record.Fills (Takes levels) a named b → (∀ member ∈ named, member.1 ∉ names) →
    (named.map Prod.fst).Nodup →
    ∃ names', (∀ name, name ∈ names' ↔ name ∈ named.map Prod.fst ∨ name ∈ names) ∧
      Collects scope (readFieldName record scope) (readField record)
        (a, names) parts (b, names') := by
  induction hlabels with
  | nil =>
    intro a b names h _ _
    cases h
    exact ⟨names, by simp, .nil⟩
  | @cons head text style node parts named _ _ _ ih =>
    intro a b names h hnew hnodup
    obtain ⟨hname, hnodup⟩ := List.nodup_cons.mp hnodup
    cases h with
    | @cons _ _ _ _ _ field store hfield htakes h =>
      -- The name is one of those collected from now on, and it comes only once.
      obtain ⟨names', hnames', hcollects⟩ := ih (store a) b (String.ofList text :: names) h (by
        intro member hmember hmem
        rcases List.mem_cons.mp hmem with heq | hmem
        · have hmem : member.1 ∈ named.map Prod.fst := List.mem_map_of_mem hmember
          exact hname (heq ▸ hmem)
        · exact hnew member (List.mem_cons_of_mem _ hmember) hmem) hnodup
      have hkey := readFieldName_new record a
        (hnew (String.ofList text, node) List.mem_cons_self) scope head style
      refine ⟨names', ?_, .cons hkey (fun followed => ?_) hcollects⟩
      · intro other
        rw [hnames', List.mem_cons, List.map_cons, List.mem_cons]
        rw [or_left_comm, or_assoc]
      · have hread : readField record (a, names) (String.ofList text)
            = (fun store => (store a, String.ofList text :: names)) <$> field.read := by
          funext scope node followed
          unfold readField
          rw [hfield]
          rfl
        rw [hread]
        exact takes_map (fun store => (store a, String.ofList text :: names)) htakes
          (scope.entry (.scalar head text style)) followed (by rw [entry_depth]; exact hlevels)

theorem takes_record {record : Record Reader α} {levels : Nat} {head : NodeHead}
    {parts : List Node} {named : List (String × Node)} {a : α} (hlabels : Node.Labels parts named)
    (h : record.Fills (Takes levels) record.blank named a) (hnodup : (named.map Prod.fst).Nodup)
    (hneeded : ∀ field ∈ record.fields, field.required = true →
      field.name ∈ named.map Prod.fst) :
    Takes (levels + 1) (Reader.record record) (.mapping head parts true) a := by
  intro scope followed hlevels
  obtain ⟨inner, hinner, -, henter⟩ := enter_bind hlevels head.mark (fun inner => do
    let collected ← readParts inner true (readFieldName record inner) (readField record)
      (record.blank, []) parts
    finishRecord record collected) followed
  obtain ⟨names, hnames, hcollects⟩ :=
    collects_of_fills hinner hlabels record.blank a [] h (by simp) hnodup
  have hmissing : record.missing? names = none :=
    Record.missing?_eq_none fun field hfield hrequired =>
      (hnames field.name).mpr (.inl (hneeded field hfield hrequired))
  show settle head.mark scope _ followed = _
  refine settle_of_ok (henter.trans ?_)
  show (readParts inner true _ _ (record.blank, []) parts followed >>= fun result =>
    finishRecord record result.1 result.2) = _
  rw [readParts_collects hcollects, Outcome.ok_bind]
  unfold finishRecord
  rw [hmissing]
  rfl

/-! ## Untyped values -/

theorem takes_tagged {levels : Nat} {nested : Reader Value} {node : Node} {a : Value}
    (halias : ∀ mark anchor, node ≠ .aliasTo mark anchor) (htag : node.tag? = none)
    (h : Takes levels (contents nested) node a) : Takes levels (tagged nested) node a := by
  intro scope followed hlevels
  have hread := h scope followed hlevels
  unfold tagged follow
  split
  · rename_i mark anchor
    exact absurd rfl (halias mark anchor)
  · dsimp only
    refine settle_of_ok ?_
    rw [htag]
    exact hread

theorem takes_scalar {levels : Nat} {nested : Reader Value} {head : NodeHead} {text : List Char}
    {style : ScalarStyle} {a : Value} (htag : head.tag = none)
    (h : (Meaning.toValue text (if style == .plain then Meaning.ofPlain text else .string))
      = .ok a) :
    Takes levels (tagged nested) (.scalar head text style) a := by
  refine takes_tagged (by simp) htag fun scope followed _ => ?_
  refine settle_of_ok ?_
  dsimp only
  unfold Meaning.ofScalar
  rw [htag]
  dsimp only
  rw [show (Except.ok _ : Except Mismatch Meaning).bind (Meaning.toValue text) = _ from h]
  rfl

theorem takes_sequence {levels : Nat} {nested : Reader Value} {head : NodeHead}
    {nodes : List Node} {items : List Value} (htag : head.tag = none)
    (h : List.Forall₂ (Takes levels nested) nodes items) :
    Takes (levels + 1) (tagged nested) (.sequence head nodes true) (.sequence items) := by
  refine takes_tagged (by simp) htag fun scope followed hlevels => ?_
  obtain ⟨inner, hinner, -, henter⟩ := enter_bind hlevels head.mark (fun inner => do
    return Value.sequence (← readItems inner true nested 0 nodes)) followed
  refine settle_of_ok (henter.trans ?_)
  show (readItems inner true nested 0 nodes followed >>= fun result =>
    pure (Value.sequence result.1, result.2)) = _
  rw [readItems_takes h hinner followed 0]
  rfl

/-- What reads the keys of a mapping, and refuses one that is there. -/
def mappingKey (nested : Reader Value) (scope : Scope) (entries : List (Value × Value))
    (key : Node) : Following Value := do
  let key ← nested scope key
  match entries.find? (fun entry => entry.1.same key) with
  | some (earlier, _) => refuse (.duplicateKey earlier)
  | none => return key

/-- What reads the values of a mapping. -/
def mappingValue (nested : Reader Value) (entries : List (Value × Value)) (key : Value) :
    Reader (List (Value × Value)) := fun scope node => do
  let value ← nested scope node
  return (key, value) :: entries

theorem collects_entries {levels : Nat} {nested : Reader Value} {scope : Scope}
    (hlevels : levels ≤ scope.depth)
    (hkey : ∀ head text style, head.tag = none →
      (style = ScalarStyle.plain → Meaning.ofPlain text = .string) →
      Takes levels nested (.scalar head text style) (.text (String.ofList text)))
    {parts : List Node} {named : List (String × Node)} (hlabels : Node.Labels parts named) :
    ∀ entries others : List (Value × Value),
    List.Forall₂ (fun member entry => Value.text member.1 = entry.1 ∧
      Takes levels nested member.2 entry.2) named others →
    (named.map Prod.fst).Nodup →
    (∀ member ∈ named, ∀ entry ∈ entries, entry.1.same (.text member.1) = false) →
    Collects scope (mappingKey nested scope) (mappingValue nested) entries parts
      (others.reverse ++ entries) := by
  induction hlabels with
  | nil =>
    intro entries others h _ _
    rw [List.forall₂_nil_left_iff.mp h]
    exact .nil
  | @cons head text style node parts named htag hstyle _ ih =>
    intro entries others h hnodup hnew
    obtain ⟨⟨key, value⟩, others, ⟨rfl, hvalue⟩, hothers, rfl⟩ := List.forall₂_cons_left_iff.mp h
    obtain ⟨hname, hnodup⟩ := List.nodup_cons.mp hnodup
    -- The key is new, so it is not refused as one that is there.
    have hread : ∀ followed, mappingKey nested scope entries (.scalar head text style) followed
        = .ok (Value.text (String.ofList text), followed) := by
      intro followed
      have hread := hkey head text style htag hstyle scope followed hlevels
      have hfind : entries.find? (fun entry => entry.1.same (.text (String.ofList text)))
          = none := by
        rw [List.find?_eq_none]
        intro entry hentry hsame
        rw [hnew (String.ofList text, node) List.mem_cons_self entry hentry] at hsame
        exact absurd hsame (by decide)
      show (nested scope (.scalar head text style) followed >>= fun result =>
        (match entries.find? (fun entry => entry.1.same result.1) with
          | some (earlier, _) => refuse (.duplicateKey earlier)
          | none => return result.1 : Following Value) result.2) = _
      rw [hread, Outcome.ok_bind]
      dsimp only
      rw [hfind]
      rfl
    rw [List.reverse_cons, List.append_assoc]
    refine .cons hread (fun followed => ?_) (ih _ others hothers hnodup ?_)
    · exact takes_map (fun value => (Value.text (String.ofList text), value) :: entries) hvalue
        (scope.entry (.scalar head text style)) followed (by rw [entry_depth]; exact hlevels)
    · intro member hmember entry hentry
      rcases List.mem_cons.mp hentry with rfl | hentry
      · have hmem : member.1 ∈ named.map Prod.fst := List.mem_map_of_mem hmember
        rw [Value.same, beq_eq_false_iff_ne]
        rintro heq
        exact hname (heq ▸ hmem)
      · exact hnew member (List.mem_cons_of_mem _ hmember) entry hentry

theorem takes_mapping {levels : Nat} {nested : Reader Value} {head : NodeHead}
    {parts : List Node} {named : List (String × Node)} {entries : List (Value × Value)}
    (htag : head.tag = none) (hlabels : Node.Labels parts named)
    (hkey : ∀ head text style, head.tag = none →
      (style = ScalarStyle.plain → Meaning.ofPlain text = .string) →
      Takes levels nested (.scalar head text style) (.text (String.ofList text)))
    (h : List.Forall₂ (fun member entry => Value.text member.1 = entry.1 ∧
      Takes levels nested member.2 entry.2) named entries)
    (hnodup : (named.map Prod.fst).Nodup) :
    Takes (levels + 1) (tagged nested) (.mapping head parts true) (.mapping entries) := by
  refine takes_tagged (by simp) htag fun scope followed hlevels => ?_
  obtain ⟨inner, hinner, -, henter⟩ := enter_bind hlevels head.mark (fun inner => do
    let entries ← readParts inner true (mappingKey nested inner) (mappingValue nested) [] parts
    return Value.mapping entries.reverse) followed
  have hcollects := collects_entries hinner hkey hlabels [] entries h hnodup (by simp)
  refine settle_of_ok (henter.trans ?_)
  show (readParts inner true _ _ [] parts followed >>= fun result =>
    pure (Value.mapping result.1.reverse, result.2)) = _
  rw [readParts_collects hcollects, List.append_nil]
  show Except.ok (Value.mapping (List.reverse (List.reverse _)), followed) = _
  rw [List.reverse_reverse]

/-- A scalar needs no level, so it is read the same way however many are left. -/
theorem takes_scalarWithin {levels : Nat} {head : NodeHead} {text : List Char} {style : ScalarStyle}
    {a : Value} (htag : head.tag = none)
    (h : Meaning.toValue text (if style == .plain then Meaning.ofPlain text else .string) = .ok a)
    (within : Nat) : Takes levels (valueWithin within) (.scalar head text style) a := by
  cases within with
  | zero => exact takes_scalar htag h
  | succ within => exact takes_scalar htag h

/-- **Any document that fits is read as its value.** -/
theorem takes_valueWithin {levels : Nat} {json : Json} (h : json.Fits levels) :
    ∀ (within : Nat) (node : Node), levels ≤ within → node.Means json →
      Takes levels (valueWithin within) node json.toValue := by
  have hplain : ∀ {head : NodeHead} {text : List Char} {meaning : Meaning} {a : Value}
      {levels : Nat}, head.tag = none → Meaning.ofPlain text = meaning →
      Meaning.toValue text meaning = .ok a →
      ∀ within, Takes levels (valueWithin within) (.scalar head text .plain) a := by
    intro head text meaning a levels htag hmeaning hvalue
    subst hmeaning
    exact takes_scalarWithin htag hvalue
  have htext : ∀ {levels : Nat} (within : Nat) (head : NodeHead) (text : List Char)
      (style : ScalarStyle), head.tag = none →
      (style = .plain → Meaning.ofPlain text = .string) →
      Takes levels (valueWithin within) (.scalar head text style) (.text (String.ofList text)) := by
    intro levels within head text style htag hstyle
    cases style with
    | plain => exact hplain htag (hstyle rfl) rfl within
    | _ => exact takes_scalarWithin htag rfl within
  induction h with
  | null =>
    intro within node _ hmeans
    cases hmeans with
    | null htag htext => exact hplain htag htext rfl within
  | bool =>
    intro within node _ hmeans
    cases hmeans with
    | bool htag htext => exact hplain htag htext rfl within
  | int =>
    intro within node _ hmeans
    cases hmeans with
    | int htag htext => exact hplain htag htext rfl within
  | float =>
    intro within node _ hmeans
    cases hmeans with
    | notFinite htag htext => exact hplain htag htext rfl within
  | string =>
    intro within node _ hmeans
    cases hmeans with
    | string htag hstyle => exact htext within _ _ _ htag hstyle
  | @array levels items _ ih =>
    intro within node hwithin hmeans
    -- A collection that fits has a level to spend, and its items fit the levels below.
    obtain ⟨within, rfl⟩ : ∃ n, within = n + 1 := ⟨within - 1, by omega⟩
    cases hmeans with
    | array htag hnodes =>
      rw [Json.toValue, Json.itemsToValues_eq_map]
      exact takes_sequence htag (Partners.partners_map hnodes.flip fun item hitem node hmeans =>
        ih item hitem within node (by omega) hmeans)
  | @object levels members hnodup _ ih =>
    intro within node hwithin hmeans
    obtain ⟨within, rfl⟩ : ∃ n, within = n + 1 := ⟨within - 1, by omega⟩
    cases hmeans with
    | object htag hlabels hnames hnodes =>
      rw [Json.toValue, Json.membersToEntries_eq_map]
      refine takes_mapping htag hlabels (htext within) ?_ (by rw [hnames]; exact hnodup)
      refine Partners.partners_map (Partners.pairs_iff.mpr ⟨hnames.symm, hnodes.flip⟩)
        fun member hmember node hmeans => ?_
      exact ⟨congrArg Value.text hmeans.1.symm,
        ih member hmember within node.2 (by omega) hmeans.2⟩

theorem takes_value {levels : Nat} {json : Json} (h : json.Fits levels) {node : Node}
    (hmeans : node.Means json) : Takes levels value node json.toValue :=
      fun scope followed hlevels =>
  takes_valueWithin h scope.depth node hlevels hmeans scope followed hlevels

/-! ## The format -/

theorem present_of_means {node : Node} {json : Json} (h : node.Means json)
    (hnull : json.mayBeNull = false) : Present node := by
  have hplain : ∀ {head : NodeHead} {text : List Char}, head.tag = none →
      Meaning.ofPlain text ≠ .null → Present (.scalar head text .plain) := by
    intro head text htag htext
    refine ⟨?_, by simp⟩
    unfold isAbsent
    dsimp only
    rw [htag]
    dsimp only
    rw [Meaning.not_isNull_of_ofPlain htext]
  cases h with
  | null => exact absurd hnull (by decide)
  | notFinite => exact absurd hnull (by simp [Json.mayBeNull])
  | bool htag htext => exact hplain htag (by rw [htext]; simp)
  | int htag htext => exact hplain htag (by rw [htext]; simp)
  | @string head text style htag hstyle =>
    cases style with
    | plain => exact hplain htag (by rw [hstyle rfl]; simp)
    | _ => exact ⟨rfl, by simp⟩
  | array => exact ⟨rfl, by simp⟩
  | object => exact ⟨rfl, by simp⟩

/-- **YAML is a format that reads JSON documents**, given nodes that mean them. -/
def yamlReading : JsonReading Reader where
  Reads levels read json a := ∀ node : Node, node.Means json → Takes levels read node a
  map f h node hmeans := takes_map f (h node hmeans)
  text value node hmeans := by
    cases hmeans with
    | string => exact takes_textAs _ _ _ _ _
  flag value node hmeans := by
    cases hmeans with
    | bool _ htext => exact takes_flag _ (Meaning.bool?_of_ofPlain htext)
  natural value node hmeans := by
    cases hmeans with
    | int _ _ hnatural =>
      have hvalue := hnatural (Int.natCast_nonneg _)
      rw [Int.toNat_natCast] at hvalue
      rw [show value.toNat.toUInt64 = value from UInt64.ofNat_toNat] at hvalue
      exact takes_natural _ hvalue
  optional hnull h node hmeans := takes_optional (present_of_means hmeans hnull) (h node hmeans)
  list h node hmeans := by
    cases hmeans with
    | array _ hnodes =>
      exact takes_list (Partners.partners_trans hnodes
        (fun node item a hmeans hread => hread node hmeans) h)
  choice h node hmeans := by
    cases hmeans with
    | string htag => exact takes_choice _ htag h
  record h hnodup hneeded node hmeans := by
    cases hmeans with
    | object htag hlabels hnames hnodes =>
      refine takes_record hlabels (h.map _ ((Partners.pairs_iff.mpr ⟨hnames.symm, hnodes.flip⟩).imp
        fun member node hmeans => ?_)) (by rw [hnames]; exact hnodup)
          (by rw [hnames]; exact hneeded)
      exact ⟨hmeans.1, fun read store hread => hread node.2 hmeans.2⟩
  bindings h node hmeans := by
    cases hmeans with
    | object htag hlabels hnames hnodes =>
      refine takes_bindings hlabels
        (Partners.partners_trans (Partners.pairs_iff.mpr ⟨hnames, hnodes⟩) ?_ h)
      intro node member a hmeans hread
      exact ⟨hmeans.1.trans hread.1, hread.2 node.2 hmeans.2⟩
  untyped h node hmeans := takes_value h hmeans

end Reader

end Provisioning.Yaml
