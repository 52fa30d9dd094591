import Mathlib.Data.List.Forall2
import Provisioning.Outcome
import Provisioning.Yaml.Reader

/-!
# What a value tells about the nodes it was read from

If a record was read from a mapping, then each of its fields was read from the value of the key of
that name, wherever the key stands and whatever the other keys are: a field is read only once, and
reading the others does not change it (`record_field`). In the same way the first element of a list
was read from the first item of a sequence, and a text from a scalar.
-/

namespace Provisioning.Yaml

/-! ## What nodes hold -/

/-- The parts of a mapping as keys with their values. -/
def Node.pairs : List Node → List (Node × Node)
  | key :: value :: parts => (key, value) :: pairs parts
  | _ => []

namespace Stream

/-- The node that a node stands for, itself if it is no alias. -/
def target? (stream : Stream) : Node → Option Node
  | .aliasTo _ anchor => stream.root.bind (Node.anchored? anchor)
  | node => some node

/-- Is a node, or what it stands for, a scalar of this text? -/
def spells (stream : Stream) (name : String) (node : Node) : Bool :=
  match stream.target? node with
  | some (.scalar _ text _) => String.ofList text == name
  | _ => false

/-- Does a node stand for a value other than null? -/
def isPresent (stream : Stream) (node : Node) : Bool :=
  match (stream.target? node).map Reader.isAbsent with
  | some (.ok absent) => !absent
  | _ => false

/-- The value of a name among keys and values. -/
def lookup? (stream : Stream) (name : String) (parts : List Node) : Option Node :=
  ((Node.pairs parts).find? fun entry => stream.spells name entry.1).map (·.2)

/-- Is a node, or what it stands for, a mapping that has a value other than null for this name? -/
def gives (stream : Stream) (name : String) (node : Node) : Bool :=
  match stream.target? node with
  | some (.mapping _ parts _) => (stream.lookup? name parts).any stream.isPresent
  | _ => false

/-- The items of a node, or of what it stands for, if it is a sequence. -/
def items (stream : Stream) (node : Node) : List Node :=
  match stream.target? node with
  | some (.sequence _ items _) => items
  | _ => []

/-- The items of the document if it is a sequence. -/
def listed (stream : Stream) : List Node := stream.root.elim [] stream.items

end Stream

namespace Reader

open Provisioning.Outcome (bind_eq_ok)

variable {α β σ κ : Type} {scope : Scope} {closed : Bool} {followed followed' : Nat}

theorem settle_eq_ok {mark : Mark} {read : Following α} {result : α × Nat}
    (h : settle mark scope read followed = .ok result) : read followed = .ok result := by
  unfold settle at h
  split at h
  · rename_i hread
    rw [hread, h]
  · cases h

/-- A computation behind another. -/
theorem bind_ok {step : Following α} {next : α → Following β} {result : β × Nat}
    (h : (step >>= next) followed = .ok result) :
    ∃ a between, step followed = .ok (a, between) ∧ next a between = .ok result := by
  obtain ⟨⟨a, between⟩, hstep, hnext⟩ := bind_eq_ok.mp (show (step followed >>= fun result =>
    next result.1 result.2) = .ok result from h)
  exact ⟨a, between, hstep, hnext⟩

theorem map_ok {read : Reader α} {f : α → β} {node : Node} {b : β}
    (h : (f <$> read) scope node followed = .ok (b, followed')) :
    ∃ a, read scope node followed = .ok (a, followed') ∧ b = f a := by
  obtain ⟨⟨a, between⟩, hread, hmap⟩ :=
    bind_eq_ok.mp (show (read scope node followed >>= fun result =>
      pure (f result.1, result.2)) = .ok (b, followed') from h)
  cases hmap
  exact ⟨a, hread, rfl⟩

/-! ## Aliases and faults -/

/-- An alias is read as its node is, in the scope of the alias. -/
theorem follow_ok {node : Node} {read : Node → Following α} {result : α × Nat}
    (h : follow scope node read followed = .ok result) :
    ∃ target count, scope.stream.target? node = some target ∧ read target count = .ok result := by
  cases node with
  | aliasTo mark anchor =>
    obtain ⟨count, _, hget, hcounted⟩ := bind_ok h
    cases hget
    obtain ⟨_, _, hset, hread⟩ := bind_ok hcounted
    cases hset
    by_cases hmany : scope.stream.steps * 100 < followed + 1
    · rw [if_pos hmany] at hread
      cases hread
    · rw [if_neg hmany] at hread
      cases htarget : scope.stream.root.bind (Node.anchored? anchor) with
      | none =>
        rw [htarget] at hread
        cases hread
      | some target =>
        rw [htarget] at hread
        exact ⟨target, _, htarget, hread⟩
  | _ => exact ⟨_, _, rfl, h⟩

theorem clash_ne_ok (node : Node) (expected : Expected) (result : α × Nat) :
    clash node expected followed ≠ .ok result := by
  intro h
  cases node with
  | scalar head text style =>
    unfold clash at h
    dsimp only at h
    cases hmeaning : Meaning.ofScalar head.tag text style with
    | error mismatch => rw [hmeaning] at h; cases h
    | ok meaning => rw [hmeaning] at h; cases h
  | _ => cases h

/-! ## Texts and lists -/

theorem textAs_ok {expected : Expected} {head : NodeHead} {text : List Char}
    {style : ScalarStyle} {s : String}
    (h : textAs expected scope (.scalar head text style) followed = .ok (s, followed')) :
    s = String.ofList text ∧ followed' = followed := by
  cases h
  exact ⟨rfl, rfl⟩

/-- A text was read from a node that stands for a scalar of this text. -/
theorem spells_of_textAs {expected : Expected} {node : Node} {s : String}
    (h : textAs expected scope node followed = .ok (s, followed')) (name : String) :
    scope.stream.spells name node = (s == name) := by
  obtain ⟨target, count, htarget, hread⟩ := follow_ok h
  have hread := settle_eq_ok hread
  unfold Stream.spells
  rw [htarget]
  cases target with
  | scalar head text style =>
    cases hread
    rfl
  | _ => cases hread

/-- A collection is no text. -/
theorem textAs_collection {expected : Expected} {head : NodeHead} {parts : List Node} {s : String} :
    textAs expected scope (.sequence head parts closed) followed ≠ .ok (s, followed') ∧
      textAs expected scope (.mapping head parts closed) followed ≠ .ok (s, followed') :=
  ⟨nofun, nofun⟩

/-- The scope of the parts of a collection has one level less, and is of the same document. -/
theorem enter_ok {mark : Mark} {read : Scope → Following α} {result : α × Nat}
    (h : ((do let inner ← scope.enter mark; read inner) : Following α) followed = .ok result) :
    ∃ inner, inner.depth + 1 = scope.depth ∧ inner.stream = scope.stream ∧
      read inner followed = .ok result := by
  unfold Scope.enter at h
  split at h
  · cases h
  · rename_i depth hdepth
    exact ⟨{ scope with depth }, hdepth.symm, rfl, h⟩

/-- The elements of a list were read one by one. -/
theorem readItems_ok {read : Reader α} : ∀ {items : List Node} {index followed : Nat} {as : List α},
    readItems scope closed read index items followed = .ok (as, followed') →
      List.Forall₂ (fun item a => ∃ index m n, read (scope.item index) item m = .ok (a, n))
        items as := by
  intro items
  induction items with
  | nil =>
    intro index followed as h
    cases closed with
    | true =>
      cases h
      exact .nil
    | false => cases h
  | cons item items ih =>
    intro index followed as h
    obtain ⟨first, _, hfirst, hbehind⟩ := bind_ok h
    obtain ⟨others, _, hothers, hlast⟩ := bind_ok hbehind
    cases hlast
    exact .cons ⟨index, _, _, hfirst⟩ (ih hothers)

/-- The elements of a list were read from the items of the node. -/
theorem list_items {read : Reader α} {node : Node} {as : List α}
    (h : list read scope node followed = .ok (as, followed')) :
    List.Forall₂ (fun item a => ∃ inner m n, inner.depth + 1 = scope.depth ∧
      inner.stream = scope.stream ∧
      read inner item m = .ok (a, n)) (scope.stream.items node) as := by
  obtain ⟨target, count, htarget, hread⟩ := follow_ok h
  have hread := settle_eq_ok hread
  unfold Stream.items
  rw [htarget]
  split at hread
  · obtain ⟨inner, hdepth, hstream, hitems⟩ := enter_ok hread
    refine (readItems_ok hitems).imp fun item a hitem => ?_
    obtain ⟨index, m, n, hitem⟩ := hitem
    exact ⟨inner.item index, m, n, hdepth, hstream, hitem⟩
  · rename_i hnotSequence
    split at hread
    · cases hread
      cases target with
      | sequence head items closed => exact absurd rfl (hnotSequence head items closed)
      | _ => exact .nil
    · exact absurd hread (clash_ne_ok _ _ _)

/-- The first element of a list was read from the first item. -/
theorem list_ok {read : Reader α} {head : NodeHead} {first : Node} {items : List Node} {as : List α}
    (h : list read scope (.sequence head (first :: items) closed) followed = .ok (as, followed')) :
    ∃ a others inner m n, as = a :: others ∧ read inner first m = .ok (a, n) := by
  cases list_items h with
  | cons hfirst _ =>
    obtain ⟨inner, m, n, -, -, hfirst⟩ := hfirst
    exact ⟨_, _, inner, m, n, rfl, hfirst⟩

/-- An optional value is there just if the node stands for a value other than null. -/
theorem isSome_of_optional {read : Reader α} {node : Node} {a? : Option α}
    (h : optional read scope node followed = .ok (a?, followed')) :
      a?.isSome = scope.stream.isPresent node := by
  obtain ⟨target, count, htarget, hread⟩ := follow_ok h
  unfold Stream.isPresent
  rw [htarget, Option.map_some]
  cases habsent : isAbsent target with
  | error mismatch =>
    rw [habsent] at hread
    cases hread
  | ok absent =>
    rw [habsent] at hread
    cases absent with
    | true =>
      cases hread
      rfl
    | false =>
      obtain ⟨a, _, rfl⟩ := map_ok hread
      rfl

/-! ## Records -/

/-- A key and its value that were read in front of other parts. -/
theorem readParts_pair {key : σ → Node → Following κ} {value : σ → κ → Reader σ}
    {collected last : σ} {first second : Node} {parts : List Node}
    (h : readParts scope closed key value collected (first :: second :: parts) followed
      = .ok (last, followed')) :
    ∃ name next m n, key collected first followed = .ok (name, m) ∧
      value collected name (scope.entry first) second m = .ok (next, n) ∧
      readParts scope closed key value next parts n = .ok (last, followed') := by
  obtain ⟨name, m, hkey, hbehind⟩ := bind_ok h
  obtain ⟨next, n, hvalue, hparts⟩ := bind_ok hbehind
  exact ⟨name, next, m, n, hkey, hvalue, hparts⟩

/-- The keys and values of a mapping do not end with a key. -/
theorem readParts_single {key : σ → Node → Following κ} {value : σ → κ → Reader σ}
    {collected last : σ} {first : Node} :
    readParts scope closed key value collected [first] followed ≠ .ok (last, followed') := by
  intro h
  obtain ⟨_, _, _, hbehind⟩ := bind_ok h
  cases hbehind

variable {record : Record Reader α} {name : String} {project : α → β}

/-- A field that leaves a part of the record as it is. -/
def Spares (project : α → β) (field : Field Reader α) : Prop :=
  ∀ scope node followed change followed', field.read scope node followed = .ok (change, followed') →
    ∀ a, project (change a) = project a

theorem spares_of {γ : Type} {read : Reader γ} {store : γ → α → α} {required : Bool}
    (h : ∀ c a, project (store c a) = project a) :
      Spares project ⟨name, required, store <$> read⟩ := by
  intro scope node followed change followed' hread a
  obtain ⟨c, _, rfl⟩ := map_ok hread
  exact h c a

theorem field?_eq_some {field : Field Reader α} (h : record.field? name = some field) :
    field ∈ record.fields ∧ field.name = name := by
  have hname := List.find?_some h
  exact ⟨List.mem_of_find?_eq_some h, by simpa using hname⟩

theorem readField_ok {field : Field Reader α} {a b : α} {names names' : List String} {node : Node}
    (hfield : record.field? name = some field)
    (h : readField record (a, names) name scope node followed = .ok ((b, names'), followed')) :
    ∃ change, field.read scope node followed = .ok (change, followed') ∧ b = change a ∧
      names' = name :: names := by
  unfold readField at h
  rw [hfield] at h
  obtain ⟨change, between, hread, hstore⟩ := bind_ok h
  cases hstore
  exact ⟨change, hread, rfl, rfl⟩

theorem readField_unknown {a b : α} {names names' : List String} {node : Node}
    (hfield : record.field? name = none)
    (h : readField record (a, names) name scope node followed = .ok ((b, names'), followed')) :
    b = a ∧ names' = names := by
  unfold readField at h
  rw [hfield] at h
  obtain ⟨_, between, hskip, hsame⟩ := bind_ok h
  cases hsame
  exact ⟨rfl, rfl⟩

/-- A field that the record has already is not read again. -/
theorem readFieldName_ok {a : α} {names : List String} {key : Node} {found : String}
    (h : readFieldName record scope (a, names) key followed = .ok (found, followed')) :
    textAs .fieldName scope key followed = .ok (found, followed') ∧
      ((record.field? found).isSome = true → found ∉ names) := by
  obtain ⟨text, between, htext, hnew⟩ := bind_ok h
  dsimp only at hnew
  split at hnew
  · cases hnew
  · rename_i hnot
    cases hnew
    refine ⟨htext, fun hsome hmem => hnot ?_⟩
    rw [hsome, List.contains_iff_mem.mpr hmem]
    rfl

/-- Once a field is read, no later part of the mapping changes it. -/
theorem readParts_keeps (hothers : ∀ field ∈ record.fields, field.name ≠ name →
    Spares project field) (hknown : (record.field? name).isSome = true) :
    ∀ (parts : List Node) (a b : α) (names names' : List String) (followed : Nat), name ∈ names →
      readParts scope closed (readFieldName record scope) (readField record)
        (a, names) parts followed
        = .ok ((b, names'), followed') → project b = project a
  | [], a, b, names, names', followed, _, h => by
    cases closed with
    | true =>
      cases h
      rfl
    | false => cases h
  | [first], a, b, names, names', followed, _, h => absurd h readParts_single
  | first :: second :: parts, a, b, names, names', followed, hmem, h => by
    obtain ⟨found, ⟨next, nextNames⟩, m, n, hkey, hvalue, hparts⟩ := readParts_pair h
    have hnew := (readFieldName_ok hkey).2
    cases hfield : record.field? found with
    | none =>
      obtain ⟨rfl, rfl⟩ := readField_unknown hfield hvalue
      exact readParts_keeps hothers hknown parts _ b _ names' n hmem hparts
    | some field =>
      obtain ⟨change, hread, rfl, rfl⟩ := readField_ok hfield hvalue
      have hne : found ≠ name := fun heq => hnew (by rw [hfield]; rfl) (heq ▸ hmem)
      obtain ⟨hfieldMem, hfieldName⟩ := field?_eq_some hfield
      have hspares := hothers field hfieldMem (hfieldName ▸ hne) _ _ _ _ _ hread a
      exact (readParts_keeps hothers hknown parts _ b _ names' n (List.mem_cons_of_mem _ hmem)
        hparts).trans hspares

/-- A record without its needed fields is refused, and any other is what was collected. -/
theorem finishRecord_ok {collected : α × List String} {a : α}
    (h : finishRecord record collected followed = .ok (a, followed')) : a = collected.1 := by
  unfold finishRecord at h
  cases hmissing : record.missing? collected.2 with
  | some name => rw [hmissing] at h; cases h
  | none => rw [hmissing] at h; cases h; rfl

/-- **A field was read from the value of the key of its name.** -/
theorem record_field {read : Reader β} {store : β → α → α} {required : Bool}
    (hfield : record.field? name = some ⟨name, required, store <$> read⟩)
    (hstore : ∀ b a, project (store b a) = b)
    (hothers : ∀ field ∈ record.fields, field.name ≠ name → Spares project field)
    {head keyHead : NodeHead} {style : ScalarStyle} {value : Node} {front further : List Node}
    {a : α} (heven : front.length % 2 = 0)
    (h : Reader.record record scope
      (.mapping head (front ++ .scalar keyHead name.toList style :: value :: further) closed)
        followed = .ok (a, followed')) :
    ∃ inner m n, read inner value m = .ok (project a, n) := by
  obtain ⟨inner, -, -, hinner⟩ := enter_ok (settle_eq_ok h)
  obtain ⟨⟨last, names⟩, between, hparts, hfinish⟩ := bind_ok hinner
  obtain rfl : last = a := (finishRecord_ok hfinish).symm
  clear hfinish hinner h
  -- The parts in front of the key are passed over in pairs, whatever is collected on the way.
  generalize (record.blank, ([] : List String)) = collected at hparts
  induction hn : front.length using Nat.strongRecOn generalizing front collected followed with
  | ind n ih =>
    match front, hparts, heven, hn with
    | [], hparts, _, _ =>
      obtain ⟨found, ⟨next, nextNames⟩, m, n, hkey, hvalue, hrest⟩ := readParts_pair hparts
      obtain ⟨rfl, -⟩ := textAs_ok (readFieldName_ok hkey).1
      rw [String.ofList_toList] at hvalue
      obtain ⟨change, hread, rfl, rfl⟩ := readField_ok hfield hvalue
      obtain ⟨b, hb, rfl⟩ := map_ok hread
      have hkept :=
        readParts_keeps hothers (by rw [hfield]; rfl) further _ _ _ _ _ List.mem_cons_self hrest
      rw [hkept, hstore]
      exact ⟨_, _, _, hb⟩
    | [_], _, heven, _ => exact absurd heven (by simp)
    | first :: second :: front, hparts, heven, hn =>
      obtain ⟨found, next, m, n, hkey, hvalue, hrest⟩ := readParts_pair hparts
      rw [List.length_cons, List.length_cons] at heven hn
      exact ih front.length (by omega) (by omega) next hrest rfl

/-! ## Optional fields -/

theorem entry_stream (key : Node) : (scope.entry key).stream = scope.stream := by cases key <;> rfl

section Optional

variable {γ : Type} {read : Reader γ} {store : Option γ → α → α} {required : Bool}
  {project : α → Option γ}

/-- As long as a field was not read, it is there in the end just if one of the parts behind
gives it. -/
theorem readParts_optional (hfield : record.field? name
    = some ⟨name, required, store <$> optional read⟩)
    (hstore : ∀ c a, project (store c a) = c)
    (hothers : ∀ field ∈ record.fields, field.name ≠ name → Spares project field) :
    ∀ (parts : List Node) (a b : α) (names names' : List String) (followed : Nat), name ∉ names →
      project a = none →
      readParts scope closed (readFieldName record scope) (readField record)
        (a, names) parts followed
        = .ok ((b, names'), followed') →
      (project b).isSome = (scope.stream.lookup? name parts).any scope.stream.isPresent
  | [], a, b, names, names', followed, _, hnone, h => by
    cases closed with
    | true =>
      cases h
      rw [hnone]
      rfl
    | false => cases h
  | [first], a, b, names, names', followed, _, _, h => absurd h readParts_single
  | first :: second :: parts, a, b, names, names', followed, hnew, hnone, h => by
    obtain ⟨found, ⟨next, nextNames⟩, m, n, hkey, hvalue, hparts⟩ := readParts_pair h
    have hspells := spells_of_textAs (readFieldName_ok hkey).1 name
    unfold Stream.lookup? Node.pairs
    rw [List.find?_cons, hspells]
    by_cases hname : found = name
    · -- The field is read here, and the parts behind it leave it as it is.
      subst hname
      obtain ⟨change, hread, rfl, rfl⟩ := readField_ok hfield hvalue
      obtain ⟨c, hc, rfl⟩ := map_ok hread
      have hkept :=
        readParts_keeps hothers (by rw [hfield]; rfl) parts _ _ _ _ _ List.mem_cons_self hparts
      have hpresent := isSome_of_optional hc
      rw [entry_stream] at hpresent
      rw [hkept, hstore, hpresent, beq_self_eq_true]
      rfl
    · have hpassed : nextNames.contains name = false ∧ project next = none := by
        cases hother : record.field? found with
        | none =>
          obtain ⟨rfl, rfl⟩ := readField_unknown hother hvalue
          exact ⟨by simpa using hnew, hnone⟩
        | some field =>
          obtain ⟨change, hread, rfl, rfl⟩ := readField_ok hother hvalue
          obtain ⟨hmem, hfieldName⟩ := field?_eq_some hother
          refine ⟨?_, (hothers field hmem (hfieldName ▸ hname) _ _ _ _ _ hread a).trans hnone⟩
          simpa [Ne.symm hname] using hnew
      rw [beq_eq_false_iff_ne.mpr hname]
      exact readParts_optional hfield hstore hothers parts next b nextNames names' n
        (by simpa using hpassed.1) hpassed.2 hparts

/-- **An optional field is there just if the node gives it**: if it is a mapping that has a value
other than null for the name of the field. -/
theorem record_optional (project : α → Option γ)
    (hfield : record.field? name = some ⟨name, required, store <$> optional read⟩)
    (hstore : ∀ c a, project (store c a) = c) (hblank : project record.blank = none)
    (hothers : ∀ field ∈ record.fields, field.name ≠ name → Spares project field)
    {node : Node} {a : α} (h : Reader.record record scope node followed = .ok (a, followed')) :
    (project a).isSome = scope.stream.gives name node := by
  obtain ⟨target, count, htarget, hread⟩ := follow_ok h
  have hread := settle_eq_ok hread
  unfold Stream.gives
  rw [htarget]
  split at hread
  · obtain ⟨inner, -, hstream, hparts⟩ := enter_ok hread
    obtain ⟨⟨last, names⟩, _, hcollected, hlast⟩ := bind_ok hparts
    rw [finishRecord_ok hlast, ← hstream]
    exact readParts_optional hfield hstore hothers _ _ _ _ _ _ List.not_mem_nil hblank hcollected
  · rename_i hnotMapping
    split at hread
    · rw [finishRecord_ok hread, hblank]
      cases target with
      | mapping head parts closed => exact absurd rfl (hnotMapping head parts closed)
      | _ => rfl
    · exact absurd hread (clash_ne_ok _ _ _)

end Optional

end Reader

/-! ## Whole texts -/

/-- What is read from a text is read from the root of its document. -/
theorem read_ok {α : Type} {read : Reader α} {text : String} {a : α}
    (h : Yaml.read read text = .ok a) : ∃ root followed, (Stream.ofText text).root = some root ∧
      read ⟨Stream.ofText text, depthLimit, .root⟩ root 0 = .ok (a, followed) := by
  unfold Yaml.read Stream.read at h
  dsimp only at h
  cases hroot : (Stream.ofText text).root with
  | none =>
    rw [hroot] at h
    cases h
  | some root =>
    rw [hroot] at h
    obtain ⟨⟨found, followed⟩, hfound, hlast⟩ := Outcome.bind_eq_ok.mp h
    dsimp only at hlast
    split at hlast
    · cases hlast
    · cases hlast
    · cases hlast
      exact ⟨root, followed, rfl, hfound⟩

end Provisioning.Yaml
