import Provisioning.Proofs.Json.Reading

/-!
# The JSON reader reads the members of objects

The loop over the members of an object carries what was collected so far, so a relation goes
along with it: `Collects` says which members lead from one collection to which other. Mappings
and records are the two loops of this kind, and what they require of the names, that none is a
field twice and that no needed field is missing, is asked of the list of members as a whole.
-/

namespace Provisioning.Json.Reader

variable {α σ : Type}

/-! ## Names -/

/-- Where the name of a member is read. -/
theorem readName (name : String) (rest : List Char) (place : Place) :
    ∃ place', (readString ((Cursor.mk (writeString name ++ rest) place).past '"'
        (name.toList.flatMap escapeChar ++ '"' :: rest)) >>= fun result =>
          (.ok (some result.1, result.2) : Except ReadFault (Option String × Cursor)))
      = .ok (some name, ⟨rest, place'⟩) := by
  obtain ⟨place', h⟩ := readString_written name rest (place.after '"')
  refine ⟨place', ?_⟩
  unfold Cursor.past
  rw [h]
  rfl

theorem writeString_append (name : String) (rest : List Char) :
    writeString name ++ rest = '"' :: (name.toList.flatMap escapeChar ++ '"' :: rest) := by
  rw [writeString, List.cons_append, List.append_assoc]
  rfl

theorem nextName_first (name : String) (rest : List Char) (place : Place) :
    ∃ place', nextName true ⟨writeString name ++ rest, place⟩
      = .ok (some name, ⟨rest, place'⟩) := by
  obtain ⟨place', h⟩ := readName name rest place
  refine ⟨place', ?_⟩
  rw [writeString_append] at h ⊢
  unfold nextName
  rw [Cursor.skipSpace_cons (by decide)]
  exact h

theorem nextName_comma (name : String) (rest : List Char) (place : Place) :
    ∃ place', nextName false ⟨',' :: (writeString name ++ rest), place⟩
      = .ok (some name, ⟨rest, place'⟩) := by
  obtain ⟨place', h⟩ := readName name rest (place.after ',')
  refine ⟨place', ?_⟩
  rw [writeString_append] at h ⊢
  unfold nextName
  rw [Cursor.skipSpace_cons (by decide)]
  dsimp only
  rw [if_neg (by decide), if_neg (by decide), if_pos (by decide)]
  unfold Cursor.past
  rw [Cursor.skipSpace_cons (by decide)]
  exact h

theorem nextName_end (first : Bool) (rest : List Char) (place : Place) :
    nextName first ⟨'\x7d' :: rest, place⟩ = .ok (none, ⟨'\x7d' :: rest, place⟩) := by
  unfold nextName
  rw [Cursor.skipSpace_cons (by decide)]
  rfl

theorem readColon_cons (rest : List Char) (place : Place) :
    readColon ⟨':' :: rest, place⟩ = .ok ⟨rest, place.after ':'⟩ := by
  unfold readColon
  rw [Cursor.skipSpace_cons (by decide)]
  rfl

/-! ## Members -/

/-- Members that are read one by one, each changing what was collected before it. -/
inductive Collects (check : σ → String → Option Mismatch) (value : σ → String → Reader σ)
    (depth : Nat) : σ → List (String × Json) → σ → Prop where
  | nil {s : σ} : Collects check value depth s [] s
  | cons {s t u : σ} {name : String} {json : Json} {members : List (String × Json)} :
      check s name = none → Takes (value s name) depth json t →
      Collects check value depth t members u →
      Collects check value depth s ((name, json) :: members) u

theorem writeMembers_length :
    ∀ members : List (String × Json), members.length < (writeMembers members).length := by
  intro members
  induction members with
  | nil => exact Nat.zero_lt_one
  | cons member members ih =>
    obtain ⟨name, json⟩ := member
    rw [writeMembers, List.length_cons, List.length_cons, List.length_append, List.length_cons,
      List.length_append]
    omega

theorem endsValue_writeMembers (members : List (String × Json)) (rest : List Char) :
    EndsValue (writeMembers members ++ rest) := by
  cases members with
  | nil => exact .inr (.inr rfl)
  | cons member members => exact .inl rfl

variable {check : σ → String → Option Mismatch} {value : σ → String → Reader σ} {depth : Nat}

/-- The members behind the first one. -/
theorem readMembers_writeMembers {s t : σ} {members : List (String × Json)}
    (h : Collects check value depth s members t) : ∀ (fuel : Nat) (rest : List Char)
      (place : Place), members.length < fuel →
    ∃ place', readMembers check value depth fuel false s ⟨writeMembers members ++ rest, place⟩
      = .ok (t, ⟨'\x7d' :: rest, place'⟩) := by
  induction h with
  | nil =>
    intro fuel rest place hfuel
    cases fuel with
    | zero => exact absurd hfuel (by simp)
    | succ fuel =>
      refine ⟨place, ?_⟩
      rw [readMembers, writeMembers, List.singleton_append, nextName_end]
      rfl
  | @cons s t u name json members hcheck hvalue _ ih =>
    intro fuel rest place hfuel
    cases fuel with
    | zero => exact absurd hfuel (by simp)
    | succ fuel =>
      obtain ⟨place₁, h₁⟩ :=
        nextName_comma name (':' :: (json.write ++ (writeMembers members ++ rest))) place
      obtain ⟨place₂, h₂⟩ := hvalue.reads (writeMembers members ++ rest) (place₁.after ':')
        (endsValue_writeMembers members rest)
      obtain ⟨place₃, h₃⟩ := ih fuel rest place₂ (Nat.lt_of_succ_lt_succ hfuel)
      refine ⟨place₃, ?_⟩
      rw [readMembers, writeMembers, List.cons_append, List.append_assoc, List.cons_append,
        List.append_assoc, h₁]
      rw [Outcome.ok_bind]
      dsimp only
      rw [hcheck]
      dsimp only
      rw [readColon_cons, Outcome.ok_bind, h₂, Outcome.ok_bind]
      exact h₃

/-- What stands between the braces of an object, and the closing one. -/
theorem readMembers_object {s t : σ} {members : List (String × Json)}
    (h : Collects check value depth s members t) (rest : List Char) (place : Place) :
    ∃ inner place', write (.object members) = '\x7b' :: inner ∧
      readMembers check value depth ((inner ++ rest).length + 1) true s ⟨inner ++ rest, place⟩
        = .ok (t, ⟨'\x7d' :: rest, place'⟩) := by
  cases h with
  | nil =>
    refine ⟨['\x7d'], place, by rw [write], ?_⟩
    rw [readMembers, List.singleton_append, nextName_end]
    rfl
  | @cons s t u name json members hcheck hvalue hmembers =>
    obtain ⟨place₁, h₁⟩ :=
      nextName_first name (':' :: (json.write ++ (writeMembers members ++ rest))) place
    obtain ⟨place₂, h₂⟩ := hvalue.reads (writeMembers members ++ rest) (place₁.after ':')
      (endsValue_writeMembers members rest)
    -- The fuel is the length of the text, which has more characters than members.
    have hlength := writeMembers_length members
    obtain ⟨place₃, h₃⟩ := readMembers_writeMembers hmembers
      ((writeString name ++ ':' :: (json.write ++ writeMembers members) ++ rest).length) rest place₂
      (by rw [List.length_append, List.length_append, List.length_cons, List.length_append]; omega)
    refine ⟨writeString name ++ ':' :: (json.write ++ writeMembers members), place₃,
      by rw [write], ?_⟩
    rw [readMembers]
    rw [show writeString name ++ ':' :: (json.write ++ writeMembers members) ++ rest
        = writeString name ++ ':' :: (json.write ++ (writeMembers members ++ rest)) by
      rw [List.append_assoc, List.cons_append, List.append_assoc]] at h₃ ⊢
    rw [h₁, Outcome.ok_bind]
    dsimp only
    rw [hcheck]
    dsimp only
    rw [readColon_cons, Outcome.ok_bind, h₂, Outcome.ok_bind]
    exact h₃

/-- An object is entered, read and left. -/
theorem inObject_of_read {inner rest : List Char} {place : Place} {a : α}
    {read : Nat → Cursor → Except ReadFault (α × Cursor)} (hdepth : 2 ≤ depth)
    (h : ∃ place', read (depth - 1) ⟨inner ++ rest, place.after '\x7b'⟩
      = .ok (a, ⟨'\x7d' :: rest, place'⟩)) :
    ∃ place', inObject depth ⟨'\x7b' :: (inner ++ rest), place⟩ (inner ++ rest) read
      = .ok (a, ⟨rest, place'⟩) := by
  obtain ⟨place', h⟩ := h
  refine ⟨place'.after '\x7d', ?_⟩
  have hend : endObject ⟨'\x7d' :: rest, place'⟩ = .ok ⟨rest, place'.after '\x7d'⟩ := by
    unfold endObject
    rw [Cursor.skipSpace_cons (by decide)]
    rfl
  unfold inObject enter
  rw [if_pos hdepth]
  show settle leaveObject (read (depth - 1) ⟨inner ++ rest, place.after '\x7b'⟩ >>= _) = _
  rw [h, Outcome.ok_bind]
  dsimp only
  rw [hend]
  rfl

/-! ## Mappings -/

/-- The bindings so far are in reverse, with the last one in front. -/
theorem collects_bindings {read : Reader α} {members : List (String × Json)}
    {as : List (String × α)}
    (h : List.Forall₂ (fun member a => member.1 = a.1 ∧ Takes read depth member.2 a.2) members as) :
    ∀ collected : List (String × α), Collects (fun _ _ => none)
      (fun collected name depth cursor => do
        let (value, cursor) ← read depth cursor
        return ((name, value) :: collected, cursor))
      depth collected members (as.reverse ++ collected) := by
  induction h with
  | nil => intro collected; exact .nil
  | @cons member a members as hmember _ ih =>
    intro collected
    obtain ⟨name, json⟩ := member
    obtain ⟨name', a⟩ := a
    obtain ⟨rfl, htakes⟩ := hmember
    rw [List.reverse_cons, List.append_assoc]
    exact .cons rfl (takes_map (fun a => (name, a) :: collected) htakes) (ih _)

theorem takes_bindings {read : Reader α} {members : List (String × Json)}
    {as : List (String × α)} (hdepth : 2 ≤ depth)
    (h : List.Forall₂ (fun member a => member.1 = a.1 ∧ Takes read (depth - 1) member.2 a.2)
      members as) :
    Takes (bindings read) depth (.object members) as := by
  refine ⟨beginsValue_write rfl, ?_⟩
  intro rest place _
  obtain ⟨inner, place', hwrite, hread⟩ :=
    readMembers_object (collects_bindings h []) rest (place.after '\x7b')
  rw [hwrite, List.cons_append]
  unfold bindings
  rw [Cursor.skipSpace_cons (by decide)]
  refine inObject_of_read hdepth ⟨place', ?_⟩
  dsimp only
  rw [hread, Outcome.ok_bind]
  dsimp only
  rw [List.append_nil, List.reverse_reverse]
  rfl

/-! ## Records -/

theorem repeats?_eq_none {record : Record Reader α} {a : α} {names : List String} {name : String}
    (h : name ∉ names) : repeats? record (a, names) name = none := by
  have hnot : names.contains name = false := by
    rw [List.contains_eq_mem, decide_eq_false_iff_not]
    exact h
  unfold repeats?
  rw [hnot, Bool.and_false]
  rfl

/-- The reader of a field reads its member. -/
theorem readField_of_field {record : Record Reader α} {name : String} {field : Field Reader α}
    (h : record.field? name = some field) (a : α) (names : List String) :
    readField record (a, names) name = (fun store => (store a, name :: names)) <$> field.read := by
  funext depth cursor
  unfold readField
  rw [h]
  rfl

theorem takes_readField {record : Record Reader α} {name : String} {field : Field Reader α}
    {json : Json} {store : α → α} (hfield : record.field? name = some field)
    (h : Takes field.read depth json store) (a : α) (names : List String) :
    Takes (readField record (a, names) name) depth json (store a, name :: names) := by
  rw [readField_of_field hfield]
  exact takes_map (fun store => (store a, name :: names)) h

/-- Members that fill a record are collected, if none of their names was there before. -/
theorem collects_of_fills {record : Record Reader α} {members : List (String × Json)} {a b : α}
    (h : record.Fills (fun read json store => Takes read depth json store) a members b) :
    ∀ names : List String, (∀ member ∈ members, member.1 ∉ names) →
      (members.map Prod.fst).Nodup →
      ∃ names', (∀ name, name ∈ names' ↔ name ∈ members.map Prod.fst ∨ name ∈ names) ∧
        Collects (repeats? record) (readField record) depth (a, names) members (b, names') := by
  induction h with
  | nil =>
    intro names _ _
    exact ⟨names, by simp, .nil⟩
  | @cons a b name json members field store hfield htakes _ ih =>
    intro names hnew hnodup
    obtain ⟨hname, hnodup⟩ := List.nodup_cons.mp hnodup
    -- From now on the name is among those that may not come again, and it does not.
    obtain ⟨names', hnames', hcollects⟩ := ih (name :: names) (by
      intro member hmember hmem
      rcases List.mem_cons.mp hmem with heq | hmem
      · have hmem : member.1 ∈ members.map Prod.fst := List.mem_map_of_mem hmember
        exact hname (heq ▸ hmem)
      · exact hnew member (List.mem_cons_of_mem _ hmember) hmem) hnodup
    refine ⟨names', ?_, .cons ?_ ?_ hcollects⟩
    · intro other
      rw [hnames', List.mem_cons, List.map_cons, List.mem_cons]
      rw [or_left_comm, or_assoc]
    · exact repeats?_eq_none (hnew (name, json) List.mem_cons_self)
    · exact takes_readField hfield htakes a names

/-- An object whose members are collected is read as the record. -/
theorem takes_record_of_collects {record : Record Reader α} {members : List (String × Json)} {a : α}
    {names : List String} (hdepth : 2 ≤ depth)
    (h : Collects (repeats? record) (readField record) (depth - 1) (record.blank, []) members
      (a, names))
    (hmissing : record.missing? names = none) :
    Takes (Reader.record record) depth (.object members) a := by
  refine ⟨beginsValue_write rfl, ?_⟩
  intro rest place _
  obtain ⟨inner, place', hwrite, hread⟩ := readMembers_object h rest (place.after '\x7b')
  rw [hwrite, List.cons_append]
  unfold Reader.record
  rw [Cursor.skipSpace_cons (by decide)]
  refine inObject_of_read hdepth ⟨place', ?_⟩
  dsimp only
  rw [hread, Outcome.ok_bind]
  dsimp only
  rw [hmissing]
  rfl

theorem takes_record {record : Record Reader α} {members : List (String × Json)} {a : α}
    (hdepth : 2 ≤ depth)
    (h : record.Fills (fun read json store => Takes read (depth - 1) json store)
      record.blank members a)
    (hnodup : (members.map Prod.fst).Nodup)
    (hneeded : ∀ field ∈ record.fields, field.required = true →
      field.name ∈ members.map Prod.fst) :
    Takes (Reader.record record) depth (.object members) a := by
  obtain ⟨names, hnames, hcollects⟩ := collects_of_fills h [] (by simp) hnodup
  have hmissing : record.missing? names = none :=
    Record.missing?_eq_none fun field hfield hrequired =>
      (hnames field.name).mpr (.inl (hneeded field hfield hrequired))
  exact takes_record_of_collects hdepth hcollects hmissing

end Provisioning.Json.Reader
