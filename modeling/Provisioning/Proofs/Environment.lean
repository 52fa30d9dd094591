import Provisioning.Environment

/-!
# Environments as lists

Bindings that ascend are an environment as they stand. The values of an environment can be
changed without touching its names.
-/

namespace Provisioning.Environment

theorem eq_of_entries {a b : Environment} (h : a.entries = b.entries) : a = b := by
  cases a
  cases b
  cases h
  rfl

/-- A name above all others goes to the end. -/
theorem insertEntry_last (name : String) (value : Value) : ∀ entries : List (String × Value),
    (∀ entry ∈ entries, entry.1 < name) →
    insertEntry name value entries = entries ++ [(name, value)] := by
  intro entries
  induction entries with
  | nil => intro _; rfl
  | cons entry entries ih =>
    intro h
    obtain ⟨hentry, hentries⟩ := List.forall_mem_cons.mp h
    rw [insertEntry, if_neg (String.lt_asymm hentry), if_neg, ih hentries]
    · rfl
    · intro heq
      rw [heq] at hentry
      exact String.lt_irrefl _ hentry

theorem foldl_insert_ascending : ∀ (bindings : List (String × Value)) (environment : Environment),
    (environment.entries ++ bindings).Pairwise (fun a b => a.1 < b.1) →
    (bindings.foldl (fun environment binding => environment.insert binding.1 binding.2)
      environment).entries = environment.entries ++ bindings := by
  intro bindings
  induction bindings with
  | nil => intro environment _; rw [List.foldl_nil, List.append_nil]
  | cons binding bindings ih =>
    intro environment h
    -- As the bindings ascend, each goes to the end of those that are there.
    have hlast : (environment.insert binding.1 binding.2).entries
        = environment.entries ++ [binding] :=
      insertEntry_last _ _ _ fun entry hentry =>
        (List.pairwise_append.mp h).2.2 entry hentry binding List.mem_cons_self
    rw [List.foldl_cons, ih _ (by rw [hlast, List.append_assoc]; exact h), hlast, List.append_assoc]
    rfl

/-! ## Looking up a name -/

theorem lookup_entry (entry : String × Value) (entries : List (String × Value)) (key : String) :
    (entry :: entries).lookup key = if key = entry.1 then some entry.2 else entries.lookup key := by
  rw [List.lookup_cons]
  by_cases hkey : key = entry.1
  · rw [if_pos hkey, beq_iff_eq.mpr hkey]
  · rw [if_neg hkey, beq_eq_false_iff_ne.mpr hkey]

theorem lookup_insertEntry (name key : String) (value : Value) : ∀ entries : List (String × Value),
    (insertEntry name value entries).lookup key = if key = name then some value
      else entries.lookup key := by
  intro entries
  induction entries with
  | nil => exact lookup_entry (name, value) [] key
  | cons entry entries ih =>
    rw [insertEntry]
    by_cases hbefore : name < entry.1
    · rw [if_pos hbefore, lookup_entry]
    · rw [if_neg hbefore]
      by_cases hsame : name = entry.1
      · -- The binding is replaced, and what comes later has other names.
        rw [if_pos hsame, lookup_entry, lookup_entry, hsame]
        by_cases hkey : key = entry.1
        · rw [if_pos hkey, if_pos hkey]
        · rw [if_neg hkey, if_neg hkey, if_neg hkey]
      · rw [if_neg hsame, lookup_entry, lookup_entry, ih]
        by_cases hkey : key = entry.1
        · have hother : key ≠ name := fun heq => hsame (heq.symm.trans hkey)
          rw [if_pos hkey, if_neg hother, if_pos hkey]
        · rw [if_neg hkey, if_neg hkey]

/-- **The last binding of a name wins.** -/
theorem get?_ofList (bindings : List (String × Value)) (key : String) :
    (ofList bindings).get? key = bindings.reverse.lookup key := by
  have hfold : ∀ (bindings : List (String × Value)) (environment : Environment),
      (bindings.foldl (fun environment binding => environment.insert binding.1 binding.2)
        environment).get? key
        = (bindings.reverse.lookup key).or (environment.get? key) := by
    intro bindings
    induction bindings with
    | nil => exact fun environment => rfl
    | cons binding bindings ih =>
      intro environment
      have hinsert : (environment.insert binding.1 binding.2).get? key
          = ([binding].lookup key).or (environment.get? key) := by
        show (insertEntry binding.1 binding.2 environment.entries).lookup key = _
        rw [lookup_insertEntry, lookup_entry]
        by_cases hkey : key = binding.1
        · rw [if_pos hkey, if_pos hkey]
          rfl
        · rw [if_neg hkey, if_neg hkey]
          rfl
      rw [List.foldl_cons, ih, hinsert, List.reverse_cons, List.lookup_append, Option.or_assoc]
  exact (hfold bindings empty).trans (Option.or_none)

/-- What stands in front of the last binding of a name does not count. -/
theorem get?_ofList_last {front back : List (String × Value)} {key : String} {value : Value}
    (h : key ∉ back.map Prod.fst) :
    (ofList (front ++ (key, value) :: back)).get? key = some value := by
  rw [get?_ofList, List.lookup_eq_some_iff]
  refine ⟨back.reverse, front.reverse, by simp, ?_⟩
  intro binding hbinding
  rw [bne_iff_ne]
  rintro rfl
  exact h (List.mem_map_of_mem (List.mem_reverse.mp hbinding))

/-- A name is bound just when there is a value for it. -/
theorem mem_names_iff {entries : List (String × Value)} {key : String} :
    key ∈ entries.map Prod.fst ↔ (entries.lookup key).isSome = true := by
  rw [List.lookup_isSome_iff, List.mem_map]
  refine exists_congr fun entry => and_congr_right fun _ => ?_
  rw [beq_iff_eq]
  exact eq_comm

/-- **The names are those of the bindings**, however often they come. -/
theorem mem_names_ofList {bindings : List (String × Value)} {key : String} :
    key ∈ (ofList bindings).entries.map Prod.fst ↔ key ∈ bindings.map Prod.fst := by
  have hget : (ofList bindings).entries.lookup key = bindings.reverse.lookup key :=
    get?_ofList bindings key
  rw [mem_names_iff, hget, ← mem_names_iff, List.map_reverse, List.mem_reverse]

theorem get?_ofList_absent {bindings : List (String × Value)} {key : String}
    (h : key ∉ bindings.map Prod.fst) : (ofList bindings).get? key = none := by
  rw [← Option.not_isSome_iff_eq_none]
  exact fun hsome => h (mem_names_ofList.mp (mem_names_iff.mpr hsome))

/-- **Exactly these names are bound, each to its value.** -/
structure Holds (environment : Environment) (bindings : List (String × Value)) : Prop where
  names : ∀ key, key ∈ environment.entries.map Prod.fst ↔ key ∈ bindings.map Prod.fst
  values : ∀ binding ∈ bindings, environment.get? binding.1 = some binding.2

/-- Bindings of different names are all held. -/
theorem holds_ofList {bindings : List (String × Value)} (h : (bindings.map Prod.fst).Nodup) :
    (ofList bindings).Holds bindings where
  names _ := mem_names_ofList
  values binding hmem := by
    obtain ⟨front, back, rfl⟩ := List.append_of_mem hmem
    rw [List.map_append, List.map_cons, List.nodup_append] at h
    exact get?_ofList_last (List.nodup_cons.mp h.2.1).1

/-! ## Lists in order -/

/-- **Bindings that ascend are all kept.** -/
theorem ofList_of_ascending {bindings : List (String × Value)}
    (h : bindings.Pairwise (fun a b => a.1 < b.1)) : ofList bindings = ⟨bindings, h⟩ :=
  eq_of_entries (foldl_insert_ascending bindings empty h)

theorem mem_or_mem_of_insertEntry {name : String} {value : Value} {entry : String × Value} :
    ∀ {entries : List (String × Value)}, entry ∈ insertEntry name value entries →
      entry = (name, value) ∨ entry ∈ entries := by
  intro entries
  induction entries with
  | nil => intro h; exact .inl (List.mem_singleton.mp h)
  | cons first entries ih =>
    intro h
    rw [insertEntry] at h
    split at h
    · exact List.mem_cons.mp h
    · split at h
      · exact (List.mem_cons.mp h).imp id (List.mem_cons_of_mem _)
      · rcases List.mem_cons.mp h with rfl | h
        · exact .inr List.mem_cons_self
        · exact (ih h).imp id (List.mem_cons_of_mem _)

/-- Nothing is bound but what was to be bound. -/
theorem mem_of_mem_ofList {bindings : List (String × Value)} {entry : String × Value}
    (h : entry ∈ (ofList bindings).entries) : entry ∈ bindings := by
  have hfold : ∀ (bindings : List (String × Value)) (environment : Environment),
      entry ∈ (bindings.foldl (fun environment binding =>
        environment.insert binding.1 binding.2) environment).entries →
      entry ∈ environment.entries ∨ entry ∈ bindings := by
    intro bindings
    induction bindings with
    | nil => intro environment h; exact .inl h
    | cons binding bindings ih =>
      intro environment h
      rcases ih _ h with h | h
      · rcases mem_or_mem_of_insertEntry h with rfl | h
        · exact .inr List.mem_cons_self
        · exact .inl h
      · exact .inr (List.mem_cons_of_mem _ h)
  exact (hfold bindings empty h).resolve_left (by simp [empty])

/-- The environment with every value changed. -/
def mapValues (change : Value → Value) (environment : Environment) : Environment :=
  ⟨environment.entries.map fun entry => (entry.1, change entry.2),
    List.pairwise_map.mpr environment.ascending⟩

theorem mapValues_eq_self {change : Value → Value} {environment : Environment}
    (h : ∀ entry ∈ environment.entries, change entry.2 = entry.2) :
    environment.mapValues change = environment := by
  have hmap : environment.entries.map (fun entry => (entry.1, change entry.2))
      = environment.entries.map id :=
    List.map_congr_left fun entry hentry => Prod.ext rfl (h entry hentry)
  exact eq_of_entries (hmap.trans (List.map_id _))

end Provisioning.Environment
