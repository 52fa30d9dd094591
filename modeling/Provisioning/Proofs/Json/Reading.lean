import Provisioning.Json.Reader
import Provisioning.Outcome
import Provisioning.Proofs.Json.Scalar
import Provisioning.Proofs.Source.Reading

/-!
# The JSON reader reads what is written

Each way of reading takes the text of a document and stops right behind it, whatever follows
as long as it cannot go on the last number: this is `Takes`. The loop over the items of an
array is followed one item at a time, and its fuel is enough because every item has at least one
character.
-/

namespace Provisioning.Json

/-- A value begins with a character that ends no collection and is no white space. -/
def BeginsValue : List Char → Prop
  | [] => False
  | c :: _ => Cursor.isSpace c = false ∧ c ≠ ']' ∧ c ≠ '\x7d'

namespace Cursor

theorem skipSpace_of_begins {text : List Char} (h : BeginsValue text) (rest : List Char)
    (place : Place) : skipSpace ⟨text ++ rest, place⟩ = ⟨text ++ rest, place⟩ := by
  cases text with
  | nil => exact absurd h (by simp [BeginsValue])
  | cons c text =>
    unfold skipSpace
    dsimp only [List.cons_append]
    rw [spaceOf, if_neg (by simp [h.1])]

theorem skipSpace_cons {c : Char} (h : isSpace c = false) (rest : List Char) (place : Place) :
    skipSpace ⟨c :: rest, place⟩ = ⟨c :: rest, place⟩ := by
  unfold skipSpace
  dsimp only
  rw [spaceOf, if_neg (by simp [h])]

theorem isSpace_of_isDigit {c : Char} (h : c.isDigit = true) : isSpace c = false := by
  have hne : ∀ d : Char, d.isDigit = false → (c == d) = false := by
    intro d hd
    rw [beq_eq_false_iff_ne]
    rintro rfl
    rw [h] at hd
    exact absurd hd (by decide)
  unfold isSpace
  rw [hne ' ' (by decide), hne '\n' (by decide), hne '\t' (by decide), hne '\r' (by decide)]
  rfl

/-- What an integer begins with is told apart from white space and from the words. -/
theorem signedDecimal_starts (i : Int) :
    ∃ c text, Number.signedDecimal i = c :: text ∧ (c == '-' || c.isDigit) = true ∧
      isSpace c = false ∧ c ≠ 'n' ∧ c ≠ 't' ∧ c ≠ 'f' := by
  obtain ⟨c, text, htext, hc⟩ := Number.signedDecimal_begins i
  refine ⟨c, text, htext, ?_⟩
  rcases hc with rfl | hdigit
  · decide
  · refine ⟨by rw [hdigit, Bool.or_true], isSpace_of_isDigit hdigit, ?_, ?_, ?_⟩
    · rintro rfl; exact absurd hdigit (by decide)
    · rintro rfl; exact absurd hdigit (by decide)
    · rintro rfl; exact absurd hdigit (by decide)

end Cursor

namespace Reader

variable {α σ : Type}

/-- **A reader takes the text of a document as `a`** and goes on behind it. -/
structure Takes (read : Reader α) (depth : Nat) (json : Json) (a : α) : Prop where
  begins : BeginsValue json.write
  reads : ∀ (rest : List Char) (place : Place), EndsValue rest →
    ∃ place', read depth ⟨json.write ++ rest, place⟩ = .ok (a, ⟨rest, place'⟩)

/-! ## Scalars -/

/-- What is not null begins with another letter than null does. -/
theorem write_begins {json : Json} (h : json.mayBeNull = false) :
    ∃ c text, json.write = c :: text ∧ c ≠ 'n' ∧ Cursor.isSpace c = false ∧
      c ≠ ']' ∧ c ≠ '\x7d' := by
  cases json with
  | null => exact absurd h (by decide)
  | float value => exact absurd h (by simp [mayBeNull])
  | bool value =>
    cases value with
    | false => exact ⟨'f', _, by rw [write], by decide⟩
    | true => exact ⟨'t', _, by rw [write], by decide⟩
  | string value => exact ⟨'"', _, by rw [write]; rfl, by decide⟩
  | array items =>
    cases items with
    | nil => exact ⟨'[', _, by rw [write], by decide⟩
    | cons item items => exact ⟨'[', _, by rw [write], by decide⟩
  | object members =>
    cases members with
    | nil => exact ⟨'\x7b', _, by rw [write], by decide⟩
    | cons member members => exact ⟨'\x7b', _, by rw [write], by decide⟩
  -- A sign or a digit; all the other characters are told apart from these.
  | int value =>
    obtain ⟨c, text, htext, hc⟩ := Number.signedDecimal_begins value
    refine ⟨c, text, by rw [write, htext], ?_⟩
    rcases hc with rfl | hdigit
    · decide
    · refine ⟨?_, ?_, ?_, ?_⟩
      · rintro rfl; exact absurd hdigit (by decide)
      · exact Cursor.isSpace_of_isDigit hdigit
      · rintro rfl; exact absurd hdigit (by decide)
      · rintro rfl; exact absurd hdigit (by decide)

theorem beginsValue_write {json : Json} (h : json.mayBeNull = false) : BeginsValue json.write := by
  obtain ⟨c, text, htext, -, hspace, hbracket, hbrace⟩ := write_begins h
  rw [htext]
  exact ⟨hspace, hbracket, hbrace⟩

theorem takes_text (expected : Expected) (depth : Nat) (value : String) :
    Takes (textAs expected) depth (.string value) value := by
  refine ⟨beginsValue_write rfl, ?_⟩
  intro rest place _
  obtain ⟨place', h⟩ := readString_written value rest (place.after '"')
  refine ⟨place', ?_⟩
  rw [write, writeString, List.cons_append, List.append_assoc]
  unfold textAs
  rw [Cursor.skipSpace_cons (by decide)]
  exact h

theorem takes_flag (depth : Nat) (value : Bool) : Takes flag depth (.bool value) value := by
  refine ⟨beginsValue_write rfl, ?_⟩
  intro rest place _
  cases value with
  | true =>
    obtain ⟨place', h⟩ := readWord_append ['r', 'u', 'e'] rest (place.after 't')
    refine ⟨place', ?_⟩
    rw [write, List.cons_append]
    unfold flag
    rw [Cursor.skipSpace_cons (by decide)]
    show (readWord _ ⟨_, place.after 't'⟩ >>= _) = _
    rw [h]
    rfl
  | false =>
    obtain ⟨place', h⟩ := readWord_append ['a', 'l', 's', 'e'] rest (place.after 'f')
    refine ⟨place', ?_⟩
    rw [write, List.cons_append]
    unfold flag
    rw [Cursor.skipSpace_cons (by decide)]
    show (readWord _ ⟨_, place.after 'f'⟩ >>= _) = _
    rw [h]
    rfl

theorem takes_natural (depth : Nat) (value : UInt64) :
    Takes natural depth (.int value.toNat) value := by
  refine ⟨beginsValue_write rfl, ?_⟩
  intro rest place hrest
  have hbound : value.toNat < 2 ^ 64 := value.toNat_lt
  obtain ⟨place', h⟩ := readNumber_signedDecimal (i := value.toNat) (by omega)
    (by omega) hrest place
  refine ⟨place', ?_⟩
  obtain ⟨c, text, htext, hstart, hspace, -⟩ := Cursor.signedDecimal_starts (value.toNat : Int)
  rw [write]
  rw [htext] at h ⊢
  unfold natural
  rw [List.cons_append, Cursor.skipSpace_cons hspace]
  dsimp only
  rw [if_pos hstart]
  rw [List.cons_append] at h
  rw [h, Outcome.ok_bind]
  show Except.ok (value.toNat.toUInt64, _) = _
  rw [show value.toNat.toUInt64 = value from UInt64.ofNat_toNat]

theorem takes_map {β : Type} {read : Reader α} {depth : Nat} {json : Json} {a : α} (f : α → β)
    (h : Takes read depth json a) : Takes (f <$> read) depth json (f a) := by
  refine ⟨h.begins, ?_⟩
  intro rest place hrest
  obtain ⟨place', hread⟩ := h.reads rest place hrest
  refine ⟨place', ?_⟩
  show (read depth _ >>= _) = _
  rw [hread]
  rfl

theorem takes_optional {read : Reader α} {depth : Nat} {json : Json} {a : α}
    (hnull : json.mayBeNull = false) (h : Takes read depth json a) :
    Takes (optional read) depth json (some a) := by
  refine ⟨h.begins, ?_⟩
  intro rest place hrest
  obtain ⟨c, text, htext, hn, hspace, -⟩ := write_begins hnull
  obtain ⟨place', hread⟩ := h.reads rest place hrest
  refine ⟨place', ?_⟩
  rw [htext, List.cons_append] at hread ⊢
  unfold optional
  rw [Cursor.skipSpace_cons hspace]
  dsimp only
  split
  · rename_i heq
    exact absurd (List.cons.inj heq).1 hn
  · rw [hread]
    rfl

theorem takes_choice {known : List (String × α)} {name : String} {a : α} (depth : Nat)
    (h : known.lookup name = some a) : Takes (choice known) depth (.string name) a := by
  refine ⟨beginsValue_write rfl, ?_⟩
  intro rest place hrest
  obtain ⟨place', hread⟩ := (takes_text .variantName depth name).reads rest place hrest
  refine ⟨place', ?_⟩
  rw [write, writeString, List.cons_append] at hread ⊢
  unfold choice
  rw [Cursor.skipSpace_cons (by decide)]
  dsimp only
  unfold chosen
  rw [hread, Outcome.ok_bind]
  dsimp only
  rw [h]
  rfl

/-! ## Arrays -/

theorem nextItem_comma {text : List Char} (h : BeginsValue text) (rest : List Char)
    (place : Place) :
    ∃ place', nextItem false ⟨',' :: (text ++ rest), place⟩
      = .ok (true, ⟨text ++ rest, place'⟩) := by
  refine ⟨place.after ',', ?_⟩
  unfold nextItem
  rw [Cursor.skipSpace_cons (by decide)]
  dsimp only
  rw [if_neg (by decide), if_neg (by decide), if_pos (by decide)]
  unfold Cursor.past
  rw [Cursor.skipSpace_of_begins h]
  cases text with
  | nil => exact absurd h (by simp [BeginsValue])
  | cons c text =>
    dsimp only [List.cons_append]
    rw [if_neg (by simpa using h.2.1)]

theorem nextItem_first {text : List Char} (h : BeginsValue text) (rest : List Char)
    (place : Place) :
    nextItem true ⟨text ++ rest, place⟩ = .ok (true, ⟨text ++ rest, place⟩) := by
  unfold nextItem
  rw [Cursor.skipSpace_of_begins h]
  cases text with
  | nil => exact absurd h (by simp [BeginsValue])
  | cons c text =>
    dsimp only [List.cons_append]
    rw [if_neg (by simpa using h.2.1), if_pos rfl]

theorem nextItem_end (first : Bool) (rest : List Char) (place : Place) :
    nextItem first ⟨']' :: rest, place⟩ = .ok (false, ⟨']' :: rest, place⟩) := by
  unfold nextItem
  rw [Cursor.skipSpace_cons (by decide)]
  rfl

theorem writeItems_length : ∀ items : List Json, items.length < (writeItems items).length := by
  intro items
  induction items with
  | nil => exact Nat.zero_lt_one
  | cons item items ih =>
    rw [writeItems, List.length_cons, List.length_cons, List.length_append]
    omega

theorem endsValue_writeItems (items : List Json) (rest : List Char) :
    EndsValue (writeItems items ++ rest) := by
  cases items with
  | nil => exact .inr (.inl rfl)
  | cons item items => exact .inl rfl

/-- The items behind the first one. -/
theorem readItems_writeItems {read : Reader α} {depth : Nat} {items : List Json} {as : List α}
    (h : List.Forall₂ (Takes read depth) items as) : ∀ (fuel : Nat) (rest : List Char)
      (place : Place), items.length < fuel →
    ∃ place', readItems read depth fuel false ⟨writeItems items ++ rest, place⟩
      = .ok (as, ⟨']' :: rest, place'⟩) := by
  induction h with
  | nil =>
    intro fuel rest place hfuel
    cases fuel with
    | zero => exact absurd hfuel (by simp)
    | succ fuel =>
      refine ⟨place, ?_⟩
      rw [readItems, writeItems, List.singleton_append, nextItem_end]
      rfl
  | @cons item a items as hitem _ ih =>
    intro fuel rest place hfuel
    cases fuel with
    | zero => exact absurd hfuel (by simp)
    | succ fuel =>
      -- A comma, an item, and what the induction says of the rest; each step costs one
      -- unit of fuel.
      obtain ⟨place₁, h₁⟩ := nextItem_comma hitem.begins (writeItems items ++ rest) place
      obtain ⟨place₂, h₂⟩ :=
        hitem.reads (writeItems items ++ rest) place₁ (endsValue_writeItems items rest)
      obtain ⟨place₃, h₃⟩ := ih fuel rest place₂ (Nat.lt_of_succ_lt_succ hfuel)
      refine ⟨place₃, ?_⟩
      rw [readItems, writeItems, List.cons_append, List.append_assoc, h₁]
      rw [Outcome.ok_bind]
      dsimp only
      rw [h₂, Outcome.ok_bind]
      dsimp only
      rw [h₃]
      rfl

/-- What stands between the brackets of an array, and the closing one. -/
theorem readItems_array {read : Reader α} {depth : Nat} {items : List Json} {as : List α}
    (h : List.Forall₂ (Takes read depth) items as) (rest : List Char) (place : Place) :
    ∃ inner place', write (.array items) = '[' :: inner ∧
      readItems read depth ((inner ++ rest).length + 1) true ⟨inner ++ rest, place⟩
        = .ok (as, ⟨']' :: rest, place'⟩) := by
  cases h with
  | nil =>
    refine ⟨[']'], place, by rw [write], ?_⟩
    rw [readItems, List.singleton_append, nextItem_end]
    rfl
  | @cons item a items as hitem hitems =>
    obtain ⟨place₁, h₁⟩ :=
      hitem.reads (writeItems items ++ rest) place (endsValue_writeItems items rest)
    -- The fuel is the length of the text, and no text is shorter than the number of its items.
    have hlength := writeItems_length items
    obtain ⟨place₂, h₂⟩ := readItems_writeItems hitems
      ((write item ++ writeItems items ++ rest).length) rest place₁
      (by rw [List.length_append, List.length_append]; omega)
    refine ⟨write item ++ writeItems items, place₂, by rw [write], ?_⟩
    rw [readItems, List.append_assoc, nextItem_first hitem.begins]
    rw [Outcome.ok_bind]
    dsimp only
    rw [h₁, Outcome.ok_bind]
    dsimp only
    rw [← List.append_assoc, h₂]
    rfl

/-- An array is entered, read and left. -/
theorem inArray_of_read {depth : Nat} {inner rest : List Char} {place : Place} {a : α}
    {read : Nat → Cursor → Except ReadFault (α × Cursor)} (hdepth : 2 ≤ depth)
    (h : ∃ place', read (depth - 1) ⟨inner ++ rest, place.after '['⟩
      = .ok (a, ⟨']' :: rest, place'⟩)) :
    ∃ place', inArray depth ⟨'[' :: (inner ++ rest), place⟩ (inner ++ rest) read
      = .ok (a, ⟨rest, place'⟩) := by
  obtain ⟨place', h⟩ := h
  refine ⟨place'.after ']', ?_⟩
  have hend : endArray ⟨']' :: rest, place'⟩ = .ok ⟨rest, place'.after ']'⟩ := by
    unfold endArray
    rw [Cursor.skipSpace_cons (by decide)]
    rfl
  unfold inArray enter
  rw [if_pos hdepth]
  show settle leaveArray (read (depth - 1) ⟨inner ++ rest, place.after '['⟩ >>= _) = _
  rw [h, Outcome.ok_bind]
  dsimp only
  rw [hend]
  rfl

theorem takes_list {read : Reader α} {depth : Nat} {items : List Json} {as : List α}
    (hdepth : 2 ≤ depth) (h : List.Forall₂ (Takes read (depth - 1)) items as) :
    Takes (list read) depth (.array items) as := by
  obtain ⟨inner, -, hwrite, -⟩ := readItems_array h [] ⟨0, 0⟩
  refine ⟨by rw [hwrite]; exact ⟨rfl, by decide, by decide⟩, ?_⟩
  intro rest place _
  obtain ⟨inner, place', hwrite, hread⟩ := readItems_array h rest (place.after '[')
  rw [hwrite, List.cons_append]
  unfold list
  rw [Cursor.skipSpace_cons (by decide)]
  exact inArray_of_read hdepth ⟨place', hread⟩

end Reader

end Provisioning.Json
