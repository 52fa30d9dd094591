import Provisioning.Proofs.Json.Reading
import Provisioning.Proofs.Json.Members

/-!
# The JSON reader passes over a value

A value that nobody asks for is passed over by a loop that keeps the open brackets in a list and
takes one scalar or one opening bracket per round. The loop does not know which value it was called
for, so the statement about a value is one about a loop that is under way: from the begin of the
text of a value on, whatever brackets are open, some rounds lead to where the loop looks for what
comes behind the value. The rounds are counted, as there are as many as the text has characters.
-/

namespace Provisioning.Json

open Provisioning.Number

/-- A document without floating-point numbers. Its integers may have any size, and the names
of its objects may be repeated. -/
inductive Integral : Json → Prop where
  | null : Integral .null
  | bool {value : Bool} : Integral (.bool value)
  | int {value : Int} : Integral (.int value)
  | string {value : String} : Integral (.string value)
  | array {items : List Json} : (∀ item ∈ items, Integral item) → Integral (.array items)
  | object {members : List (String × Json)} :
      (∀ member ∈ members, Integral member.2) → Integral (.object members)

/-! ## Scalars -/

theorem hexFault_ne_ok {α : Type} {place : Place} {rest : List Char} {a : α} :
    hexFault place rest ≠ .ok a := by
  intro h
  unfold hexFault at h
  dsimp only at h
  split at h
  · cases h
  · cases h

/-- **A string that is read is passed over** up to the same place. The converse does not hold: codes
that are no characters are not looked at. -/
theorem skipStringFrom_of_read (text : List Char) (high : Option Nat) (place : Place)
    (rest : List Char) : ∀ result : String × Cursor,
    readStringFrom text high place rest = .ok result →
    skipStringFrom place rest = .ok result.2 := by
  fun_induction readStringFrom text high place rest with
  | case1 => intro result h; cases h
  | case2 => intro result h; exact absurd h hexFault_ne_ok
  | case3 => intro result h; cases h
  -- The code of a character, or of the first half of one.
  | case4 text high place a b c d rest code hcode place' c' hjoin ih =>
    intro result h
    rw [skipStringFrom, hcode]
    exact ih result h
  | case5 text high place a b c d rest code hcode place' high' hjoin ih =>
    intro result h
    rw [skipStringFrom, hcode]
    exact ih result h
  | case6 => intro result h; exact absurd h hexFault_ne_ok
  | case7 => intro result h; cases h
  | case8 => intro result h; cases h
  -- One letter behind a backslash.
  | case9 text high place letter rest hcode hu hhigh c hletter ih =>
    intro result h
    rw [skipStringFrom, if_neg hu, hletter]
    · exact ih result h
    · exact hcode
  | case10 => intro result h; cases h
  | case11 => intro result h; cases h
  -- The quote at the end.
  | case12 text high place c rest hcode hletter hhigh hquote =>
    intro result h
    cases h
    rw [skipStringFrom, if_pos hquote]
    · exact hcode
    · exact hletter
  | case13 => intro result h; cases h
  | case14 => intro result h; cases h
  -- A character that stands for itself.
  | case15 text high place c rest hcode hletter hhigh hquote hslash hcontrol ih =>
    intro result h
    rw [skipStringFrom, if_neg hquote, if_neg hslash, if_neg hcontrol]
    · exact ih result h
    · exact hcode
    · exact hletter

theorem skipString_written (s : String) (rest : List Char) (place : Place) :
    ∃ place', skipString ⟨s.toList.flatMap escapeChar ++ '"' :: rest, place⟩
      = .ok ⟨rest, place'⟩ := by
  obtain ⟨place', h⟩ := readString_written s rest place
  exact ⟨place', skipStringFrom_of_read [] none place _ _ h⟩

/-- No digit follows a value. -/
theorem takeDigits_of_ends {rest : List Char} (h : EndsValue rest) (place : Place) :
    (Cursor.mk rest place).takeDigits.1 = [] := by
  unfold Cursor.takeDigits
  dsimp only
  cases rest with
  | nil => rfl
  | cons c rest => rw [List.takeWhile_cons_of_neg (by simp [h.not_isDigit])]

theorem skipWhole_decimal (n : Nat) {rest : List Char} (h : EndsValue rest) (place : Place) :
    ∃ place', skipWhole ⟨decimal n ++ rest, place⟩ = .ok ⟨rest, place'⟩ := by
  obtain ⟨c, digits, hd, hc, -⟩ := decimal_begins n
  rw [hd]
  unfold skipWhole
  dsimp only [List.cons_append]
  rw [if_neg (by simp [hc])]
  by_cases hzero : c = '0'
  · obtain ⟨-, rfl⟩ := eq_zero_of_decimal (hzero ▸ hd)
    refine ⟨place.after c, ?_⟩
    rw [if_pos (by simp [hzero])]
    unfold Cursor.past
    rw [List.nil_append, takeDigits_of_ends h]
    rfl
  · refine ⟨⟨place.line, place.column + (decimal n).length⟩, ?_⟩
    rw [if_neg (by simp [hzero]), ← List.cons_append, ← hd, takeDigits_decimal h]

/-- An integer is passed over whatever its size. -/
theorem skipNumber_signedDecimal (i : Int) {rest : List Char} (h : EndsValue rest) (place : Place) :
    ∃ place', skipNumber ⟨signedDecimal i ++ rest, place⟩ = .ok ⟨rest, place'⟩ := by
  -- Behind the digits comes neither a point nor an exponent.
  have hends : ∀ place : Place,
      (skipFraction ⟨rest, place⟩ >>= skipExponent) = .ok ⟨rest, place⟩ := by
    intro place
    cases rest with
    | nil => rfl
    | cons c rest =>
      rcases h with rfl | rfl | rfl <;> rfl
  unfold signedDecimal
  by_cases hneg : i < 0
  · obtain ⟨place', hwhole⟩ := skipWhole_decimal i.natAbs h (place.after '-')
    refine ⟨place', ?_⟩
    rw [if_pos hneg]
    show (skipWhole ⟨decimal i.natAbs ++ rest, place.after '-'⟩ >>= _) = _
    rw [hwhole]
    exact hends place'
  · obtain ⟨place', hwhole⟩ := skipWhole_decimal i.natAbs h place
    refine ⟨place', ?_⟩
    rw [if_neg hneg]
    obtain ⟨c, digits, hd, -, hminus⟩ := decimal_begins i.natAbs
    rw [hd, List.cons_append] at hwhole ⊢
    unfold skipNumber
    dsimp only
    split
    · rename_i heq
      exact absurd (List.cons.inj heq).1 hminus
    · rw [hwhole]
      exact hends place'

/-! ## The loop -/

/-- The loop behind a value. -/
def skipBehind (fuel : Nat) (outer : List Bracket) (cursor : Cursor) : Except ReadFault Cursor := do
  match ← skipToValue outer cursor with
  | (none, cursor) => return cursor
  | (some outer, cursor) => skipValues fuel outer cursor

/-- **From the begin of a value the loop comes to what is behind it**, in no more rounds than the
value has characters. -/
structure PassedOver (json : Json) : Prop where
  begins : BeginsValue json.write
  passes : ∀ (outer : List Bracket) (rest : List Char) (place : Place), EndsValue rest →
    ∃ (rounds : Nat) (place' : Place), rounds ≤ json.write.length ∧
      ∀ fuel, skipValues (fuel + rounds) outer ⟨json.write ++ rest, place⟩
        = skipBehind fuel outer ⟨rest, place'⟩

theorem length_of_begins {text : List Char} (h : BeginsValue text) : 1 ≤ text.length := by
  cases text with
  | nil => exact absurd h (by simp [BeginsValue])
  | cons c text => exact Nat.le_add_left 1 _

/-- One round is enough for a scalar. -/
theorem passedOver_of_step {json : Json} (hbegins : BeginsValue json.write)
    (h : ∀ (outer : List Bracket) (rest : List Char) (place : Place), EndsValue rest →
      ∃ place', skipStep outer ⟨json.write ++ rest, place⟩ = skipToValue outer ⟨rest, place'⟩) :
    PassedOver json := by
  refine ⟨hbegins, ?_⟩
  intro outer rest place hrest
  obtain ⟨place', hstep⟩ := h outer rest place hrest
  refine ⟨1, place', length_of_begins hbegins, ?_⟩
  intro fuel
  rw [skipValues, hstep]
  rfl

/-- A word is known by its first letter. -/
theorem passedOver_word {json : Json} {c : Char} {word : List Char}
    (hbegins : BeginsValue json.write) (hwrite : json.write = c :: word)
    (hstep : ∀ (outer : List Bracket) (rest : List Char) (place : Place),
      skipStep outer ⟨c :: rest, place⟩
        = (readWord word ⟨rest, place.after c⟩ >>= skipToValue outer)) :
    PassedOver json := by
  refine passedOver_of_step hbegins ?_
  intro outer rest place _
  obtain ⟨place', h⟩ := readWord_append word rest (place.after c)
  refine ⟨place', ?_⟩
  rw [hwrite, List.cons_append, hstep, h]
  rfl

theorem passedOver_null : PassedOver .null :=
  passedOver_word (by rw [write]; exact ⟨rfl, by decide, by decide⟩) (by rw [write])
    fun _ _ _ => rfl

theorem passedOver_bool (value : Bool) : PassedOver (.bool value) := by
  cases value with
  | true => exact passedOver_word (Reader.beginsValue_write rfl) (by rw [write]) fun _ _ _ => rfl
  | false => exact passedOver_word (Reader.beginsValue_write rfl) (by rw [write]) fun _ _ _ => rfl

theorem passedOver_string (value : String) : PassedOver (.string value) := by
  refine passedOver_of_step (Reader.beginsValue_write rfl) ?_
  intro outer rest place _
  obtain ⟨place', h⟩ := skipString_written value rest (place.after '"')
  refine ⟨place', ?_⟩
  rw [write, Reader.writeString_append]
  show (skipString ⟨_, place.after '"'⟩ >>= skipToValue outer) = _
  exact h ▸ rfl

theorem passedOver_int (value : Int) : PassedOver (.int value) := by
  obtain ⟨c, text, htext, hstart, hspace, hn, ht, hf⟩ := Cursor.signedDecimal_starts value
  refine passedOver_of_step (Reader.beginsValue_write rfl) ?_
  intro outer rest place hrest
  obtain ⟨place', h⟩ := skipNumber_signedDecimal value hrest place
  refine ⟨place', ?_⟩
  rw [write]
  rw [htext, List.cons_append] at h ⊢
  unfold skipStep
  rw [Cursor.skipSpace_cons hspace]
  dsimp only
  rw [if_neg (by simpa using hn), if_neg (by simpa using ht), if_neg (by simpa using hf),
    if_pos hstart, h]
  rfl

/-! ## Arrays and objects -/

/-- The parts of an array or object that stand behind a first one, each with what stands in front
of its value, and the end. -/
def writeParts (bracket : Bracket) : List (List Char × Json) → List Char
  | [] => [bracket.close]
  | (label, json) :: parts => ',' :: (label ++ (json.write ++ writeParts bracket parts))

theorem writeItems_eq_parts : ∀ items : List Json,
    writeItems items = writeParts .array (items.map fun item => ([], item)) := by
  intro items
  induction items with
  | nil => rw [writeItems]; rfl
  | cons item items ih => rw [writeItems, ih]; rfl

theorem writeMembers_eq_parts : ∀ members : List (String × Json), writeMembers members
    = writeParts .object (members.map fun member => (writeString member.1 ++ [':'], member.2)) := by
  intro members
  induction members with
  | nil => rw [writeMembers]; rfl
  | cons member members ih =>
    obtain ⟨name, json⟩ := member
    rw [writeMembers, ih, List.map_cons, writeParts, List.append_assoc]
    rfl

/-- A part of an array or object that the loop passes over. -/
structure PartPassed (bracket : Bracket) (part : List Char × Json) : Prop where
  begins : BeginsValue (part.1 ++ part.2.write)
  label : ∀ (rest : List Char) (place : Place),
    ∃ place', skipName bracket ⟨part.1 ++ rest, place⟩ = .ok ⟨rest, place'⟩
  value : PassedOver part.2

theorem partPassed_item {item : Json} (h : PassedOver item) : PartPassed .array ([], item) :=
  ⟨h.begins, fun _ place => ⟨place, rfl⟩, h⟩

theorem partPassed_member (name : String) {json : Json} (h : PassedOver json) :
    PartPassed .object (writeString name ++ [':'], json) := by
  refine ⟨⟨rfl, by decide, by decide⟩, ?_, h⟩
  intro rest place
  obtain ⟨place', hname⟩ := skipString_written name (':' :: rest) (place.after '"')
  refine ⟨place'.after ':', ?_⟩
  rw [List.append_assoc, Reader.writeString_append]
  show (skipString ⟨_, place.after '"'⟩ >>= readColon) = _
  rw [List.singleton_append, hname]
  exact Reader.readColon_cons rest place'

theorem endsValue_writeParts (bracket : Bracket) (parts : List (List Char × Json))
    (rest : List Char) : EndsValue (writeParts bracket parts ++ rest) := by
  cases parts with
  | nil =>
    cases bracket with
    | array => exact .inr (.inl rfl)
    | object => exact .inr (.inr rfl)
  | cons part parts => exact .inl rfl

/-- The loop behind a part: over the parts that are left, and out of the bracket. -/
theorem skipBehind_parts (bracket : Bracket) : ∀ parts : List (List Char × Json),
    (∀ part ∈ parts, PartPassed bracket part) →
    ∀ (outer : List Bracket) (rest : List Char) (place : Place),
    ∃ (rounds : Nat) (place' : Place), rounds ≤ (writeParts bracket parts).length ∧
      ∀ fuel, skipBehind (fuel + rounds)
        (bracket :: outer) ⟨writeParts bracket parts ++ rest, place⟩
        = skipBehind fuel outer ⟨rest, place'⟩ := by
  intro parts
  induction parts with
  | nil =>
    intro _ outer rest place
    refine ⟨0, place.after bracket.close, Nat.zero_le _, ?_⟩
    intro fuel
    cases bracket with
    | array => rfl
    | object => rfl
  | cons part parts ih =>
    intro h outer rest place
    obtain ⟨label, json⟩ := part
    obtain ⟨hpart, hparts⟩ := List.forall_mem_cons.mp h
    obtain ⟨place₁, h₁⟩ :=
      hpart.label (json.write ++ (writeParts bracket parts ++ rest)) (place.after ',')
    obtain ⟨rounds₂, place₂, hle₂, h₂⟩ := hpart.value.passes (bracket :: outer)
      (writeParts bracket parts ++ rest) place₁ (endsValue_writeParts bracket parts rest)
    obtain ⟨rounds₃, place₃, hle₃, h₃⟩ := ih hparts outer rest place₂
    refine ⟨rounds₃ + rounds₂, place₃, ?_, ?_⟩
    · rw [writeParts, List.length_cons, List.length_append, List.length_append]
      dsimp only at hle₂
      omega
    · intro fuel
      -- A comma and a label lead to the value, and the value to the parts that are left.
      have hcomma : skipToValue (bracket :: outer)
          ⟨',' :: (label ++ (json.write ++ (writeParts bracket parts ++ rest))), place⟩
          = .ok (some (bracket :: outer),
            ⟨json.write ++ (writeParts bracket parts ++ rest), place₁⟩) := by
        show (skipName bracket ⟨_, place.after ','⟩ >>= _) = _
        rw [h₁]
        rfl
      rw [← h₃, ← h₂, Nat.add_assoc, writeParts, List.cons_append, List.append_assoc,
        List.append_assoc]
      conv_lhs => unfold skipBehind
      rw [hcomma]
      rfl

/-- What an array or object begins with leads to its first value. -/
theorem skipOpening_part {bracket : Bracket} {part : List Char × Json}
    (h : PartPassed bracket part) (outer : List Bracket) (rest : List Char) (place : Place) :
    ∃ place', skipOpening bracket outer ⟨part.1 ++ part.2.write ++ rest, place⟩
      = .ok (some (bracket :: outer), ⟨part.2.write ++ rest, place'⟩) := by
  obtain ⟨place', hlabel⟩ := h.label (part.2.write ++ rest) place
  refine ⟨place', ?_⟩
  have hspace := Cursor.skipSpace_of_begins h.begins rest place
  have hbegins := h.begins
  unfold skipOpening
  rw [hspace]
  rw [← List.append_assoc] at hlabel
  cases htext : part.1 ++ part.2.write with
  | nil => exact absurd (htext ▸ hbegins) (by simp [BeginsValue])
  | cons c text =>
    rw [htext] at hbegins hlabel
    have hclose : c ≠ bracket.close := by
      cases bracket with
      | array => exact hbegins.2.1
      | object => exact hbegins.2.2
    dsimp only [List.cons_append]
    rw [if_neg (by simpa using hclose)]
    rw [List.cons_append] at hlabel
    rw [hlabel]
    rfl

/-- A bracket with parts in it is passed over. -/
theorem passedOver_parts (bracket : Bracket) (opening : Char) {json : Json}
    (part : List Char × Json) {parts : List (List Char × Json)}
    (hopening : BeginsValue [opening])
    (hwrite : json.write = opening :: (part.1 ++ part.2.write ++ writeParts bracket parts))
    (hstep : ∀ (outer : List Bracket) (rest : List Char) (place : Place),
      skipStep outer ⟨opening :: rest, place⟩
        = skipOpening bracket outer ⟨rest, place.after opening⟩)
    (h : ∀ part' ∈ part :: parts, PartPassed bracket part') : PassedOver json := by
  obtain ⟨hpart, hparts⟩ := List.forall_mem_cons.mp h
  refine ⟨by rw [hwrite]; exact hopening, ?_⟩
  intro outer rest place _
  obtain ⟨place₁, h₁⟩ := skipOpening_part hpart outer (writeParts bracket parts ++ rest)
    (place.after opening)
  obtain ⟨rounds₂, place₂, hle₂, h₂⟩ := hpart.value.passes (bracket :: outer)
    (writeParts bracket parts ++ rest) place₁ (endsValue_writeParts bracket parts rest)
  obtain ⟨rounds₃, place₃, hle₃, h₃⟩ := skipBehind_parts bracket parts hparts outer rest place₂
  refine ⟨rounds₃ + rounds₂ + 1, place₃, ?_, ?_⟩
  · rw [hwrite, List.length_cons, List.length_append, List.length_append]
    omega
  · intro fuel
    rw [← h₃, ← h₂, hwrite, List.cons_append, List.append_assoc, ← Nat.add_assoc, ← Nat.add_assoc,
      skipValues, hstep, h₁]
    rfl

theorem passedOver_array {items : List Json} (h : ∀ item ∈ items, PassedOver item) :
    PassedOver (.array items) := by
  cases items with
  | nil =>
    refine passedOver_of_step (Reader.beginsValue_write rfl) ?_
    intro outer rest place _
    exact ⟨(place.after '[').after ']', by rw [write]; rfl⟩
  | cons item items =>
    have hwrite : (Json.array (item :: items)).write = '[' :: ([] ++ item.write ++
        writeParts .array (items.map fun item => ([], item))) := by
      rw [write, writeItems_eq_parts, List.nil_append]
    refine passedOver_parts .array '[' ([], item) ⟨rfl, by decide, by decide⟩ hwrite
      (fun _ _ _ => rfl) ?_
    intro part hpart
    obtain ⟨item', hitem, rfl⟩ : ∃ item' ∈ item :: items, ([], item') = part :=
      List.mem_map.mp hpart
    exact partPassed_item (h item' hitem)

theorem passedOver_object {members : List (String × Json)}
    (h : ∀ member ∈ members, PassedOver member.2) : PassedOver (.object members) := by
  cases members with
  | nil =>
    refine passedOver_of_step (Reader.beginsValue_write rfl) ?_
    intro outer rest place _
    exact ⟨(place.after '\x7b').after '\x7d', by rw [write]; rfl⟩
  | cons member members =>
    obtain ⟨name, json⟩ := member
    have hwrite : (Json.object ((name, json) :: members)).write
        = '\x7b' :: (writeString name ++ [':'] ++ json.write ++
          writeParts .object (members.map fun member =>
            (writeString member.1 ++ [':'], member.2))) := by
      rw [write, writeMembers_eq_parts, List.append_assoc, List.append_assoc]
      rfl
    refine passedOver_parts .object '\x7b' (writeString name ++ [':'], json)
      ⟨rfl, by decide, by decide⟩ hwrite (fun _ _ _ => rfl) ?_
    intro part hpart
    obtain ⟨member, hmember, rfl⟩ : ∃ member ∈ (name, json) :: members,
        (writeString member.1 ++ [':'], member.2) = part := List.mem_map.mp hpart
    exact partPassed_member member.1 (h member hmember)

/-- **A document without floating-point numbers is passed over**, however deep it is. -/
theorem passedOver_of_integral {json : Json} (h : json.Integral) : PassedOver json := by
  induction h with
  | null => exact passedOver_null
  | bool => exact passedOver_bool _
  | int => exact passedOver_int _
  | string => exact passedOver_string _
  | array _ ih => exact passedOver_array ih
  | object _ ih => exact passedOver_object ih

theorem skipValue_write {json : Json} (h : json.Integral) {rest : List Char}
    (hrest : EndsValue rest)
    (place : Place) : ∃ place', skipValue ⟨json.write ++ rest, place⟩ = .ok ⟨rest, place'⟩ := by
  obtain ⟨rounds, place', hle, hpass⟩ := (passedOver_of_integral h).passes [] rest place hrest
  refine ⟨place', ?_⟩
  have hfuel : (json.write ++ rest).length + 1
      = ((json.write ++ rest).length + 1 - rounds) + rounds := by
    rw [List.length_append]
    omega
  unfold skipValue
  rw [hfuel, hpass]
  rfl

end Provisioning.Json
