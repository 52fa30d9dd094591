import Provisioning.Json.Skip
import Provisioning.Source

/-!
# Reading typed values from a JSON text

A reader takes how deep it may still go and a cursor, and answers with the cursor
behind the value. Where a value does not fit its type, the place that is reported is
where the reading of the innermost array, object or scalar around it stood.

The instance `Source Reader` at the end is the whole of what types need.
-/

namespace Provisioning.Json

/-- Reads a value: how many levels are left, and where it begins. -/
def Reader (α : Type) := Nat → Cursor → Except ReadFault (α × Cursor)

namespace Reader

variable {α σ : Type}

/-! ## Places and mismatches -/

/-- Settles the place of a mismatch. -/
def settle (goOn : Cursor → Cursor) :
    Except ReadFault (α × Cursor) → Except ReadFault (α × Cursor)
  | .ok result => .ok result
  | .error fault => .error (fault.settle goOn)

/-- Refuses a value that does not fit. -/
def refuse (mismatch : Mismatch) (cursor : Cursor) : Except ReadFault α :=
  .error (.unplaced mismatch cursor)

/-- The mismatch of the value at the cursor with what was expected. A scalar is read
first, and may turn out to be malformed; of a collection only the start is looked at. -/
def clash (expected : Expected) (cursor : Cursor) : Except ReadFault (α × Cursor) :=
  let scalar (read : Except ReadFault (Found × Cursor)) : Except ReadFault (α × Cursor) := do
    let (found, cursor) ← read
    refuse (.invalidType found expected) cursor
  settle id <|
    match cursor.rest with
    | [] => faultNext .endInValue cursor
    | c :: rest =>
      let behind := cursor.past c rest
      if c == 'n' then scalar (return (.unit, ← readWord ['u', 'l', 'l'] behind))
      else if c == 't' then scalar (return (.bool true, ← readWord ['r', 'u', 'e'] behind))
      else if c == 'f' then scalar (return (.bool false, ← readWord ['a', 'l', 's', 'e'] behind))
      else if c == '-' || c.isDigit then scalar (readNumber cursor)
      else if c == '"' then
        scalar (do
          let (text, cursor) ← readString behind
          return (.text text, cursor))
      else if c == '[' then refuse (.invalidType .sequence expected) cursor
      else if c == '\x7b' then refuse (.invalidType .map expected) cursor
      else faultNext .valueMissing cursor

/-- The levels left inside the collection that begins at the cursor. -/
def enter (depth : Nat) (cursor : Cursor) : Except ReadFault Nat :=
  if 2 ≤ depth then .ok (depth - 1) else faultNext .tooDeep cursor

/-! ## Scalars -/

/-- A text. Messages name what was expected. -/
def textAs (expected : Expected) : Reader String := fun _ cursor =>
  let cursor := cursor.skipSpace
  match cursor.rest with
  | '"' :: rest => readString (cursor.past '"' rest)
  | _ => clash expected cursor

/-- True or false. -/
def flag : Reader Bool := fun _ cursor =>
  let cursor := cursor.skipSpace
  match cursor.rest with
  | 't' :: rest => return (true, ← readWord ['r', 'u', 'e'] (cursor.past 't' rest))
  | 'f' :: rest => return (false, ← readWord ['a', 'l', 's', 'e'] (cursor.past 'f' rest))
  | _ => clash .boolean cursor

/-- A natural number below 2^64. -/
def natural : Reader UInt64 := fun _ cursor =>
  let cursor := cursor.skipSpace
  match cursor.rest with
  | [] => clash .natural cursor
  | c :: _ =>
    if c == '-' || c.isDigit then
      settle id do
        match ← readNumber cursor with
        | (.int (.ofNat n), cursor) => return (n.toUInt64, cursor)
        | (.int n, cursor) => refuse (.invalidValue (.int n) .natural) cursor
        | (found, cursor) => refuse (.invalidType found .natural) cursor
    else clash .natural cursor

/-- Null. -/
def unit : Reader Unit := fun _ cursor =>
  let cursor := cursor.skipSpace
  match cursor.rest with
  | 'n' :: rest => return ((), ← readWord ['u', 'l', 'l'] (cursor.past 'n' rest))
  | _ => clash .unit cursor

/-- A value that may be null instead. -/
def optional (read : Reader α) : Reader (Option α) := fun depth cursor =>
  let cursor := cursor.skipSpace
  match cursor.rest with
  | 'n' :: rest => return (none, ← readWord ['u', 'l', 'l'] (cursor.past 'n' rest))
  | _ => do
    let (value, cursor) ← read depth cursor
    return (some value, cursor)

/-! ## Arrays -/

/-- Goes to the next item of an array, if there is one; `first` before any item. -/
def nextItem (first : Bool) (cursor : Cursor) : Except ReadFault (Bool × Cursor) :=
  let cursor := cursor.skipSpace
  match cursor.rest with
  | [] => faultNext .endInArray cursor
  | c :: rest =>
    if c == ']' then .ok (false, cursor)
    else if first then .ok (true, cursor)
    else if c == ',' then
      let cursor := (cursor.past c rest).skipSpace
      match cursor.rest with
      | [] => faultNext .endInValue cursor
      | c :: _ => if c == ']' then faultNext .commaTrailing cursor else .ok (true, cursor)
    else faultNext .arraySeparatorMissing cursor

/-- The items of an array, at most `fuel` of them, up to its end. -/
def readItems (read : Reader α) (depth : Nat) :
    Nat → Bool → Cursor → Except ReadFault (List α × Cursor)
  | 0, _, cursor => fault .endInArray cursor
  | fuel + 1, first, cursor => do
    match ← nextItem first cursor with
    | (false, cursor) => return ([], cursor)
    | (true, cursor) =>
      let (item, cursor) ← read depth cursor
      let (items, cursor) ← readItems read depth fuel false cursor
      return (item :: items, cursor)

/-- The end of an array. -/
def endArray (cursor : Cursor) : Except ReadFault Cursor :=
  let cursor := cursor.skipSpace
  match cursor.rest with
  | [] => faultNext .endInArray cursor
  | c :: rest =>
    if c == ']' then .ok (cursor.past c rest)
    else if c == ',' then
      let cursor := (cursor.past c rest).skipSpace
      if cursor.rest.head? == some ']' then faultNext .commaTrailing cursor
      else faultNext .charactersTrailing cursor
    else faultNext .charactersTrailing cursor

/-- Where an array is left behind that is not read to its end. -/
def leaveArray (cursor : Cursor) : Cursor :=
  let cursor := cursor.skipSpace
  match cursor.rest with
  | [] => cursor
  | c :: rest =>
    if c == ']' then cursor.past c rest
    else if c == ',' then (cursor.past c rest).skipSpace
    else cursor

/-- What an array holds, from its bracket on. -/
def inArray (depth : Nat) (cursor : Cursor) (rest : List Char)
    (read : Nat → Cursor → Except ReadFault (α × Cursor)) : Except ReadFault (α × Cursor) :=
  settle leaveArray do
    let depth ← enter depth cursor
    let (value, cursor) ← read depth (cursor.past '[' rest)
    return (value, ← endArray cursor)

/-- A list. -/
def list (read : Reader α) : Reader (List α) := fun depth cursor =>
  let cursor := cursor.skipSpace
  match cursor.rest with
  | '[' :: rest =>
    inArray depth cursor rest fun depth cursor =>
      readItems read depth (cursor.rest.length + 1) true cursor
  | _ => clash .sequence cursor

/-! ## Objects -/

/-- Reads the next name of an object, if there is one; `first` before any name. -/
def nextName (first : Bool) (cursor : Cursor) : Except ReadFault (Option String × Cursor) :=
  let cursor := cursor.skipSpace
  let name (cursor : Cursor) : Except ReadFault (Option String × Cursor) :=
    match cursor.rest with
    | '"' :: rest => do
      let (name, cursor) ← readString (cursor.past '"' rest)
      return (some name, cursor)
    | _ => faultNext .nameNotString cursor
  match cursor.rest with
  | [] => faultNext .endInObject cursor
  | c :: rest =>
    if c == '\x7d' then .ok (none, cursor)
    else if first then name cursor
    else if c == ',' then
      let cursor := (cursor.past c rest).skipSpace
      match cursor.rest with
      | [] => faultNext .endInValue cursor
      | c :: _ => if c == '\x7d' then faultNext .commaTrailing cursor else name cursor
    else faultNext .objectSeparatorMissing cursor

/-- Reads the members of an object, at most `fuel` of them, up to its end. `check` sees a
name before its value is read, and `value` reads the value. -/
def readMembers (check : σ → String → Option Mismatch) (value : σ → String → Reader σ)
    (depth : Nat) : Nat → Bool → σ → Cursor → Except ReadFault (σ × Cursor)
  | 0, _, _, cursor => fault .endInObject cursor
  | fuel + 1, first, collected, cursor => do
    match ← nextName first cursor with
    | (none, cursor) => return (collected, cursor)
    | (some name, cursor) =>
      if let some mismatch := check collected name then refuse mismatch cursor
      else
        let cursor ← readColon cursor
        let (collected, cursor) ← value collected name depth cursor
        readMembers check value depth fuel false collected cursor

/-- The end of an object. -/
def endObject (cursor : Cursor) : Except ReadFault Cursor :=
  let cursor := cursor.skipSpace
  match cursor.rest with
  | [] => faultNext .endInObject cursor
  | c :: rest =>
    if c == '\x7d' then .ok (cursor.past c rest)
    else if c == ',' then faultNext .commaTrailing cursor
    else faultNext .charactersTrailing cursor

/-- Where an object is left behind that is not read to its end. -/
def leaveObject (cursor : Cursor) : Cursor :=
  let cursor := cursor.skipSpace
  match cursor.rest with
  | '\x7d' :: rest => cursor.past '\x7d' rest
  | _ => cursor

/-- What an object holds, from its brace on. -/
def inObject (depth : Nat) (cursor : Cursor) (rest : List Char)
    (read : Nat → Cursor → Except ReadFault (α × Cursor)) : Except ReadFault (α × Cursor) :=
  settle leaveObject do
    let depth ← enter depth cursor
    let (value, cursor) ← read depth (cursor.past '\x7b' rest)
    return (value, ← endObject cursor)

/-- A mapping from texts. -/
def bindings (read : Reader α) : Reader (List (String × α)) := fun depth cursor =>
  let cursor := cursor.skipSpace
  match cursor.rest with
  | '\x7b' :: rest =>
    inObject depth cursor rest fun depth cursor => do
      let (collected, cursor) ← readMembers (fun _ _ => none)
        (fun collected name depth cursor => do
          let (value, cursor) ← read depth cursor
          return ((name, value) :: collected, cursor))
        depth (cursor.rest.length + 1) true [] cursor
      return (collected.reverse, cursor)
  | _ => clash .map cursor

/-! ## Names -/

/-- One of some names, as a text. -/
def chosen (known : List (String × α)) : Reader α := fun depth cursor =>
  settle id do
    let (name, cursor) ← textAs .variantName depth cursor
    match known.lookup name with
    | some value => return (value, cursor)
    | none => refuse (.unknownVariant name (known.map (·.1))) cursor

/-- One of some names: a text, or an object with the name and null. -/
def choice (known : List (String × α)) : Reader α := fun depth cursor =>
  let cursor := cursor.skipSpace
  match cursor.rest with
  | [] => faultNext .endInValue cursor
  | '\x7b' :: rest => do
    let depth ← enter depth cursor
    let (value, cursor) ← chosen known depth (cursor.past '\x7b' rest)
    let (_, cursor) ← unit depth (← readColon cursor)
    let cursor := cursor.skipSpace
    match cursor.rest with
    | [] => fault .endInObject cursor
    | c :: rest =>
      if c == '\x7d' then return (value, cursor.past c rest) else fault .valueMissing cursor
  | '"' :: _ => chosen known depth cursor
  | _ => faultNext .valueMissing cursor

/-! ## Records -/

/-- Reads a record from the items of an array, in the order of its fields. Fields at the
end may be missing if the record may do without them; `count` were read before. -/
def readFields (name : String) (size : Nat) (depth : Nat) :
    List (Field Reader α) → Nat → α → Cursor → Except ReadFault (α × Cursor)
  | [], _, value, cursor => .ok (value, cursor)
  | field :: fields, count, value, cursor => do
    match ← nextItem (count == 0) cursor with
    | (false, cursor) =>
      if field.required then refuse (.invalidLength count (.recordElements name size)) cursor
      else readFields name size depth fields count value cursor
    | (true, cursor) =>
      let (store, cursor) ← field.read depth cursor
      readFields name size depth fields (count + 1) (store value) cursor

/-- Reads a member of a record, or passes over one that is none of its fields. -/
def readField (record : Record Reader α) (collected : α × List String) (name : String) :
    Reader (α × List String) := fun depth cursor =>
  match record.field? name with
  | some field => do
    let (store, cursor) ← field.read depth cursor
    return ((store collected.1, name :: collected.2), cursor)
  | none => return (collected, ← skipValue cursor)

/-- A field must not be repeated. -/
def repeats? (record : Record Reader α) (collected : α × List String) (name : String) :
    Option Mismatch :=
  if (record.field? name).isSome && collected.2.contains name then some (.duplicateField name)
  else none

/-- A record: an object with its fields by name, or an array with its fields in order. -/
def record (record : Record Reader α) : Reader α := fun depth cursor =>
  let cursor := cursor.skipSpace
  match cursor.rest with
  | '[' :: rest =>
    inArray depth cursor rest fun depth cursor =>
      readFields record.name record.fields.length depth record.fields 0 record.blank cursor
  | '\x7b' :: rest =>
    inObject depth cursor rest fun depth cursor => do
      let (collected, cursor) ← readMembers (repeats? record) (readField record) depth
        (cursor.rest.length + 1) true (record.blank, []) cursor
      match record.missing? collected.2 with
      | some name => refuse (.missingField name) cursor
      | none => return (collected.1, cursor)
  | _ => clash (.record record.name) cursor

/-! ## Untyped values -/

/-- A number as a value. -/
def ofFound : Found → Value
  | .int value => .int value
  | .float value => .float value
  | _ => .null

/-- A name must not be repeated in a mapping. -/
def repeatsKey? (entries : List (Value × Value)) (name : String) : Option Mismatch :=
  if entries.any (fun entry => entry.1.same (.text name)) then some (.duplicateKey (.text name))
  else none

/-- Any value; `nested` reads what lies within it. -/
def contents (nested : Reader Value) : Reader Value := fun depth cursor =>
  let cursor := cursor.skipSpace
  match cursor.rest with
  | [] => faultNext .endInValue cursor
  | c :: rest =>
    let behind := cursor.past c rest
    if c == 'n' then return (.null, ← readWord ['u', 'l', 'l'] behind)
    else if c == 't' then return (.bool true, ← readWord ['r', 'u', 'e'] behind)
    else if c == 'f' then return (.bool false, ← readWord ['a', 'l', 's', 'e'] behind)
    else if c == '-' || c.isDigit then do
      let (found, cursor) ← readNumber cursor
      return (ofFound found, cursor)
    else if c == '"' then do
      let (text, cursor) ← readString behind
      return (.text text, cursor)
    else if c == '[' then
      inArray depth cursor rest fun depth cursor => do
        let (items, cursor) ← readItems nested depth (cursor.rest.length + 1) true cursor
        return (.sequence items, cursor)
    else if c == '\x7b' then
      inObject depth cursor rest fun depth cursor => do
        let (entries, cursor) ← readMembers repeatsKey?
          (fun entries name depth cursor => do
            let (value, cursor) ← nested depth cursor
            return ((.text name, value) :: entries, cursor))
          depth (cursor.rest.length + 1) true [] cursor
        return (.mapping entries.reverse, cursor)
    else faultNext .valueMissing cursor

/-- Any value in which at most so many collections lie within one another. -/
def valueWithin : Nat → Reader Value
  | 0 => contents (fun _ cursor => faultNext .tooDeep cursor)
  | depth + 1 => contents (valueWithin depth)

/-- Any value. -/
def value : Reader Value := fun depth cursor => valueWithin depth depth cursor

instance : Functor Reader where
  map f read := fun depth cursor => do
    let (value, cursor) ← read depth cursor
    return (f value, cursor)

instance : Source Reader where
  text := textAs .text
  flag := flag
  natural := natural
  optional := optional
  list := list
  choice := choice
  record := record
  bindings := bindings
  untyped := value

end Reader

/-! ## Whole texts -/

/-- One level more than collections of a text may lie within one another. -/
def depthLimit : Nat := 128

/-- Reads a text that holds one value. -/
def read {α : Type} (read : Reader α) (text : String) : Except ReadFault α := do
  let (value, cursor) ← read depthLimit (Cursor.ofText text)
  let cursor := cursor.skipSpace
  if cursor.rest.isEmpty then return value else faultNext .charactersTrailing cursor

end Provisioning.Json
