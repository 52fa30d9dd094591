import Provisioning.Outcome
import Provisioning.Yaml.TextFault
import Provisioning.Yaml.Token.Cursor
import Provisioning.Yaml.Token.Quoted

/-!
# Node properties and directives

Anchors and aliases are names. A tag is a handle and a rest, or a whole in angle
brackets; what an octet escape in it spells is kept as octets. Directives stand on
lines of their own: the version of the language, and the stem a tag handle stands for.
-/

namespace Provisioning.Yaml

open Provisioning.Outcome (bind_eq_ok)

/-! ## Names -/

/-- May this follow the name of an anchor or alias? -/
def endsName : List Char → Bool
  | [] => true
  | c :: _ =>
    isBlank c || isBreak c || c == '?' || c == ':' || c == ',' || c == ']' || c == '\x7d' ||
      c == '%' || c == '@' || c == '\x60'

/-- The name of an anchor or alias. -/
def readName (activity : Activity) (start : Mark) (cursor : Cursor) :
    Except TextFault (List Char × Cursor) :=
  let (name, cursor) := cursor.takeWhile isNameChar
  if name.isEmpty || !endsName cursor.rest then
    .error (.during activity start .nameMissing cursor.mark)
  else .ok (name, cursor)

theorem readName_length_le {activity : Activity} {start : Mark} {cursor : Cursor}
    {result : List Char × Cursor} (h : readName activity start cursor = .ok result) :
    result.2.rest.length ≤ cursor.rest.length := by
  grind [readName, cursor.takeWhile_length_le isNameChar]

/-! ## Tags -/

/-- The characters of a tag that stand for themselves; some of them only where no flow
collection could claim them. -/
def isTagChar (anywhere : Bool) (c : Char) : Bool :=
  isNameChar c || c == ';' || c == '/' || c == '?' || c == ':' || c == '@' || c == '&' ||
    c == '=' || c == '+' || c == '$' || c == '.' || c == '!' || c == '~' || c == '*' ||
    c == '\'' || c == '(' || c == ')' || (anywhere && (c == ',' || c == '[' || c == ']'))

/-- How many octets follow this first octet of an encoded character. -/
def octetsAfter? (octet : Nat) : Option Nat :=
  if octet < 0x80 then some 0
  else if 0xC0 ≤ octet && octet < 0xE0 then some 1
  else if 0xE0 ≤ octet && octet < 0xF0 then some 2
  else if 0xF0 ≤ octet && octet < 0xF8 then some 3
  else none

/-- The octet that two hexadecimal digits spell. -/
def octet? (high low : Char) : Option Nat :=
  match QuotedScalar.hexValue? high, QuotedScalar.hexValue? low with
  | some high, some low => some (high * 16 + low)
  | _, _ => none

/-- What follows an escaped octet: how many octets of its character are still to come. -/
def stillOwed (owed octet : Nat) : Except Problem Nat :=
  match owed with
  | 0 =>
    match octetsAfter? octet with
    | some owed => .ok owed
    | none => .error .leadingOctetWrong
  | owed + 1 => if 0x80 ≤ octet && octet < 0xC0 then .ok owed else .error .trailingOctetWrong

/-- Reads on in a tag after `octets` (the latest first) while `owed` escapes must follow. -/
def readTagOctets (fault : Problem → Mark → TextFault) (anywhere : Bool) (octets : List UInt8)
    (owed : Nat) (mark : Mark) : List Char → Except TextFault (List UInt8 × Cursor)
  | '%' :: high :: low :: rest =>
    match octet? high low with
    | none => .error (fault .escapedOctetMissing mark)
    | some octet =>
      match stillOwed owed octet with
      | .error problem => .error (fault problem mark)
      | .ok owed => readTagOctets fault anywhere (octet.toUInt8 :: octets) owed (mark.right 3) rest
  | [] =>
    if owed == 0 then .ok (octets.reverse, ⟨[], mark⟩) else .error (fault .escapedOctetMissing mark)
  | c :: rest =>
    if owed != 0 || c == '%' then .error (fault .escapedOctetMissing mark)
    else if isTagChar anywhere c then
      readTagOctets fault anywhere (c.toNat.toUInt8 :: octets) 0 mark.next rest
    else .ok (octets.reverse, ⟨c :: rest, mark⟩)

/-- The octets of a name, all of whose characters are ASCII. -/
def nameOctets (name : List Char) : List UInt8 := name.map (fun c => c.toNat.toUInt8)

/-- A part of a tag up to its end, or up to a zero octet, which hides what follows it.
The part may begin with a handle that turned out to be none; only then it may be empty. -/
def readTagPart (activity : Activity) (start : Mark) (anywhere : Bool) (handle : List Char)
    (cursor : Cursor) : Except TextFault (List UInt8 × Cursor) := do
  let fault := TextFault.during activity start
  let (octets, cursor) ← readTagOctets fault anywhere [] 0 cursor.mark cursor.rest
  if handle.isEmpty && octets.isEmpty then throw (fault .tagUriMissing cursor.mark)
  else return ((nameOctets (handle.drop 1) ++ octets).takeWhile (· != 0), cursor)

/-- A handle: an exclamation mark, or a name between two of them. What only begins like
the latter is returned as it is, except in a directive. -/
def readHandle (inDirective : Bool) (start : Mark) (cursor : Cursor) :
    Except TextFault (List Char × Cursor) :=
  match cursor.rest with
  | '!' :: rest =>
    let (name, cursor) := (Cursor.mk rest cursor.mark.next).takeWhile isNameChar
    match cursor.rest with
    | '!' :: rest => .ok ('!' :: (name ++ ['!']), ⟨rest, cursor.mark.next⟩)
    | _ =>
      if inDirective && !name.isEmpty then
        .error (.during .tagDirectiveHandle start .tagMarkMissing cursor.mark)
      else .ok ('!' :: name, cursor)
  | _ =>
    let activity := if inDirective then Activity.tagDirectiveMark else .tag
    .error (.during activity start .tagMarkMissing cursor.mark)

/-- Does the handle consist of two exclamation marks with a name between them? -/
def isNamedHandle (handle : List Char) : Bool := 2 ≤ handle.length && handle.getLast? == some '!'

/-- The handle and the rest of a tag, from its exclamation mark on. -/
def readTagParts (start : Mark) (cursor : Cursor) :
    Except TextFault ((List Char × List UInt8) × Cursor) := do
  match cursor.rest with
  | '!' :: '<' :: rest =>
    let (octets, cursor) ← readTagPart .tagUri start true [] ⟨rest, cursor.mark.right 2⟩
    match cursor.rest with
    | '>' :: rest => return (([], octets), ⟨rest, cursor.mark.next⟩)
    | _ => throw (.during .tag start .tagCloseMissing cursor.mark)
  | _ =>
    let (handle, cursor) ← readHandle false start cursor
    if isNamedHandle handle then
      let (octets, cursor) ← readTagPart .tagUri start false [] cursor
      return ((handle, octets), cursor)
    else
      let (octets, cursor) ← readTagPart .tagUri start false handle cursor
      if octets.isEmpty then return (([], nameOctets ['!']), cursor)
      else return ((['!'], octets), cursor)

/-- A tag and what must follow it. -/
def readTag (inFlow : Bool) (start : Mark) (cursor : Cursor) :
    Except TextFault ((List Char × List UInt8) × Cursor) := do
  let (tag, cursor) ← readTagParts start cursor
  if endsWord cursor.rest || (inFlow && startsWith ',' cursor.rest) then return (tag, cursor)
  else throw (.during .tag start .whitespaceOrBreakMissing cursor.mark)

theorem readTagOctets_length_le {fault : Problem → Mark → TextFault} {anywhere : Bool}
    {octets : List UInt8} {owed : Nat} {mark : Mark} {rest : List Char}
    {result : List UInt8 × Cursor}
    (h : readTagOctets fault anywhere octets owed mark rest = .ok result) :
    result.2.rest.length ≤ rest.length := by
  fun_induction readTagOctets <;> grind

theorem readTagPart_length_le {activity : Activity} {start : Mark} {anywhere : Bool}
    {handle : List Char} {cursor : Cursor} {result : List UInt8 × Cursor}
    (h : readTagPart activity start anywhere handle cursor = .ok result) :
    result.2.rest.length ≤ cursor.rest.length := by
  grind [readTagPart, → readTagOctets_length_le]

theorem readHandle_length_lt {inDirective : Bool} {start : Mark} {cursor : Cursor}
    {result : List Char × Cursor} (h : readHandle inDirective start cursor = .ok result) :
    result.2.rest.length < cursor.rest.length := by
  unfold readHandle at h
  split at h
  · next rest eq => grind [Cursor.takeWhile_length_le isNameChar ⟨rest, cursor.mark.next⟩]
  · cases h

theorem readTagParts_length_lt {start : Mark} {cursor : Cursor}
    {result : (List Char × List UInt8) × Cursor} (h : readTagParts start cursor = .ok result) :
    result.2.rest.length < cursor.rest.length := by
  unfold readTagParts at h
  split at h
  · obtain ⟨⟨octets, behind⟩, part, h⟩ := bind_eq_ok.mp h
    grind [→ readTagPart_length_le]
  · obtain ⟨⟨handle, behind⟩, head, h⟩ := bind_eq_ok.mp h
    grind [→ readTagPart_length_le, → readHandle_length_lt]

/-- A tag has at least its exclamation mark. -/
theorem readTag_length_lt {inFlow : Bool} {start : Mark} {cursor : Cursor}
    {result : (List Char × List UInt8) × Cursor} (h : readTag inFlow start cursor = .ok result) :
    result.2.rest.length < cursor.rest.length := by
  grind [readTag, → readTagParts_length_lt]

/-! ## Directives -/

/-- A directive as read. -/
inductive Directive where
  | version (major minor : Nat)
  | tag (handle : List Char) (stem : List UInt8)
deriving DecidableEq, Repr

namespace Directive

/-- A number of at most nine digits; a longer one is a fault where its ninth digit ends. -/
def readNumber (start : Mark) (cursor : Cursor) : Except TextFault (Nat × Cursor) :=
  let (digits, after) := cursor.takeWhile Char.isDigit
  if digits.isEmpty then .error (.during .versionDirective start .versionMissing cursor.mark)
  else if 9 < digits.length then
    .error (.during .versionDirective start .versionTooLong (cursor.mark.right 9))
  else .ok (digits.foldl (fun n c => n * 10 + (c.toNat - 48)) 0, after)

/-- The version of the language: two numbers with a point between them. -/
def readVersion (start : Mark) (cursor : Cursor) : Except TextFault (Directive × Cursor) := do
  let (major, cursor) ← readNumber start cursor.skipBlanks
  match cursor.rest with
  | '.' :: rest =>
    let (minor, cursor) ← readNumber start ⟨rest, cursor.mark.next⟩
    return (.version major minor, cursor)
  | _ => throw (.during .versionDirective start .versionPointMissing cursor.mark)

/-- A tag handle and the stem it stands for. -/
def readStem (start : Mark) (cursor : Cursor) : Except TextFault (Directive × Cursor) := do
  let (handle, cursor) ← readHandle true start cursor.skipBlanks
  if (cursor.takeWhile isBlank).1.isEmpty then
    throw (.during .tagDirective start .whitespaceMissing cursor.mark)
  let (stem, cursor) ← readTagPart .tagDirectiveUri start true [] cursor.skipBlanks
  if endsWord cursor.rest then return (.tag handle stem, cursor)
  else throw (.during .tagDirective start .whitespaceOrBreakMissing cursor.mark)

/-- The name of a directive. -/
def readName (start : Mark) (cursor : Cursor) : Except TextFault (List Char × Cursor) :=
  let (name, cursor) := cursor.takeWhile isNameChar
  if name.isEmpty then .error (.during .directive start .directiveNameMissing cursor.mark)
  else if !endsWord cursor.rest then
    .error (.during .directive start .directiveNameCharacter cursor.mark)
  else .ok (name, cursor)

/-- What follows the name of a directive. -/
def readParameters (start : Mark) (name : List Char) (cursor : Cursor) :
    Except TextFault (Directive × Cursor) :=
  if name == "YAML".toList then readVersion start cursor
  else if name == "TAG".toList then readStem start cursor
  else .error (.during .directive start .directiveUnknown cursor.mark)

/-- A directive behind its percent sign, with the rest of its line. The second answer is
the place where the directive itself ends. -/
def read (start : Mark) (cursor : Cursor) : Except TextFault (Directive × Mark × Cursor) := do
  let (name, cursor) ← readName start cursor
  let (directive, cursor) ← readParameters start name cursor
  let stop := cursor.mark
  let cursor := cursor.skipComment
  if endsLine cursor.rest then return (directive, stop, cursor.skipBreak)
  else throw (.during .directive start .commentOrBreakMissing cursor.mark)

theorem readNumber_length_le {start : Mark} {cursor : Cursor} {result : Nat × Cursor}
    (h : readNumber start cursor = .ok result) : result.2.rest.length ≤ cursor.rest.length := by
  grind [readNumber, cursor.takeWhile_length_le Char.isDigit]

theorem readVersion_length_le {start : Mark} {cursor : Cursor} {result : Directive × Cursor}
    (h : readVersion start cursor = .ok result) : result.2.rest.length ≤ cursor.rest.length := by
  obtain ⟨⟨major, behind⟩, first, h⟩ := bind_eq_ok.mp h
  dsimp only at h
  split at h
  · obtain ⟨⟨minor, last⟩, second, h⟩ := bind_eq_ok.mp h
    grind [→ readNumber_length_le, cursor.skipBlanks_length_le]
  · cases h

theorem readStem_length_le {start : Mark} {cursor : Cursor} {result : Directive × Cursor}
    (h : readStem start cursor = .ok result) : result.2.rest.length ≤ cursor.rest.length := by
  obtain ⟨⟨handle, behind⟩, head, h⟩ := bind_eq_ok.mp h
  dsimp only at h
  split at h
  · cases h
  · obtain ⟨⟨stem, last⟩, part, h⟩ := bind_eq_ok.mp h
    grind [→ readHandle_length_lt, → readTagPart_length_le, cursor.skipBlanks_length_le,
      behind.skipBlanks_length_le]

theorem readName_length_le {start : Mark} {cursor : Cursor} {result : List Char × Cursor}
    (h : readName start cursor = .ok result) : result.2.rest.length ≤ cursor.rest.length := by
  grind [readName, cursor.takeWhile_length_le isNameChar]

theorem readParameters_length_le {start : Mark} {name : List Char} {cursor : Cursor}
    {result : Directive × Cursor} (h : readParameters start name cursor = .ok result) :
    result.2.rest.length ≤ cursor.rest.length := by
  grind [readParameters, → readVersion_length_le, → readStem_length_le]

theorem read_length_le {start : Mark} {cursor : Cursor} {result : Directive × Mark × Cursor}
    (h : read start cursor = .ok result) : result.2.2.rest.length ≤ cursor.rest.length := by
  obtain ⟨⟨name, behind⟩, named, h⟩ := bind_eq_ok.mp h
  obtain ⟨⟨directive, last⟩, kind, h⟩ := bind_eq_ok.mp h
  grind [→ readName_length_le, → readParameters_length_le, last.skipLine_length_le]

end Directive

end Provisioning.Yaml
