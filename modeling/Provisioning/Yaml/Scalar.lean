import Provisioning.Mismatch
import Provisioning.Yaml.Token

/-!
# What a scalar means

A plain scalar is null, a boolean, an integer, a floating-point number or a text,
whichever it can be first; so its spelling decides. Digits behind a leading zero are
no number. A tag of the language itself forces one of the four kinds, and every other
scalar is a text.
-/

namespace Provisioning.Yaml

/-- What a scalar means. -/
inductive Meaning where
  | null
  | bool (value : Bool)
  | int (value : Int)
  /-- An integer outside 64 bits but within 128. -/
  | wideInt (value : Int)
  | float (value : Number.Binary64)
  | string
deriving DecidableEq, Repr

namespace Meaning

/-- The words for null. -/
def isNull (text : List Char) : Bool :=
  text == "null".toList || text == "Null".toList || text == "NULL".toList || text == "~".toList

/-- The words for true and false. -/
def bool? (text : List Char) : Option Bool :=
  if text == "true".toList || text == "True".toList || text == "TRUE".toList then some true
  else if text == "false".toList || text == "False".toList || text == "FALSE".toList then some false
  else none

/-! ## Integers -/

/-- The digits behind a sign, or all of a text without one. -/
def unsignedPart : List Char → List Char
  | '+' :: rest => rest
  | '-' :: rest => rest
  | text => text

/-- Is this a zero with further digits behind it? Such a text is no number. -/
def isPaddedDigits (text : List Char) : Bool :=
  match unsignedPart text with
  | '0' :: digit :: rest => digit.isDigit && rest.all Char.isDigit
  | _ => false

/-- The base that a text begins with and the digits behind it. -/
def radix? : List Char → Option (Nat × List Char)
  | '0' :: 'x' :: digits => some (16, digits)
  | '0' :: 'o' :: digits => some (8, digits)
  | '0' :: 'b' :: digits => some (2, digits)
  | _ => none

/-- The magnitude that digits in any base spell, without a sign. -/
def magnitude? (digits : List Char) : Option Nat :=
  match radix? digits with
  | some (base, digits) => Number.ofDigits? base digits
  | none => Number.ofDigits? 10 digits

/-- A number without a minus sign. -/
def natural? (text : List Char) : Option Nat :=
  let digits := match text with
    | '+' :: rest => rest
    | _ => text
  if isPaddedDigits text then none else magnitude? digits

/-- The magnitude of a number with a minus sign. -/
def negative? : List Char → Option Nat
  | '-' :: digits => if isPaddedDigits ('-' :: digits) then none else magnitude? digits
  | _ => none

/-- A natural number below 2^64. -/
def natural64? (text : List Char) : Option UInt64 :=
  match natural? text with
  | some n => if n < UInt64.size then some n.toUInt64 else none
  | none => none

/-- An integer of at most 128 bits; negative ones have one bit less. -/
def int? (text : List Char) : Option Meaning :=
  match natural? text, negative? text with
  | some n, _ =>
    if n < UInt64.size then some (.int n)
    else if n < Nat.pow 2 128 then some (.wideInt n)
    else none
  | none, some n =>
    if n ≤ Nat.pow 2 63 then some (.int (-n))
    else if n ≤ Nat.pow 2 127 then some (.wideInt (-n))
    else none
  | none, none => none

/-! ## Floating-point numbers -/

/-- The exponent at the end of a number: nothing, or a mark with digits. -/
def exponent? : List Char → Option Int
  | [] => some 0
  | mark :: rest =>
    if mark == 'e' || mark == 'E' then
      match rest with
      | '-' :: digits => (Number.ofDigits? 10 digits).map (fun n => -(n : Int))
      | '+' :: digits => (Number.ofDigits? 10 digits).map (fun n => (n : Int))
      | digits => (Number.ofDigits? 10 digits).map (fun n => (n : Int))
    else none

/-- A decimal number without a sign: digits with at most one point, and an exponent. -/
def decimal? (negative : Bool) (text : List Char) : Option Number.Binary64 :=
  let whole := text.takeWhile Char.isDigit
  let (part, rest) := match text.dropWhile Char.isDigit with
    | '.' :: rest => (rest.takeWhile Char.isDigit, rest.dropWhile Char.isDigit)
    | rest => ([], rest)
  match Number.ofDigits? 10 (whole ++ part), exponent? rest with
  | some digits, some exponent =>
    some (.ofDecimal negative digits (exponent - (part.length : Int)))
  | _, _ => none

/-- The words for infinity. -/
def isInfinity (text : List Char) : Bool :=
  text == ".inf".toList || text == ".Inf".toList || text == ".INF".toList

/-- The words for what is not a number. -/
def isNan (text : List Char) : Bool :=
  text == ".nan".toList || text == ".NaN".toList || text == ".NAN".toList

/-- A floating-point number. What is too great for a finite one is none. -/
def float? (text : List Char) : Option Number.Binary64 :=
  let (negative, digits) := match text with
    | '-' :: rest => (true, rest)
    | '+' :: rest => (false, rest)
    | _ => (false, text)
  if isInfinity digits then some (.infinite negative)
  else if isNan text then some .nan
  else match decimal? negative digits with
    | some number => if number.isFinite then some number else none
    | none => none

/-! ## All kinds -/

/-- What a plain scalar without a tag means. -/
def ofPlain (text : List Char) : Meaning :=
  if text.isEmpty || isNull text then null
  else match bool? text with
    | some value => bool value
    | none =>
      match int? text with
      | some meaning => meaning
      | none =>
        if isPaddedDigits text then .string
        else match float? text with
          | some value => float value
          | none => .string

/-- The stem of the tags of the language itself. -/
def coreStem : List UInt8 := "tag:yaml.org,2002:".toList.map (fun c => c.toNat.toUInt8)

/-- Is this the tag of the language itself with this name? -/
def isCoreTag (name : String) (tag : List UInt8) : Bool :=
  tag == coreStem ++ name.toList.map (fun c => c.toNat.toUInt8)

/-- A tag of the text's own begins with an exclamation mark. -/
def isLocalTag : List UInt8 → Bool
  | octet :: _ => octet == 33
  | [] => false

/-- What a scalar means under its tag. -/
def ofScalar (tag : Option (List UInt8)) (text : List Char) (style : ScalarStyle) :
    Except Mismatch Meaning :=
  let forced (meaning : Option Meaning) (expected : Expected) : Except Mismatch Meaning :=
    match meaning with
    | some meaning => .ok meaning
    | none => .error (.invalidValue (.text (String.ofList text)) expected)
  match tag with
  | none => .ok (if style == .plain then ofPlain text else .string)
  | some tag =>
    if isCoreTag "bool" tag then forced ((bool? text).map .bool) .boolean
    else if isCoreTag "int" tag then forced (int? text) .integer
    else if isCoreTag "float" tag then forced ((float? text).map .float) .float
    else if isCoreTag "null" tag then forced (if isNull text then some .null else none) .null
    else if isLocalTag tag && style == .plain then .ok (ofPlain text)
    else .ok .string

/-- A meaning as a message names it. -/
def found (text : List Char) : Meaning → Found
  | null => .unit
  | bool value => .bool value
  | int value => .int value
  | wideInt value => .wideInt value
  | float value => .float value
  | string => .text (String.ofList text)

/-- The value that a scalar with this text stands for. -/
def toValue (text : List Char) : Meaning → Except Mismatch Value
  | null => .ok .null
  | bool value => .ok (.bool value)
  | int value => .ok (.int value)
  | wideInt value => .error (.invalidType (.wideInt value) .anyValue)
  | float value => .ok (.float value)
  | string => .ok (.text (String.ofList text))

end Meaning

end Provisioning.Yaml
