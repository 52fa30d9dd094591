import Provisioning.Json.Number
import Provisioning.Json.StringText

/-!
# Passing over values

A value that nobody asks for is passed over without a limit on its depth: the open
arrays and objects around the place that is reached are a list.
-/

namespace Provisioning.Json

/-- An array or object that is open. -/
inductive Bracket where
  | array
  | object
deriving DecidableEq, Repr

namespace Bracket

/-- The character that closes it. -/
def close : Bracket → Char
  | array => ']'
  | object => '\x7d'

/-- The text ended inside it. -/
def atEnd : Bracket → Problem
  | array => .endInArray
  | object => .endInObject

/-- Neither a comma nor its end follows. -/
def noSeparator : Bracket → Problem
  | array => .arraySeparatorMissing
  | object => .objectSeparatorMissing

end Bracket

/-- Passes over the given word behind its first letter. -/
def readWord : List Char → Cursor → Except ReadFault Cursor
  | [], cursor => .ok cursor
  | expected :: word, cursor =>
    match cursor.rest with
    | [] => fault .endInValue cursor
    | c :: rest =>
      if c == expected then readWord word (cursor.past c rest) else faultNext .wordMisspelt cursor

/-- Passes over the colon behind a name. -/
def readColon (cursor : Cursor) : Except ReadFault Cursor :=
  let cursor := cursor.skipSpace
  match cursor.rest with
  | [] => faultNext .endInObject cursor
  | c :: rest => if c == ':' then .ok (cursor.past c rest) else faultNext .colonMissing cursor

/-- Passes over what stands in front of a value inside a bracket: in an object its name. -/
def skipName (bracket : Bracket) (cursor : Cursor) : Except ReadFault Cursor :=
  match bracket with
  | .array => .ok cursor
  | .object =>
    let cursor := cursor.skipSpace
    match cursor.rest with
    | [] => faultNext .endInObject cursor
    | c :: rest =>
      if c == '"' then do readColon (← skipString (cursor.past c rest))
      else faultNext .nameNotString cursor

/-- Goes on behind a value: to the next value, if the open brackets hold one. -/
def skipToValue : List Bracket → Cursor → Except ReadFault (Option (List Bracket) × Cursor)
  | [], cursor => .ok (none, cursor)
  | bracket :: outer, cursor =>
    let cursor := cursor.skipSpace
    match cursor.rest with
    | [] => faultNext bracket.atEnd cursor
    | c :: rest =>
      if c == ',' then do
        return (some (bracket :: outer), ← skipName bracket (cursor.past c rest))
      else if c == bracket.close then skipToValue outer (cursor.past c rest)
      else faultNext bracket.noSeparator cursor

/-- Goes on behind an opening bracket: to the first value in it, or behind its end. -/
def skipOpening (bracket : Bracket) (outer : List Bracket) (cursor : Cursor) :
    Except ReadFault (Option (List Bracket) × Cursor) :=
  let cursor := cursor.skipSpace
  match cursor.rest with
  | [] => faultNext bracket.atEnd cursor
  | c :: rest =>
    if c == bracket.close then skipToValue outer (cursor.past c rest)
    else do return (some (bracket :: outer), ← skipName bracket cursor)

/-- Passes over a scalar, or over an opening bracket. -/
def skipStep (outer : List Bracket) (cursor : Cursor) :
    Except ReadFault (Option (List Bracket) × Cursor) :=
  let cursor := cursor.skipSpace
  match cursor.rest with
  | [] => faultNext .endInValue cursor
  | c :: rest =>
    let behind := cursor.past c rest
    if c == 'n' then do skipToValue outer (← readWord ['u', 'l', 'l'] behind)
    else if c == 't' then do skipToValue outer (← readWord ['r', 'u', 'e'] behind)
    else if c == 'f' then do skipToValue outer (← readWord ['a', 'l', 's', 'e'] behind)
    else if c == '-' || c.isDigit then do skipToValue outer (← skipNumber cursor)
    else if c == '"' then do skipToValue outer (← skipString behind)
    else if c == '[' then skipOpening .array outer behind
    else if c == '\x7b' then skipOpening .object outer behind
    else faultNext .valueMissing cursor

/-- Passes over the values up to the end of the outermost bracket, at most `fuel` of them. -/
def skipValues : Nat → List Bracket → Cursor → Except ReadFault Cursor
  | 0, _, cursor => fault .endInValue cursor
  | fuel + 1, outer, cursor => do
    match ← skipStep outer cursor with
    | (none, cursor) => return cursor
    | (some outer, cursor) => skipValues fuel outer cursor

/-- Passes over a value. It has no more values in it than characters. -/
def skipValue (cursor : Cursor) : Except ReadFault Cursor :=
  skipValues (cursor.rest.length + 1) [] cursor

end Provisioning.Json
