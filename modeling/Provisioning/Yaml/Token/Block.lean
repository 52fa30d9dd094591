import Provisioning.Outcome
import Provisioning.Yaml.TextFault
import Provisioning.Yaml.Token
import Provisioning.Yaml.Token.Cursor

/-!
# Block scalars

A block scalar is the lines indented to its column, below a header that may set the
column and say what becomes of the line ends after the last line. Without a number in
the header the column is the widest indentation up to and including the first line
that is not empty, but at least the margin of the surrounding block.
-/

namespace Provisioning.Yaml

open Provisioning.Outcome (bind_eq_ok)

/-- What becomes of the line ends after the last line of a block scalar. -/
inductive Chomping where
  /-- None is kept. -/
  | strip
  /-- That of the last line is kept. -/
  | clip
  /-- All are kept. -/
  | keep
deriving DecidableEq, Repr

/-- The header of a block scalar; the indentation is relative to the surrounding block. -/
structure BlockHeader where
  chomping : Chomping
  indentation : Option Nat
deriving DecidableEq, Repr

namespace BlockHeader

/-- The chomping that an indicator asks for. -/
def chomping? : Char → Option Chomping
  | '+' => some .keep
  | '-' => some .strip
  | _ => none

/-- An indentation indicator in front of the rest of a header. -/
def readIndentation (start : Mark) (cursor : Cursor) : Except TextFault (Option Nat × Cursor) :=
  match cursor.rest with
  | [] => .ok (none, cursor)
  | c :: rest =>
    if c == '0' then .error (.during .blockScalar start .indentationZero cursor.mark)
    else if c.isDigit then .ok (some (c.toNat - 48), ⟨rest, cursor.mark.next⟩)
    else .ok (none, cursor)

/-- A chomping indicator in front of the rest of a header. -/
def readChomping (cursor : Cursor) : Option Chomping × Cursor :=
  match cursor.rest with
  | [] => (none, cursor)
  | c :: rest =>
    match chomping? c with
    | none => (none, cursor)
    | some chomping => (some chomping, ⟨rest, cursor.mark.next⟩)

/-- Both indicators, in either order. -/
def readIndicators (start : Mark) (cursor : Cursor) : Except TextFault (BlockHeader × Cursor) := do
  match readChomping cursor with
  | (some chomping, cursor) =>
    let (indentation, cursor) ← readIndentation start cursor
    return (⟨chomping, indentation⟩, cursor)
  | (none, cursor) =>
    match ← readIndentation start cursor with
    | (none, cursor) => return (⟨.clip, none⟩, cursor)
    | (some indentation, cursor) =>
      let (chomping, cursor) := readChomping cursor
      return (⟨chomping.getD .clip, some indentation⟩, cursor)

/-- A header and the rest of its line. -/
def read (start : Mark) (cursor : Cursor) : Except TextFault (BlockHeader × Cursor) := do
  let (header, cursor) ← readIndicators start cursor
  let cursor := cursor.skipComment
  if endsLine cursor.rest then return (header, cursor.skipBreak)
  else throw (.during .blockScalar start .commentOrBreakMissing cursor.mark)

theorem readIndentation_length_le {start : Mark} {cursor : Cursor} {result : Option Nat × Cursor}
    (h : readIndentation start cursor = .ok result) :
    result.2.rest.length ≤ cursor.rest.length := by
  grind [readIndentation]

theorem readChomping_length_le (cursor : Cursor) :
    (readChomping cursor).2.rest.length ≤ cursor.rest.length := by
  grind [readChomping]

theorem readIndicators_length_le {start : Mark} {cursor : Cursor} {result : BlockHeader × Cursor}
    (h : readIndicators start cursor = .ok result) :
    result.2.rest.length ≤ cursor.rest.length := by
  have first := readChomping_length_le cursor
  unfold readIndicators at h
  split at h
  · grind [→ readIndentation_length_le]
  · obtain ⟨⟨indentation, behind⟩, read, h⟩ := bind_eq_ok.mp h
    grind [→ readIndentation_length_le, readChomping_length_le behind]

theorem read_length_le {start : Mark} {cursor : Cursor} {result : BlockHeader × Cursor}
    (h : read start cursor = .ok result) : result.2.rest.length ≤ cursor.rest.length := by
  obtain ⟨⟨header, behind⟩, indicators, h⟩ := bind_eq_ok.mp h
  grind [→ readIndicators_length_le, behind.skipLine_length_le]

end BlockHeader

/-- A block scalar while its lines are read; lists hold the latest character first. -/
structure BlockText where
  /-- What is settled of the text. -/
  text : List Char
  /-- The line end of the last line. -/
  lineEnd : Option Char
  /-- The empty lines since. -/
  emptyLines : List Char
  /-- Did the last line begin with a blank? -/
  afterBlank : Bool
deriving DecidableEq, Repr

namespace BlockText

/-- A block scalar before its first line, with the empty lines read so far. -/
def ofEmptyLines (emptyLines : List Char) : BlockText := ⟨[], none, emptyLines, false⟩

/-- Begins a line with its first character. In a folded scalar a line end between two
lines that begin with no blank becomes a space, or nothing when empty lines follow it. -/
def beginLine (literal : Bool) (block : BlockText) (c : Char) : BlockText :=
  let joined :=
    if !literal && block.lineEnd == some '\n' && !block.afterBlank && !isBlank c then
      if block.emptyLines.isEmpty then ' ' :: block.text else block.text
    else block.lineEnd.toList ++ block.text
  ⟨c :: (block.emptyLines ++ joined), none, [], isBlank c⟩

/-- The text once the last line is read. -/
def finish (chomping : Chomping) (block : BlockText) : List Char :=
  match chomping with
  | .strip => block.text.reverse
  | .clip => (block.lineEnd.toList ++ block.text).reverse
  | .keep => (block.emptyLines ++ (block.lineEnd.toList ++ block.text)).reverse

/-- Finds the indentation: the widest so far, and the empty lines passed. -/
def findIndentation (start : Mark) (widest : Nat) (emptyLines : List Char) (mark : Mark) :
    List Char → Except TextFault (Nat × List Char × Cursor)
  | [] => .ok (max widest mark.column, emptyLines, ⟨[], mark⟩)
  | c :: rest =>
    if c == ' ' then findIndentation start widest emptyLines mark.next rest
    else if c == '\t' then .error (.during .blockScalar start .tabAsIndentation mark)
    else if isBreak c then
      findIndentation start (max widest mark.column) (c :: emptyLines) mark.newline rest
    else .ok (max widest mark.column, emptyLines, ⟨c :: rest, mark⟩)

/-- Reads the lines that are indented to the column. -/
def readLines (start : Mark) (literal : Bool) (column : Nat) (block : BlockText) (inLine : Bool)
    (mark : Mark) : List Char → Except TextFault (BlockText × Cursor)
  | [] => .ok (block, ⟨[], mark⟩)
  | c :: rest =>
    if isBreak c then
      let block :=
        if inLine then { block with lineEnd := some c }
        else { block with emptyLines := c :: block.emptyLines }
      readLines start literal column block false mark.newline rest
    else if inLine then
      readLines start literal column { block with text := c :: block.text } true
        (mark.past [c]) rest
    else if mark.column == column then
      readLines start literal column (block.beginLine literal c) true (mark.past [c]) rest
    else if c == ' ' then readLines start literal column block false mark.next rest
    else if c == '\t' then .error (.during .blockScalar start .tabAsIndentation mark)
    else .ok (block, ⟨c :: rest, mark⟩)

/-- Reads a block scalar behind its indicator. `outer` is the indentation of the
surrounding block and `margin` the least column for what belongs to it. -/
def read (start : Mark) (literal : Bool) (outer margin : Nat) (cursor : Cursor) :
    Except TextFault (List Char × Cursor) := do
  let (header, cursor) ← BlockHeader.read start cursor
  let (column, emptyLines, cursor) ← match header.indentation with
    | some indentation => pure (outer + indentation, [], cursor)
    | none => do
      let (widest, emptyLines, cursor) ← findIndentation start 0 [] cursor.mark cursor.rest
      pure (max (max widest margin) 1, emptyLines, cursor)
  let (block, cursor) ←
    readLines start literal column (.ofEmptyLines emptyLines) false cursor.mark cursor.rest
  return (block.finish header.chomping, cursor)

theorem findIndentation_length_le {start mark : Mark} {widest : Nat} {emptyLines rest : List Char}
    {result : Nat × List Char × Cursor}
    (h : findIndentation start widest emptyLines mark rest = .ok result) :
    result.2.2.rest.length ≤ rest.length := by
  fun_induction findIndentation <;> grind

theorem readLines_length_le {start mark : Mark} {literal inLine : Bool} {column : Nat}
    {block : BlockText} {rest : List Char} {result : BlockText × Cursor}
    (h : readLines start literal column block inLine mark rest = .ok result) :
    result.2.rest.length ≤ rest.length := by
  fun_induction readLines <;> grind

theorem read_length_le {start : Mark} {literal : Bool} {outer margin : Nat} {cursor : Cursor}
    {result : List Char × Cursor} (h : read start literal outer margin cursor = .ok result) :
    result.2.rest.length ≤ cursor.rest.length := by
  obtain ⟨⟨header, first⟩, headed, h⟩ := bind_eq_ok.mp h
  dsimp only at h
  split at h
  · grind [→ BlockHeader.read_length_le, → readLines_length_le]
  · obtain ⟨⟨column, emptyLines, second⟩, found, h⟩ := bind_eq_ok.mp h
    grind [→ BlockHeader.read_length_le, → findIndentation_length_le, → readLines_length_le]

end BlockText

end Provisioning.Yaml
