import Provisioning.Yaml.Token.Block
import Provisioning.Yaml.Token.Pending
import Provisioning.Yaml.Token.Plain
import Provisioning.Yaml.Token.Property
import Provisioning.Yaml.Token.Quoted

/-!
# The tokens of a text

`Lexer.run` reads a text into its tokens, up to the first fault. A fault does not take
back the tokens in front of it, except those that a late colon could still have
rearranged: nothing can be said of them any more. Every step takes at least one
character (`step_length_lt`), so the reading ends.

The lexer knows the columns of the open block collections and, per flow level, the
tokens with the place where a key may have begun. Whether a key may begin at all is
decided by what came before: at the start of a line in block context, and behind the
punctuation of flow collections.
-/

namespace Provisioning.Yaml

open Provisioning.Outcome (bind_eq_ok)

/-- The state between two tokens. -/
structure Lexer where
  cursor : Cursor
  /-- The columns of the open block collections, the innermost first. -/
  indents : List Nat
  /-- The tokens of the current flow level; in block context, of the text. -/
  level : Pending
  /-- The flow levels around it, the innermost first. -/
  outer : List Pending
  /-- May a key in short form begin here? -/
  keyAllowed : Bool
deriving DecidableEq, Repr

namespace Lexer

/-- The state at the start of a text. -/
def ofText (text : List Char) : Lexer := ⟨⟨text, .origin⟩, [], .empty, [], true⟩

/-- The place of the next character. -/
def mark (lexer : Lexer) : Mark := lexer.cursor.mark

/-- Is this inside a flow collection? -/
def inFlow (lexer : Lexer) : Bool := !lexer.outer.isEmpty

/-- The least column for what belongs to the current block collection. -/
def margin (lexer : Lexer) : Nat :=
  match lexer.indents with
  | [] => 0
  | indent :: _ => indent + 1

/-- A token behind all others. -/
def push (lexer : Lexer) (kind : Token.Kind) (start stop : Mark) : Lexer :=
  { lexer with level := lexer.level.push ⟨kind, start, stop⟩ }

/-- An indicator of `count` characters: the token and the cursor behind it. -/
def indicator (lexer : Lexer) (kind : Token.Kind) (count : Nat) : Lexer :=
  let stop := lexer.mark.right count
  { lexer.push kind lexer.mark stop with cursor := ⟨lexer.cursor.rest.drop count, stop⟩ }

/-! ## Keys in short form -/

/-- A key may not have begun on this level after all. -/
def abandonKey (lexer : Lexer) : Except TextFault Lexer := do
  let level ← lexer.level.abandon lexer.mark
  return { lexer with level }

/-- A key may begin here, if one may begin at all; the one before it is given up. -/
def expectKey (lexer : Lexer) : Except TextFault Lexer :=
  if lexer.keyAllowed then do
    let lexer ← lexer.abandonKey
    let required := !lexer.inFlow && lexer.indents.head? == some lexer.mark.column
    return { lexer with level := lexer.level.expectKey ⟨lexer.mark, required⟩ }
  else return lexer

/-- Keys that began too far back are given up on every level. -/
def expireKeys (lexer : Lexer) : Except TextFault Lexer := do
  let outer ← lexer.outer.mapM (·.expire lexer.mark)
  let level ← lexer.level.expire lexer.mark
  return { lexer with level, outer }

/-! ## Block collections -/

/-- Closes the innermost block collections whose column is too deep. -/
def closeBlocks (deeper : Nat → Bool) (lexer : Lexer) : Lexer :=
  if lexer.inFlow then lexer
  else
    let closed := lexer.indents.takeWhile deeper
    { lexer with
      indents := lexer.indents.dropWhile deeper
      level := lexer.level.append (closed.map (fun _ => ⟨.blockEnd, lexer.mark, lexer.mark⟩)) }

/-- Closes all block collections. -/
def closeAllBlocks (lexer : Lexer) : Lexer := lexer.closeBlocks (fun _ => true)

/-- The token that opens a block collection at a place, and the columns with it, if the
place is deep enough for a new one. -/
def opening (lexer : Lexer) (kind : Token.Kind) (mark : Mark) : List Token × List Nat :=
  if !lexer.inFlow && lexer.margin ≤ mark.column then
    ([⟨kind, mark, mark⟩], mark.column :: lexer.indents)
  else ([], lexer.indents)

/-- Opens a block collection here, if this is deep enough for a new one. -/
def openBlock (lexer : Lexer) (kind : Token.Kind) : Lexer :=
  let (opened, indents) := lexer.opening kind lexer.mark
  { lexer with indents, level := lexer.level.append opened }

/-! ## One token -/

/-- `[` or `\x7b`: the collection may itself be a key. -/
def flowStart (kind : Token.Kind) (lexer : Lexer) : Except TextFault Lexer := do
  let lexer ← lexer.expectKey
  let lexer := lexer.indicator kind 1
  return { lexer with level := .empty, outer := lexer.level :: lexer.outer, keyAllowed := true }

/-- `]` or `\x7d`: the tokens inside join those outside. -/
def flowEnd (kind : Token.Kind) (lexer : Lexer) : Except TextFault Lexer := do
  let lexer ← lexer.abandonKey
  let lexer := match lexer.outer with
    | [] => lexer
    | around :: outer => { lexer with level := around.append lexer.level.before, outer }
  return { lexer.indicator kind 1 with keyAllowed := false }

/-- `,` inside a flow collection; outside of one it is refused later. -/
def flowEntry (lexer : Lexer) : Except TextFault Lexer := do
  let lexer ← lexer.abandonKey
  return { lexer.indicator .flowEntry 1 with keyAllowed := true }

/-- `-` in front of an entry; inside a flow collection it is refused later. -/
def blockEntry (lexer : Lexer) : Except TextFault Lexer := do
  if !lexer.inFlow && !lexer.keyAllowed then
    .error ⟨.sequenceEntryMisplaced, lexer.mark, none⟩
  else
    let lexer ← (lexer.openBlock .blockSequenceStart).abandonKey
    return { lexer.indicator .blockEntry 1 with keyAllowed := true }

/-- `?` in front of a key of any form. -/
def explicitKey (lexer : Lexer) : Except TextFault Lexer := do
  if !lexer.inFlow && !lexer.keyAllowed then
    .error ⟨.mappingKeyMisplaced, lexer.mark, none⟩
  else
    let lexer ← (lexer.openBlock .blockMappingStart).abandonKey
    return { lexer.indicator .key 1 with keyAllowed := !lexer.inFlow }

/-- `:` in front of a value, which settles that a key in short form began before. -/
def value (lexer : Lexer) : Except TextFault Lexer :=
  match lexer.level.key with
  | some key =>
    let (opened, indents) := lexer.opening .blockMappingStart key.mark
    let level := lexer.level.confirm (⟨.key, key.mark, key.mark⟩ :: opened)
    return { { lexer with indents, level }.indicator .value 1 with keyAllowed := false }
  | none =>
    if !lexer.inFlow && !lexer.keyAllowed then
      .error ⟨.mappingValueMisplaced, lexer.mark, none⟩
    else
      return { (lexer.openBlock .blockMappingStart).indicator .value 1 with
               keyAllowed := !lexer.inFlow }

/-- A document boundary, which closes all blocks. -/
def boundary (kind : Token.Kind) (lexer : Lexer) : Except TextFault Lexer := do
  let lexer ← lexer.closeAllBlocks.abandonKey
  return { lexer.indicator kind 3 with keyAllowed := false }

/-- A directive behind `%`, which closes all blocks. -/
def directive (lexer : Lexer) (rest : List Char) : Except TextFault Lexer := do
  let lexer ← lexer.closeAllBlocks.abandonKey
  let start := lexer.mark
  let (directive, stop, cursor) ← Directive.read start ⟨rest, start.next⟩
  let kind := match directive with
    | .version major minor => .versionDirective major minor
    | .tag handle stem => .tagDirective handle stem
  return { lexer.push kind start stop with cursor, keyAllowed := false }

/-- A token of a node that may be a key in short form; the first character is read. -/
def nodeToken (read : Mark → Cursor → Except TextFault (Token.Kind × Cursor)) (lexer : Lexer)
    (rest : List Char) : Except TextFault Lexer := do
  let lexer ← lexer.expectKey
  let start := lexer.mark
  let (kind, cursor) ← read start ⟨rest, start.next⟩
  return { lexer.push kind start cursor.mark with cursor, keyAllowed := false }

/-- An anchor behind `&`. -/
def anchor : Lexer → List Char → Except TextFault Lexer :=
  nodeToken fun start cursor => do
    let (name, cursor) ← readName .anchor start cursor
    return (.anchor name, cursor)

/-- An alias behind `*`. -/
def aliasTo : Lexer → List Char → Except TextFault Lexer :=
  nodeToken fun start cursor => do
    let (name, cursor) ← readName .aliasName start cursor
    return (.aliasTo name, cursor)

/-- A tag, from its `!` on. -/
def tag (lexer : Lexer) : List Char → Except TextFault Lexer :=
  nodeToken (fun start cursor => do
    let ((handle, octets), cursor) ← readTag lexer.inFlow start ⟨'!' :: cursor.rest, start⟩
    return (.tag handle octets, cursor)) lexer

/-- A scalar behind its opening single quote. -/
def singleQuoted : Lexer → List Char → Except TextFault Lexer :=
  nodeToken fun start cursor => do
    let scalar ← QuotedScalar.readSingle start [] .closed cursor.mark cursor.rest
    return (.scalar scalar.text .singleQuoted, scalar.cursor)

/-- A scalar behind its opening double quote. -/
def doubleQuoted : Lexer → List Char → Except TextFault Lexer :=
  nodeToken fun start cursor => do
    let scalar ← QuotedScalar.readDouble start [] .closed none cursor.mark cursor.rest
    return (.scalar scalar.text .doubleQuoted, scalar.cursor)

/-- A plain scalar that begins with `c`. Behind it a key may begin if it crossed a line end. -/
def plain (lexer : Lexer) (c : Char) (rest : List Char) : Except TextFault Lexer := do
  let lexer ← lexer.expectKey
  let start := lexer.mark
  let scalar ←
    PlainScalar.read ⟨start, lexer.inFlow, lexer.margin⟩ [c] .closed (start.past [c])
      (start.past [c]) rest
  return { lexer.push (.scalar scalar.text .plain) start scalar.stop with
           cursor := scalar.cursor, keyAllowed := scalar.crossedBreak }

/-- A block scalar behind its indicator. It is never a key, but one may follow it. -/
def block (style : ScalarStyle) (lexer : Lexer) (rest : List Char) : Except TextFault Lexer := do
  let lexer ← lexer.abandonKey
  let start := lexer.mark
  let (text, cursor) ←
    BlockText.read start (style == .literal) (lexer.indents.headD 0) lexer.margin ⟨rest, start.next⟩
  return { lexer.push (.scalar text style) start cursor.mark with cursor, keyAllowed := true }

/-- Characters with a meaning of their own at the start of a token. -/
def isIndicator (c : Char) : Bool :=
  isFlowPunctuation c || c == '-' || c == '?' || c == ':' || c == '#' || c == '&' || c == '*' ||
    c == '!' || c == '|' || c == '>' || c == '\'' || c == '"' || c == '%' || c == '@' || c == '\x60'

/-- May a plain scalar begin with this character? -/
def beginsPlain (inFlow : Bool) (c : Char) (rest : List Char) : Bool :=
  (!isBlank c && !isBreak c && !isIndicator c) ||
    (c == '-' && !(startsWith ' ' rest || startsWith '\t' rest)) ||
    (!inFlow && (c == '?' || c == ':') && !endsWord rest)

/-- What a token is, which its first characters tell. -/
inductive Form where
  | directive
  | boundary (kind : Token.Kind)
  | flowStart (kind : Token.Kind)
  | flowEnd (kind : Token.Kind)
  | flowEntry
  | blockEntry
  | explicitKey
  | value
  | aliasTo
  | anchor
  | tag
  | block (style : ScalarStyle)
  | singleQuoted
  | doubleQuoted
  | plain
deriving DecidableEq, Repr

/-- What the token is that begins with `c`, if any does. -/
def form? (lexer : Lexer) (c : Char) (rest : List Char) : Option Form :=
  let atLineStart := lexer.mark.column == 0
  if atLineStart && c == '%' then some .directive
  else if atLineStart && isBoundary (c :: rest) then
    some (.boundary (if c == '-' then .documentStart else .documentEnd))
  else if c == '[' then some (.flowStart .flowSequenceStart)
  else if c == '\x7b' then some (.flowStart .flowMappingStart)
  else if c == ']' then some (.flowEnd .flowSequenceEnd)
  else if c == '\x7d' then some (.flowEnd .flowMappingEnd)
  else if c == ',' then some .flowEntry
  else if c == '-' && endsWord rest then some .blockEntry
  else if c == '?' && (lexer.inFlow || endsWord rest) then some .explicitKey
  else if c == ':' && (lexer.inFlow || endsWord rest) then some .value
  else if c == '*' then some .aliasTo
  else if c == '&' then some .anchor
  else if c == '!' then some .tag
  else if c == '|' && !lexer.inFlow then some (.block .literal)
  else if c == '>' && !lexer.inFlow then some (.block .folded)
  else if c == '\'' then some .singleQuoted
  else if c == '"' then some .doubleQuoted
  else if beginsPlain lexer.inFlow c rest then some .plain
  else none

/-- Reads the token that begins with `c`. -/
def token (lexer : Lexer) (c : Char) (rest : List Char) : Except TextFault Lexer :=
  match lexer.form? c rest with
  | some .directive => lexer.directive rest
  | some (.boundary kind) => lexer.boundary kind
  | some (.flowStart kind) => lexer.flowStart kind
  | some (.flowEnd kind) => lexer.flowEnd kind
  | some .flowEntry => lexer.flowEntry
  | some .blockEntry => lexer.blockEntry
  | some .explicitKey => lexer.explicitKey
  | some .value => lexer.value
  | some .aliasTo => lexer.aliasTo rest
  | some .anchor => lexer.anchor rest
  | some .tag => lexer.tag rest
  | some (.block style) => lexer.block style rest
  | some .singleQuoted => lexer.singleQuoted rest
  | some .doubleQuoted => lexer.doubleQuoted rest
  | some .plain => lexer.plain c rest
  | none => .error (.during .nextToken lexer.mark .noTokenStartsHere lexer.mark)

/-! ## Every token is read from what is left -/

section Shortening

variable {lexer next : Lexer}

theorem abandonKey_cursor (h : lexer.abandonKey = .ok next) : next.cursor = lexer.cursor := by
  grind [abandonKey]

theorem expectKey_cursor (h : lexer.expectKey = .ok next) : next.cursor = lexer.cursor := by
  grind [expectKey, → abandonKey_cursor]

theorem expireKeys_cursor (h : lexer.expireKeys = .ok next) : next.cursor = lexer.cursor := by
  grind [expireKeys]

theorem closeBlocks_cursor (deeper : Nat → Bool) :
    (lexer.closeBlocks deeper).cursor = lexer.cursor := by
  grind [closeBlocks]

theorem openBlock_cursor (kind : Token.Kind) : (lexer.openBlock kind).cursor = lexer.cursor := rfl

theorem indicator_rest (kind : Token.Kind) (count : Nat) :
    (lexer.indicator kind count).cursor.rest = lexer.cursor.rest.drop count := rfl

theorem nodeToken_length_le {read : Mark → Cursor → Except TextFault (Token.Kind × Cursor)}
    {rest : List Char}
    (shortens : ∀ start cursor kind behind,
      read start cursor = .ok (kind, behind) → behind.rest.length ≤ cursor.rest.length)
    (h : lexer.nodeToken read rest = .ok next) : next.cursor.rest.length ≤ rest.length := by
  obtain ⟨ready, expect, h⟩ := bind_eq_ok.mp h
  obtain ⟨⟨kind, behind⟩, done, h⟩ := bind_eq_ok.mp h
  cases h
  exact shortens _ _ _ _ done

/-- What is left behind a token is at most what is left behind its first character. -/
theorem token_length_le {c : Char} {rest : List Char} (here : lexer.cursor.rest = c :: rest)
    (h : lexer.token c rest = .ok next) : next.cursor.rest.length ≤ rest.length := by
  unfold token at h
  split at h
  · grind [directive, closeAllBlocks, closeBlocks_cursor, → abandonKey_cursor,
      → Directive.read_length_le]
  · grind [boundary, closeAllBlocks, closeBlocks_cursor, → abandonKey_cursor, indicator_rest]
  · grind [flowStart, → expectKey_cursor, indicator_rest]
  · grind [flowEnd, → abandonKey_cursor, indicator_rest]
  · grind [flowEntry, → abandonKey_cursor, indicator_rest]
  · grind [blockEntry, openBlock_cursor, → abandonKey_cursor, indicator_rest]
  · grind [explicitKey, openBlock_cursor, → abandonKey_cursor, indicator_rest]
  · grind [value, openBlock_cursor, indicator_rest]
  · refine nodeToken_length_le ?_ h
    grind [→ readName_length_le]
  · refine nodeToken_length_le ?_ h
    grind [→ readName_length_le]
  · refine nodeToken_length_le ?_ h
    grind [→ readTag_length_lt]
  · grind [block, → abandonKey_cursor, → BlockText.read_length_le]
  · refine nodeToken_length_le ?_ h
    grind [→ QuotedScalar.readSingle_length_le]
  · refine nodeToken_length_le ?_ h
    grind [→ QuotedScalar.readDouble_length_le]
  · grind [plain, → expectKey_cursor, → PlainScalar.read_length_le]
  · cases h

end Shortening

/-! ## All tokens -/

/-- Goes to the next token and closes the blocks it does not belong to. -/
def toToken (lexer : Lexer) : Except TextFault Lexer := do
  let (cursor, keyAllowed) :=
    Cursor.toToken lexer.inFlow false lexer.keyAllowed lexer.mark lexer.cursor.rest
  let lexer ← { lexer with cursor, keyAllowed }.expireKeys
  return lexer.closeBlocks (lexer.mark.column < ·)

/-- The state behind the end of the text, which counts as the start of a line. -/
def finish (lexer : Lexer) : Except TextFault Lexer := do
  let mark := if lexer.mark.column == 0 then lexer.mark else lexer.mark.newline
  let lexer ← { lexer with cursor := ⟨[], mark⟩ }.closeAllBlocks.abandonKey
  (lexer.push .streamEnd mark mark).expireKeys

/-- Where one step leads: behind a token, or behind the end of the text. -/
inductive Step where
  | token (lexer : Lexer)
  | finished (lexer : Lexer)
deriving DecidableEq, Repr

/-- Reads the next token or the end of the text. -/
def step (lexer : Lexer) : Except TextFault Step := do
  let lexer ← lexer.toToken
  match lexer.cursor.rest with
  | [] => return .finished (← lexer.finish)
  | c :: rest => return .token (← (← lexer.token c rest).expireKeys)

theorem toToken_length_le {lexer next : Lexer} (h : lexer.toToken = .ok next) :
    next.cursor.rest.length ≤ lexer.cursor.rest.length := by
  have := Cursor.toToken_length_le lexer.inFlow false lexer.keyAllowed lexer.mark lexer.cursor.rest
  grind [toToken, closeBlocks_cursor, → expireKeys_cursor]

/-- A step over a token takes at least one character. -/
theorem step_length_lt {lexer next : Lexer} (h : lexer.step = .ok (.token next)) :
    next.cursor.rest.length < lexer.cursor.rest.length := by
  obtain ⟨ready, gap, h⟩ := bind_eq_ok.mp h
  have := toToken_length_le gap
  split at h
  · grind
  · obtain ⟨behind, read, h⟩ := bind_eq_ok.mp h
    obtain ⟨last, expire, h⟩ := bind_eq_ok.mp h
    grind [→ token_length_le, → expireKeys_cursor]

/-- The tokens that nothing can change any more. -/
def deliverable (lexer : Lexer) : List Token :=
  Pending.deliverable (lexer.outer.reverse ++ [lexer.level])

/-- All tokens up to the first fault, and the fault. What the failing step itself settled is
not delivered. -/
def run (lexer : Lexer) : List Token × Option TextFault :=
  match _ : lexer.step with
  | .error fault => (lexer.deliverable, some fault)
  | .ok (.finished next) => (next.deliverable, none)
  | .ok (.token next) => next.run
termination_by lexer.cursor.rest.length
decreasing_by exact step_length_lt ‹_›

theorem run_of_token {lexer next : Lexer} (h : lexer.step = .ok (.token next)) :
    lexer.run = next.run := by
  rw [run]
  split <;> simp_all

theorem run_of_finished {lexer next : Lexer} (h : lexer.step = .ok (.finished next)) :
    lexer.run = (next.deliverable, none) := by
  rw [run]
  split <;> simp_all

theorem run_of_error {lexer : Lexer} {fault : TextFault} (h : lexer.step = .error fault) :
    lexer.run = (lexer.deliverable, some fault) := by
  rw [run]
  split <;> simp_all

end Lexer

end Provisioning.Yaml
