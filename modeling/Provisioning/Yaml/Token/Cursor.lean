import Provisioning.Yaml.Character
import Provisioning.Yaml.Mark

/-!
# Where reading stands

A cursor is the text still to be read and the place where it starts. The movements
here stay within a line; `toToken` is the exception and crosses the blanks, comments
and line ends between tokens.
-/

namespace Provisioning.Yaml

/-- The text still to be read and its place. -/
structure Cursor where
  rest : List Char
  mark : Mark
deriving DecidableEq, Repr

namespace Cursor

/-- The next characters of one kind, none of which is a break. -/
def takeWhile (kind : Char → Bool) (cursor : Cursor) : List Char × Cursor :=
  let taken := cursor.rest.takeWhile kind
  (taken, ⟨cursor.rest.dropWhile kind, cursor.mark.past taken⟩)

/-- Past the next characters of one kind, none of which is a break. -/
def dropWhile (kind : Char → Bool) (cursor : Cursor) : Cursor := (cursor.takeWhile kind).2

/-- Past the blanks. -/
def skipBlanks (cursor : Cursor) : Cursor := cursor.dropWhile isBlank

/-- Past the blanks and a comment behind them, up to the end of the line. -/
def skipComment (cursor : Cursor) : Cursor :=
  let cursor := cursor.skipBlanks
  if startsWith '#' cursor.rest then cursor.dropWhile (fun c => !isBreak c) else cursor

/-- Past the line end, if the line ends here. -/
def skipBreak (cursor : Cursor) : Cursor :=
  match cursor.rest with
  | [] => cursor
  | c :: rest => if isBreak c then ⟨rest, cursor.mark.newline⟩ else cursor

/-- Past the blanks, comments and line ends in front of the next token, and past a byte
order mark at the start of the text. In block context a line end allows a key to begin,
and until a token follows no tab may indent it. The second part of the answer is whether
a key may now begin. -/
def toToken (inFlow : Bool) (inComment keyAllowed : Bool) (mark : Mark) :
    List Char → Cursor × Bool
  | [] => (⟨[], mark⟩, keyAllowed)
  | c :: rest =>
    if isBreak c then toToken inFlow false (keyAllowed || !inFlow) mark.newline rest
    else if inComment || c == '#' then toToken inFlow true keyAllowed (mark.past [c]) rest
    else if c == ' ' || (c == '\t' && (inFlow || !keyAllowed)) ||
        (c == '\uFEFF' && mark.atOrigin) then
      toToken inFlow false keyAllowed (mark.past [c]) rest
    else (⟨c :: rest, mark⟩, keyAllowed)

/-! ## What is left to read

No movement brings a text back, so what reads on to the end of a text ends. -/

theorem takeWhile_length_le (kind : Char → Bool) (cursor : Cursor) :
    (cursor.takeWhile kind).2.rest.length ≤ cursor.rest.length :=
  (List.dropWhile_suffix kind).length_le

theorem skipBlanks_length_le (cursor : Cursor) :
    cursor.skipBlanks.rest.length ≤ cursor.rest.length :=
  cursor.takeWhile_length_le isBlank

theorem skipComment_length_le (cursor : Cursor) :
    cursor.skipComment.rest.length ≤ cursor.rest.length := by
  have blanks := cursor.skipBlanks_length_le
  have comment := cursor.skipBlanks.takeWhile_length_le (fun c => !isBreak c)
  unfold skipComment
  dsimp only
  split
  · exact Nat.le_trans comment blanks
  · exact blanks

theorem skipBreak_length_le (cursor : Cursor) :
    cursor.skipBreak.rest.length ≤ cursor.rest.length := by
  unfold skipBreak
  split
  · exact Nat.le_refl _
  · next eq => split <;> simp [eq]

theorem skipLine_length_le (cursor : Cursor) :
    cursor.skipComment.skipBreak.rest.length ≤ cursor.rest.length :=
  Nat.le_trans (skipBreak_length_le _) (skipComment_length_le _)

theorem toToken_length_le (inFlow inComment keyAllowed : Bool) (mark : Mark) (rest : List Char) :
    (toToken inFlow inComment keyAllowed mark rest).1.rest.length ≤ rest.length := by
  fun_induction toToken <;> grind

end Cursor

end Provisioning.Yaml
