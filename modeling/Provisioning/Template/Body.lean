/-!
# Template bodies

A body is text with placeholders for fields. Filling it puts the value of each field in
the place of its placeholders, verbatim: nothing is escaped and a value is never looked
at again. As a text, a placeholder is the name of its field in double braces.
-/

namespace Provisioning.Template

/-- A part of a body: text that stands for itself, or a placeholder. -/
inductive Piece (φ : Type) where
  | literal (text : String)
  | field (field : φ)
deriving Repr

/-- A text with placeholders. -/
abbrev Body (φ : Type) := List (Piece φ)

namespace Body

variable {φ : Type}

/-- A line without placeholders. -/
def line (text : String) : Body φ := [.literal text, .literal "\n"]

/-- A line with one placeholder. -/
def lineWith (before : String) (field : φ) (after : String) : Body φ :=
  [.literal before, .field field, .literal after, .literal "\n"]

/-- The text of a body when each placeholder is replaced. -/
def fill (value : φ → String) (body : Body φ) : List Char :=
  body.flatMap fun
    | .literal text => text.toList
    | .field field => (value field).toList

/-- The placeholder of a field, given its name. -/
def placeholder (name : String) : String := "\x7b\x7b " ++ name ++ " \x7d\x7d"

/-- The text of a body with its placeholders, given the names of the fields. -/
def source (name : φ → String) (body : Body φ) : List Char :=
  body.fill (fun field => placeholder (name field))

end Body

end Provisioning.Template
