import Provisioning.Fault
import Provisioning.Template.Body

/-!
# The template engine

The engine is given a text and a context of named values. It cuts the text at its braces into
a body, and then puts the values of the context in the place of the names: nothing is escaped,
a line end at the end is kept, and a name without a value is a fault. So there are two ways to
fail, on the text alone and on the context.

Braces hold a name with blanks around it, and nothing else. Engines know more, statements,
comments and expressions, but no body has any of these, and here they are refused.
-/

namespace Provisioning.Template.Engine

/-- What is wrong with a text that cannot be cut. -/
def unreadable : TemplateFault := ⟨.syntaxError, none⟩

/-- What is wrong with a name that has no value. -/
def undefinedName : TemplateFault := ⟨.undefinedValue, none⟩

/-! ## Cutting a text -/

/-- May a character stand between a name and the braces? -/
def isBlank (c : Char) : Bool := c == ' ' || c == '\t' || c == '\n' || c == '\r'

/-- May a character begin a name? -/
def beginsName (c : Char) : Bool := c.isAlpha || c == '_'

/-- May a character follow in a name? -/
def continuesName (c : Char) : Bool := c.isAlphanum || c == '_'

/-- Is a text a name? -/
def isName : List Char → Bool
  | [] => false
  | c :: rest => beginsName c && rest.all continuesName

/-- A text without the blanks at its two ends. -/
def trim (text : List Char) : List Char :=
  ((text.dropWhile isBlank).reverse.dropWhile isBlank).reverse

/-- The pieces of a text. Outside of braces it stands for itself, up to the next pair of opening
braces; between braces stands a name, up to the next pair of closing ones. `passed` is what was
passed on this side so far, the latest character first. -/
def cut (inBraces : Bool) (passed : List Char) : List Char → Except TemplateFault (Body String)
  | c :: d :: rest =>
    match inBraces with
    | false =>
      if c == '\x7b' && d == '\x7b' then do
        let pieces ← cut true [] rest
        return .literal (String.ofList passed.reverse) :: pieces
      else if c == '\x7b' && (d == '%' || d == '#') then .error unreadable
      else cut false (c :: passed) (d :: rest)
    | true =>
      if c == '\x7d' && d == '\x7d' then
        if isName (trim passed.reverse) then do
          let pieces ← cut false [] rest
          return .field (String.ofList (trim passed.reverse)) :: pieces
        else .error unreadable
      else cut true (c :: passed) (d :: rest)
  | last =>
    if inBraces then .error unreadable
    else .ok [.literal (String.ofList (passed.reverse ++ last))]

/-! ## Filling what was cut -/

/-- The text of a body whose names have the values of a context. -/
def fill (context : List (String × String)) : Body String → Except TemplateFault (List Char)
  | [] => .ok []
  | .literal text :: rest => do
    let filled ← fill context rest
    return text.toList ++ filled
  | .field name :: rest =>
    match context.lookup name with
    | none => .error undefinedName
    | some value => do
      let filled ← fill context rest
      return value.toList ++ filled

/-- Renders a text in a context. -/
def render (source : String) (context : List (String × String)) : Except Fault String := do
  let pieces ← (cut false [] source.toList).mapError .parse
  let text ← (fill context pieces).mapError .execute
  return String.ofList text

end Provisioning.Template.Engine
