import Provisioning.Proofs.Template.Replacement
import Provisioning.Proofs.Yaml.Layout

/-!
# Bodies that spell layouts

A body is written line by line, and so is the text of a layout. `Spells` follows both at once:
each line of the body spells what the layout has on that line, and what is left of the body
spells what is left of the layout. Literals are known by their characters here, so that a line
is compared with the parts it is made of character by character.
-/

namespace Provisioning.Template.Body

open Yaml (Layout spaces indented)
open Yaml.Layout (itemsText membersText)

variable {φ : Type} {value : φ → String} {lines : List (Body φ)} {field : φ}
  {front back tail more rest text chars nameChars : List Char} {column inner : Nat}
  {whole before after name word : String} {member : Layout} {members : List (String × Layout)}
  {items : List Layout} {meaning : Json}

/-- **The lines of a body spell a text** once their placeholders are filled. -/
def Spells (value : φ → String) (lines : List (Body φ)) (text : List Char) : Prop :=
  fill value lines.flatten = text

/-! ## Single lines -/

theorem spells_nil : Spells value [] [] := rfl

theorem spells_line (hwhole : whole = String.ofList chars) (h : Spells value lines text) :
    Spells value (line whole :: lines) (chars ++ '\n' :: text) := by
  have hnewline : "\n".toList = ['\n'] := rfl
  have hline : fill value (line whole : Body φ) = chars ++ ['\n'] := by
    show whole.toList ++ ("\n".toList ++ []) = _
    rw [hnewline, hwhole, String.toList_ofList, List.append_nil]
  unfold Spells at h ⊢
  rw [List.flatten_cons, fill_append, hline, h, List.append_assoc]
  rfl

theorem spells_lineWith (hbefore : before = String.ofList front)
    (hafter : after = String.ofList back) (h : Spells value lines text) :
    Spells value (lineWith before field after :: lines)
      (front ++ ((value field).toList ++ (back ++ '\n' :: text))) := by
  have hnewline : "\n".toList = ['\n'] := rfl
  have hline : fill value (lineWith before field after)
      = front ++ ((value field).toList ++ (back ++ ['\n'])) := by
    show before.toList ++ ((value field).toList ++ (after.toList ++ ("\n".toList ++ []))) = _
    rw [hnewline, hbefore, hafter, String.toList_ofList, String.toList_ofList, List.append_nil]
  unfold Spells at h ⊢
  rw [List.flatten_cons, fill_append, hline, h]
  simp

/-! ## Members -/

/-- A line with a name and what its value has on this line; `more` is on the lines below. -/
theorem spells_member (hname : name = String.ofList nameChars)
    (hwhole : whole = String.ofList (front ++ (nameChars ++ ':' :: tail)))
    (htext : member.text false = tail ++ '\n' :: more)
    (h : Spells value lines (more ++ (membersText (spaces column) column members ++ rest))) :
    Spells value (line whole :: lines)
      (membersText front column ((name, member) :: members) ++ rest) := by
  have hsplit : membersText front column ((name, member) :: members) ++ rest
      = (front ++ (nameChars ++ ':' :: tail)) ++ '\n' ::
          (more ++ (membersText (spaces column) column members ++ rest)) := by
    rw [membersText, htext, hname, String.toList_ofList]
    simp
  rw [hsplit]
  exact spells_line hwhole h

/-- The same with a placeholder in the value. -/
theorem spells_memberWith (hname : name = String.ofList nameChars)
    (hbefore : before = String.ofList (front ++ (nameChars ++ ':' :: tail)))
    (hafter : after = String.ofList back)
    (htext : member.text false = tail ++ ((value field).toList ++ (back ++ '\n' :: more)))
    (h : Spells value lines (more ++ (membersText (spaces column) column members ++ rest))) :
    Spells value (lineWith before field after :: lines)
      (membersText front column ((name, member) :: members) ++ rest) := by
  have hsplit : membersText front column ((name, member) :: members) ++ rest
      = (front ++ (nameChars ++ ':' :: tail)) ++ ((value field).toList ++ (back ++ '\n' ::
          (more ++ (membersText (spaces column) column members ++ rest)))) := by
    rw [membersText, htext, hname, String.toList_ofList]
    simp
  rw [hsplit]
  exact spells_lineWith hbefore hafter h

/-! ## Values -/

theorem text_plain (hword : word = String.ofList chars) :
    (Layout.plain word meaning).text false = (' ' :: chars) ++ '\n' :: [] := by
  rw [Layout.text, hword, String.toList_ofList]
  rfl

theorem text_quoted (hword : word = String.ofList chars) :
    (Layout.quoted word).text false = (' ' :: '"' :: (chars ++ ['"'])) ++ '\n' :: [] := by
  rw [Layout.text, hword, String.toList_ofList]
  simp

theorem text_mapping (first : String × Layout) :
    (Layout.mapping inner (first :: members)).text false
      = [] ++ '\n' :: membersText (spaces inner) inner (first :: members) := rfl

theorem text_sequence (first : Layout) :
    (Layout.sequence inner (first :: items)).text false
      = [] ++ '\n' :: itemsText (spaces inner) inner (first :: items) := rfl

theorem text_literal (contents : List String) :
    (Layout.literal inner contents).text false
      = [' ', '|'] ++ '\n' :: indented inner (contents.map String.toList) := rfl

/-! ## Items -/

/-- A dash with a mapping right behind it. -/
theorem spells_item {first : String × Layout}
    (h : Spells value lines (membersText (front ++ ['-', ' ']) inner (first :: members)
      ++ (itemsText (spaces column) column items ++ rest))) :
    Spells value lines (itemsText front column (.mapping inner (first :: members) :: items)
      ++ rest) := by
  have hsplit : itemsText front column (.mapping inner (first :: members) :: items) ++ rest
      = membersText (front ++ ['-', ' ']) inner (first :: members)
        ++ (itemsText (spaces column) column items ++ rest) := by
    rw [itemsText, Layout.text, if_pos rfl, membersText, membersText]
    simp
  rw [hsplit]
  exact h

/-- A dash with a word behind it. -/
theorem spells_wordItem (hword : word = String.ofList chars)
    (hwhole : whole = String.ofList (front ++ ('-' :: ' ' :: chars)))
    (h : Spells value lines (itemsText (spaces column) column items ++ rest)) :
    Spells value (line whole :: lines)
      (itemsText front column (.plain word meaning :: items) ++ rest) := by
  have hsplit : itemsText front column (.plain word meaning :: items) ++ rest
      = (front ++ ('-' :: ' ' :: chars))
        ++ '\n' :: (itemsText (spaces column) column items ++ rest) := by
    rw [itemsText, Layout.text, hword, String.toList_ofList]
    simp
  rw [hsplit]
  exact spells_line hwhole h

/-! ## Literal lines -/

theorem spells_indented {others : List String} (hword : word = String.ofList chars)
    (hwhole : whole = String.ofList (spaces column ++ chars))
    (h : Spells value lines (indented column (others.map String.toList) ++ rest)) :
    Spells value (line whole :: lines)
      (indented column ((word :: others).map String.toList) ++ rest) := by
  have hsplit : indented column ((word :: others).map String.toList) ++ rest
      = (spaces column ++ chars)
        ++ '\n' :: (indented column (others.map String.toList) ++ rest) := by
    rw [List.map_cons, indented, hword, String.toList_ofList]
    simp
  rw [hsplit]
  exact spells_line hwhole h

/-- A literal line with a placeholder in it. -/
theorem spells_indentedWith {others : List String} {first last : String}
    (hfirst : first = String.ofList front) (hlast : last = String.ofList back)
    (hbefore : before = String.ofList (spaces column ++ front))
    (hafter : after = String.ofList back)
    (h : Spells value lines (indented column (others.map String.toList) ++ rest)) :
    Spells value (lineWith before field after :: lines)
      (indented column (((first ++ value field ++ last) :: others).map String.toList) ++ rest) := by
  have hsplit : indented column (((first ++ value field ++ last) :: others).map String.toList)
      ++ rest
      = (spaces column ++ front) ++ ((value field).toList ++ (back ++ '\n' ::
          (indented column (others.map String.toList) ++ rest))) := by
    rw [List.map_cons, indented, String.toList_append, String.toList_append, hfirst, hlast,
      String.toList_ofList, String.toList_ofList]
    simp
  rw [hsplit]
  exact spells_lineWith hbefore hafter h

end Provisioning.Template.Body
