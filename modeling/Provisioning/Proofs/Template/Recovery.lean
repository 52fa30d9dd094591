import Provisioning.Proofs.Template.Replacement

/-!
# Recovering values from a filled body

A filled body determines what it was filled with, as long as no value ends a line. A value may
hold anything else, even text of the body, but where its line ends is known, and what stands
behind it on this line is the same whatever the values are. So two fillings that are one text
agree line by line.
-/

namespace Provisioning.Template.Body

variable {φ : Type} {v w : φ → String}

/-- The rest of a line behind a field is the same in every filling. -/
theorem fill_of_endsLine : ∀ body : Body φ, endsLine body = true →
    ∃ first : List Char, '\n' ∉ first ∧
      ∀ value : φ → String, ∃ others, fill value body = first ++ '\n' :: others := by
  intro body
  induction body with
  | nil => intro h; exact absurd h (by simp [endsLine])
  | cons piece rest ih =>
    intro h
    cases piece with
    | field field => exact absurd h (by simp [endsLine])
    | literal text =>
      by_cases hline : '\n' ∈ text.toList
      · obtain ⟨first, others, hfirst, htext⟩ := List.eq_append_cons_of_mem hline
        refine ⟨first, htext, fun value => ⟨others ++ fill value rest, ?_⟩⟩
        rw [fill_literal, hfirst, List.append_assoc, List.cons_append]
      · have hrest : endsLine rest = true := by
          rw [endsLine, Bool.or_eq_true] at h
          exact h.resolve_left fun hmem => hline (List.contains_iff_mem.mp hmem)
        obtain ⟨first, hfirst, hfill⟩ := ih hrest
        refine ⟨text.toList ++ first, ?_, fun value => ?_⟩
        · intro hmem
          exact (List.mem_append.mp hmem).elim hline hfirst
        · obtain ⟨others, hothers⟩ := hfill value
          exact ⟨others, by rw [fill_literal, hothers, List.append_assoc]⟩

/-- Two texts without line ends are the same if they stand before line ends of the same text. -/
theorem line_unique : ∀ {a b x y : List Char}, '\n' ∉ a → '\n' ∉ b →
    a ++ '\n' :: x = b ++ '\n' :: y → a = b := by
  intro a
  induction a with
  | nil =>
    intro b x y _ hb h
    cases b with
    | nil => rfl
    | cons c b => exact absurd (by rw [← (List.cons.inj h).1]; simp) hb
  | cons c a ih =>
    intro b x y ha hb h
    cases b with
    | nil => exact absurd (by rw [(List.cons.inj h).1]; simp) ha
    | cons d b =>
      obtain ⟨hc, h⟩ := List.cons.inj h
      have ha' : '\n' ∉ a := fun hmem => ha (List.mem_cons_of_mem c hmem)
      have hb' : '\n' ∉ b := fun hmem => hb (List.mem_cons_of_mem d hmem)
      rw [hc, ih ha' hb' h]

/-- A value that ends no line is known from the text that begins with it and goes on alike. -/
theorem value_of_line {a b first x y : List Char} (ha : '\n' ∉ a) (hb : '\n' ∉ b)
    (hfirst : '\n' ∉ first) (h : a ++ (first ++ '\n' :: x) = b ++ (first ++ '\n' :: y)) :
    a = b := by
  rw [← List.append_assoc, ← List.append_assoc] at h
  have hleft : '\n' ∉ a ++ first := fun hmem => (List.mem_append.mp hmem).elim ha hfirst
  have hright : '\n' ∉ b ++ first := fun hmem => (List.mem_append.mp hmem).elim hb hfirst
  exact List.append_cancel_right (line_unique hleft hright h)

/--
**A filled body determines its values**, if these stay on their lines.

The body is followed piece by piece. A literal part is the same on both sides; a field is followed
by a line end that no value can have moved.
-/
theorem value_eq_of_fill_eq (hv : ∀ field, '\n' ∉ (v field).toList)
    (hw : ∀ field, '\n' ∉ (w field).toList) :
    ∀ body : Body φ, isTidy body = true → fill v body = fill w body →
      ∀ field, Piece.field field ∈ body → v field = w field := by
  intro body
  induction body with
  | nil => intro _ _ field hmem; exact absurd hmem (by simp)
  | cons piece rest ih =>
    intro htidy h field hmem
    cases piece with
    | literal text =>
      rw [isTidy, Bool.and_eq_true] at htidy
      rw [fill_literal, fill_literal] at h
      have hmem' : Piece.field field ∈ rest := (List.mem_cons.mp hmem).resolve_left (by simp)
      exact ih htidy.2 (List.append_cancel_left h) field hmem'
    | field other =>
      rw [isTidy, Bool.and_eq_true] at htidy
      rw [fill_field, fill_field] at h
      obtain ⟨first, hfirst, hfill⟩ := fill_of_endsLine rest htidy.1
      obtain ⟨x, hx⟩ := hfill v
      obtain ⟨y, hy⟩ := hfill w
      have hother : (v other).toList = (w other).toList := by
        have hline := h
        rw [hx, hy] at hline
        exact value_of_line (hv other) (hw other) hfirst hline
      rcases List.mem_cons.mp hmem with he | hmem'
      · cases he
        exact String.toList_inj.mp hother
      · rw [hother] at h
        exact ih htidy.2 (List.append_cancel_left h) field hmem'

end Provisioning.Template.Body
