import Mathlib.Data.List.Forall2
import Provisioning.Outcome

/-!
# Lists related one by one

A list that is computed from another member by member, perhaps with a fault, is related to it
one by one. What is known of the members is brought over by way of their partners.
-/

namespace Provisioning.Partners

variable {ε α β : Type}

/-- Each member of a list has a partner in a list that it is related to one by one. -/
theorem exists_partner {related : α → β → Prop} {as : List α} {bs : List β}
    (h : List.Forall₂ related as bs) : ∀ a ∈ as, ∃ b ∈ bs, related a b := by
  induction h with
  | nil => simp
  | cons hab _ ih =>
    rw [List.forall_mem_cons]
    refine ⟨⟨_, List.mem_cons_self, hab⟩, fun a ha => ?_⟩
    obtain ⟨b, hb, hrelated⟩ := ih a ha
    exact ⟨b, List.mem_cons_of_mem _ hb, hrelated⟩

/-- If each member of a list has something that it is related to, then so has the list. -/
theorem exists_partners {related : α → β → Prop} {as : List α}
    (h : ∀ a ∈ as, ∃ b, related a b) : ∃ bs, List.Forall₂ related as bs := by
  induction as with
  | nil => exact ⟨[], .nil⟩
  | cons a as ih =>
    obtain ⟨⟨b, hb⟩, has⟩ := List.forall_mem_cons.mp h
    obtain ⟨bs, hbs⟩ := ih has
    exact ⟨b :: bs, .cons hb hbs⟩

/-- What leads back from the partners of a list leads back to the list. -/
theorem map_partners {related : α → β → Prop} {back : β → α} {as : List α}
    {bs : List β} (h : List.Forall₂ related as bs)
    (hback : ∀ a ∈ as, ∀ b, related a b → back b = a) : bs.map back = as := by
  induction h with
  | nil => rfl
  | cons hab _ ih =>
    obtain ⟨hfirst, hrest⟩ := List.forall_mem_cons.mp hback
    rw [List.map_cons, hfirst _ hab, ih hrest]

/-- Partners of a list are related to whatever is made of its members. -/
theorem partners_map {γ : Type} {related : α → β → Prop} {other : β → γ → Prop} {make : α → γ}
    {as : List α} {bs : List β} (h : List.Forall₂ related as bs)
    (hmake : ∀ a ∈ as, ∀ b, related a b → other b (make a)) :
    List.Forall₂ other bs (as.map make) := by
  induction h with
  | nil => exact .nil
  | cons hab _ ih =>
    obtain ⟨hfirst, hrest⟩ := List.forall_mem_cons.mp hmake
    exact .cons (hfirst _ hab) (ih hrest)

/-- Partners of partners are partners. -/
theorem partners_trans {γ : Type} {related : α → β → Prop} {other : β → γ → Prop}
    {both : α → γ → Prop} {as : List α} {bs : List β} (h : List.Forall₂ related as bs)
    (hboth : ∀ a b c, related a b → other b c → both a c) :
    ∀ {cs : List γ}, List.Forall₂ other bs cs → List.Forall₂ both as cs := by
  induction h with
  | nil => intro cs h; rw [List.forall₂_nil_left_iff.mp h]; exact .nil
  | cons hab _ ih =>
    intro cs h
    obtain ⟨c, cs, hbc, hcs, rfl⟩ := List.forall₂_cons_left_iff.mp h
    exact .cons (hboth _ _ _ hab hbc) (ih hcs)

/-- Pairs with equal names and related parts. -/
theorem pairs_iff {κ : Type} {related : α → β → Prop} : ∀ {as : List (κ × α)} {bs : List (κ × β)},
    List.Forall₂ (fun a b => a.1 = b.1 ∧ related a.2 b.2) as bs ↔
      as.map Prod.fst = bs.map Prod.fst ∧
        List.Forall₂ related (as.map Prod.snd) (bs.map Prod.snd) := by
  intro as
  induction as with
  | nil =>
    intro bs
    cases bs <;> simp
  | cons a as ih =>
    intro bs
    cases bs with
    | nil => simp
    | cons b bs =>
      simp only [List.forall₂_cons, List.map_cons, List.cons.injEq, ih]
      exact ⟨fun h => ⟨⟨h.1.1, h.2.1⟩, h.1.2, h.2.2⟩, fun h => ⟨⟨h.1.1, h.2.1⟩, h.1.2, h.2.2⟩⟩

/-- Steps taken on every member succeed when each of them does. -/
theorem mapM_eq_ok {step : α → Except ε β} : ∀ {as : List α} {bs : List β},
    as.mapM step = .ok bs ↔ List.Forall₂ (fun a b => step a = .ok b) as bs := by
  intro as
  induction as with
  | nil =>
    intro bs
    rw [List.mapM_nil, List.forall₂_nil_left_iff]
    show Except.ok [] = Except.ok bs ↔ _
    rw [Except.ok.injEq]
    exact eq_comm
  | cons a as ih =>
    intro bs
    rw [List.mapM_cons, Outcome.bind_eq_ok, List.forall₂_cons_left_iff]
    constructor
    · rintro ⟨b, hb, h⟩
      obtain ⟨bs', hbs, h⟩ := Outcome.bind_eq_ok.mp h
      exact ⟨b, bs', hb, ih.mp hbs, (Except.ok.inj h).symm⟩
    · rintro ⟨b, bs', hb, hbs, rfl⟩
      refine ⟨b, hb, ?_⟩
      rw [ih.mpr hbs]
      rfl

theorem exists_mapM_eq_ok {step : α → Except ε β} {as : List α}
    (h : ∀ a ∈ as, ∃ b, step a = .ok b) : ∃ bs, as.mapM step = .ok bs := by
  obtain ⟨bs, hbs⟩ := exists_partners h
  exact ⟨bs, mapM_eq_ok.mpr hbs⟩

/-- Two lists that are compared member by member. -/
theorem all_zip_iff {test : α × β → Bool} {as : List α} {bs : List β} :
    (as.length == bs.length && (as.zip bs).all test) = true ↔
      List.Forall₂ (fun a b => test (a, b) = true) as bs := by
  rw [Bool.and_eq_true, beq_iff_eq, List.all_eq_true, List.forall₂_iff_zip]
  exact and_congr_right fun _ => ⟨fun h a b hab => h (a, b) hab, fun h ab hab => h hab⟩

end Provisioning.Partners
