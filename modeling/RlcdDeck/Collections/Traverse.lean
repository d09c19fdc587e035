import Mathlib.Data.List.Forall2

/-!
# Partial maps of a list

`List.mapM` of a partial function: it has a result when the function has one at every element.
-/

namespace RlcdDeck.Collections

variable {α β : Type} {f : α → Option β}

theorem mapM_eq_some {items : List α} {results : List β} :
    items.mapM f = some results ↔ List.Forall₂ (fun a b => f a = some b) items results := by
  induction items generalizing results with
  | nil =>
    rw [List.mapM_nil, List.forall₂_nil_left_iff]
    constructor
    · intro h
      exact (Option.some.inj h).symm
    · rintro rfl
      rfl
  | cons a items ih =>
    rw [List.mapM_cons, List.forall₂_cons_left_iff]
    constructor
    · intro h
      obtain ⟨b, hb, h⟩ := Option.bind_eq_some_iff.mp h
      obtain ⟨rest, hrest, h⟩ := Option.bind_eq_some_iff.mp h
      exact ⟨b, rest, hb, ih.mp hrest, (Option.some.inj h).symm⟩
    · rintro ⟨b, rest, hb, hrest, rfl⟩
      simp only [hb, ih.mpr hrest, Option.bind_eq_bind, Option.bind_some, Option.pure_def]

theorem exists_of_mapM {items : List α} {results : List β} (h : items.mapM f = some results) {a : α}
    (hmem : a ∈ items) : ∃ b ∈ results, f a = some b := by
  induction mapM_eq_some.mp h with
  | nil => cases hmem
  | cons hb hrest ih =>
    rcases List.mem_cons.mp hmem with rfl | hmem
    · exact ⟨_, List.mem_cons_self, hb⟩
    · obtain ⟨b, hmem', hb'⟩ := ih (mapM_eq_some.mpr hrest) hmem
      exact ⟨b, List.mem_cons_of_mem _ hmem', hb'⟩

/-- Where a result comes from. -/
theorem exists_mem_of_forall₂ {R : α → β → Prop} {items : List α} {results : List β}
    (h : List.Forall₂ R items results) {b : β} (hmem : b ∈ results) : ∃ a ∈ items, R a b := by
  induction h with
  | nil => cases hmem
  | cons hab _ ih =>
    rcases List.mem_cons.mp hmem with rfl | hmem
    · exact ⟨_, List.mem_cons_self, hab⟩
    · obtain ⟨a, ha, hR⟩ := ih hmem
      exact ⟨a, List.mem_cons_of_mem _ ha, hR⟩

theorem map_of_mapM {γ : Type} {items : List α} {results : List β} {g : β → γ} {k : α → γ}
    (h : items.mapM f = some results) (hg : ∀ a b, f a = some b → g b = k a) :
    results.map g = items.map k := by
  induction mapM_eq_some.mp h with
  | nil => rfl
  | cons hb hrest ih =>
    rw [List.map_cons, List.map_cons, hg _ _ hb, ih (mapM_eq_some.mpr hrest)]

theorem isSome_mapM_iff {items : List α} :
    (items.mapM f).isSome ↔ ∀ a ∈ items, (f a).isSome := by
  induction items with
  | nil => simp
  | cons a items ih =>
    rw [List.mapM_cons, List.forall_mem_cons, ← ih]
    cases f a with
    | none => simp
    | some b => cases items.mapM f <;> simp

theorem mapM_of_forall {g : α → β} {items : List α} (h : ∀ a ∈ items, f a = some (g a)) :
    items.mapM f = some (items.map g) := by
  rw [mapM_eq_some, List.forall₂_map_right_iff, List.forall₂_same]
  exact h

end RlcdDeck.Collections
