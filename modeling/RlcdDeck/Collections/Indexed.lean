import Mathlib.Data.List.AList

/-!
# Lists with an index

A list of items and the position of each key in it, as a program keeps them side by side when it
merges one list into another: an item whose key is new goes to the end, and one whose key is there
may take the place of the item that has it (`merge`).

When the keys are distinct, what a merge of many items leaves is known without the index
(`keys_merged`, `mem_merged`).
-/

namespace RlcdDeck.Collections

structure Indexed (α κ : Type) where
  items : List α
  index : AList fun _ : κ => ℕ

namespace Indexed

variable {α κ : Type} [DecidableEq κ] (key : α → κ) (replaces : α → α → Bool)

def push (l : Indexed α κ) (a : α) : Indexed α κ where
  items := l.items ++ [a]
  index := l.index.insert (key a) l.items.length

def ofList (items : List α) : Indexed α κ := items.foldl (push key) ⟨[], ∅⟩

/-- `a` at the end, or in place of an item with its key that it replaces. -/
def merge (l : Indexed α κ) (a : α) : Indexed α κ :=
  match l.index.lookup (key a) with
  | none => l.push key a
  | some i =>
    if l.items[i]?.any (replaces · a) then { l with items := l.items.set i a } else l

/-- The keys are distinct, and the index finds them. -/
structure Lawful (l : Indexed α κ) : Prop where
  nodup : (l.items.map key).Nodup
  lookup : ∀ k i, l.index.lookup k = some i ↔ (l.items.map key)[i]? = some k

variable {key replaces} {l : Indexed α κ} {a b : α}

theorem Lawful.lookup_eq_none (h : l.Lawful key) {k : κ} :
    l.index.lookup k = none ↔ k ∉ l.items.map key := by
  rw [Option.eq_none_iff_forall_ne_some, List.mem_iff_getElem?, not_exists]
  exact forall_congr' fun i => not_congr (h.lookup k i)

theorem lawful_empty : Lawful key (⟨[], ∅⟩ : Indexed α κ) :=
  ⟨List.nodup_nil, fun k i => by simp⟩

theorem Lawful.push (h : l.Lawful key) (hnew : key a ∉ l.items.map key) :
    (l.push key a).Lawful key := by
  have hkeys : (l.push key a).items.map key = l.items.map key ++ [key a] := by simp [Indexed.push]
  constructor
  · rw [hkeys, ← List.concat_eq_append]
    exact h.nodup.concat hnew
  · intro k i
    rw [hkeys, Indexed.push]
    dsimp only
    by_cases hk : k = key a
    · subst hk
      rw [AList.lookup_insert, Option.some_inj, List.getElem?_append]
      split_ifs with hi
      · constructor
        · rintro rfl
          simp at hi
        · exact fun hget => absurd (List.mem_of_getElem? hget) hnew
      · rw [List.length_map, not_lt] at hi
        rw [List.length_map, List.getElem?_eq_some_iff]
        constructor
        · rintro rfl
          simp
        · rintro ⟨hlt, -⟩
          rw [List.length_singleton] at hlt
          omega
    · rw [AList.lookup_insert_ne hk, h.lookup, List.getElem?_append]
      split_ifs with hi
      · rfl
      · rw [List.getElem?_eq_none (not_lt.mp hi)]
        constructor
        · intro hget
          cases hget
        · intro hget
          exact absurd (List.mem_singleton.mp (List.mem_of_getElem? hget)) hk

theorem ofList_items (items : List α) : (ofList key items).items = items := by
  have hfold : ∀ start : Indexed α κ, (items.foldl (push key) start).items = start.items ++ items := by
    induction items with
    | nil => exact fun start => (List.append_nil _).symm
    | cons a items ih =>
      intro start
      rw [List.foldl_cons, ih, push, List.append_assoc, List.singleton_append]
  exact (hfold _).trans (List.nil_append _)

theorem lawful_ofList {items : List α} (h : (items.map key).Nodup) :
    (ofList key items).Lawful key := by
  have hfold : ∀ start : Indexed α κ, start.Lawful key →
      (start.items.map key ++ items.map key).Nodup → (items.foldl (push key) start).Lawful key := by
    clear h
    induction items with
    | nil => exact fun start hstart _ => hstart
    | cons a items ih =>
      intro start hstart hnodup
      have hnew : key a ∉ start.items.map key := fun hmem =>
        (List.nodup_append.mp hnodup).2.2 _ hmem _ List.mem_cons_self rfl
      refine ih _ (hstart.push hnew) ?_
      rw [push, List.map_append, List.append_assoc]
      exact hnodup
  exact hfold _ lawful_empty h

/-! ### One item -/

/-- What a merge does: a new item, one in place of another, or nothing. -/
theorem Lawful.merge_cases (h : l.Lawful key) (a : α) :
    key a ∉ l.items.map key ∧ l.merge key replaces a = l.push key a ∨
    (∃ i c, l.items[i]? = some c ∧ key c = key a ∧ replaces c a = true ∧
      l.merge key replaces a = { l with items := l.items.set i a }) ∨
    ∃ c ∈ l.items, key c = key a ∧ replaces c a = false ∧ l.merge key replaces a = l := by
  cases hlookup : l.index.lookup (key a) with
  | none =>
    refine Or.inl ⟨h.lookup_eq_none.mp hlookup, ?_⟩
    rw [merge, hlookup]
  | some i =>
    have hget := (h.lookup _ _).mp hlookup
    rw [List.getElem?_map, Option.map_eq_some_iff] at hget
    obtain ⟨c, hc, hkey⟩ := hget
    have hmerge : l.merge key replaces a =
        if replaces c a then { l with items := l.items.set i a } else l := by
      rw [merge, hlookup]
      dsimp only
      rw [hc, Option.any_some]
    cases hreplaces : replaces c a with
    | true => exact Or.inr (Or.inl ⟨i, c, hc, hkey, hreplaces, by rw [hmerge, if_pos hreplaces]⟩)
    | false =>
      refine Or.inr (Or.inr ⟨c, List.mem_of_getElem? hc, hkey, hreplaces, ?_⟩)
      rw [hmerge, hreplaces]
      rfl

omit [DecidableEq κ] in
theorem map_set_key {items : List α} {i : ℕ} {c : α} (hc : items[i]? = some c)
    (hkey : key c = key a) : (items.set i a).map key = items.map key := by
  rw [List.map_set]
  refine List.ext_getElem? fun j => ?_
  rw [List.getElem?_set]
  split_ifs with hij hlt
  · subst hij
    rw [List.getElem?_map, hc, Option.map_some, hkey]
  · subst hij
    exact (List.getElem?_eq_none (not_lt.mp hlt)).symm
  · rfl

theorem Lawful.keys_merge (h : l.Lawful key) (a : α) :
    (l.merge key replaces a).items.map key =
      l.items.map key ++ [key a].filter (· ∉ l.items.map key) := by
  obtain ⟨hnew, hmerge⟩ | ⟨i, c, hc, hkey, -, hmerge⟩ | ⟨c, hc, hkey, -, hmerge⟩ := h.merge_cases a
  · rw [hmerge, List.filter_singleton, decide_eq_true hnew, Indexed.push, List.map_append]
    rfl
  · have hmem : key a ∈ l.items.map key := hkey ▸ List.mem_map_of_mem (List.mem_of_getElem? hc)
    rw [hmerge, map_set_key hc hkey, List.filter_singleton, decide_eq_false (not_not_intro hmem)]
    exact (List.append_nil _).symm
  · have hmem : key a ∈ l.items.map key := hkey ▸ List.mem_map_of_mem hc
    rw [hmerge, List.filter_singleton, decide_eq_false (not_not_intro hmem)]
    exact (List.append_nil _).symm

theorem Lawful.mem_keys_merge (h : l.Lawful key) {k : κ} :
    k ∈ (l.merge key replaces a).items.map key ↔ k ∈ l.items.map key ∨ k = key a := by
  rw [h.keys_merge, List.mem_append, List.mem_filter, List.mem_singleton, decide_eq_true_eq]
  constructor
  · rintro (hk | ⟨hk, -⟩)
    · exact Or.inl hk
    · exact Or.inr hk
  · rintro (hk | rfl)
    · exact Or.inl hk
    · by_cases hk : key a ∈ l.items.map key
      · exact Or.inl hk
      · exact Or.inr ⟨rfl, hk⟩

theorem Lawful.merge (h : l.Lawful key) (a : α) : (l.merge key replaces a).Lawful key := by
  obtain ⟨hnew, hmerge⟩ | ⟨i, c, hc, hkey, -, hmerge⟩ | ⟨c, hc, hkey, -, hmerge⟩ := h.merge_cases a
  · rw [hmerge]
    exact h.push hnew
  · rw [hmerge]
    exact ⟨(map_set_key hc hkey).symm ▸ h.nodup, (map_set_key hc hkey).symm ▸ h.lookup⟩
  · rw [hmerge]
    exact h

theorem Lawful.eq_of_key (h : l.Lawful key) (ha : a ∈ l.items) (hb : b ∈ l.items)
    (hkey : key a = key b) : a = b :=
  List.inj_on_of_nodup_map h.nodup ha hb hkey

theorem Lawful.mem_set (h : l.Lawful key) {i : ℕ} {c : α} (hc : l.items[i]? = some c)
    (hkey : key c = key a) : b ∈ l.items.set i a ↔ b = a ∨ b ∈ l.items ∧ key b ≠ key a := by
  have hlt : i < l.items.length := (List.getElem?_eq_some_iff.mp hc).1
  have ha : a ∈ l.items.set i a := List.mem_set hlt a
  have hnodup : ((l.items.set i a).map key).Nodup := (map_set_key hc hkey).symm ▸ h.nodup
  constructor
  · intro hb
    by_cases hkeys : key b = key a
    · exact Or.inl (List.inj_on_of_nodup_map hnodup hb ha hkeys)
    · refine Or.inr ⟨?_, hkeys⟩
      rcases List.mem_or_eq_of_mem_set hb with hb | rfl
      · exact hb
      · exact absurd rfl hkeys
  · rintro (rfl | ⟨hb, hne⟩)
    · exact ha
    · obtain ⟨j, hj⟩ := List.mem_iff_getElem?.mp hb
      have hij : i ≠ j := by
        rintro rfl
        rw [hc, Option.some_inj] at hj
        exact hne (hj ▸ hkey)
      exact List.mem_of_getElem? ((List.getElem?_set_ne hij).trans hj)

theorem Lawful.mem_merge (h : l.Lawful key) :
    b ∈ (l.merge key replaces a).items ↔
      (b = a ∧ (key a ∉ l.items.map key ∨
        ∃ c ∈ l.items, key c = key a ∧ replaces c a = true)) ∨
      (b ∈ l.items ∧ ¬ (key b = key a ∧ replaces b a = true)) := by
  obtain ⟨hnew, hmerge⟩ | ⟨i, c, hc, hkey, hreplaces, hmerge⟩ | ⟨c, hc, hkey, hreplaces, hmerge⟩ :=
    h.merge_cases a
  · rw [hmerge, Indexed.push, List.mem_append, List.mem_singleton]
    have hold : b ∈ l.items → ¬ (key b = key a ∧ replaces b a = true) :=
      fun hb hkey => hnew (hkey.1 ▸ List.mem_map_of_mem hb)
    tauto
  · have hmem := List.mem_of_getElem? hc
    rw [hmerge, h.mem_set hc hkey]
    constructor
    · rintro (rfl | ⟨hb, hne⟩)
      · exact Or.inl ⟨rfl, Or.inr ⟨c, hmem, hkey, hreplaces⟩⟩
      · exact Or.inr ⟨hb, fun hkeys => hne hkeys.1⟩
    · rintro (⟨rfl, -⟩ | ⟨hb, hnot⟩)
      · exact Or.inl rfl
      · refine Or.inr ⟨hb, fun hkeys => hnot ⟨hkeys, ?_⟩⟩
        rwa [h.eq_of_key hb hmem (hkeys.trans hkey.symm)]
  · -- the item is the one with that key, and it is not replaced
    have hold : b ∈ l.items → ¬ (key b = key a ∧ replaces b a = true) := by
      rintro hb ⟨hkeys, hreplaced⟩
      rw [h.eq_of_key hb hc (hkeys.trans hkey.symm), hreplaces] at hreplaced
      cases hreplaced
    have hnot : ¬ ∃ c ∈ l.items, key c = key a ∧ replaces c a = true := by
      rintro ⟨c', hc', hkey', hreplaced⟩
      rw [h.eq_of_key hc' hc (hkey'.trans hkey.symm), hreplaces] at hreplaced
      cases hreplaced
    have hkeys : key a ∈ l.items.map key := hkey ▸ List.mem_map_of_mem hc
    rw [hmerge]
    constructor
    · exact fun hb => Or.inr ⟨hb, hold hb⟩
    · rintro (⟨-, hnew | hput⟩ | ⟨hb, -⟩)
      · exact absurd hkeys hnew
      · exact absurd hput hnot
      · exact hb

/-! ### A list of items -/

theorem Lawful.keys_merged {items : List α} (h : l.Lawful key) (hitems : (items.map key).Nodup) :
    (items.foldl (Indexed.merge key replaces) l).items.map key =
      l.items.map key ++ (items.map key).filter (· ∉ l.items.map key) := by
  induction items generalizing l with
  | nil => simp
  | cons a items ih =>
    rw [List.map_cons, List.nodup_cons] at hitems
    have hrest : (items.map key).filter
        (· ∉ l.items.map key ++ [key a].filter (· ∉ l.items.map key)) =
          (items.map key).filter (· ∉ l.items.map key) := by
      refine List.filter_congr fun k hk => ?_
      have hne : k ≠ key a := fun heq => hitems.1 (heq ▸ hk)
      simp [hne]
    rw [List.foldl_cons, ih (h.merge a) hitems.2, h.keys_merge, hrest, List.append_assoc,
      ← List.filter_append]
    rfl

theorem Lawful.merged {items : List α} (h : l.Lawful key) :
    (items.foldl (Indexed.merge key replaces) l).Lawful key := by
  induction items generalizing l with
  | nil => exact h
  | cons a items ih => exact ih (h.merge a)

/-- The items after a merge: those that are new or take the place of another, and those before in
whose place none is put. -/
theorem Lawful.mem_merged {items : List α} (h : l.Lawful key) (hitems : (items.map key).Nodup) :
    b ∈ (items.foldl (Indexed.merge key replaces) l).items ↔
      (b ∈ items ∧ (key b ∉ l.items.map key ∨
        ∃ c ∈ l.items, key c = key b ∧ replaces c b = true)) ∨
      (b ∈ l.items ∧ ∀ a ∈ items, key a = key b → replaces b a = false) := by
  induction items generalizing l with
  | nil => simp
  | cons a items ih =>
    rw [List.map_cons, List.nodup_cons] at hitems
    have hother : ∀ c ∈ items, key c ≠ key a :=
      fun c hc heq => hitems.1 (heq ▸ List.mem_map_of_mem hc)
    rw [List.foldl_cons, ih (h.merge a) hitems.2, h.keys_merge, h.mem_merge, List.forall_mem_cons,
      List.mem_cons]
    have hnew : b ∈ items →
        ((key b ∉ l.items.map key ++ [key a].filter (· ∉ l.items.map key) ∨
            ∃ c ∈ (l.merge key replaces a).items, key c = key b ∧ replaces c b = true) ↔
          key b ∉ l.items.map key ∨ ∃ c ∈ l.items, key c = key b ∧ replaces c b = true) := by
      intro hb
      refine or_congr ?_ (exists_congr fun c => ?_)
      · simp [hother b hb]
      · rw [h.mem_merge]
        constructor
        · rintro ⟨⟨rfl, -⟩ | ⟨hc, -⟩, hkey⟩
          · exact absurd hkey.1.symm (hother b hb)
          · exact ⟨hc, hkey⟩
        · rintro ⟨hc, hkey⟩
          exact ⟨Or.inr ⟨hc, fun ha => hother b hb (hkey.1.symm.trans ha.1)⟩, hkey⟩
    have hlast : b = a → ∀ c ∈ items, key c = key b → replaces b c = false := by
      rintro rfl c hc hkey
      exact absurd hkey (hother c hc)
    constructor
    · rintro (⟨hb, hput⟩ | ⟨⟨rfl, hput⟩ | ⟨hb, hkept⟩, hrest⟩)
      · exact Or.inl ⟨Or.inr hb, (hnew hb).mp hput⟩
      · exact Or.inl ⟨Or.inl rfl, hput⟩
      · refine Or.inr ⟨hb, fun hkey => ?_, hrest⟩
        exact Bool.eq_false_iff.mpr fun hreplaces => hkept ⟨hkey.symm, hreplaces⟩
    · rintro (⟨rfl | hb, hput⟩ | ⟨hb, hkept, hrest⟩)
      · exact Or.inr ⟨Or.inl ⟨rfl, hput⟩, hlast rfl⟩
      · exact Or.inl ⟨hb, (hnew hb).mpr hput⟩
      · refine Or.inr ⟨Or.inr ⟨hb, fun hkey => ?_⟩, hrest⟩
        rw [hkept hkey.1.symm] at hkey
        exact Bool.false_ne_true hkey.2

end Indexed

/-! ### Items by key -/

section

variable {α κ : Type} [DecidableEq κ] {key : α → κ}

/-- The map from each key to its item: of items with one key, the last. -/
def byKey (key : α → κ) (items : List α) : AList fun _ : κ => α :=
  items.foldl (fun map a => map.insert (key a) a) ∅

theorem lookup_byKey {items : List α} (h : (items.map key).Nodup) {k : κ} {a : α} :
    (byKey key items).lookup k = some a ↔ a ∈ items ∧ key a = k := by
  have hfold : ∀ map : AList fun _ : κ => α,
      (items.foldl (fun map a => map.insert (key a) a) map).lookup k = some a ↔
        a ∈ items ∧ key a = k ∨ k ∉ items.map key ∧ map.lookup k = some a := by
    induction items with
    | nil => simp
    | cons b items ih =>
      intro map
      rw [List.map_cons, List.nodup_cons] at h
      rw [List.foldl_cons, ih h.2, List.mem_cons, List.map_cons, List.mem_cons]
      by_cases hk : k = key b
      · subst hk
        rw [AList.lookup_insert, Option.some_inj]
        have hrest : a ∈ items → key a ≠ key b := fun ha heq => h.1 (heq ▸ List.mem_map_of_mem ha)
        constructor
        · rintro (⟨ha, hkey⟩ | ⟨-, rfl⟩)
          · exact absurd hkey (hrest ha)
          · exact Or.inl ⟨Or.inl rfl, rfl⟩
        · rintro (⟨rfl | ha, hkey⟩ | ⟨hk, -⟩)
          · exact Or.inr ⟨h.1, rfl⟩
          · exact absurd hkey (hrest ha)
          · exact absurd (Or.inl rfl) hk
      · rw [AList.lookup_insert_ne hk]
        constructor
        · rintro (⟨ha, hkey⟩ | ⟨hnot, hlookup⟩)
          · exact Or.inl ⟨Or.inr ha, hkey⟩
          · exact Or.inr ⟨fun hmem => hmem.elim hk hnot, hlookup⟩
        · rintro (⟨rfl | ha, hkey⟩ | ⟨hnot, hlookup⟩)
          · exact absurd hkey.symm hk
          · exact Or.inl ⟨ha, hkey⟩
          · exact Or.inr ⟨fun hmem => hnot (Or.inr hmem), hlookup⟩
  rw [byKey, hfold]
  simp

end

end RlcdDeck.Collections
