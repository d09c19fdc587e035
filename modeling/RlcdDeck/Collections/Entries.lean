import Mathlib.Data.List.AList
import Mathlib.Tactic.Ring

/-!
# The entries of a map

The entries of an `AList` with an element erased, with one inserted, and those that pass a test
(`keep`).
-/

namespace RlcdDeck.Collections

variable {α β : Type} [DecidableEq α] {s : AList fun _ : α => β} {a : α} {b : β}

theorem entries_perm_erase (h : s.lookup a = some b) :
    s.entries.Perm (⟨a, b⟩ :: (s.erase a).entries) := by
  have hmem : (⟨a, b⟩ : Sigma fun _ : α => β) ∈ s.entries := AList.mem_lookup_iff.mp h
  obtain ⟨other, before, after, -, hentries, herase⟩ :=
    List.exists_of_kerase (List.mem_keys_of_mem hmem)
  have hother : s.lookup a = some other := AList.mem_lookup_iff.mpr (by
    rw [hentries]
    exact List.mem_append_right _ List.mem_cons_self)
  obtain rfl := Option.some.inj (hother.symm.trans h)
  have herased : (s.erase a).entries = before ++ after := herase
  rw [herased, hentries]
  exact List.perm_middle

theorem erase_of_notMem (h : a ∉ s) : s.erase a = s :=
  AList.ext (List.kerase_of_notMem_keys h)

theorem erase_insert (s : AList fun _ : α => β) (a : α) (b : β) :
    (s.insert a b).erase a = s.erase a := by
  apply AList.ext
  change List.kerase a (List.kinsert a b s.entries) = List.kerase a s.entries
  exact List.kerase_cons_eq rfl

theorem entries_foldl_insert {entries : List (Sigma fun _ : α => β)}
    (hnodup : (entries.map Sigma.fst).Nodup) (hnew : ∀ entry ∈ entries, entry.1 ∉ s) :
    (entries.foldl (fun map entry => map.insert entry.1 entry.2) s).entries.Perm
      (entries ++ s.entries) := by
  induction entries generalizing s with
  | nil => exact .refl _
  | cons entry entries ih =>
    rw [List.map_cons, List.nodup_cons] at hnodup
    rw [List.forall_mem_cons] at hnew
    have hrest : ∀ other ∈ entries, other.1 ∉ s.insert entry.1 entry.2 := by
      intro other hother hmem
      rcases (AList.mem_insert s).mp hmem with heq | hmem
      · exact hnodup.1 (List.mem_map.mpr ⟨other, hother, heq⟩)
      · exact hnew.2 other hother hmem
    have hperm := ih hnodup.2 hrest
    rw [AList.entries_insert_of_notMem hnew.1] at hperm
    exact hperm.trans List.perm_middle

/-! ### A part of a map -/

/-- The entries that pass a test. -/
def keep (s : AList fun _ : α => β) (p : β → Bool) : AList fun _ : α => β :=
  ⟨s.entries.filter fun entry => p entry.2, s.nodupKeys.sublist List.filter_sublist⟩

theorem lookup_keep (s : AList fun _ : α => β) (p : β → Bool) (a : α) :
    (keep s p).lookup a = (s.lookup a).filter p := by
  apply Option.ext
  intro b
  rw [Option.filter_eq_some_iff]
  have hleft := (keep s p).mem_lookup_iff (a := a) (b := b)
  have hright := s.mem_lookup_iff (a := a) (b := b)
  rw [Option.mem_def] at hleft hright
  rw [hleft, hright]
  exact List.mem_filter

omit [DecidableEq α] in
theorem length_keep_le (s : AList fun _ : α => β) (p : β → Bool) :
    (keep s p).entries.length ≤ s.entries.length :=
  List.length_filter_le _ _

theorem length_insert_le (s : AList fun _ : α => β) (a : α) (b : β) :
    (s.insert a b).entries.length ≤ s.entries.length + 1 := by
  have hlength : (s.insert a b).entries.length = (s.erase a).entries.length + 1 := rfl
  have herase : (s.erase a).entries.length ≤ s.entries.length :=
    (List.kerase_sublist a s.entries).length_le
  omega

theorem length_insert_of_mem (h : a ∈ s) (b : β) :
    (s.insert a b).entries.length = s.entries.length := by
  obtain ⟨old, hold⟩ := Option.isSome_iff_exists.mp (AList.lookup_isSome.mpr h)
  have hperm := (entries_perm_erase hold).length_eq
  exact hperm.symm

end RlcdDeck.Collections
