import Mathlib.Data.List.AList

/-!
# Entries — counting the entries of an association list

How the number of entries that satisfy a predicate changes when an entry is put down or taken off.

* `entries_perm` — one entry and the others;
* `countP_entries_eq`, `countP_entries_insert`, `countP_entries_insert_new`,
  `countP_entries_insert_same` — the counts;
* `forall_insert` — what holds of every entry.
-/

namespace AxisEngine
namespace Lib

variable {α : Type*} {β : α → Type*} [DecidableEq α] {l : AList β} {a : α} {b b' : β a}
  {p : Sigma β → Bool}

theorem entries_perm (h : l.lookup a = some b) :
    l.entries.Perm (⟨a, b⟩ :: (l.erase a).entries) := by
  have hmem : (⟨a, b⟩ : Sigma β) ∈ l.entries := List.of_mem_dlookup h
  rcases List.exists_of_kerase (List.mem_keys_of_mem hmem) with ⟨b₁, l₁, l₂, -, heq, herase⟩
  have hb : b₁ = b := by
    have hmem₁ : (⟨a, b₁⟩ : Sigma β) ∈ l.entries := by
      rw [heq]
      exact List.mem_append_right _ List.mem_cons_self
    have hlookup : l.lookup a = some b₁ := AList.mem_lookup_iff.2 hmem₁
    rw [h] at hlookup
    exact (Option.some.inj hlookup).symm
  rw [show (l.erase a).entries = l₁ ++ l₂ from herase]
  rw [heq, hb]
  exact List.perm_middle

theorem countP_entries_eq (h : l.lookup a = some b) :
    l.entries.countP p = (l.erase a).entries.countP p + if p ⟨a, b⟩ then 1 else 0 := by
  rw [(entries_perm h).countP_eq, List.countP_cons]

theorem countP_entries_insert :
    (l.insert a b).entries.countP p = (l.erase a).entries.countP p + if p ⟨a, b⟩ then 1 else 0 := by
  rw [AList.entries_insert, List.countP_cons]
  rfl

theorem erase_of_lookup_eq_none (h : l.lookup a = none) : l.erase a = l := by
  have hnot : a ∉ l := AList.lookup_eq_none.1 h
  refine AList.ext ?_
  exact List.kerase_of_notMem_keys hnot

theorem erase_insert_of_new (h : l.lookup a = none) : (l.insert a b).erase a = l := by
  have herase : (l.insert a b).erase a = l.erase a := by
    refine AList.ext ?_
    refine (congrArg (List.kerase a) AList.entries_insert).trans ?_
    exact List.kerase_cons_eq rfl
  rw [herase, erase_of_lookup_eq_none h]

theorem countP_entries_insert_new (h : l.lookup a = none) :
    (l.insert a b).entries.countP p = l.entries.countP p + if p ⟨a, b⟩ then 1 else 0 := by
  rw [countP_entries_insert, erase_of_lookup_eq_none h]

/-- An entry is replaced by one that counts the same. -/
theorem countP_entries_insert_same (h : l.lookup a = some b) (hp : p ⟨a, b'⟩ = p ⟨a, b⟩) :
    (l.insert a b').entries.countP p = l.entries.countP p := by
  rw [countP_entries_insert, countP_entries_eq h, hp]

/-- What holds of the old entries and of the new one holds of all. -/
theorem forall_insert {P : ∀ a, β a → Prop} (h : ∀ a b, l.lookup a = some b → P a b) (hb : P a b) :
    ∀ a' b', (l.insert a b).lookup a' = some b' → P a' b' := by
  intro a' b' hlookup
  by_cases ha : a' = a
  · subst ha
    rw [AList.lookup_insert] at hlookup
    cases hlookup
    exact hb
  · rw [AList.lookup_insert_ne ha] at hlookup
    exact h _ _ hlookup

theorem lookup_of_lookup_erase {a' : α} {b' : β a'} (h : (l.erase a).lookup a' = some b') :
    a' ≠ a ∧ l.lookup a' = some b' := by
  by_cases ha : a' = a
  · subst ha
    rw [AList.lookup_erase] at h
    cases h
  · rw [AList.lookup_erase_ne ha] at h
    exact ⟨ha, h⟩

end Lib
end AxisEngine
