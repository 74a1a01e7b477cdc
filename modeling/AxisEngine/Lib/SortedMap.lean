import AxisEngine.Lib.SortedByKey

/-!
# SortedMap — one value for each key, in the order of the keys

Entries strictly increasing in their key, as an ordered map holds them: they are gone through in
that order, and a key has one value at most.

* `SortedMap` — the entries, with their order;
* `find`, `put`, `erase` — the operations;
* `mem_entries_iff`, `eq_of_find` — the entries are what is found;
* `find_put`, `find_erase` — what is found afterwards;
* `live`, `absorb`, `after` — the entries that have a value, those of two maps, and the next one.
-/

namespace AxisEngine
namespace Lib

structure SortedMap (κ α : Type*) [LinearOrder κ] where
  entries : List (κ × α)
  sorted : StrictSorted Prod.fst entries

namespace SortedMap

variable {κ α : Type*} [LinearOrder κ]

def empty : SortedMap κ α where
  entries := []
  sorted := strictSorted_nil

instance : Inhabited (SortedMap κ α) := ⟨empty⟩

def find (m : SortedMap κ α) (k : κ) : Option α :=
  (m.entries.find? fun e => e.1 = k).map Prod.snd

def erase (m : SortedMap κ α) (k : κ) : SortedMap κ α where
  entries := m.entries.filter fun e => e.1 ≠ k
  sorted := m.sorted.sublist List.filter_sublist

/-- The value for a key, whether it had one or not. -/
def put (m : SortedMap κ α) (k : κ) (a : α) : SortedMap κ α where
  entries := insertAt Prod.fst (k, a) (m.erase k).entries
  sorted := by
    refine (m.erase k).sorted.insertAt fun e he => ?_
    have hne := (List.mem_filter.1 he).2
    rwa [decide_eq_true_eq] at hne

section

variable {m : SortedMap κ α} {k k' : κ} {a : α}

/-- What is found are the entries. -/
theorem mem_entries_iff : (k, a) ∈ m.entries ↔ m.find k = some a := by
  constructor
  · intro hmem
    rw [find]
    cases hfind : m.entries.find? fun e => e.1 = k with
    | none => exact absurd (decide_eq_true rfl) (List.find?_eq_none.1 hfind _ hmem)
    | some e =>
      have hkey : e.1 = k := by simpa using List.find?_some hfind
      rw [m.sorted.eq_of_key_eq (List.mem_of_find?_eq_some hfind) hmem hkey]
      rfl
  · intro h
    rcases Option.map_eq_some_iff.1 h with ⟨e, hfind, rfl⟩
    have hkey : e.1 = k := by simpa using List.find?_some hfind
    rw [← hkey]
    exact List.mem_of_find?_eq_some hfind

theorem find_erase (m : SortedMap κ α) (k k' : κ) :
    (m.erase k).find k' = if k' = k then none else m.find k' := by
  ext a
  rw [← mem_entries_iff, erase, List.mem_filter, decide_eq_true_eq, mem_entries_iff]
  by_cases hk : k' = k
  · rw [if_pos hk]
    exact iff_of_false (fun h => h.2 hk) (fun h => by cases h)
  · rw [if_neg hk]
    exact and_iff_left hk

theorem find_put (m : SortedMap κ α) (k : κ) (a : α) (k' : κ) :
    (m.put k a).find k' = if k' = k then some a else m.find k' := by
  ext b
  rw [← mem_entries_iff, put, mem_insertAt, Prod.mk.injEq, mem_entries_iff, find_erase]
  by_cases hk : k' = k
  · rw [if_pos hk, if_pos hk, and_iff_right hk, Option.some.injEq]
    constructor
    · rintro (rfl | h)
      · rfl
      · cases h
    · rintro rfl
      exact .inl rfl
  · rw [if_neg hk, if_neg hk]
    exact or_iff_right fun h => hk h.1

theorem isEmpty_iff : m.entries = [] ↔ ∀ k, m.find k = none := by
  constructor
  · intro h k
    rw [find, h]
    rfl
  · intro h
    refine List.eq_nil_iff_forall_not_mem.2 fun e he => ?_
    have hfind := mem_entries_iff.1 he
    rw [h] at hfind
    cases hfind

/-- Maps in which the same is found are one map. -/
theorem eq_of_find {m m' : SortedMap κ α} (h : ∀ k, m.find k = m'.find k) : m = m' := by
  have hmem : ∀ e, e ∈ m.entries ↔ e ∈ m'.entries := by
    rintro ⟨k, a⟩
    rw [mem_entries_iff, mem_entries_iff, h]
  have hperm : m.entries.Perm m'.entries :=
    (List.perm_ext_iff_of_nodup m.sorted.nodup m'.sorted.nodup).2 hmem
  have hentries : m.entries = m'.entries :=
    hperm.eq_of_pairwise (fun _ _ _ _ hlt hgt => absurd (hlt.trans hgt) (lt_irrefl _)) m.sorted
      m'.sorted
  cases m
  cases m'
  congr

end

/-! ## Values -/

section

variable {m : SortedMap κ α} {k : κ}

def map {β : Type*} (f : α → β) (m : SortedMap κ α) : SortedMap κ β where
  entries := m.entries.map fun e => (e.1, f e.2)
  sorted := List.pairwise_map.2 (m.sorted.imp fun hlt => hlt)

theorem find_map {β : Type*} (f : α → β) (m : SortedMap κ α) (k : κ) :
    (m.map f).find k = (m.find k).map f := by
  ext b
  rw [← mem_entries_iff, map, List.mem_map, Option.map_eq_some_iff]
  constructor
  · rintro ⟨⟨k', a⟩, hmem, heq⟩
    rcases Prod.mk.inj heq with ⟨rfl, rfl⟩
    exact ⟨a, mem_entries_iff.1 hmem, rfl⟩
  · rintro ⟨a, hfind, rfl⟩
    exact ⟨(k, a), mem_entries_iff.2 hfind, rfl⟩

/-- The entries that have a value. -/
def live (m : SortedMap κ (Option α)) : SortedMap κ α where
  entries := m.entries.filterMap fun e => e.2.map fun a => (e.1, a)
  sorted := by
    refine List.pairwise_filterMap.2 (m.sorted.imp fun {e e'} hlt b hb b' hb' => ?_)
    rcases Option.map_eq_some_iff.1 hb with ⟨a, -, rfl⟩
    rcases Option.map_eq_some_iff.1 hb' with ⟨a', -, rfl⟩
    exact hlt

section

variable (m : SortedMap κ (Option α))

theorem find_live (k : κ) : m.live.find k = (m.find k).join := by
  ext a
  rw [← mem_entries_iff, live, List.mem_filterMap, Option.join_eq_some_iff]
  constructor
  · rintro ⟨⟨k', b⟩, hmem, heq⟩
    rcases Option.map_eq_some_iff.1 heq with ⟨a', hb, heq⟩
    rcases Prod.mk.inj heq with ⟨rfl, rfl⟩
    change b = some a' at hb
    rw [hb] at hmem
    exact mem_entries_iff.1 hmem
  · intro hfind
    exact ⟨(k, some a), mem_entries_iff.2 hfind, rfl⟩

theorem length_live : m.live.entries.length = m.entries.countP fun e => e.2.isSome := by
  change (m.entries.filterMap fun e => e.2.map fun a => (e.1, a)).length = _
  rw [List.length_filterMap_eq_countP]
  exact List.countP_congr fun e _ => by rw [Option.isSome_map]

/-- Without the entries that have no value. -/
def compact (m : SortedMap κ (Option α)) : SortedMap κ (Option α) where
  entries := m.entries.filter fun e => e.2.isSome
  sorted := m.sorted.sublist List.filter_sublist

theorem find_compact (k : κ) : m.compact.find k = (m.find k).join.map some := by
  ext b
  rw [← mem_entries_iff, compact, List.mem_filter, mem_entries_iff, Option.map_eq_some_iff]
  constructor
  · rintro ⟨hfind, hsome⟩
    rcases Option.isSome_iff_exists.1 hsome with ⟨a, rfl⟩
    exact ⟨a, by rw [hfind, Option.join_some], rfl⟩
  · rintro ⟨a, hjoin, rfl⟩
    exact ⟨Option.join_eq_some_iff.1 hjoin, rfl⟩

end

/-! ## Two maps -/

/-- Entries of the second map for keys that the first does not have. -/
def absorb (m m' : SortedMap κ α) : SortedMap κ α :=
  m'.entries.foldl (fun m e => if (m.find e.1).isSome then m else m.put e.1 e.2) m

theorem find_foldl_absorb (l : List (κ × α)) (m : SortedMap κ α) (k : κ) :
    (l.foldl (fun m e => if (m.find e.1).isSome then m else m.put e.1 e.2) m).find k =
      (m.find k).or ((l.find? fun e => e.1 = k).map Prod.snd) := by
  induction l generalizing m with
  | nil => rw [List.foldl_nil, List.find?_nil, Option.map_none, Option.or_none]
  | cons e l ih =>
    rw [List.foldl_cons, ih]
    by_cases hk : e.1 = k
    · subst hk
      rw [List.find?_cons_of_pos (by simp)]
      cases hfind : m.find e.1 with
      | some a => rw [Option.isSome_some, if_pos rfl, hfind, Option.some_or, Option.some_or]
      | none =>
        rw [Option.isSome_none, if_neg Bool.false_ne_true, find_put, if_pos rfl,
          Option.some_or, Option.none_or]
        rfl
    · rw [List.find?_cons_of_neg (by simpa using hk)]
      by_cases hsome : (m.find e.1).isSome
      · rw [if_pos hsome]
      · rw [if_neg hsome, find_put, if_neg (Ne.symm hk)]

theorem find_absorb (m m' : SortedMap κ α) (k : κ) :
    (m.absorb m').find k = (m.find k).or (m'.find k) :=
  find_foldl_absorb m'.entries m k

/-! ## The next entry -/

/-- The first entry behind a key, or the first of all. -/
def after (m : SortedMap κ α) (last : Option κ) : Option (κ × α) :=
  m.entries.find? fun e => decide (∀ k ∈ last, k < e.1)

variable {last : Option κ} {e : κ × α}

theorem after_eq_some (h : m.after last = some e) :
    m.find e.1 = some e.2 ∧ (∀ k ∈ last, k < e.1) ∧
      ∀ k', (∀ k ∈ last, k < k') → (m.find k').isSome → e.1 ≤ k' := by
  refine ⟨mem_entries_iff.1 (List.mem_of_find?_eq_some h), by simpa using List.find?_some h, ?_⟩
  intro k' hlast hsome
  rcases Option.isSome_iff_exists.1 hsome with ⟨a, hfind⟩
  rcases List.find?_eq_some_iff_append.1 h with ⟨-, before, rest, hentries, hbefore⟩
  have hmem : (k', a) ∈ before ++ e :: rest := hentries ▸ mem_entries_iff.2 hfind
  rcases List.mem_append.1 hmem with hmem | hmem
  · have hnot := hbefore (k', a) hmem
    rw [Bool.not_eq_true', decide_eq_false_iff_not] at hnot
    exact absurd hlast hnot
  · rcases List.mem_cons.1 hmem with rfl | hmem
    · exact le_rfl
    · have hsorted : StrictSorted Prod.fst (before ++ e :: rest) := hentries ▸ m.sorted
      exact ((List.pairwise_cons.1 (List.pairwise_append.1 hsorted).2.1).1 _ hmem).le

theorem after_eq_none (h : m.after last = none) {k' : κ} (hsome : (m.find k').isSome) :
    ¬ ∀ k ∈ last, k < k' := by
  rcases Option.isSome_iff_exists.1 hsome with ⟨a, hfind⟩
  have hnot := List.find?_eq_none.1 h (k', a) (mem_entries_iff.2 hfind)
  simpa using hnot

end

end SortedMap

end Lib
end AxisEngine
