import Mathlib.Data.List.Nodup
import Mathlib.Data.List.TakeWhile
import Mathlib.Order.Lattice

/-!
# Multimap — entries in the order of a key, with addresses

Entries in the order of a key; several may have the same.  Each entry has an address that it keeps
while it is there, so that it can be reached from elsewhere.  A new entry comes behind those with the
same key.

* `Multimap` — the entries, with their order and their addresses;
* `emplace`, `find`, `erase`, `upTo`, `dropTo` — the operations;
* `mem_emplace`, `mem_erase`, `mem_upTo`, `mem_dropTo` — what is in the result;
* `first_eq_some` — the first entry has the least key.
-/

namespace AxisEngine
namespace Lib

structure MultimapEntry (κ α : Type*) where
  address : ℕ
  key : κ
  value : α

/-- The addresses are different, and those from `next` on are free. -/
structure Multimap (κ α : Type*) [LinearOrder κ] where
  entries : List (MultimapEntry κ α)
  next : ℕ
  sorted : entries.Pairwise fun a b => a.key ≤ b.key
  nodup : (entries.map MultimapEntry.address).Nodup
  below : ∀ e ∈ entries, e.address < next

namespace Multimap

variable {κ α : Type*} [LinearOrder κ]

def empty : Multimap κ α where
  entries := []
  next := 0
  sorted := .nil
  nodup := List.nodup_nil
  below _ he := absurd he List.not_mem_nil

instance : Inhabited (Multimap κ α) := ⟨empty⟩

/-! ## Looking at the entries -/

variable (m : Multimap κ α)

def first : Option κ :=
  m.entries.head?.map MultimapEntry.key

def find (address : ℕ) : Option (MultimapEntry κ α) :=
  m.entries.find? fun e => e.address = address

/-- The entries whose key is at most `k`. -/
def upTo (k : κ) : List (MultimapEntry κ α) :=
  m.entries.takeWhile fun e => decide (e.key ≤ k)

section

variable {m : Multimap κ α} {e e' : MultimapEntry κ α} {k : κ} {l : List (MultimapEntry κ α)}

theorem first_eq_none : m.first = none ↔ m.entries = [] := by
  rw [first, Option.map_eq_none_iff, List.head?_eq_none_iff]

/-- The first key is one of the keys, and none is smaller. -/
theorem first_eq_some :
    m.first = some k ↔ (∃ e ∈ m.entries, e.key = k) ∧ ∀ e ∈ m.entries, k ≤ e.key := by
  have hsorted := m.sorted
  rw [first]
  cases hentries : m.entries with
  | nil => simp
  | cons a l =>
    rw [hentries, List.pairwise_cons] at hsorted
    have hleast : ∀ e ∈ a :: l, a.key ≤ e.key := by
      intro e he
      rcases List.mem_cons.1 he with rfl | he
      · exact le_rfl
      · exact hsorted.1 e he
    change some a.key = some k ↔ _
    rw [Option.some.injEq]
    constructor
    · rintro rfl
      exact ⟨⟨a, List.mem_cons_self .., rfl⟩, hleast⟩
    · rintro ⟨⟨e, he, rfl⟩, hk⟩
      exact le_antisymm (hleast e he) (hk a (List.mem_cons_self ..))

/-- Entries with the same address are the same. -/
theorem eq_of_address (he : e ∈ m.entries) (he' : e' ∈ m.entries)
    (h : e.address = e'.address) : e = e' :=
  List.inj_on_of_nodup_map m.nodup he he' h

theorem find_of_mem (he : e ∈ m.entries) : m.find e.address = some e := by
  rw [find]
  cases hfind : m.entries.find? fun e' => e'.address = e.address with
  | none => exact absurd (decide_eq_true rfl) (List.find?_eq_none.1 hfind e he)
  | some e' =>
    have haddress : e'.address = e.address := by simpa using List.find?_some hfind
    rw [eq_of_address (List.mem_of_find?_eq_some hfind) he haddress]

theorem mem_takeWhile_of_sorted (h : l.Pairwise fun a b => a.key ≤ b.key) :
    e ∈ l.takeWhile (fun e => decide (e.key ≤ k)) ↔ e ∈ l ∧ e.key ≤ k := by
  induction l with
  | nil => simp
  | cons a l ih =>
    rw [List.pairwise_cons] at h
    rw [List.takeWhile_cons]
    by_cases ha : a.key ≤ k
    · rw [if_pos (decide_eq_true ha), List.mem_cons, List.mem_cons, ih h.2]
      constructor
      · rintro (rfl | he)
        · exact ⟨.inl rfl, ha⟩
        · exact ⟨.inr he.1, he.2⟩
      · rintro ⟨rfl | he, hk⟩
        · exact .inl rfl
        · exact .inr ⟨he, hk⟩
    · rw [if_neg (by rwa [decide_eq_true_eq])]
      constructor
      · exact fun he => absurd he List.not_mem_nil
      · rintro ⟨he, hk⟩
        rcases List.mem_cons.1 he with rfl | he
        · exact absurd hk ha
        · exact absurd ((h.1 e he).trans hk) ha

theorem mem_upTo : e ∈ m.upTo k ↔ e ∈ m.entries ∧ e.key ≤ k :=
  mem_takeWhile_of_sorted m.sorted

theorem mem_dropWhile_of_sorted (h : l.Pairwise fun a b => a.key ≤ b.key) :
    e ∈ l.dropWhile (fun e => decide (e.key ≤ k)) ↔ e ∈ l ∧ k < e.key := by
  induction l with
  | nil => simp
  | cons a l ih =>
    rw [List.pairwise_cons] at h
    rw [List.dropWhile_cons]
    by_cases ha : a.key ≤ k
    · rw [if_pos (decide_eq_true ha), List.mem_cons, ih h.2]
      constructor
      · exact fun he => ⟨.inr he.1, he.2⟩
      · rintro ⟨rfl | he, hk⟩
        · exact absurd ha (not_le.2 hk)
        · exact ⟨he, hk⟩
    · rw [if_neg (by rwa [decide_eq_true_eq])]
      refine ⟨fun he => ⟨he, ?_⟩, And.left⟩
      rcases List.mem_cons.1 he with rfl | he
      · exact not_le.1 ha
      · exact (not_le.1 ha).trans_le (h.1 e he)

end

/-! ## Changing the entries -/

theorem perm_emplace (a : MultimapEntry κ α) (l : List (MultimapEntry κ α)) (k : κ) :
    (l.takeWhile (fun e => decide (e.key ≤ k)) ++
      a :: l.dropWhile fun e => decide (e.key ≤ k)).Perm (a :: l) := by
  refine List.perm_middle.trans ?_
  rw [List.takeWhile_append_dropWhile]

theorem sorted_emplace {l : List (MultimapEntry κ α)} {a : MultimapEntry κ α}
    (h : l.Pairwise fun a b => a.key ≤ b.key) :
    (l.takeWhile (fun e => decide (e.key ≤ a.key)) ++
      a :: l.dropWhile fun e => decide (e.key ≤ a.key)).Pairwise fun a b => a.key ≤ b.key := by
  rw [List.pairwise_append, List.pairwise_cons]
  refine ⟨h.sublist (List.takeWhile_sublist _), ⟨fun e he => ?_, h.sublist (List.dropWhile_sublist _)⟩,
    fun e he e' he' => ?_⟩
  · exact ((mem_dropWhile_of_sorted h).1 he).2.le
  · have hle := ((mem_takeWhile_of_sorted h).1 he).2
    rcases List.mem_cons.1 he' with rfl | he'
    · exact hle
    · exact hle.trans ((mem_dropWhile_of_sorted h).1 he').2.le

/-- The new entry has the address `m.next`. -/
def emplace (k : κ) (v : α) : Multimap κ α where
  entries := m.entries.takeWhile (fun e => decide (e.key ≤ k)) ++
    ⟨m.next, k, v⟩ :: m.entries.dropWhile fun e => decide (e.key ≤ k)
  next := m.next + 1
  sorted := sorted_emplace (a := ⟨m.next, k, v⟩) m.sorted
  nodup := by
    rw [((perm_emplace _ _ _).map MultimapEntry.address).nodup_iff, List.map_cons, List.nodup_cons]
    refine ⟨fun h => ?_, m.nodup⟩
    rcases List.mem_map.1 h with ⟨e, he, heq⟩
    exact absurd heq (m.below e he).ne
  below e he := by
    rcases List.mem_cons.1 ((perm_emplace _ _ _).mem_iff.1 he) with rfl | he
    · exact Nat.lt_succ_self _
    · exact (m.below e he).trans (Nat.lt_succ_self _)

def erase (address : ℕ) : Multimap κ α where
  entries := m.entries.filter fun e => e.address ≠ address
  next := m.next
  sorted := m.sorted.sublist List.filter_sublist
  nodup := m.nodup.sublist (List.filter_sublist.map _)
  below e he := m.below e (List.mem_of_mem_filter he)

/-- Without the entries whose key is at most `k`. -/
def dropTo (k : κ) : Multimap κ α where
  entries := m.entries.dropWhile fun e => decide (e.key ≤ k)
  next := m.next
  sorted := m.sorted.sublist (List.dropWhile_sublist _)
  nodup := m.nodup.sublist ((List.dropWhile_sublist _).map _)
  below e he := m.below e ((List.dropWhile_sublist _).mem he)

def clear : Multimap κ α where
  entries := []
  next := m.next
  sorted := .nil
  nodup := List.nodup_nil
  below _ he := absurd he List.not_mem_nil

section

variable {m : Multimap κ α} {e : MultimapEntry κ α} {k : κ} {v : α} {address : ℕ}

theorem mem_emplace : e ∈ (m.emplace k v).entries ↔ e = ⟨m.next, k, v⟩ ∨ e ∈ m.entries := by
  rw [emplace, (perm_emplace _ _ _).mem_iff, List.mem_cons]

theorem mem_erase : e ∈ (m.erase address).entries ↔ e ∈ m.entries ∧ e.address ≠ address := by
  rw [erase, List.mem_filter, decide_eq_true_eq]

theorem mem_dropTo : e ∈ (m.dropTo k).entries ↔ e ∈ m.entries ∧ k < e.key :=
  mem_dropWhile_of_sorted m.sorted

/-- Of the entries that come first every address occurs once. -/
theorem nodup_upTo : ((m.upTo k).map MultimapEntry.address).Nodup :=
  m.nodup.sublist ((List.takeWhile_sublist _).map _)

end

end Multimap

end Lib
end AxisEngine
