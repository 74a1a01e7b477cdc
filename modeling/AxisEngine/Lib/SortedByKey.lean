import Mathlib.Data.List.TakeWhile
import Mathlib.Data.List.Perm.Subperm
import Mathlib.Order.Lattice

/-!
# SortedByKey — lists kept strictly increasing in a key

A list that is strictly increasing in a key holds at most one element per key, and its smallest
element stands first.  A scan that skips every element below a new key ends either at the element
with that key or at the place where the new element belongs; this module states both ends of the
scan.

* `StrictSorted key l` — strictly increasing in `key`;
* `insertAt key x l` — `x` put behind the elements with a smaller key;
* `StrictSorted.insertAt`, `mem_insertAt`, `length_insertAt` — what the insertion gives;
* `StrictSorted.dropWhile_eq_cons` — where the scan for a key that occurs ends.
-/

namespace AxisEngine
namespace Lib

variable {α κ : Type*} [LinearOrder κ]

/-- `l` is strictly increasing in `key`. -/
def StrictSorted (key : α → κ) (l : List α) : Prop :=
  l.Pairwise fun a b => key a < key b

/-- `x` behind the leading elements of smaller key. -/
def insertAt (key : α → κ) (x : α) (l : List α) : List α :=
  l.takeWhile (fun y => decide (key y < key x)) ++
    x :: l.dropWhile (fun y => decide (key y < key x))

section

variable {key : α → κ} {l : List α} {x y : α}

@[simp] theorem strictSorted_nil : StrictSorted key ([] : List α) :=
  List.Pairwise.nil

theorem strictSorted_cons :
    StrictSorted key (x :: l) ↔ (∀ y ∈ l, key x < key y) ∧ StrictSorted key l :=
  List.pairwise_cons

theorem mem_insertAt : y ∈ insertAt key x l ↔ y = x ∨ y ∈ l := by
  have hsplit :
      y ∈ l.takeWhile (fun z => decide (key z < key x)) ∨
        y ∈ l.dropWhile (fun z => decide (key z < key x)) ↔ y ∈ l := by
    rw [← List.mem_append, List.takeWhile_append_dropWhile]
  rw [insertAt, List.mem_append, List.mem_cons, ← hsplit]
  exact or_left_comm

theorem perm_insertAt (key : α → κ) (x : α) (l : List α) : (insertAt key x l).Perm (x :: l) := by
  refine List.perm_middle.trans ?_
  rw [List.takeWhile_append_dropWhile]

theorem length_insertAt : (insertAt key x l).length = l.length + 1 := by
  have hlen := congrArg List.length
    (List.takeWhile_append_dropWhile (p := fun z => decide (key z < key x)) (l := l))
  rw [List.length_append] at hlen
  simp only [insertAt, List.length_append, List.length_cons]
  omega

/-- An element above all others goes to the end. -/
theorem insertAt_of_forall_lt (h : ∀ y ∈ l, key y < key x) : insertAt key x l = l ++ [x] := by
  have hall : ∀ y ∈ l, decide (key y < key x) = true := fun y hy => decide_eq_true (h y hy)
  rw [insertAt, List.takeWhile_eq_self_iff.2 hall, List.dropWhile_eq_nil_iff.2 hall]

/-- What a scan has not skipped is behind its end, or small. -/
theorem mem_dropWhile_or {k : κ} (hy : y ∈ l) :
    y ∈ l.dropWhile (fun z => decide (key z ≤ k)) ∨ key y ≤ k := by
  rw [← List.takeWhile_append_dropWhile (p := fun z => decide (key z ≤ k)) (l := l),
    List.mem_append] at hy
  rcases hy with hy | hy
  · right
    simpa using List.mem_takeWhile_imp hy
  · exact .inl hy

namespace StrictSorted

theorem tail (h : StrictSorted key (x :: l)) : StrictSorted key l :=
  (strictSorted_cons.1 h).2

theorem head_lt (h : StrictSorted key (x :: l)) (hy : y ∈ l) : key x < key y :=
  (strictSorted_cons.1 h).1 y hy

section

variable (h : StrictSorted key l)

include h

theorem sublist {l' : List α} (hs : l'.Sublist l) :
    StrictSorted key l' :=
  List.Pairwise.sublist hs h

theorem nodup : l.Nodup :=
  h.imp fun hlt heq => absurd (heq ▸ hlt) (lt_irrefl _)

theorem eq_of_key_eq (hx : x ∈ l) (hy : y ∈ l) (hkey : key x = key y) : x = y := by
  induction l with
  | nil => cases hx
  | cons z l ih =>
    rcases List.mem_cons.1 hx with rfl | hx'
    · rcases List.mem_cons.1 hy with rfl | hy'
      · rfl
      · exact absurd hkey (ne_of_lt (h.head_lt hy'))
    · rcases List.mem_cons.1 hy with rfl | hy'
      · exact absurd hkey (ne_of_gt (h.head_lt hx'))
      · exact ih h.tail hx' hy'

/-- Behind the end of the scan no key is smaller than the one looked for. -/
theorem le_of_mem_dropWhile (hy : y ∈ l.dropWhile (fun z => decide (key z < key x))) :
    key x ≤ key y := by
  induction l with
  | nil => cases hy
  | cons z l ih =>
    by_cases hz : key z < key x
    · rw [List.dropWhile_cons_of_pos (by simpa using hz)] at hy
      exact ih h.tail hy
    · rw [List.dropWhile_cons_of_neg (by simpa using hz)] at hy
      have hle : key x ≤ key z := not_lt.1 hz
      rcases List.mem_cons.1 hy with rfl | hy'
      · exact hle
      · exact hle.trans (h.head_lt hy').le

end

/-- Around an element no key is the key of the element. -/
theorem ne_of_mem_append {l₁ l₂ : List α} (h : StrictSorted key (l₁ ++ x :: l₂))
    (hy : y ∈ l₁ ++ l₂) : key y ≠ key x := by
  rcases List.pairwise_append.1 h with ⟨-, hright, hcross⟩
  rcases List.mem_append.1 hy with hy | hy
  · exact (hcross y hy x (List.mem_cons_self ..)).ne
  · exact ((List.pairwise_cons.1 hright).1 y hy).ne'

section

variable (h : StrictSorted key l)

include h

/-- An element above all others goes to the end. -/
theorem append_singleton (hx : ∀ y ∈ l, key y < key x) : StrictSorted key (l ++ [x]) := by
  refine List.pairwise_append.2 ⟨h, List.pairwise_singleton _ _, ?_⟩
  intro y hy z hz
  rw [List.mem_singleton.1 hz]
  exact hx y hy

theorem insertAt (hx : ∀ y ∈ l, key y ≠ key x) : StrictSorted key (insertAt key x l) := by
  have htake : ∀ y ∈ l.takeWhile (fun z => decide (key z < key x)), key y < key x := by
    intro y hy
    simpa using List.mem_takeWhile_imp hy
  have hdrop : ∀ y ∈ l.dropWhile (fun z => decide (key z < key x)), key x < key y := by
    intro y hy
    have hmem : y ∈ l := (List.dropWhile_sublist _).subset hy
    exact lt_of_le_of_ne (h.le_of_mem_dropWhile hy) (hx y hmem).symm
  refine List.pairwise_append.2 ⟨h.sublist (List.takeWhile_sublist _), ?_, ?_⟩
  · exact List.pairwise_cons.2 ⟨hdrop, h.sublist (List.dropWhile_sublist _)⟩
  · intro a ha b hb
    rcases List.mem_cons.1 hb with rfl | hb'
    · exact htake a ha
    · exact (htake a ha).trans (hdrop b hb')

/-- The scan for a key that occurs ends at the element with that key. -/
theorem dropWhile_eq_cons (hy : y ∈ l) (hkey : key y = key x) :
    ∃ rest, l.dropWhile (fun z => decide (key z < key x)) = y :: rest := by
  induction l with
  | nil => cases hy
  | cons z l ih =>
    by_cases hz : key z < key x
    · rw [List.dropWhile_cons_of_pos (by simpa using hz)]
      rcases List.mem_cons.1 hy with rfl | hy'
      · exact absurd hkey (ne_of_lt hz)
      · exact ih h.tail hy'
    · rw [List.dropWhile_cons_of_neg (by simpa using hz)]
      rcases List.mem_cons.1 hy with rfl | hy'
      · exact ⟨l, rfl⟩
      · exact absurd (hkey ▸ h.head_lt hy') hz

/-- Behind the element at which a scan ended, the next scan ends at the next element. -/
theorem dropWhile_next {k : κ} {rest : List α}
    (hdrop : l.dropWhile (fun z => decide (key z ≤ k)) = x :: rest) :
    l.dropWhile (fun z => decide (key z ≤ key x)) = rest := by
  have hsplit := List.takeWhile_append_dropWhile (p := fun z => decide (key z ≤ k)) (l := l)
  rw [hdrop] at hsplit
  rw [← hsplit] at h ⊢
  rcases List.pairwise_append.1 h with ⟨-, hright, hcross⟩
  rw [List.dropWhile_append_of_pos fun y hy =>
      decide_eq_true (hcross y hy x (List.mem_cons_self ..)).le,
    List.dropWhile_cons_of_pos (by simp)]
  cases rest with
  | nil => rfl
  | cons z rest =>
    have hlt := (List.pairwise_cons.1 hright).1 z (List.mem_cons_self ..)
    exact List.dropWhile_cons_of_neg (by simpa using hlt)

end

/-- Keys below `n` leave room for `n` elements. -/
theorem length_le {key : α → Nat} {n : Nat} (h : StrictSorted key l) (hlt : ∀ x ∈ l, key x < n) :
    l.length ≤ n := by
  have hnodup : (l.map key).Nodup :=
    List.Pairwise.map _ (fun _ _ hab => hab.ne) h
  have hsub : l.map key ⊆ List.range n := by
    intro k hk
    rcases List.mem_map.1 hk with ⟨x, hx, rfl⟩
    exact List.mem_range.2 (hlt x hx)
  simpa using (hnodup.subperm hsub).length_le

/-- Sortedness only depends on how the keys compare. -/
theorem congr_key {κ' : Type*} [LinearOrder κ'] {key' : α → κ'} (h : StrictSorted key l)
    (hkey : ∀ a ∈ l, ∀ b ∈ l, key a < key b → key' a < key' b) : StrictSorted key' l :=
  List.Pairwise.imp_of_mem (fun ha hb hab => hkey _ ha _ hb hab) h

end StrictSorted

end

end Lib
end AxisEngine
