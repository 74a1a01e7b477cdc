import Mathlib.Data.List.Basic
import Mathlib.Data.List.Induction
import Mathlib.Order.Nat

/-!
# FirstMax — the first of those with the highest rank

A search that goes through a list and takes an element whenever its rank is above the rank of what
was taken before.  Elements may be searched for in buckets instead of the whole list.

* `firstMax` — the search;
* `lastMax` — a search from the other end;
* `IsFirstMax` — what both find: nothing before it has its rank, nothing after it has more;
* `firstMax_buckets_iff` — when two buckets, one after the other, give the same as the whole list.
-/

namespace AxisEngine
namespace Lib

variable {α : Type*}

/-- The search, with the best element so far; `0` is below every rank. -/
def firstMax (rank : α → Nat) (ok : α → Bool) : List α → Option α → Option α
  | [], best => best
  | a :: l, best =>
    if best.elim 0 rank < rank a ∧ ok a = true then firstMax rank ok l (some a)
    else firstMax rank ok l best

/-- Nothing before `a` has its rank, and nothing after it has more. -/
def IsFirstMax (rank : α → Nat) (ok : α → Bool) (l : List α) (a : α) : Prop :=
  ∃ l₁ l₂, l = l₁ ++ a :: l₂ ∧ ok a = true ∧ (∀ b ∈ l₁, ok b = true → rank b < rank a) ∧
    ∀ b ∈ l₂, ok b = true → rank b ≤ rank a

section

variable {rank : α → Nat} {ok : α → Bool} {l : List α} {a b best : α}

/-- An element that was taken is kept, or one of a higher rank is found. -/
theorem firstMax_some (rank : α → Nat) (ok : α → Bool) (l : List α) (best : α) :
    (firstMax rank ok l (some best) = some best ∧ ∀ b ∈ l, ok b = true → rank b ≤ rank best) ∨
      ∃ a, firstMax rank ok l (some best) = some a ∧ IsFirstMax rank ok l a ∧
        rank best < rank a := by
  induction l generalizing best with
  | nil => exact .inl ⟨rfl, fun b hb => (List.not_mem_nil hb).elim⟩
  | cons c l ih =>
    rw [firstMax]
    by_cases htake : rank best < rank c ∧ ok c = true
    · rw [Option.elim_some, if_pos htake]
      rcases ih c with ⟨hkeep, hrest⟩ | ⟨a, ha, ⟨l₁, l₂, rfl, hok, hbefore, hafter⟩, hlt⟩
      · refine .inr ⟨c, hkeep, ⟨[], l, rfl, htake.2, ?_, hrest⟩, htake.1⟩
        exact fun b hb => (List.not_mem_nil hb).elim
      · refine .inr ⟨a, ha, ⟨c :: l₁, l₂, rfl, hok, ?_, hafter⟩, htake.1.trans hlt⟩
        intro b hb hb'
        rcases List.mem_cons.1 hb with rfl | hb
        · exact hlt
        · exact hbefore b hb hb'
    · rw [Option.elim_some, if_neg htake]
      have hle : ok c = true → rank c ≤ rank best := fun hc =>
        not_lt.1 fun hlt => htake ⟨hlt, hc⟩
      rcases ih best with ⟨hkeep, hrest⟩ | ⟨a, ha, ⟨l₁, l₂, rfl, hok, hbefore, hafter⟩, hlt⟩
      · refine .inl ⟨hkeep, fun b hb hb' => ?_⟩
        rcases List.mem_cons.1 hb with rfl | hb
        · exact hle hb'
        · exact hrest b hb hb'
      · refine .inr ⟨a, ha, ⟨c :: l₁, l₂, rfl, hok, ?_, hafter⟩, hlt⟩
        intro b hb hb'
        rcases List.mem_cons.1 hb with rfl | hb
        · exact (hle hb').trans_lt hlt
        · exact hbefore b hb hb'

variable (ok) in
/-- With positive ranks the search fails only when there is nothing to find. -/
theorem firstMax_none (hpos : ∀ b ∈ l, 0 < rank b) :
    (firstMax rank ok l none = none ∧ ∀ b ∈ l, ok b = false) ∨
      ∃ a, firstMax rank ok l none = some a ∧ IsFirstMax rank ok l a := by
  induction l with
  | nil => exact .inl ⟨rfl, fun b hb => (List.not_mem_nil hb).elim⟩
  | cons c l ih =>
    rw [firstMax, Option.elim_none]
    by_cases hc : ok c = true
    · rw [if_pos ⟨hpos c (List.mem_cons_self ..), hc⟩]
      rcases firstMax_some rank ok l c with
        ⟨hkeep, hrest⟩ | ⟨a, ha, ⟨l₁, l₂, rfl, hok, hbefore, hafter⟩, hlt⟩
      · exact .inr ⟨c, hkeep, [], l, rfl, hc, fun b hb => (List.not_mem_nil hb).elim, hrest⟩
      · refine .inr ⟨a, ha, c :: l₁, l₂, rfl, hok, ?_, hafter⟩
        intro b hb hb'
        rcases List.mem_cons.1 hb with rfl | hb
        · exact hlt
        · exact hbefore b hb hb'
    · rw [if_neg fun htake => hc htake.2]
      rcases ih fun b hb => hpos b (List.mem_cons_of_mem c hb) with
        ⟨hnone, hrest⟩ | ⟨a, ha, l₁, l₂, rfl, hok, hbefore, hafter⟩
      · refine .inl ⟨hnone, fun b hb => ?_⟩
        rcases List.mem_cons.1 hb with rfl | hb
        · exact Bool.not_eq_true _ ▸ hc
        · exact hrest b hb
      · refine .inr ⟨a, ha, c :: l₁, l₂, rfl, hok, ?_, hafter⟩
        intro b hb hb'
        rcases List.mem_cons.1 hb with rfl | hb
        · exact absurd hb' hc
        · exact hbefore b hb hb'

section

variable (h : IsFirstMax rank ok l a)

include h

theorem IsFirstMax.mem : a ∈ l := by
  rcases h with ⟨l₁, l₂, rfl, -⟩
  exact List.mem_append_right _ (List.mem_cons_self ..)

theorem IsFirstMax.fits : ok a = true := by
  rcases h with ⟨_, _, -, hok, -⟩
  exact hok

theorem IsFirstMax.rank_le (hb : b ∈ l) (hok : ok b = true) : rank b ≤ rank a := by
  rcases h with ⟨l₁, l₂, rfl, -, hbefore, hafter⟩
  rcases List.mem_append.1 hb with hb | hb
  · exact (hbefore b hb hok).le
  · rcases List.mem_cons.1 hb with rfl | hb
    · exact le_rfl
    · exact hafter b hb hok

/-- What is found stands first among those of its rank. -/
theorem IsFirstMax.find_eq : l.find? (fun b => ok b && decide (rank b = rank a)) = some a := by
  rcases h with ⟨l₁, l₂, rfl, hok, hbefore, -⟩
  refine List.find?_eq_some_iff_append.2 ⟨by simp [hok], l₁, l₂, rfl, fun b hb => ?_⟩
  by_cases hb' : ok b = true
  · simp [hb', (hbefore b hb hb').ne]
  · simp [hb']

end

theorem IsFirstMax.unique (ha : IsFirstMax rank ok l a) (hb : IsFirstMax rank ok l b) : a = b := by
  have hrank : rank a = rank b := le_antisymm (hb.rank_le ha.mem ha.fits) (ha.rank_le hb.mem hb.fits)
  have hfirst := ha.find_eq
  rw [hrank, hb.find_eq] at hfirst
  exact (Option.some.inj hfirst).symm

theorem firstMax_eq_some_iff (hpos : ∀ b ∈ l, 0 < rank b) :
    firstMax rank ok l none = some a ↔ IsFirstMax rank ok l a := by
  constructor
  · intro h
    rcases firstMax_none ok hpos with ⟨hnone, -⟩ | ⟨a', ha', hmax⟩
    · rw [hnone] at h
      cases h
    · rw [ha'] at h
      cases h
      exact hmax
  · intro h
    rcases firstMax_none ok hpos with ⟨-, hall⟩ | ⟨a', ha', hmax⟩
    · have hok := h.fits
      rw [hall a h.mem] at hok
      cases hok
    · rw [ha', h.unique hmax]

theorem firstMax_eq_none_iff (hpos : ∀ b ∈ l, 0 < rank b) :
    firstMax rank ok l none = none ↔ ∀ b ∈ l, ok b = false := by
  constructor
  · intro h
    rcases firstMax_none ok hpos with ⟨-, hall⟩ | ⟨a, ha, -⟩
    · exact hall
    · rw [h] at ha
      cases ha
  · intro h
    rcases firstMax_none ok hpos with ⟨hnone, -⟩ | ⟨a, -, hmax⟩
    · exact hnone
    · have hok := hmax.fits
      rw [h a hmax.mem] at hok
      cases hok

theorem firstMax_append (rank : α → Nat) (ok : α → Bool) (l l' : List α) (best : Option α) :
    firstMax rank ok (l ++ l') best = firstMax rank ok l' (firstMax rank ok l best) := by
  induction l generalizing best with
  | nil => rfl
  | cons a l ih =>
    rw [List.cons_append, firstMax, firstMax]
    split
    · exact ih _
    · exact ih _

/-! ## The other direction -/

/-- A search from the other end, in which an element of the same rank takes the place. -/
def lastMax (rank : α → Nat) (ok : α → Bool) (l : List α) : Option α :=
  l.foldl (fun best a => if ok a && decide (best.elim 0 rank ≤ rank a) then some a else best) none

theorem lastMax_eq (hpos : ∀ b ∈ l, 0 < rank b) :
    lastMax rank ok l = firstMax rank ok l.reverse none := by
  induction l using List.reverseRecOn with
  | nil => rfl
  | append_singleton l a ih =>
    have hpos' : ∀ b ∈ l, 0 < rank b := fun b hb => hpos b (List.mem_append_left _ hb)
    have ha : 0 < rank a := hpos a (List.mem_append_right _ (List.mem_singleton.2 rfl))
    have hrest := ih hpos'
    rw [lastMax] at hrest
    rw [lastMax, List.foldl_append, hrest, List.foldl_cons, List.foldl_nil, List.reverse_append,
      List.reverse_singleton, List.singleton_append, firstMax, Option.elim_none]
    by_cases hok : ok a = true
    · simp only [hok, Bool.true_and, decide_eq_true_eq, and_true, if_pos ha]
      have hposr : ∀ b ∈ l.reverse, 0 < rank b := fun b hb => hpos' b (List.mem_reverse.1 hb)
      rcases firstMax_some rank ok l.reverse a with ⟨hkeep, hle⟩ | ⟨c, hc, hmax, hlt⟩
      · rw [hkeep, if_pos]
        rcases firstMax_none ok hposr with ⟨hnone, -⟩ | ⟨c, hc, hmax⟩
        · rw [hnone]
          exact Nat.zero_le _
        · rw [hc]
          exact hle c hmax.mem hmax.fits
      · rw [hc, (firstMax_eq_some_iff hposr).2 hmax, if_neg]
        simpa using hlt
    · simp only [hok, Bool.false_and, Bool.false_eq_true, and_false, if_false]

/-! ## Two buckets -/

variable {p q : α → Bool}

/-- The elements with `p` are searched first, then those with `q`: the right one is found exactly
when it has `p`, or has `q` and no fitting element with `p` has the same rank. -/
theorem firstMax_buckets_iff (hpos : ∀ b ∈ l, 0 < rank b) :
    firstMax rank ok (l.filter p ++ l.filter q) none = firstMax rank ok l none ↔
      ∀ a, IsFirstMax rank ok l a → p a = true ∨
        (q a = true ∧ ∀ b ∈ l, ok b = true → p b = true → rank b ≠ rank a) := by
  have hsub : ∀ b ∈ l.filter p ++ l.filter q, b ∈ l := by
    intro b hb
    rcases List.mem_append.1 hb with hb | hb
    · exact List.mem_of_mem_filter hb
    · exact List.mem_of_mem_filter hb
  have hpos' : ∀ b ∈ l.filter p ++ l.filter q, 0 < rank b := fun b hb => hpos b (hsub b hb)
  constructor
  · intro h a ha
    rw [(firstMax_eq_some_iff hpos).2 ha, firstMax_eq_some_iff hpos'] at h
    rcases h with ⟨k₁, k₂, hk, -, hbefore, -⟩
    by_cases hp : p a = true
    · exact .inl hp
    · have hmem : a ∈ l.filter p ++ l.filter q := by
        rw [hk]
        exact List.mem_append_right _ (List.mem_cons_self ..)
      have hq : q a = true := by
        rcases List.mem_append.1 hmem with hmem | hmem
        · exact absurd (List.mem_filter.1 hmem).2 hp
        · exact (List.mem_filter.1 hmem).2
      refine .inr ⟨hq, fun b hb hok hb' => (hbefore b ?_ hok).ne⟩
      -- the first bucket is over before `a`
      have hfirst : b ∈ l.filter p := List.mem_filter.2 ⟨hb, hb'⟩
      rcases List.append_eq_append_iff.1 hk with ⟨rest, hk₁, -⟩ | ⟨rest, hsplit, hrest⟩
      · rw [hk₁]
        exact List.mem_append_left _ hfirst
      · cases rest with
        | nil =>
          rw [List.append_nil] at hsplit
          exact hsplit ▸ hfirst
        | cons c rest =>
          rw [List.cons_append] at hrest
          have hc : a = c := (List.cons.inj hrest).1
          have hc' : c ∈ l.filter p := by
            rw [hsplit]
            exact List.mem_append_right _ (List.mem_cons_self ..)
          exact absurd (List.mem_filter.1 hc').2 (hc ▸ hp)
  · intro h
    rcases firstMax_none ok hpos with ⟨hnone, hall⟩ | ⟨a, hsome, ha⟩
    · rw [hnone, firstMax_eq_none_iff hpos']
      exact fun b hb => hall b (hsub b hb)
    · rw [hsome, firstMax_eq_some_iff hpos']
      have hcases := h a ha
      have hle : ∀ b ∈ l, ok b = true → rank b ≤ rank a := fun b hb hok => ha.rank_le hb hok
      rcases ha with ⟨l₁, l₂, rfl, hok, hbefore, hafter⟩
      have hfilter : ∀ r : α → Bool, r a = true → (l₁ ++ a :: l₂).filter r =
          l₁.filter r ++ a :: l₂.filter r := by
        intro r hr
        rw [List.filter_append, List.filter_cons_of_pos hr]
      rcases hcases with hp | ⟨hq, hother⟩
      · refine ⟨l₁.filter p, l₂.filter p ++ (l₁ ++ a :: l₂).filter q, ?_, hok, ?_, ?_⟩
        · rw [hfilter p hp, List.append_assoc, List.cons_append]
        · exact fun b hb => hbefore b (List.mem_of_mem_filter hb)
        · intro b hb
          rcases List.mem_append.1 hb with hb | hb
          · exact hafter b (List.mem_of_mem_filter hb)
          · exact hle b (List.mem_of_mem_filter hb)
      · refine ⟨(l₁ ++ a :: l₂).filter p ++ l₁.filter q, l₂.filter q, ?_, hok, ?_, ?_⟩
        · rw [hfilter q hq, List.append_assoc]
        · intro b hb hok'
          rcases List.mem_append.1 hb with hb | hb
          · rcases List.mem_filter.1 hb with ⟨hb, hp⟩
            exact lt_of_le_of_ne (hle b hb hok') (hother b hb hok' hp)
          · exact hbefore b (List.mem_of_mem_filter hb) hok'
        · exact fun b hb => hafter b (List.mem_of_mem_filter hb)

end

end Lib
end AxisEngine
