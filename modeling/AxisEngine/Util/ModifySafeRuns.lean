import AxisEngine.Util.ModifySafeMap

/-!
# ModifySafeRuns — a `ModifySafeMap` beside an ordinary map

The ordinary map has no second map and no nulls.  Beside it stands what an iteration should visit:
the entries at the begin of the outermost iteration that runs, and those of them that nobody has
touched since.

* `Plain` — the ordinary map;
* `Correct`, `Behaves` — what each operation should answer;
* `Holds`, `Walk` — how the two are related, `step_behaves`;
* `run_behaves` — every sequence of operations.
-/

namespace AxisEngine
namespace Util

open Lib

variable {K V : Type*} [LinearOrder K]

/-! ## The ordinary map -/

/-- `began`: the map when the outermost iteration began.  `kept`: what is left of that. -/
structure Plain (K V : Type*) [LinearOrder K] where
  map : SortedMap K V := .empty
  began : SortedMap K V := .empty
  kept : SortedMap K V := .empty
  depth : ℕ := 0

namespace Plain

def put (r : Plain K V) (key : K) (value : V) : Plain K V :=
  { r with map := r.map.put key value, kept := r.kept.erase key }

def erase (r : Plain K V) (key : K) : Plain K V :=
  { r with map := r.map.erase key, kept := r.kept.erase key }

def step (r : Plain K V) : MapOp K V → Plain K V
  | .put key value => r.put key value
  | .take key => r.erase key
  | .remove key => r.erase key
  | .clear => { r with map := .empty, kept := .empty }
  | .iter =>
    if r.depth = 0 then { r with began := r.map, kept := r.map, depth := 1 }
    else { r with depth := r.depth + 1 }
  | .done => { r with depth := r.depth - 1 }
  | .get _ => r
  | .size => r
  | .empty => r
  | .next _ => r

/-- Only iterations that run go on or end, and no more of them begin than can be counted. -/
def Permitted (r : Plain K V) : MapOp K V → Prop
  | .iter => r.depth < 2 ^ 32 - 1
  | .next depth => depth < r.depth
  | .done => r.depth ≠ 0
  | _ => True

instance (r : Plain K V) : (op : MapOp K V) → Decidable (r.Permitted op)
  | .iter => inferInstanceAs (Decidable (r.depth < 2 ^ 32 - 1))
  | .next depth => inferInstanceAs (Decidable (depth < r.depth))
  | .done => inferInstanceAs (Decidable (r.depth ≠ 0))
  | .put _ _ => .isTrue trivial
  | .take _ => .isTrue trivial
  | .remove _ => .isTrue trivial
  | .get _ => .isTrue trivial
  | .clear => .isTrue trivial
  | .size => .isTrue trivial
  | .empty => .isTrue trivial

def AllPermitted (r : Plain K V) : List (MapOp K V) → Prop
  | [] => True
  | op :: ops => r.Permitted op ∧ (r.step op).AllPermitted ops

instance decidableAllPermitted (r : Plain K V) : (ops : List (MapOp K V)) →
    Decidable (r.AllPermitted ops)
  | [] => .isTrue trivial
  | op :: ops =>
    have := decidableAllPermitted (r.step op) ops
    inferInstanceAs (Decidable (r.Permitted op ∧ (r.step op).AllPermitted ops))

/-- Nothing that was put during an iteration is there when the map is cleared. -/
def ClearsKept (r : Plain K V) : MapOp K V → Prop
  | .clear => r.depth ≠ 0 → r.map = r.kept
  | _ => True

def AllClearKept (r : Plain K V) : List (MapOp K V) → Prop
  | [] => True
  | op :: ops => r.ClearsKept op ∧ (r.step op).AllClearKept ops

end Plain

/-- The keys that an iteration has visited, with what it found there. -/
abbrev Visited (K V : Type*) := List (K × Option V)

/-- What has been visited by each running iteration, the innermost first. -/
def visit (visits : List (Visited K V)) : MapOp K V → MapOut K V → List (Visited K V)
  | .iter, _ => [] :: visits
  | .done, _ => visits.tail
  | .next depth, .entry (some e) => visits.set depth ((visits[depth]?).getD [] ++ [e])
  | _, _ => visits

/-- What an iteration gives next: in the order of the keys, nothing is passed by that was there at
the begin, and an entry that somebody has touched since is null. -/
structure EntryCorrect (r : Plain K V) (visited : Visited K V) (e : K × Option V) : Prop where
  ascending : ∀ e' ∈ visited, e'.1 < e.1
  complete : ∀ k, (r.began.find k).isSome → k < e.1 → k ∈ visited.map Prod.fst
  value : e.2 = r.kept.find e.1

def Correct (r : Plain K V) (visits : List (Visited K V)) : MapOp K V → MapOut K V → Prop
  | .take key, out => out = .value (r.map.find key)
  | .remove key, out => out = .bool (r.map.find key).isSome
  | .get key, out => out = .value (r.map.find key)
  | .size, out => r.depth = 0 → out = .size r.map.entries.length
  | .empty, out => r.depth = 0 → out = .bool r.map.entries.isEmpty
  | .next depth, .entry none =>
    ∀ k, (r.began.find k).isSome → k ∈ ((visits[depth]?).getD []).map Prod.fst
  | .next depth, .entry (some e) => EntryCorrect r ((visits[depth]?).getD []) e
  | .next _, _ => False
  | _, _ => True

/-- Every answer is as it should be. -/
def Behaves (C : Plain K V → List (Visited K V) → MapOp K V → MapOut K V → Prop)
    (r : Plain K V) (visits : List (Visited K V)) : List (MapOp K V) → List (MapOut K V) → Prop
  | [], [] => True
  | op :: ops, out :: outs =>
    C r visits op out ∧ Behaves C (r.step op) (visit visits op out) ops outs
  | _, _ => False

/-! ## The relation -/

/-- While an iteration runs, the values are those that nobody has touched. -/
structure Holds (m : ModifySafeMap K V) (r : Plain K V) : Prop where
  depth : m.iterating = r.depth
  reliable : m.garbage = 0 → ∀ k, m.values.find k ≠ some none
  quiet : r.depth = 0 → m.new = .empty ∧ ∀ k, (m.values.find k).join = r.map.find k
  kept : r.depth ≠ 0 → ∀ k, (m.values.find k).join = r.kept.find k
  map : r.depth ≠ 0 → ∀ k, r.map.find k = (m.new.find k).or (r.kept.find k)
  apart : r.depth ≠ 0 → ∀ k, (m.new.find k).isSome → r.kept.find k = none
  began : r.depth ≠ 0 → ∀ k, (r.began.find k).isSome → (m.values.find k).isSome

/-- An iteration has visited all keys up to the last one. -/
structure Walk (m : ModifySafeMap K V) (last : Option K) (visited : Visited K V) : Prop where
  last_eq : last = visited.getLast?.map Prod.fst
  ascending : visited.Pairwise fun e e' => e.1 < e'.1
  complete : ∀ k, (m.values.find k).isSome → ¬ (∀ k' ∈ last, k' < k) → k ∈ visited.map Prod.fst

section

variable {m m' : ModifySafeMap K V} {r : Plain K V} {key k : K} {last : Option K}
  {visited : Visited K V} {e : K × Option V}

theorem walk_nil (m : ModifySafeMap K V) : Walk m none [] where
  last_eq := rfl
  ascending := List.Pairwise.nil
  complete := fun k _ hnot => absurd (fun k' h => by cases h) hnot

theorem Walk.congr (h : Walk m last visited)
    (hkeys : ∀ k, (m'.values.find k).isSome → (m.values.find k).isSome) : Walk m' last visited :=
  ⟨h.last_eq, h.ascending, fun k hk => h.complete k (hkeys k hk)⟩

/-- The last key is above the others. -/
theorem Walk.lt (h : Walk m last visited) (hlast : ∀ k ∈ last, k < e.1) :
    ∀ e' ∈ visited, e'.1 < e.1 := by
  intro e' he'
  rcases List.eq_nil_or_concat visited with rfl | ⟨before, top, rfl⟩
  · cases he'
  · rw [List.concat_eq_append] at h he'
    have htop : top.1 < e.1 := by
      refine hlast top.1 ?_
      rw [h.last_eq, List.getLast?_concat]
      rfl
    rcases List.mem_append.1 he' with he' | he'
    · have hle := (List.pairwise_append.1 h.ascending).2.2 e' he' top (List.mem_singleton_self top)
      exact hle.trans htop
    · rw [List.mem_singleton.1 he']
      exact htop

theorem Walk.next (h : Walk m last visited) (hnext : m.next last = some e) :
    Walk m (some e.1) (visited ++ [e]) := by
  rcases SortedMap.after_eq_some hnext with ⟨-, hlast, hfirst⟩
  refine ⟨by rw [List.getLast?_concat]; rfl, ?_, fun k hk hnot => ?_⟩
  · refine List.pairwise_append.2 ⟨h.ascending, List.pairwise_singleton _ _, fun e' he' e'' he'' => ?_⟩
    rw [List.mem_singleton.1 he'']
    exact h.lt hlast e' he'
  · rw [List.map_append, List.mem_append]
    have hle : k ≤ e.1 := by simpa using hnot
    rcases hle.lt_or_eq with hlt | rfl
    · refine .inl (h.complete k hk fun hbehind => ?_)
      exact absurd (hfirst k hbehind hk) hlt.not_ge
    · exact .inr (List.mem_singleton_self _)

/-! ## Single operations -/

theorem find_blank (m : ModifySafeMap K V) (key k : K) :
    (m.blank key).values.find k = if k = key then some none else m.values.find k :=
  SortedMap.find_put m.values key none k

/-- What a put or a take does to the old entry while an iteration runs. -/
def dropOld (m : ModifySafeMap K V) (key : K) : ModifySafeMap K V :=
  if (m.values.find key).isSome then m.blank key else m

theorem join_dropOld (m : ModifySafeMap K V) (key k : K) :
    ((dropOld m key).values.find k).join = if k = key then none else (m.values.find k).join := by
  rw [dropOld]
  by_cases hold : (m.values.find key).isSome
  · rw [if_pos hold, find_blank]
    by_cases hk : k = key
    · rw [if_pos hk, if_pos hk]
      rfl
    · rw [if_neg hk, if_neg hk]
  · rw [if_neg hold]
    by_cases hk : k = key
    · rw [if_pos hk, hk, Option.not_isSome_iff_eq_none.1 hold]
      rfl
    · rw [if_neg hk]

theorem isSome_dropOld (m : ModifySafeMap K V) (key k : K) :
    ((dropOld m key).values.find k).isSome = (m.values.find k).isSome := by
  rw [dropOld]
  by_cases hold : (m.values.find key).isSome
  · rw [if_pos hold, find_blank]
    by_cases hk : k = key
    · rw [if_pos hk, hk, hold]
      rfl
    · rw [if_neg hk]
  · rw [if_neg hold]

theorem reliable_dropOld (h : m.garbage = 0 → ∀ k, m.values.find k ≠ some none) (key : K) :
    (dropOld m key).garbage = 0 → ∀ k, (dropOld m key).values.find k ≠ some none := by
  rw [dropOld]
  by_cases hold : (m.values.find key).isSome
  · rw [if_pos hold]
    exact fun hzero => absurd hzero (Nat.succ_ne_zero _)
  · rw [if_neg hold]
    exact h

theorem dropOld_counts (m : ModifySafeMap K V) (key : K) :
    (dropOld m key).iterating = m.iterating ∧ (dropOld m key).new = m.new := by
  rw [dropOld]
  by_cases hold : (m.values.find key).isSome
  · rw [if_pos hold]
    exact ⟨rfl, rfl⟩
  · rw [if_neg hold]
    exact ⟨rfl, rfl⟩

theorem Holds.get (h : Holds m r) (key : K) : m.get key = r.map.find key := by
  rw [ModifySafeMap.get, h.depth]
  by_cases hdepth : r.depth = 0
  · rw [if_neg fun hand => hand.1 hdepth]
    exact (h.quiet hdepth).2 key
  · rw [h.kept hdepth, h.map hdepth]
    cases hnew : m.new.find key with
    | none => rw [if_neg fun hand => Bool.false_ne_true hand.2, Option.none_or]
    | some value => rw [if_pos ⟨hdepth, rfl⟩, Option.some_or]

/-- While an iteration runs, all that changes is the second map and the values that are not null. -/
theorem Holds.running {r' : Plain K V} {new : SortedMap K V} (h : Holds m r) (hdepth : r.depth ≠ 0)
    (hsame : r'.depth = r.depth ∧ r'.began = r.began) (hkept : r'.kept = r.kept.erase key)
    (hnew : ∀ k, k ≠ key → new.find k = m.new.find k)
    (hmap : ∀ k, r'.map.find k = (new.find k).or (r'.kept.find k)) :
    Holds { dropOld m key with new := new } r' where
  depth := (dropOld_counts m key).1.trans (h.depth.trans hsame.1.symm)
  reliable := reliable_dropOld h.reliable key
  quiet := fun hzero => absurd (hsame.1.symm.trans hzero) hdepth
  kept := fun _ k => by
    rw [hkept, SortedMap.find_erase, ← h.kept hdepth k]
    exact join_dropOld m key k
  map := fun _ => hmap
  apart := fun _ k hk => by
    rw [hkept, SortedMap.find_erase]
    by_cases hkey : k = key
    · exact if_pos hkey
    · rw [if_neg hkey]
      exact h.apart hdepth k (hnew k hkey ▸ hk)
  began := fun _ k hk => by
    rw [hsame.2] at hk
    exact (isSome_dropOld m key k).trans (h.began hdepth k hk)

/-- The keys of a map that an iteration goes through stay. -/
def SameKeys (m m' : ModifySafeMap K V) : Prop :=
  ∀ k, (m'.values.find k).isSome → (m.values.find k).isSome

theorem Holds.put (h : Holds m r) (key : K) (value : V) :
    ∃ m', m.put key (some value) = some m' ∧ Holds m' (r.put key value) ∧
      (r.depth ≠ 0 → SameKeys m m') := by
  by_cases hdepth : r.depth = 0
  · refine ⟨{ m with values := m.values.put key (some value) }, ?_, ?_, fun hne => absurd hdepth hne⟩
    · exact if_neg fun hne => hne (h.depth.trans hdepth)
    · rcases h.quiet hdepth with ⟨hnew, hvalues⟩
      refine ⟨h.depth, fun hzero k => ?_, fun _ => ⟨hnew, fun k => ?_⟩, fun hne => absurd hdepth hne,
        fun hne => absurd hdepth hne, fun hne => absurd hdepth hne, fun hne => absurd hdepth hne⟩
      · rw [SortedMap.find_put]
        by_cases hk : k = key
        · rw [if_pos hk]
          exact fun heq => by cases heq
        · rw [if_neg hk]
          exact h.reliable hzero k
      · change ((m.values.put key (some value)).find k).join = (r.map.put key value).find k
        rw [SortedMap.find_put, SortedMap.find_put, ← hvalues k]
        by_cases hk : k = key
        · rw [if_pos hk, if_pos hk]
          rfl
        · rw [if_neg hk, if_neg hk]
  · have hputs : m.put key (some value) =
        some { dropOld m key with new := m.new.put key value } := by
      rw [ModifySafeMap.put, if_pos (by rw [h.depth]; exact hdepth), ← (dropOld_counts m key).2]
      rfl
    have hnew : ∀ k, k ≠ key → (m.new.put key value).find k = m.new.find k := fun k hk => by
      rw [SortedMap.find_put, if_neg hk]
    refine ⟨_, hputs, h.running hdepth ⟨rfl, rfl⟩ rfl hnew fun k => ?_, fun _ k hk => ?_⟩
    · change (r.map.put key value).find k = ((m.new.put key value).find k).or
        ((r.kept.erase key).find k)
      rw [SortedMap.find_put, SortedMap.find_put, SortedMap.find_erase, h.map hdepth k]
      by_cases hk : k = key
      · rw [if_pos hk, if_pos hk, Option.some_or]
      · rw [if_neg hk, if_neg hk, if_neg hk]
    · rwa [← isSome_dropOld m key k]

theorem take_running (m : ModifySafeMap K V) (key : K) (hrunning : m.iterating ≠ 0) :
    m.take key = ((m.new.find key).or (m.values.find key).join,
      { dropOld m key with new := m.new.erase key }) := by
  rw [ModifySafeMap.take, dropOld]
  simp only [if_pos hrunning]
  cases hold : m.values.find key with
  | none => rw [Option.join_none, Option.or_none]; rfl
  | some value => rfl

theorem take_quiet (m : ModifySafeMap K V) (key : K) (hquiet : m.iterating = 0) :
    m.take key = ((m.values.find key).join, { m with values := m.values.erase key }) := by
  rw [ModifySafeMap.take]
  simp only [if_neg (not_not.2 hquiet)]
  cases hold : m.values.find key with
  | none =>
    have hsame : m.values.erase key = m.values := by
      refine SortedMap.eq_of_find fun k => ?_
      rw [SortedMap.find_erase]
      by_cases hk : k = key
      · rw [if_pos hk, hk, hold]
      · rw [if_neg hk]
    rw [hsame, Option.join_none]
  | some value => rw [Option.join_some]; rfl

theorem Holds.take (h : Holds m r) (key : K) :
    (m.take key).1 = r.map.find key ∧ Holds (m.take key).2 (r.erase key) ∧
      (r.depth ≠ 0 → SameKeys m (m.take key).2) := by
  by_cases hdepth : r.depth = 0
  · rw [take_quiet m key (h.depth.trans hdepth)]
    rcases h.quiet hdepth with ⟨hnew, hvalues⟩
    refine ⟨hvalues key, ?_, fun hne => absurd hdepth hne⟩
    refine ⟨h.depth, fun hzero k => ?_, fun _ => ⟨hnew, fun k => ?_⟩, fun hne => absurd hdepth hne,
      fun hne => absurd hdepth hne, fun hne => absurd hdepth hne, fun hne => absurd hdepth hne⟩
    · rw [SortedMap.find_erase]
      by_cases hk : k = key
      · rw [if_pos hk]
        exact fun heq => by cases heq
      · rw [if_neg hk]
        exact h.reliable hzero k
    · change ((m.values.erase key).find k).join = (r.map.erase key).find k
      rw [SortedMap.find_erase, SortedMap.find_erase, ← hvalues k]
      by_cases hk : k = key
      · rw [if_pos hk, if_pos hk]
        rfl
      · rw [if_neg hk, if_neg hk]
  · rw [take_running m key (by rw [h.depth]; exact hdepth)]
    have hnew : ∀ k, k ≠ key → (m.new.erase key).find k = m.new.find k := fun k hk => by
      rw [SortedMap.find_erase, if_neg hk]
    refine ⟨?_, h.running hdepth ⟨rfl, rfl⟩ rfl hnew fun k => ?_, fun _ k hk => ?_⟩
    · rw [h.map hdepth, h.kept hdepth]
    · change (r.map.erase key).find k = ((m.new.erase key).find k).or ((r.kept.erase key).find k)
      rw [SortedMap.find_erase, SortedMap.find_erase, SortedMap.find_erase, h.map hdepth k]
      by_cases hk : k = key
      · rw [if_pos hk, if_pos hk, if_pos hk, Option.none_or]
      · rw [if_neg hk, if_neg hk, if_neg hk]
    · rwa [← isSome_dropOld m key k]

theorem Holds.clear (h : Holds m r) (hkept : r.depth ≠ 0 → r.map = r.kept) :
    Holds m.clear { r with map := .empty, kept := .empty } ∧
      (r.depth ≠ 0 → SameKeys m m.clear) := by
  rw [ModifySafeMap.clear]
  by_cases hdepth : r.depth = 0
  · rw [if_neg (not_not.2 (h.depth.trans hdepth))]
    refine ⟨?_, fun hne => absurd hdepth hne⟩
    refine ⟨h.depth, fun _ k heq => ?_, fun _ => ⟨(h.quiet hdepth).1, fun _ => rfl⟩,
      fun hne => absurd hdepth hne, fun hne => absurd hdepth hne, fun hne => absurd hdepth hne,
      fun hne => absurd hdepth hne⟩
    cases heq
  · rw [if_pos (by rw [h.depth]; exact hdepth)]
    have hblank : ∀ k, (m.values.map fun _ => (none : Option V)).find k =
        (m.values.find k).map fun _ => none := fun k => SortedMap.find_map _ _ k
    -- the second map is empty
    have hnew : ∀ k, m.new.find k = none := by
      intro k
      by_contra hsome
      have hk := h.apart hdepth k (Option.isSome_iff_ne_none.2 hsome)
      have hmap := h.map hdepth k
      rw [hkept hdepth, hk, Option.or_none] at hmap
      exact hsome hmap.symm
    refine ⟨⟨h.depth, fun hzero k => ?_, fun hzero => absurd hzero hdepth, fun _ k => ?_,
      fun _ k => ?_, fun _ k _ => rfl, fun _ k hk => ?_⟩, fun _ k hk => ?_⟩
    · have hnone := SortedMap.isEmpty_iff.1 (List.length_eq_zero_iff.1 hzero) k
      rw [hblank, hnone]
      exact fun heq => by cases heq
    · change ((m.values.map fun _ => (none : Option V)).find k).join = none
      rw [hblank]
      cases m.values.find k <;> rfl
    · change none = (m.new.find k).or none
      rw [hnew k]
      rfl
    · rw [hblank, Option.isSome_map]
      exact h.began hdepth k hk
    · rwa [hblank, Option.isSome_map] at hk

/-! ## Size -/

theorem Holds.live_eq (h : Holds m r) (hdepth : r.depth = 0) : m.values.live = r.map :=
  SortedMap.eq_of_find fun k => by rw [SortedMap.find_live, (h.quiet hdepth).2]

theorem Holds.countP_eq (h : Holds m r) (hdepth : r.depth = 0) :
    m.values.entries.countP (fun it => it.2.isSome) = r.map.entries.length := by
  rw [← SortedMap.length_live, h.live_eq hdepth]

/-- There are no nulls as long as none are counted. -/
theorem Holds.isSome_of_garbage (h : Holds m r) (hzero : m.garbage = 0) :
    ∀ it ∈ m.values.entries, it.2.isSome = true := by
  rintro ⟨k, value⟩ hmem
  have hfind := SortedMap.mem_entries_iff.1 hmem
  cases value with
  | none => exact absurd hfind (h.reliable hzero k)
  | some value => rfl

theorem Holds.size (h : Holds m r) (hdepth : r.depth = 0) :
    m.size = some r.map.entries.length := by
  have hnew : m.new.entries = [] := by
    rw [(h.quiet hdepth).1]
    rfl
  rw [ModifySafeMap.size, if_neg (not_not.2 (h.depth.trans hdepth)), if_neg (not_not.2 hnew)]
  rw [h.countP_eq hdepth]
  by_cases hzero : m.garbage = 0
  · rw [if_pos hzero, ← h.countP_eq hdepth, List.countP_eq_length.2 (h.isSome_of_garbage hzero)]
  · rw [if_neg hzero]

theorem Holds.empty (h : Holds m r) (hdepth : r.depth = 0) :
    m.empty = r.map.entries.isEmpty := by
  have hcount := h.countP_eq hdepth
  rw [ModifySafeMap.empty, if_neg (not_not.2 (h.depth.trans hdepth))]
  by_cases hzero : m.garbage = 0
  · rw [if_pos hzero]
    rw [List.countP_eq_length.2 (h.isSome_of_garbage hzero)] at hcount
    rw [Bool.eq_iff_iff, List.isEmpty_iff_length_eq_zero, List.isEmpty_iff_length_eq_zero, hcount]
  · rw [if_neg hzero, Bool.eq_iff_iff, List.isEmpty_iff_length_eq_zero, ← hcount,
      List.countP_eq_zero, List.all_eq_true]
    refine forall₂_congr fun it _ => ?_
    cases it.2 <;> simp

/-! ## The end of an iteration -/

theorem join_compact (values : SortedMap K (Option V)) (k : K) :
    (values.compact.find k).join = (values.find k).join := by
  rw [SortedMap.find_compact]
  cases (values.find k).join <;> rfl

/-- No iteration runs, and there is no second map. -/
structure Settled (m : ModifySafeMap K V) (map : SortedMap K V) : Prop where
  iterating : m.iterating = 0
  new : m.new = .empty
  reliable : m.garbage = 0 → ∀ k, m.values.find k ≠ some none
  values : ∀ k, (m.values.find k).join = map.find k

theorem Settled.holds (h : Settled m r.map) (hdepth : r.depth = 0) : Holds m r :=
  ⟨h.iterating.trans hdepth.symm, h.reliable, fun _ => ⟨h.new, h.values⟩,
    fun hne => absurd hdepth hne, fun hne => absurd hdepth hne, fun hne => absurd hdepth hne,
    fun hne => absurd hdepth hne⟩

theorem Settled.collectGarbage {map : SortedMap K V} (h : Settled m map) :
    Settled m.collectGarbage map := by
  rw [ModifySafeMap.collectGarbage]
  split
  · exact h
  · refine ⟨h.iterating, h.new, fun _ k => ?_, fun k => (join_compact m.values k).trans (h.values k)⟩
    change m.values.compact.find k ≠ some none
    rw [SortedMap.find_compact]
    cases (m.values.find k).join with
    | none => exact fun heq => by cases heq
    | some value => exact fun heq => by cases heq

/-- The values of both maps are there after the outermost iteration. -/
theorem Holds.mergeNew (h : Holds m r) (hdepth : r.depth ≠ 0) :
    Settled { m with iterating := 0 }.mergeNew r.map := by
  have hjoin : ∀ k, (((m.new.map some).absorb m.values).find k).join = r.map.find k := by
    intro k
    rw [SortedMap.find_absorb, SortedMap.find_map, h.map hdepth]
    cases m.new.find k with
    | none => exact h.kept hdepth k
    | some value => rfl
  rw [ModifySafeMap.mergeNew]
  by_cases hnew : m.new.entries = []
  · rw [if_neg (not_not.2 hnew)]
    have hnone := SortedMap.isEmpty_iff.1 hnew
    refine ⟨rfl, SortedMap.eq_of_find fun k => hnone k, h.reliable, fun k => ?_⟩
    rw [h.map hdepth, hnone k, Option.none_or]
    exact h.kept hdepth k
  · rw [if_pos hnew]
    refine ⟨rfl, rfl, fun hzero k => ?_, hjoin⟩
    change ((m.new.map some).absorb m.values).find k ≠ some none
    rw [SortedMap.find_absorb, SortedMap.find_map]
    cases m.new.find k with
    | none => exact h.reliable hzero k
    | some value => exact fun heq => by cases heq

theorem Holds.endIter (h : Holds m r) (hdepth : r.depth ≠ 0) :
    ∃ m', m.endIter = some m' ∧ Holds m' { r with depth := r.depth - 1 } ∧
      (r.depth - 1 ≠ 0 → SameKeys m m') := by
  rw [ModifySafeMap.endIter, if_neg (by rw [h.depth]; exact hdepth)]
  refine ⟨_, rfl, ?_⟩
  rw [h.depth]
  by_cases hlast : r.depth - 1 = 0
  · -- the outermost iteration
    rw [if_pos hlast, hlast]
    exact ⟨Settled.holds (r := { r with depth := 0 }) (h.mergeNew hdepth).collectGarbage rfl,
      fun hne => absurd rfl hne⟩
  · rw [if_neg hlast]
    refine ⟨⟨rfl, h.reliable, fun hzero => absurd hzero hlast, fun _ => h.kept hdepth,
      fun _ => h.map hdepth, fun _ => h.apart hdepth, fun _ => h.began hdepth⟩, fun _ k => id⟩

theorem Holds.beginIter (h : Holds m r) (hlimit : r.depth < 2 ^ 32 - 1) :
    ∃ m', m.beginIter = some m' ∧ Holds m' (r.step .iter) ∧ m'.values = m.values := by
  refine ⟨{ m with iterating := m.iterating + 1 }, ?_, ?_, rfl⟩
  · exact if_pos (by rw [h.depth]; exact hlimit)
  · by_cases hdepth : r.depth = 0
    · rcases h.quiet hdepth with ⟨hnew, hvalues⟩
      rw [Plain.step, if_pos hdepth]
      refine ⟨?_, h.reliable, fun hzero => absurd hzero Nat.one_ne_zero, fun _ => hvalues, fun _ k => ?_,
        fun _ k hk => ?_, fun _ k hk => ?_⟩
      · rw [h.depth, hdepth]
      · rw [hnew]
        rfl
      · rw [hnew] at hk
        cases hk
      · -- every entry of the map is among the values
        change (r.map.find k).isSome at hk
        rw [← hvalues k] at hk
        cases hfind : m.values.find k with
        | none =>
          rw [hfind] at hk
          cases hk
        | some value => rfl
    · rw [Plain.step, if_neg hdepth]
      exact ⟨congrArg (· + 1) h.depth, h.reliable, fun hzero => absurd hzero (Nat.succ_ne_zero _),
        fun _ => h.kept hdepth, fun _ => h.map hdepth, fun _ => h.apart hdepth,
        fun _ => h.began hdepth⟩

/-! ## Any operation -/

/-- The map and its iterations. -/
structure Related (s : Session K V) (r : Plain K V) (visits : List (Visited K V)) : Prop where
  holds : Holds s.map r
  walks : List.Forall₂ (Walk s.map) s.running visits
  count : s.running.length = r.depth

variable {running : List (Option K)} {visits : List (Visited K V)}

theorem walks_congr (h : List.Forall₂ (Walk m) running visits) (hkeys : SameKeys m m') :
    List.Forall₂ (Walk m') running visits :=
  h.imp fun _ _ hwalk => hwalk.congr hkeys

/-- Where no iteration runs, no keys have to stay. -/
theorem walks_of_count {n : ℕ} (h : List.Forall₂ (Walk m) running visits) (hcount : running.length = n)
    (hkeys : n ≠ 0 → SameKeys m m') : List.Forall₂ (Walk m') running visits := by
  cases h with
  | nil => exact .nil
  | cons hwalk hrest =>
    refine walks_congr (.cons hwalk hrest) (hkeys ?_)
    rw [← hcount]
    exact Nat.succ_ne_zero _

variable {s : Session K V} {visits : List (Visited K V)} {op : MapOp K V}

theorem Related.withMap {r' : Plain K V} (h : Related s r visits) (hholds : Holds m' r')
    (hdepth : r'.depth = r.depth) (hkeys : r.depth ≠ 0 → SameKeys s.map m') :
    Related { s with map := m' } r' visits := by
  exact ⟨hholds, walks_of_count h.walks h.count hkeys, h.count.trans hdepth.symm⟩

variable {α β : Type*} {l : List α} {l' : List β} {R : α → β → Prop}

theorem forall₂_set {a : α} {b : β} (h : List.Forall₂ R l l') (hab : R a b) (i : ℕ) :
    List.Forall₂ R (l.set i a) (l'.set i b) := by
  induction h generalizing i with
  | nil => exact .nil
  | cons hxy hrest ih =>
    cases i with
    | zero => exact .cons hab hrest
    | succ i => exact .cons hxy (ih i)

theorem forall₂_tail (h : List.Forall₂ R l l') : List.Forall₂ R l.tail l'.tail := by
  cases h with
  | nil => exact .nil
  | cons _ hrest => exact hrest

theorem forall₂_getElem? {a : α} (h : List.Forall₂ R l l') {i : ℕ} (hi : l[i]? = some a) :
    ∃ b, l'[i]? = some b ∧ R a b := by
  induction h generalizing i with
  | nil => cases hi
  | cons hxy hrest ih =>
    cases i with
    | zero =>
      cases hi
      exact ⟨_, rfl, hxy⟩
    | succ i => exact ih hi

theorem Related.next (h : Related s r visits) {depth : ℕ} (hdepth : depth < r.depth) :
    ∃ s' out, s.step (.next depth) = some (s', out) ∧
      Related s' r (visit visits (.next depth) out) ∧ Correct r visits (.next depth) out := by
  have hne : r.depth ≠ 0 := Nat.ne_zero_of_lt hdepth
  have hlast : ∃ last, s.running[depth]? = some last :=
    ⟨_, List.getElem?_eq_getElem (h.count ▸ hdepth)⟩
  rcases hlast with ⟨last, hlast⟩
  rcases forall₂_getElem? h.walks hlast with ⟨visited, hvisited, hwalk⟩
  rw [Session.step, hlast, Option.map_some]
  cases hnext : s.map.next last with
  | none =>
    refine ⟨s, .entry none, rfl, h, fun k hk => ?_⟩
    rw [hvisited]
    exact hwalk.complete k (h.holds.began hne k hk)
      (SortedMap.after_eq_none hnext (h.holds.began hne k hk))
  | some e =>
    rcases SortedMap.after_eq_some hnext with ⟨hfind, hbehind, hfirst⟩
    refine ⟨_, _, rfl, ?_, ?_⟩
    · refine ⟨h.holds, ?_, (List.length_set).trans h.count⟩
      change List.Forall₂ (Walk s.map) (s.running.set depth (some e.1))
        (visits.set depth ((visits[depth]?).getD [] ++ [e]))
      rw [hvisited]
      exact forall₂_set h.walks (hwalk.next hnext) depth
    · change EntryCorrect r ((visits[depth]?).getD []) e
      rw [hvisited]
      refine ⟨hwalk.lt hbehind, fun k hk hlt => ?_, ?_⟩
      · refine hwalk.complete k (h.holds.began hne k hk) fun hall => ?_
        exact absurd (hfirst k hall (h.holds.began hne k hk)) hlt.not_ge
      · rw [← h.holds.kept hne, hfind, Option.join_some]

theorem step_behaves (h : Related s r visits) (hpermitted : r.Permitted op)
    (hclears : r.ClearsKept op) :
    ∃ s' out, s.step op = some (s', out) ∧ Related s' (r.step op) (visit visits op out) ∧
      Correct r visits op out := by
  cases op with
  | put key value =>
    rcases h.holds.put key value with ⟨m', hput, hholds, hkeys⟩
    refine ⟨_, .done, ?_, h.withMap hholds rfl hkeys, trivial⟩
    rw [Session.step, hput]
    rfl
  | take key =>
    rcases h.holds.take key with ⟨hvalue, hholds, hkeys⟩
    exact ⟨_, _, rfl, h.withMap hholds rfl hkeys, congrArg MapOut.value hvalue⟩
  | remove key =>
    rcases h.holds.take key with ⟨hvalue, hholds, hkeys⟩
    exact ⟨_, _, rfl, h.withMap hholds rfl hkeys,
      congrArg (fun value => MapOut.bool (Option.isSome value)) hvalue⟩
  | get key => exact ⟨s, _, rfl, h, congrArg MapOut.value (h.holds.get key)⟩
  | clear =>
    rcases h.holds.clear hclears with ⟨hholds, hkeys⟩
    exact ⟨_, _, rfl, h.withMap hholds rfl hkeys, trivial⟩
  | size =>
    by_cases hdepth : r.depth = 0
    · refine ⟨s, _, ?_, h, fun _ => rfl⟩
      rw [Session.step, h.holds.size hdepth]
      rfl
    · refine ⟨s, .size ModifySafeMap.unknown, ?_, h, fun hzero => absurd hzero hdepth⟩
      rw [Session.step, ModifySafeMap.size, if_pos (by rw [h.holds.depth]; exact hdepth)]
      rfl
  | empty => exact ⟨s, _, rfl, h, fun hzero => congrArg MapOut.bool (h.holds.empty hzero)⟩
  | iter =>
    rcases h.holds.beginIter hpermitted with ⟨m', hbegin, hholds, hvalues⟩
    refine ⟨{ map := m', running := none :: s.running }, .done, ?_, ⟨hholds, ?_, ?_⟩, trivial⟩
    · rw [Session.step, hbegin]
      rfl
    · refine .cons (walk_nil m') (walks_congr h.walks fun k hk => ?_)
      rwa [hvalues] at hk
    · rw [Plain.step, List.length_cons, h.count]
      by_cases hdepth : r.depth = 0
      · rw [if_pos hdepth, hdepth]
      · rw [if_neg hdepth]
  | next depth => exact h.next hpermitted
  | done =>
    rcases h.holds.endIter hpermitted with ⟨m', hend, hholds, hkeys⟩
    refine ⟨{ map := m', running := s.running.tail }, .done, ?_, ⟨hholds, ?_, ?_⟩, trivial⟩
    · rw [Session.step, hend]
      rfl
    · have htail : s.running.tail.length = r.depth - 1 := by rw [List.length_tail, h.count]
      exact walks_of_count (forall₂_tail h.walks) htail hkeys
    · rw [Plain.step, List.length_tail, h.count]

/-- From any state of the two, all operations answer as they should. -/
theorem Related.behaves {ops : List (MapOp K V)} (h : Related s r visits)
    (hops : r.AllPermitted ops) (hclears : r.AllClearKept ops) :
    ∃ outs, s.run ops = some outs ∧ Behaves Correct r visits ops outs := by
  induction ops generalizing s r visits with
  | nil => exact ⟨[], rfl, trivial⟩
  | cons op ops ih =>
    rcases step_behaves h hops.1 hclears.1 with ⟨s', out, hstep, h', hcorrect⟩
    rcases ih h' hops.2 hclears.2 with ⟨outs, hrun, hbehaves⟩
    refine ⟨out :: outs, ?_, hcorrect, hbehaves⟩
    rw [Session.run, hstep, Option.bind_some, hrun]
    rfl

theorem related_empty : Related ({} : Session K V) {} [] where
  holds := ⟨rfl, (fun _ _ heq => by cases heq), (fun _ => ⟨rfl, fun _ => rfl⟩),
    fun hne => absurd rfl hne, fun hne => absurd rfl hne, fun hne => absurd rfl hne,
    fun hne => absurd rfl hne⟩
  walks := .nil
  count := rfl

end

/-- Whatever is done to it, the map answers as an ordinary map does, and each iteration gives the
entries that were there when the outermost one began, those that somebody has touched since as
null; all that it gives besides is null. -/
theorem run_behaves (ops : List (MapOp K V)) (hops : Plain.AllPermitted {} ops)
    (hclears : Plain.AllClearKept {} ops) :
    ∃ outs, ({} : Session K V).run ops = some outs ∧ Behaves Correct {} [] ops outs :=
  related_empty.behaves hops hclears

/-- A value is replaced and another one is taken while two iterations run. -/
def replaceAndTake : List (MapOp ℕ ℕ) :=
  [.put 1 10, .put 2 20, .iter, .next 0, .iter, .put 1 11, .take 2, .next 0, .next 1, .done, .done,
    .get 1, .size]

theorem run_behaves_nested :
    ∃ outs, ({} : Session ℕ ℕ).run replaceAndTake = some outs ∧
      Behaves Correct {} [] replaceAndTake outs := by
  refine run_behaves replaceAndTake (by decide) ?_
  exact ⟨trivial, trivial, trivial, trivial, trivial, trivial, trivial, trivial, trivial, trivial,
    trivial, trivial, trivial, trivial⟩

/-! ## Nulls of earlier iterations, and a map that is cleared -/

/-- An iteration gives nothing but entries that were there when the outermost one began. -/
def CorrectExactly (r : Plain K V) (visits : List (Visited K V)) (op : MapOp K V)
    (out : MapOut K V) : Prop :=
  Correct r visits op out ∧
    ∀ depth e, op = .next depth → out = .entry (some e) → (r.began.find e.1).isSome

/-- What was taken during one iteration is there as null in the next. -/
def takeAndGoOn : List (MapOp ℕ ℕ) :=
  [.put 1 10, .iter, .take 1, .done, .iter, .next 0]

/-- What was put during an iteration stays when the map is cleared. -/
def putAndClear : List (MapOp ℕ ℕ) :=
  [.iter, .put 1 10, .clear, .get 1]

theorem not_correctExactly :
    (Plain.AllPermitted {} takeAndGoOn ∧ ¬ ∃ outs, ({} : Session ℕ ℕ).run takeAndGoOn = some outs ∧
      Behaves CorrectExactly {} [] takeAndGoOn outs) ∧
    (Plain.AllPermitted {} putAndClear ∧ ¬ ∃ outs, ({} : Session ℕ ℕ).run putAndClear = some outs ∧
      Behaves CorrectExactly {} [] putAndClear outs) := by
  refine ⟨⟨by decide, ?_⟩, by decide, ?_⟩
  · have houts : ({} : Session ℕ ℕ).run takeAndGoOn = some [.done, .done, .value (some 10), .done,
        .done, .entry (some (1, none))] := rfl
    rintro ⟨outs, hrun, hbehaves⟩
    rw [houts] at hrun
    rw [← Option.some.inj hrun] at hbehaves
    have hlast := hbehaves.2.2.2.2.2.1.2 0 (1, none) rfl rfl
    exact absurd hlast (by decide)
  · have houts : ({} : Session ℕ ℕ).run putAndClear = some [.done, .done, .done,
        .value (some 10)] := rfl
    rintro ⟨outs, hrun, hbehaves⟩
    rw [houts] at hrun
    rw [← Option.some.inj hrun] at hbehaves
    have hlast : MapOut.value (some 10) = .value none := hbehaves.2.2.2.1.1
    cases hlast

end Util
end AxisEngine
