import AxisEngine.Content.ModConfiguration
import AxisEngine.Lib.Prerequisites
import Mathlib.Data.List.Perm.Subperm
import Mathlib.Data.List.Perm.Basic

/-!
# LoadOrder — mods come after what they need

What a mod needs are its dependencies, and the optional ones that are there.  The loop is right for
these, whatever the order of the list.  An optional dependency is left alone, however, where one of
the two mods is the last one.

* `needs`, `wants` — with and without this exception;
* `Loadable`, `Resolved` — the least set of mods that can be loaded, and what the two lists should
  be;
* `Loading` — what holds each time around the loop, kept by `Loading.step`;
* `resolveDependencies_resolved` — the result.
-/

namespace AxisEngine
namespace Content

open Lib

namespace ModConfiguration

open ModSpec

/-! ## What should hold -/

def wants (c : ModConfiguration) (mod : ModSpec) : Set Bytes :=
  {d | d ∈ mod.depends ∨ d ∈ mod.optdepends ∧ d ∈ c.unsatisfiedMods.map name}

/-- The last mod is no optional dependency, and has none. -/
def needs (c : ModConfiguration) (mod : ModSpec) : Set Bytes :=
  {d | d ∈ mod.depends ∨ d ∈ mod.optdepends ∧ d ∈ c.unsatisfiedMods.map name ∧
    mod.name ≠ c.lastMod ∧ d ≠ c.lastMod}

/-- The first mod counts as loaded. -/
def Loadable (c : ModConfiguration) (needs : ModSpec → Set Bytes) : Bytes → Prop :=
  Attainable name needs {c.firstMod} {mod | mod ∈ c.unsatisfiedMods}

/-- `after`: where no mod has the name that comes first, nothing is waited for. -/
structure Resolved (c : ModConfiguration) (needs : ModSpec → Set Bytes)
    (sorted rest : List ModSpec) : Prop where
  all : ((sorted ++ rest).map declared).Perm (c.unsatisfiedMods.map declared)
  once : (sorted.map name).Nodup
  loaded : ∀ mod ∈ c.unsatisfiedMods,
    mod.name ∈ sorted.map name ↔ ∀ d ∈ needs mod, c.Loadable needs d
  after : AfterNeeds name needs {d | d = c.firstMod ∧ d ∉ c.unsatisfiedMods.map name} sorted
  first : c.firstMod ≠ [] ∨ c.firstMod ∈ c.unsatisfiedMods.map name →
    ∃ mod tail, sorted = mod :: tail ∧ mod.name = c.firstMod
  last : ∀ mod ∈ sorted, mod.name = c.lastMod → mod.name ≠ c.firstMod →
    ∃ front, sorted = front ++ [mod]
  missing : ∀ mod ∈ rest, ∀ d, d ∈ mod.unsatisfiedDepends ↔ d ∈ needs mod ∧ ¬ c.Loadable needs d

variable {c c' : ModConfiguration} {mods out rest satisfied unsatisfied : List ModSpec}
  {mod mod2 : ModSpec} {f : Found} {d : Bytes}

@[simp] theorem declared_relieve (n : Bytes) (mod : ModSpec) :
    (mod.relieve n).declared = mod.declared := rfl

@[simp] theorem declared_gather (names : Finset Bytes) (mod : ModSpec) :
    (c.gather names mod).declared = mod.declared := rfl

theorem name_declared (mod : ModSpec) : mod.declared.name = mod.name := rfl

theorem name_eq_of_declared (h : mod.declared = mod2.declared) : mod.name = mod2.name := by
  rw [← name_declared mod, h, name_declared]

/-- Two lists of the same mods: a mod of one is in the other as it was declared. -/
theorem exists_declared {mods2 : List ModSpec} (h : (mods.map declared).Perm (mods2.map declared))
    (hmod : mod ∈ mods) : ∃ mod2 ∈ mods2, mod2.declared = mod.declared :=
  List.mem_map.1 (h.subset (List.mem_map_of_mem hmod))

theorem needs_declared (mod : ModSpec) : c.needs mod.declared = c.needs mod := rfl

theorem needs_eq_of_declared (h : mod.declared = mod2.declared) : c.needs mod = c.needs mod2 := by
  rw [← needs_declared mod, h, needs_declared]

/-! ## The first mod, the last mod and the others -/

structure FoundIn (c : ModConfiguration) (mods : List ModSpec) (f : Found) : Prop where
  first : ∀ mod, f.firstModSpec = some mod ↔ mod ∈ mods ∧ mod.name = c.firstMod
  last : ∀ mod, f.lastModSpec = some mod ↔ mod ∈ mods ∧ mod.name = c.lastMod ∧ mod.name ≠ c.firstMod
  names : ∀ n, n ∈ f.modnames ↔ n ∈ mods.map name ∧ n ≠ c.firstMod ∧ n ≠ c.lastMod

section Concat

variable {α : Type*} {P : α → Prop} {l : List α} {a : α} (x : α)

theorem mem_concat_of_not (ha : ¬ P a) : x ∈ l ++ [a] ∧ P x ↔ x ∈ l ∧ P x := by
  rw [List.mem_append, List.mem_singleton, or_and_right, or_iff_left]
  rintro ⟨rfl, hx⟩
  exact ha hx

theorem mem_concat_of (ha : P a) : x ∈ l ++ [a] ∧ P x ↔ x = a ∨ x ∈ l ∧ P x := by
  rw [List.mem_append, List.mem_singleton, or_and_right, or_comm, and_iff_left_of_imp]
  rintro rfl
  exact ha

theorem mem_concat_of_new (ha : P a) (hl : ∀ y ∈ l, ¬ P y) : x ∈ l ++ [a] ∧ P x ↔ a = x := by
  rw [mem_concat_of x ha, or_iff_left, eq_comm]
  rintro ⟨hx, hP⟩
  exact hl x hx hP

end Concat

theorem FoundIn.find (h : FoundIn c mods f) (hnew : mod.name ∉ mods.map name) :
    FoundIn c (mods ++ [mod]) (c.find f mod) := by
  have hother : ∀ x ∈ mods, x.name ≠ mod.name := fun x hx hsame =>
    hnew (hsame ▸ List.mem_map_of_mem hx)
  unfold ModConfiguration.find
  by_cases hfirst : mod.name = c.firstMod
  · rw [if_pos hfirst]
    refine ⟨fun x => ?_, fun x => ?_, fun n => ?_⟩
    · rw [Option.some_inj]
      apply (mem_concat_of_new x _ _).symm
      · exact hfirst
      · exact fun y hy hname => hother y hy (hname.trans hfirst.symm)
    · rw [h.last]
      apply (mem_concat_of_not x _).symm
      exact fun hmod => hmod.2 hfirst
    · rw [h.names, List.map_append, List.map_singleton]
      apply (mem_concat_of_not n _).symm
      exact fun hmod => hmod.1 hfirst
  · rw [if_neg hfirst]
    by_cases hlast : mod.name = c.lastMod
    · rw [if_pos hlast]
      refine ⟨fun x => ?_, fun x => ?_, fun n => ?_⟩
      · rw [h.first]
        apply (mem_concat_of_not x _).symm
        exact hfirst
      · rw [Option.some_inj]
        apply (mem_concat_of_new x _ _).symm
        · exact ⟨hlast, hfirst⟩
        · exact fun y hy hname => hother y hy (hname.1.trans hlast.symm)
      · rw [h.names, List.map_append, List.map_singleton]
        apply (mem_concat_of_not n _).symm
        exact fun hmod => hmod.2 hlast
    · rw [if_neg hlast]
      refine ⟨fun x => ?_, fun x => ?_, fun n => ?_⟩
      · rw [h.first]
        apply (mem_concat_of_not x _).symm
        exact hfirst
      · rw [h.last]
        apply (mem_concat_of_not x _).symm
        exact fun hmod => hlast hmod.1
      · rw [Finset.mem_insert, h.names, List.map_append, List.map_singleton]
        apply (mem_concat_of n _).symm
        exact ⟨hfirst, hlast⟩

theorem foundIn_foldl (hnames : (mods.map name).Nodup) :
    FoundIn c mods (mods.foldl c.find {}) := by
  induction mods using List.reverseRecOn with
  | nil => constructor <;> simp
  | append_singleton mods mod ih =>
    rw [List.map_append, List.map_singleton, List.nodup_append] at hnames
    rw [List.foldl_append]
    refine (ih hnames.1).find fun hmod => ?_
    exact hnames.2.2 _ hmod _ (List.mem_singleton.2 rfl) rfl

/-! ## The mods that go through the loop -/

def kept (c : ModConfiguration) (names : Finset Bytes) (mods : List ModSpec) : List ModSpec :=
  (mods.filter fun mod => !decide (c.IsEnd mod)).map (c.gather names)

/-- The mods that go through the loop, in their first order. -/
def looped (c : ModConfiguration) : List ModSpec :=
  c.kept c.found.modnames c.unsatisfiedMods

theorem split_eq {res : List ModSpec × List ModSpec}
    (h : c.split f mods satisfied unsatisfied = .ok res) :
    res.1 = ((c.kept f.modnames mods).filter isSatisfied).reverse ++ satisfied ∧
    res.2 = unsatisfied ++ (c.kept f.modnames mods).filter (fun mod => !mod.isSatisfied) ∧
    ∀ mod ∈ c.kept f.modnames mods, ∀ last, f.lastModSpec = some last →
      last.name ∉ mod.unsatisfiedDepends := by
  induction mods generalizing satisfied unsatisfied with
  | nil =>
    cases h
    simp [kept]
  | cons mod mods ih =>
    rw [split] at h
    split at h
    next hend =>
      have hkept : c.kept f.modnames (mod :: mods) = c.kept f.modnames mods := by
        simp [kept, hend]
      rw [hkept]
      exact ih h
    next hend =>
      have hkept : c.kept f.modnames (mod :: mods)
          = c.gather f.modnames mod :: c.kept f.modnames mods := by
        simp [kept, hend]
      rw [hkept, List.forall_mem_cons]
      dsimp only at h
      split at h
      next => cases h
      next hlast =>
        have hlast : ∀ last, f.lastModSpec = some last →
            last.name ∉ (c.gather f.modnames mod).unsatisfiedDepends := by
          intro last hl
          simpa [hl] using hlast
        split at h
        next hsat =>
          rcases ih h with ⟨h₁, h₂, h₃⟩
          refine ⟨?_, ?_, hlast, h₃⟩
          · simp [h₁, List.filter_cons_of_pos hsat]
          · simp [h₂, hsat]
        next hsat =>
          rcases ih h with ⟨h₁, h₂, h₃⟩
          refine ⟨?_, ?_, hlast, h₃⟩
          · simp [h₁, List.filter_cons_of_neg hsat]
          · simp [h₂, hsat]

theorem mem_between : mod ∈ mods.filter (fun mod => !decide (c.IsEnd mod)) ↔
    mod ∈ mods ∧ mod.name ≠ c.firstMod ∧ mod.name ≠ c.lastMod := by
  rw [List.mem_filter, Bool.not_eq_true', decide_eq_false_iff_not, IsEnd, not_or]

theorem map_declared_kept (names : Finset Bytes) (mods : List ModSpec) :
    (c.kept names mods).map declared
      = (mods.filter fun mod => !decide (c.IsEnd mod)).map declared := by
  rw [kept, List.map_map]
  rfl

/-- Every mod is the first, the last, or one of the others. -/
theorem FoundIn.perm (h : FoundIn c mods f) (hnames : (mods.map name).Nodup)
    (names : Finset Bytes) :
    ((f.firstModSpec.toList ++ (c.kept names mods ++ f.lastModSpec.toList)).map declared).Perm
      (mods.map declared) := by
  have hnodup : mods.Nodup := .of_map _ hnames
  rw [List.map_append, List.map_append, map_declared_kept, ← List.map_append, ← List.map_append]
  apply List.Perm.map
  rw [List.perm_ext_iff_of_nodup _ hnodup]
  · intro mod
    rw [List.mem_append, List.mem_append, Option.mem_toList, Option.mem_toList, h.first, h.last,
      mem_between]
    tauto
  · refine List.nodup_append.2 ⟨Option.toList_nodup _, ?_, ?_⟩
    · refine List.nodup_append.2 ⟨hnodup.filter _, Option.toList_nodup _, ?_⟩
      rintro x hx y hy rfl
      rw [Option.mem_toList, h.last] at hy
      exact (mem_between.1 hx).2.2 hy.2.1
    · rintro x hx y hy rfl
      rw [Option.mem_toList, h.first] at hx
      rcases List.mem_append.1 hy with hy | hy
      · exact (mem_between.1 hy).2.1 hx.2
      · rw [Option.mem_toList, h.last] at hy
        exact hy.2.2 hx.2

/-! ## The loop -/

/-- What keeps a mod from being loaded: some of its needs, those that were not. -/
def Stuck (c : ModConfiguration) (sorted : List ModSpec) (mod : ModSpec) : Prop :=
  mod.unsatisfiedDepends ≠ ∅ ∧ ∀ d, d ∈ mod.unsatisfiedDepends ↔
    d ∈ c.needs mod ∧ d ≠ c.firstMod ∧ d ∉ sorted.map name

structure Loading (c : ModConfiguration) (loop out satisfied unsatisfied : List ModSpec) :
    Prop where
  all : ((out ++ (satisfied ++ unsatisfied)).map declared).Perm (loop.map declared)
  after : AfterNeeds name c.needs {c.firstMod} out
  ready : ∀ mod ∈ satisfied, ∀ d ∈ c.needs mod, d = c.firstMod ∨ d ∈ out.map name
  waits : ∀ mod ∈ unsatisfied, c.Stuck out mod

theorem mem_relieve {n : Bytes} :
    d ∈ (mod.relieve n).unsatisfiedDepends ↔ d ≠ n ∧ d ∈ mod.unsatisfiedDepends :=
  Finset.mem_erase

theorem sweep_perm (n : Bytes) (unsatisfied : List ModSpec) :
    (((sweep n unsatisfied).1 ++ (sweep n unsatisfied).2).map declared).Perm
      (unsatisfied.map declared) := by
  have hmap : (unsatisfied.map (relieve n)).map declared = unsatisfied.map declared := by
    rw [List.map_map]
    rfl
  rw [← hmap]
  exact (List.filter_append_perm _ _).map _

theorem mem_sweep_fst {n : Bytes} (h : mod ∈ (sweep n unsatisfied).1) :
    ∃ mod2 ∈ unsatisfied, mod = mod2.relieve n ∧ mod.unsatisfiedDepends = ∅ := by
  rcases List.mem_filter.1 h with ⟨hmod, hsat⟩
  rcases List.mem_map.1 hmod with ⟨mod2, hmod2, rfl⟩
  exact ⟨mod2, hmod2, rfl, of_decide_eq_true hsat⟩

theorem mem_sweep_snd {n : Bytes} (h : mod ∈ (sweep n unsatisfied).2) :
    ∃ mod2 ∈ unsatisfied, mod = mod2.relieve n ∧ mod.unsatisfiedDepends ≠ ∅ := by
  rcases List.mem_filter.1 h with ⟨hmod, hsat⟩
  rcases List.mem_map.1 hmod with ⟨mod2, hmod2, rfl⟩
  refine ⟨mod2, hmod2, rfl, fun hempty => ?_⟩
  simp [isSatisfied, hempty] at hsat

theorem step_perm (mod : ModSpec) (out satisfied unsatisfied : List ModSpec) :
    ((out ++ [mod] ++ ((sweep mod.name unsatisfied).1.reverse ++ satisfied ++
      (sweep mod.name unsatisfied).2)).map declared).Perm
      ((out ++ (mod :: satisfied ++ unsatisfied)).map declared) := by
  have hnewly : ((sweep mod.name unsatisfied).1.reverse ++ satisfied).Perm
      (satisfied ++ (sweep mod.name unsatisfied).1) :=
    List.perm_append_comm.trans ((List.reverse_perm _).append_left _)
  have hrest : (((sweep mod.name unsatisfied).1.reverse ++ satisfied ++
      (sweep mod.name unsatisfied).2).map declared).Perm
        ((satisfied ++ unsatisfied).map declared) := by
    refine ((hnewly.append_right _).map _).trans ?_
    have hsweep := (sweep_perm mod.name unsatisfied).append_left (satisfied.map declared)
    rwa [← List.map_append, ← List.map_append, ← List.append_assoc] at hsweep
  simpa using (hrest.cons mod.declared).append_left (out.map declared)

theorem Loading.step {loop : List ModSpec} (h : Loading c loop out (mod :: satisfied) unsatisfied) :
    Loading c loop (out ++ [mod]) ((sweep mod.name unsatisfied).1.reverse ++ satisfied)
      (sweep mod.name unsatisfied).2 := by
  have hnames : ∀ d, d ∈ (out ++ [mod]).map name ↔ d ∈ out.map name ∨ d = mod.name := by
    simp
  constructor
  · exact (step_perm mod out satisfied unsatisfied).trans h.all
  · exact afterNeeds_concat.2 ⟨h.after, h.ready mod List.mem_cons_self⟩
  · intro mod2 hmod2 d hd
    rw [hnames]
    rcases List.mem_append.1 hmod2 with hmod2 | hmod2
    · -- one that was waiting for this mod only
      rcases mem_sweep_fst (List.mem_reverse.1 hmod2) with ⟨mod2, hmem, rfl, hempty⟩
      by_contra hmissing
      rw [not_or, not_or] at hmissing
      have hwaits : d ∈ mod2.unsatisfiedDepends :=
        ((h.waits mod2 hmem).2 d).2 ⟨hd, hmissing.1, hmissing.2.1⟩
      have hmem : d ∈ (mod2.relieve mod.name).unsatisfiedDepends :=
        mem_relieve.2 ⟨hmissing.2.2, hwaits⟩
      rw [hempty] at hmem
      exact absurd hmem (Finset.notMem_empty d)
    · exact (h.ready mod2 (List.mem_cons_of_mem _ hmod2) d hd).imp_right .inl
  · intro mod2 hmod2
    rcases mem_sweep_snd hmod2 with ⟨mod2, hmem, rfl, hne⟩
    refine ⟨hne, fun d => ?_⟩
    rw [mem_relieve, (h.waits mod2 hmem).2, hnames]
    tauto

/-- The last mod when the mods with these names have been loaded. -/
def without (names : List Bytes) (mod : ModSpec) : ModSpec :=
  { mod with unsatisfiedDepends := mod.unsatisfiedDepends.filter (· ∉ names) }

theorem without_nil : without [] = id := by
  funext mod
  simp [without]

theorem relieve_without (names : List Bytes) (n : Bytes) (mod : ModSpec) :
    (without names mod).relieve n = without (names ++ [n]) mod := by
  have hsets : (mod.unsatisfiedDepends.filter (· ∉ names)).erase n
      = mod.unsatisfiedDepends.filter (· ∉ names ++ [n]) := by
    ext d
    simp only [Finset.mem_erase, Finset.mem_filter, List.mem_append, List.mem_singleton]
    tauto
  rw [without, relieve, hsets, without]

theorem load_loading {loop sorted : List ModSpec} {cur : Option ModSpec}
    (start : List ModSpec) (last : Option ModSpec)
    (h : Loading c loop out satisfied unsatisfied) (hsorted : sorted = start ++ out)
    (hcur : cur = last.map (without (out.map name))) :
    ∃ out' rest, load sorted cur satisfied unsatisfied
        = ⟨start ++ out', rest, last.map (without (out'.map name))⟩ ∧
      Loading c loop out' [] rest := by
  fun_induction load sorted cur satisfied unsatisfied generalizing out with
  | case1 sorted cur unsatisfied =>
    rw [hsorted, hcur]
    exact ⟨out, unsatisfied, rfl, h⟩
  | case2 sorted cur mod satisfied unsatisfied ih =>
    refine ih h.step ?_ ?_
    · rw [hsorted, List.append_assoc]
    · rw [hcur, Option.map_map, List.map_append, List.map_singleton]
      congr 1
      funext last
      exact relieve_without _ _ last

/-! ## The result -/

theorem placeLast_eq (c : ModConfiguration) (loaded : Loaded) :
    (c.placeLast loaded).sortedMods
      = loaded.sorted ++ loaded.last.toList.filter isSatisfied ∧
    (c.placeLast loaded).unsatisfiedMods
      = loaded.unsatisfied ++ loaded.last.toList.filter (fun mod => !mod.isSatisfied) := by
  rw [placeLast]
  cases loaded.last with
  | none => simp
  | some last => by_cases hsat : last.isSatisfied <;> simp [hsat]

theorem resolveDependencies_ok {random : Bool} {shuffle : List ModSpec → List ModSpec}
    (h : c.resolveDependencies random shuffle = .ok c') :
    (c.firstMod ≠ [] → c.found.firstModSpec ≠ none) ∧
    (∀ first, c.found.firstModSpec = some first → first.depends = ∅ ∧ first.optdepends = ∅) ∧
    ∃ res, c.split c.found (if random then shuffle c.unsatisfiedMods else c.unsatisfiedMods) [] []
        = .ok res ∧
      c' = c.placeLast (load (c.sortedMods ++ c.found.firstModSpec.toList)
        (c.found.lastModSpec.map c.waitLast) res.1 res.2) := by
  rw [resolveDependencies] at h
  dsimp only at h
  split at h
  next => cases h
  next hfirst =>
    split at h
    next => cases h
    next =>
      split at h
      next => cases h
      next hdepends =>
        split at h
        next => cases h
        next satisfied unsatisfied hsplit =>
          refine ⟨fun hne hnone => hfirst ⟨hne, hnone⟩, fun first hf => ?_, _, hsplit, ?_⟩
          · simpa [hf] using hdepends
          · exact (Except.ok.inj h).symm

section

variable (hfound : FoundIn c c.unsatisfiedMods c.found)

include hfound

theorem mem_gather (hmod : mod ∈ mods.filter fun mod => !decide (c.IsEnd mod)) :
    d ∈ (c.gather c.found.modnames mod).unsatisfiedDepends ↔ d ∈ c.needs mod ∧ d ≠ c.firstMod := by
  have hlast := (mem_between.1 hmod).2.2
  rw [gather, Finset.mem_erase, Finset.mem_union, Finset.mem_filter, hfound.names, needs,
    Set.mem_ofPred_eq]
  tauto

theorem mem_kept (hmod : mod ∈ c.kept c.found.modnames mods) :
    d ∈ mod.unsatisfiedDepends ↔ d ∈ c.needs mod ∧ d ≠ c.firstMod := by
  rcases List.mem_map.1 hmod with ⟨mod₀, hmem, rfl⟩
  exact mem_gather hfound hmem

theorem loading_start {res : List ModSpec × List ModSpec} (h : c.split c.found mods [] [] = .ok res) :
    Loading c (c.kept c.found.modnames mods) [] res.1 res.2 := by
  rcases split_eq h with ⟨h₁, h₂, -⟩
  rw [List.append_nil] at h₁
  rw [List.nil_append] at h₂
  constructor
  · rw [h₁, h₂, List.nil_append]
    apply List.Perm.map
    exact ((List.reverse_perm _).append_right _).trans (List.filter_append_perm _ _)
  · exact .nil
  · intro mod hmod d hd
    rw [h₁, List.mem_reverse, List.mem_filter] at hmod
    by_contra hother
    have hmem := (mem_kept hfound hmod.1).2 ⟨hd, fun hfirst => hother (.inl hfirst)⟩
    rw [of_decide_eq_true hmod.2] at hmem
    exact absurd hmem (Finset.notMem_empty d)
  · intro mod hmod
    rw [h₂, List.mem_filter] at hmod
    refine ⟨fun hempty => ?_, fun d => ?_⟩
    · simp [isSatisfied, hempty] at hmod
    · rw [mem_kept hfound hmod.1]
      simp

end

/-- The last mod when the loop is over, where there is one. -/
def lastAfter (c : ModConfiguration) (out : List ModSpec) : List ModSpec :=
  ((c.found.lastModSpec.map c.waitLast).map (without (out.map name))).toList

def sortedAfter (c : ModConfiguration) (out : List ModSpec) : List ModSpec :=
  c.found.firstModSpec.toList ++ (out ++ (c.lastAfter out).filter isSatisfied)

def restAfter (c : ModConfiguration) (out rest : List ModSpec) : List ModSpec :=
  rest ++ (c.lastAfter out).filter fun mod => !mod.isSatisfied

theorem lastAfter_cases (c : ModConfiguration) (out : List ModSpec) :
    c.lastAfter out = [] ∨ ∃ last, c.lastAfter out = [last] := by
  rw [lastAfter]
  cases c.found.lastModSpec with
  | none => exact .inl rfl
  | some last => exact .inr ⟨_, rfl⟩

theorem map_declared_lastAfter (c : ModConfiguration) (out : List ModSpec) :
    (c.lastAfter out).map declared = c.found.lastModSpec.toList.map declared := by
  rw [lastAfter]
  cases c.found.lastModSpec <;> rfl

section

variable (hfound : FoundIn c c.unsatisfiedMods c.found)

include hfound

theorem mem_lastAfter (hmod : mod ∈ c.lastAfter out) :
    (mod.name = c.lastMod ∧ mod.name ≠ c.firstMod) ∧ ∀ d, d ∈ mod.unsatisfiedDepends ↔
      d ∈ c.needs mod ∧ d ≠ c.firstMod ∧ d ∉ out.map name := by
  rw [lastAfter, Option.mem_toList, Option.map_map, Option.map_eq_some_iff] at hmod
  rcases hmod with ⟨last, hlast, rfl⟩
  have hname := ((hfound.last last).1 hlast).2
  refine ⟨hname, fun d => ?_⟩
  have hneeds : d ∈ c.needs last ↔ d ∈ last.depends := by
    rw [needs, Set.mem_ofPred_eq, or_iff_left]
    exact fun hopt => hopt.2.2.1 hname.1
  have hmem : d ∈ (without (out.map name) (c.waitLast last)).unsatisfiedDepends ↔
      (d ≠ c.firstMod ∧ d ∈ last.depends) ∧ d ∉ out.map name := by
    rw [without, Finset.mem_filter, waitLast, Finset.mem_erase]
  refine hmem.trans ?_
  rw [← hneeds]
  exact ⟨fun h => ⟨h.1.2, h.1.1, h.2⟩, fun h => ⟨⟨h.2.1, h.1⟩, h.2.2⟩⟩

theorem sortedAfter_perm (hnames : (c.unsatisfiedMods.map name).Nodup)
    (hloop : Loading c c.looped out [] rest) :
    ((c.sortedAfter out ++ c.restAfter out rest).map declared).Perm
      (c.unsatisfiedMods.map declared) := by
  refine .trans ?_ (hfound.perm hnames c.found.modnames)
  have hsides : ((out ++ (c.lastAfter out).filter isSatisfied) ++ c.restAfter out rest).Perm
      ((out ++ rest) ++ c.lastAfter out) := by
    have hlast := List.filter_append_perm (fun mod => mod.isSatisfied) (c.lastAfter out)
    rw [restAfter, List.append_assoc, List.append_assoc]
    refine List.Perm.append_left out (.trans ?_ (hlast.append_left rest))
    rw [← List.append_assoc, ← List.append_assoc]
    exact List.perm_append_comm.append_right _
  have hlast : ((out ++ rest) ++ c.lastAfter out).map declared
      = (out ++ rest).map declared ++ c.found.lastModSpec.toList.map declared := by
    rw [List.map_append, map_declared_lastAfter]
  have hall := hloop.all
  rw [List.nil_append] at hall
  calc
    ((c.sortedAfter out ++ c.restAfter out rest).map declared)
      = c.found.firstModSpec.toList.map declared ++ (out ++
          (c.lastAfter out).filter isSatisfied ++ c.restAfter out rest).map declared := by
        rw [sortedAfter, List.append_assoc, List.map_append]
    List.Perm _ (c.found.firstModSpec.toList.map declared ++
        ((out ++ rest) ++ c.lastAfter out).map declared) :=
      (hsides.map declared).append_left _
    _ = c.found.firstModSpec.toList.map declared ++ ((out ++ rest).map declared ++
          c.found.lastModSpec.toList.map declared) := by
        rw [hlast]
    List.Perm _ (c.found.firstModSpec.toList.map declared ++
        (c.looped.map declared ++ c.found.lastModSpec.toList.map declared)) :=
      (hall.append_right _).append_left _
    _ = _ := by
        rw [List.map_append, List.map_append, looped]

/-- Apart from the first and the last mod, the names are those that went through the loop. -/
theorem mem_map_sortedAfter (hfirst : d ≠ c.firstMod)
    (hlast : d ∉ ((c.lastAfter out).filter isSatisfied).map name) :
    d ∈ (c.sortedAfter out).map name ↔ d ∈ out.map name := by
  rw [sortedAfter, List.map_append, List.map_append, List.mem_append, List.mem_append,
    or_iff_right, or_iff_left hlast]
  intro hmem
  rcases List.mem_map.1 hmem with ⟨first, hsome, rfl⟩
  rw [Option.mem_toList, hfound.first] at hsome
  exact hfirst hsome.2

end

theorem map_name_lastAfter (c : ModConfiguration) (out : List ModSpec) :
    (c.lastAfter out).map name = c.found.lastModSpec.toList.map name := by
  rw [lastAfter]
  cases c.found.lastModSpec <;> rfl

section

variable (hfound : FoundIn c c.unsatisfiedMods c.found) (hloop : Loading c c.looped out [] rest)
  (hlast : ∀ mod ∈ c.looped, ∀ last, c.found.lastModSpec = some last → last.name ∉ mod.unsatisfiedDepends)

include hfound hloop hlast

/-- Nobody in the loop depends on the last mod. -/
theorem not_mem_lastAfter (hmod : mod ∈ rest) (hd : d ∈ c.needs mod) (hfirst : d ≠ c.firstMod) :
    d ∉ (c.lastAfter out).map name := by
  rw [map_name_lastAfter]
  intro hmem
  rcases List.mem_map.1 hmem with ⟨last, hsome, rfl⟩
  rcases exists_declared hloop.all (List.mem_append_right _ (List.mem_append_right _ hmod)) with
    ⟨kept, hkept, hsame⟩
  refine hlast kept hkept last (Option.mem_toList.1 hsome) ?_
  rw [mem_kept hfound hkept, needs_eq_of_declared hsame]
  exact ⟨hd, hfirst⟩

theorem mem_restAfter (hmod : mod ∈ c.restAfter out rest) : c.Stuck (c.sortedAfter out) mod := by
  rw [restAfter, List.mem_append, List.mem_filter] at hmod
  rcases hmod with hmod | ⟨hmod, hsat⟩
  · refine ⟨(hloop.waits mod hmod).1, fun d => ?_⟩
    rw [(hloop.waits mod hmod).2]
    refine and_congr_right fun hd => and_congr_right fun hfirst => not_congr ?_
    refine (mem_map_sortedAfter hfound hfirst fun hmem => ?_).symm
    have hlastMod := List.map_subset name (List.filter_subset_self _) hmem
    exact not_mem_lastAfter hfound hloop hlast hmod hd hfirst hlastMod
  · have hnone : (c.lastAfter out).filter isSatisfied = [] := by
      rcases c.lastAfter_cases out with hnil | ⟨last, hsome⟩
      · rw [hnil, List.filter_nil]
      · rw [hsome, List.mem_singleton] at hmod
        rw [hsome, ← hmod, List.filter_cons_of_neg (by simpa using hsat), List.filter_nil]
    have hwaits := (mem_lastAfter hfound hmod).2
    refine ⟨fun hempty => ?_, fun d => ?_⟩
    · simp [isSatisfied, hempty] at hsat
    · rw [hwaits]
      refine and_congr_right fun hd => and_congr_right fun hfirst => not_congr ?_
      refine (mem_map_sortedAfter hfound hfirst ?_).symm
      rw [hnone]
      exact List.not_mem_nil

end

theorem after_sortedAfter (hfound : FoundIn c c.unsatisfiedMods c.found)
    (hfirst : ∀ first, c.found.firstModSpec = some first → first.depends = ∅ ∧ first.optdepends = ∅)
    (hloop : Loading c c.looped out [] rest) :
    AfterNeeds name c.needs {d | d = c.firstMod ∧ d ∉ c.unsatisfiedMods.map name}
      (c.sortedAfter out) := by
  have hout : AfterNeeds name c.needs {c.firstMod}
      (out ++ (c.lastAfter out).filter isSatisfied) := by
    rcases c.lastAfter_cases out with hnone | ⟨last, hsome⟩
    · rw [hnone, List.filter_nil, List.append_nil]
      exact hloop.after
    · rw [hsome]
      by_cases hsat : last.isSatisfied
      · rw [List.filter_cons_of_pos hsat, List.filter_nil, afterNeeds_concat]
        refine ⟨hloop.after, fun d hd => ?_⟩
        have hmem := (mem_lastAfter hfound (hsome ▸ List.mem_singleton.2 rfl)).2 d
        rw [of_decide_eq_true hsat] at hmem
        by_contra hmissing
        rw [not_or] at hmissing
        exact absurd (hmem.2 ⟨hd, hmissing⟩) (Finset.notMem_empty d)
      · rw [List.filter_cons_of_neg hsat, List.filter_nil, List.append_nil]
        exact hloop.after
  rw [sortedAfter]
  cases hf : c.found.firstModSpec with
  | none =>
    rw [Option.toList_none, List.nil_append]
    refine hout.mono ?_
    rintro d rfl
    refine ⟨rfl, fun hmem => ?_⟩
    rcases List.mem_map.1 hmem with ⟨mod, hmod, hname⟩
    have hsome := (hfound.first mod).2 ⟨hmod, hname⟩
    rw [hf] at hsome
    cases hsome
  | some first =>
    have hname := ((hfound.first first).1 hf).2
    refine AfterNeeds.append ?_ hout ?_
    · refine .singleton fun d hd => ?_
      have hempty := hfirst first hf
      rcases hd with hd | ⟨hd, -⟩
      · rw [hempty.1] at hd
        exact absurd hd (Finset.notMem_empty d)
      · rw [hempty.2] at hd
        exact absurd hd (Finset.notMem_empty d)
    · rintro d rfl
      exact .inr (by simp [hname])

theorem exists_first (hfound : FoundIn c c.unsatisfiedMods c.found)
    (hsome : c.firstMod ≠ [] → c.found.firstModSpec ≠ none)
    (h : c.firstMod ≠ [] ∨ c.firstMod ∈ c.unsatisfiedMods.map name) :
    ∃ first, c.found.firstModSpec = some first := by
  rcases h with hne | hmem
  · exact Option.ne_none_iff_exists'.1 (hsome hne)
  · rcases List.mem_map.1 hmem with ⟨mod, hmod, hname⟩
    exact ⟨mod, (hfound.first mod).2 ⟨hmod, hname⟩⟩

theorem loadable_iff
    (hall : ((c.sortedAfter out ++ c.restAfter out rest).map declared).Perm
      (c.unsatisfiedMods.map declared))
    (hafter : AfterNeeds name c.needs {c.firstMod} (c.sortedAfter out))
    (hmissing : ∀ mod ∈ c.restAfter out rest, c.Stuck (c.sortedAfter out) mod) :
    c.Loadable c.needs d ↔ d = c.firstMod ∨ d ∈ (c.sortedAfter out).map name := by
  apply attainable_iff hafter
  · intro mod hmod hneeds
    rcases exists_declared hall (List.mem_append_left _ hmod) with ⟨mod₀, hmem, hsame⟩
    rw [← name_eq_of_declared hsame]
    refine .item hmem ?_
    rw [needs_eq_of_declared hsame]
    exact hneeds
  · intro mod hmod
    rcases exists_declared hall.symm hmod with ⟨mod', hmem, hsame⟩
    rw [← name_eq_of_declared hsame, ← needs_eq_of_declared hsame]
    rcases List.mem_append.1 hmem with hmem | hmem
    · exact .inl (List.mem_map_of_mem hmem)
    · rcases Finset.nonempty_iff_ne_empty.2 (hmissing mod' hmem).1 with ⟨d, hd⟩
      rw [(hmissing mod' hmem).2] at hd
      exact .inr ⟨d, hd⟩

theorem sortedAfter_last (hfound : FoundIn c c.unsatisfiedMods c.found)
    (hloop : Loading c c.looped out [] rest)
    (hmod : mod ∈ c.sortedAfter out) (hname : mod.name = c.lastMod)
    (hother : mod.name ≠ c.firstMod) : ∃ front, c.sortedAfter out = front ++ [mod] := by
  rw [sortedAfter, List.mem_append, List.mem_append, Option.mem_toList, hfound.first] at hmod
  rcases hmod with hmod | hmod | hmod
  · exact (hother hmod.2).elim
  · -- the last mod does not go through the loop
    have hall := hloop.all
    rw [looped, map_declared_kept] at hall
    rcases exists_declared hall (List.mem_append_left _ hmod) with ⟨mod₀, hmem, hsame⟩
    exact ((mem_between.1 hmem).2.2 ((name_eq_of_declared hsame).trans hname)).elim
  · rcases List.mem_filter.1 hmod with ⟨hmem, hsat⟩
    rcases c.lastAfter_cases out with hnil | ⟨last, hsome⟩
    · rw [hnil] at hmem
      cases hmem
    · rw [hsome, List.mem_singleton] at hmem
      refine ⟨c.found.firstModSpec.toList ++ out, ?_⟩
      rw [sortedAfter, hsome, ← hmem, List.filter_cons_of_pos hsat, List.filter_nil,
        List.append_assoc]

theorem map_name_declared (mods : List ModSpec) : (mods.map declared).map name = mods.map name := by
  rw [List.map_map]
  rfl

theorem resolved (hnames : (c.unsatisfiedMods.map name).Nodup)
    (hsome : c.firstMod ≠ [] → c.found.firstModSpec ≠ none)
    (hfirst : ∀ first, c.found.firstModSpec = some first → first.depends = ∅ ∧ first.optdepends = ∅)
    (hloop : Loading c c.looped out [] rest)
    (hlast : ∀ mod ∈ c.looped, ∀ last,
      c.found.lastModSpec = some last → last.name ∉ mod.unsatisfiedDepends) :
    Resolved c c.needs (c.sortedAfter out) (c.restAfter out rest) := by
  have hfound : FoundIn c c.unsatisfiedMods c.found := foundIn_foldl hnames
  have hall := sortedAfter_perm hfound hnames hloop
  have hafter := after_sortedAfter hfound hfirst hloop
  have hmissing := fun mod (hmod : mod ∈ c.restAfter out rest) =>
    mem_restAfter hfound hloop hlast hmod
  have hgiven : AfterNeeds name c.needs {c.firstMod} (c.sortedAfter out) :=
    hafter.mono fun d hd => hd.1
  have hloadable := fun d => loadable_iff (d := d) hall hgiven hmissing
  have honce : ((c.sortedAfter out ++ c.restAfter out rest).map name).Nodup := by
    rw [← map_name_declared, (hall.map name).nodup_iff, map_name_declared]
    exact hnames
  rw [List.map_append, List.nodup_append] at honce
  have hfront : c.firstMod ≠ [] ∨ c.firstMod ∈ c.unsatisfiedMods.map name →
      ∃ mod tail, c.sortedAfter out = mod :: tail ∧ mod.name = c.firstMod := by
    intro h
    rcases exists_first hfound hsome h with ⟨first, hf⟩
    refine ⟨first, out ++ (c.lastAfter out).filter isSatisfied, ?_, ((hfound.first first).1 hf).2⟩
    rw [sortedAfter, hf, Option.toList_some, List.singleton_append]
  constructor
  case all => exact hall
  case once => exact honce.1
  case after => exact hafter
  case first => exact hfront
  case loaded =>
    intro mod hmod
    constructor
    · intro hmem d hd
      rcases exists_declared hall.symm hmod with ⟨mod', hmem', hsame⟩
      rw [hloadable]
      rcases List.mem_append.1 hmem' with hmem' | hmem'
      · rw [← needs_eq_of_declared hsame] at hd
        exact hgiven.needs_mem hmem' d hd
      · -- a mod is not in both lists
        refine (honce.2.2 _ hmem _ (List.mem_map_of_mem hmem') ?_).elim
        exact (name_eq_of_declared hsame).symm
    · intro hneeds
      have hname : c.Loadable c.needs mod.name := .item hmod hneeds
      rcases (hloadable _).1 hname with hname | hmem
      · rcases hfront (.inr (hname ▸ List.mem_map_of_mem hmod)) with ⟨first, tail, hs, hf⟩
        rw [hs, hname, ← hf]
        exact List.mem_cons_self
      · exact hmem
  case last =>
    intro mod hmod hname hother
    exact sortedAfter_last hfound hloop hmod hname hother
  case missing =>
    intro mod hmod d
    rw [(hmissing mod hmod).2, hloadable, not_or]

theorem Loading.perm {loop loop' : List ModSpec} (h : Loading c loop out satisfied unsatisfied)
    (hloop : loop.Perm loop') : Loading c loop' out satisfied unsatisfied :=
  { h with all := h.all.trans (hloop.map declared) }

theorem kept_perm {mods mods' : List ModSpec} (names : Finset Bytes) (h : mods.Perm mods') :
    (c.kept names mods).Perm (c.kept names mods') :=
  (h.filter _).map _

theorem resolveDependencies_resolved (c c' : ModConfiguration) (randomModLoadOrder : Bool)
    (shuffle : List ModSpec → List ModSpec)
    (hnames : (c.unsatisfiedMods.map name).Nodup)
    (hshuffle : (shuffle c.unsatisfiedMods).Perm c.unsatisfiedMods)
    (h : c.resolveDependencies randomModLoadOrder shuffle = .ok c') :
    ∃ sorted, c'.sortedMods = c.sortedMods ++ sorted ∧
      c.Resolved c.needs sorted c'.unsatisfiedMods := by
  rcases resolveDependencies_ok h with ⟨hsome, hfirst, res, hsplit, rfl⟩
  have hfound : FoundIn c c.unsatisfiedMods c.found := foundIn_foldl hnames
  have hperm : (if randomModLoadOrder then shuffle c.unsatisfiedMods
      else c.unsatisfiedMods).Perm c.unsatisfiedMods := by
    cases randomModLoadOrder
    · exact .refl _
    · exact hshuffle
  have hkept := kept_perm (c := c) c.found.modnames hperm
  have hlast := (split_eq hsplit).2.2
  have hstart := (loading_start hfound hsplit).perm hkept
  rcases load_loading (c.sortedMods ++ c.found.firstModSpec.toList)
    (c.found.lastModSpec.map c.waitLast) hstart (List.append_nil _).symm
    (by rw [List.map_nil, without_nil, Option.map_id, id]) with ⟨out, rest, hload, hloop⟩
  rcases placeLast_eq c (load (c.sortedMods ++ c.found.firstModSpec.toList)
    (c.found.lastModSpec.map c.waitLast) res.1 res.2) with ⟨hsorted, hrest⟩
  rw [hload] at hsorted hrest
  refine ⟨c.sortedAfter out, ?_, ?_⟩
  · rw [hload, hsorted, sortedAfter, lastAfter, List.append_assoc, List.append_assoc]
  · rw [hload, hrest]
    refine resolved hnames hsome hfirst hloop fun mod hmod => ?_
    exact hlast mod (hkept.symm.subset hmod)

/-! ## Where an optional dependency is left alone -/

/-- `a` is to come after `z`, which is the last mod, and `z` after `b`, which needs itself. -/
def optionalLast : ModConfiguration where
  lastMod := [122]
  unsatisfiedMods :=
    [{ name := [97], optdepends := {[122]} }, { name := [122], optdepends := {[98]} },
      { name := [98], depends := {[98]} }]

/-- `a` and `z` are loaded, and `b` is not. -/
theorem optionalLast_ok : optionalLast.resolveDependencies false id = .ok
    { lastMod := [122]
      sortedMods := [{ name := [97], optdepends := {[122]} },
        { name := [122], optdepends := {[98]} }]
      unsatisfiedMods := [{ name := [98], depends := {[98]}, unsatisfiedDepends := {[98]} }] } := by
  have hfound : optionalLast.found
      = ⟨{[98], [97]}, none, some { name := [122], optdepends := {[98]} }⟩ := rfl
  have hsplit : optionalLast.split optionalLast.found optionalLast.unsatisfiedMods [] [] = .ok
      ([{ name := [97], optdepends := {[122]} }],
        [{ name := [98], depends := {[98]}, unsatisfiedDepends := {[98]} }]) := by
    decide
  have hsweep : sweep [97] [{ name := [98], depends := {[98]}, unsatisfiedDepends := {[98]} }]
      = ([], [{ name := [98], depends := {[98]}, unsatisfiedDepends := {[98]} }]) := by
    decide
  rw [resolveDependencies]
  simp only [Bool.false_eq_true, if_false, hsplit, load, hsweep, List.reverse_nil, List.nil_append]
  rfl

theorem resolveDependencies_resolved_optionalLast :
    ∃ sorted, [(⟨[97], ∅, {[122]}, ∅⟩ : ModSpec), ⟨[122], ∅, {[98]}, ∅⟩] = [] ++ sorted ∧
      optionalLast.Resolved optionalLast.needs sorted [⟨[98], {[98]}, ∅, {[98]}⟩] :=
  resolveDependencies_resolved optionalLast _ false id (by decide) (.refl _) optionalLast_ok

theorem optionalLast_not_after : ¬ AfterNeeds name optionalLast.wants
    {d | d = optionalLast.firstMod ∧ d ∉ optionalLast.unsatisfiedMods.map name}
    [{ name := [97], optdepends := {[122]} }, { name := [122], optdepends := {[98]} }] := by
  intro h
  have hwants : [122] ∈ optionalLast.wants { name := [97], optdepends := {[122]} } :=
    .inr ⟨by decide, by decide⟩
  rcases h [] _ _ rfl _ hwants with ⟨hfirst, -⟩ | hmem
  · cases hfirst
  · cases hmem

theorem optionalLast_not_loadable : ¬ optionalLast.Loadable optionalLast.wants [98] := by
  intro h
  have hself : ∀ mod ∈ optionalLast.unsatisfiedMods, mod.name = [98] → [98] ∈ mod.depends := by
    decide
  refine (h.mem_of_closed (s := {d : Bytes | d ≠ [98]}) ?_ ?_) rfl
  · rintro d rfl
    decide
  · intro mod hmod hneeds hname
    exact hneeds [98] (.inl (hself mod hmod hname)) rfl

/-- `a` comes before `z`, and `z` is loaded although `b` cannot be. -/
theorem optionalLast_not_wants : ∃ (c c' : ModConfiguration) (mod : ModSpec),
    (c.unsatisfiedMods.map name).Nodup ∧ c.sortedMods = [] ∧ mod ∈ c.unsatisfiedMods ∧
    c.resolveDependencies false id = .ok c' ∧
    ¬ c.Resolved c.wants c'.sortedMods c'.unsatisfiedMods ∧
    ¬ AfterNeeds name c.wants {d | d = c.firstMod ∧ d ∉ c.unsatisfiedMods.map name}
      c'.sortedMods ∧
    ¬ (mod.name ∈ c'.sortedMods.map name ↔ ∀ d ∈ c.wants mod, c.Loadable c.wants d) := by
  refine ⟨optionalLast, _, { name := [122], optdepends := {[98]} }, by decide, rfl, by decide,
    optionalLast_ok, fun h => optionalLast_not_after h.after, optionalLast_not_after,
    fun h => optionalLast_not_loadable ?_⟩
  exact h.1 (by decide) _ (.inr ⟨by decide, by decide⟩)

end ModConfiguration

end Content
end AxisEngine
