import AxisEngine.Abm.ApplyLBMs

/-!
# DueLBMs — the modifiers that are due are run

The batches have the modifiers introduced since the time of the block, in the order of their
introduction, and the positions of their content.  Only the first nodes of the block are not looked
at as long as they are `CONTENT_IGNORE`, with which the cache of the scan starts.

* `scanned` — the positions that are looked at;
* `collect_lookup` — the batches;
* `runEntries_calls`, `runEntries_quiet` — the calls, with any modifiers and with those that change
  nothing;
* `RunsDue`, `CallsValid`, `appliesDue_iff` — when exactly the modifiers that are due are run.
-/

namespace AxisEngine
namespace Abm

open Lib Util Map

/-! ## The scan of one time -/

section

variable {toRun : ToRun} {b : LBMToRun} {c c' : UInt16}

theorem ToRun.at_of_lookup (h : toRun.lookup c = some b) : toRun.at c = b := by
  rw [ToRun.at, h]
  rfl

theorem ToRun.at_insert (toRun : ToRun) (c : UInt16) (b : LBMToRun) :
    ToRun.at (toRun.insert c b) c = b :=
  at_of_lookup (AList.lookup_insert _)

end

namespace LBMScan

variable {m : LBMContentMapping} {s : LBMScan} {c : UInt16}

/-- What a node with the content `c` adds to the batches. -/
def add (m : LBMContentMapping) (toRun : ToRun) (c : UInt16) (pos : NodePos) : ToRun :=
  match m.lookup c with
  | none => toRun
  | some lbmList => toRun.insert c (((toRun.at c).insert pos).insertLBMs lbmList)

/-- The cache is right, and the batch has what is in it. -/
structure Synced (m : LBMContentMapping) (s : LBMScan) : Prop where
  list : s.lbmList = m.lookup s.previousC
  batch : ∀ lbmList, s.lbmList = some lbmList →
    s.batch = some s.previousC ∧ ∀ lbm ∈ lbmList, lbm ∈ (s.toRun.at s.previousC).l

theorem lookup_ne_nil {lbmList : List LoadingBlockModifierDef} (h : m.lookup c = some lbmList) :
    lbmList ≠ [] := by
  rw [LBMContentMapping.lookup] at h
  by_cases hnil : m.map c = []
  · rw [if_pos hnil] at h
    cases h
  · rw [if_neg hnil, Option.some.injEq] at h
    rwa [h] at hnil

theorem visit_of_ne (m : LBMContentMapping) (pos : NodePos) (h : s.previousC ≠ c) :
    ∃ s', visit m c pos s = .ok s' ∧ Synced m s' ∧ s'.toRun = add m s.toRun c pos := by
  cases hlookup : m.lookup c with
  | none =>
    have hadd : add m s.toRun c pos = s.toRun := by rw [add, hlookup]
    refine ⟨{ s with lbmList := none, previousC := c }, ?_, ⟨hlookup.symm, ?_⟩, hadd.symm⟩
    · simp only [visit, h, ne_eq, not_false_eq_true, if_true, change, hlookup]
      rfl
    · intro lbmList hlist
      cases hlist
  | some lbmList =>
    have hadd : add m s.toRun c pos =
        s.toRun.insert c (((s.toRun.at c).insert pos).insertLBMs lbmList) := by
      rw [add, hlookup]
    refine ⟨{ toRun := add m s.toRun c pos
              previousC := c
              lbmList := some lbmList
              batch := some c }, ?_, ⟨hlookup.symm, ?_⟩, rfl⟩
    · simp only [visit, h, ne_eq, not_false_eq_true, if_true, change, hlookup,
        ToRun.at_insert, AList.insert_insert, hadd]
      rfl
    · rintro _ ⟨⟩
      refine ⟨rfl, fun lbm hlbm => ?_⟩
      change lbm ∈ (ToRun.at (add m s.toRun c pos) c).l
      rw [hadd, ToRun.at_insert]
      exact mem_mergeOnce.2 (.inr hlbm)

theorem visit_of_eq (pos : NodePos) (hs : Synced m s) (h : s.previousC = c) :
    ∃ s', visit m c pos s = .ok s' ∧ Synced m s' ∧ s'.toRun = add m s.toRun c pos := by
  subst h
  have hlist := hs.list
  cases hlookup : m.lookup s.previousC with
  | none =>
    rw [hlookup] at hlist
    have hadd : add m s.toRun s.previousC pos = s.toRun := by rw [add, hlookup]
    refine ⟨s, ?_, hs, hadd.symm⟩
    simp only [visit, ne_eq, not_true_eq_false, if_false, hlist]
    rfl
  | some lbmList =>
    rw [hlookup] at hlist
    rcases hs.batch lbmList hlist with ⟨hbatch, hmem⟩
    let b := (s.toRun.at s.previousC).insert pos
    have hsame : b.insertLBMs lbmList = b := by
      change ({ b with l := mergeOnce (s.toRun.at s.previousC).l lbmList } : LBMToRun) = b
      rw [mergeOnce_of_subset hmem]
      rfl
    have hne : b.l ≠ [] := by
      rcases List.exists_mem_of_ne_nil _ (lookup_ne_nil hlookup) with ⟨lbm, hlbm⟩
      exact List.ne_nil_of_mem (hmem lbm hlbm)
    have hadd : add m s.toRun s.previousC pos = s.toRun.insert s.previousC b := by
      rw [add, hlookup]
      exact congrArg (s.toRun.insert s.previousC) hsame
    refine ⟨{ s with toRun := s.toRun.insert s.previousC b }, ?_, ⟨?_, ?_⟩, hadd.symm⟩
    · simp only [visit, ne_eq, not_true_eq_false, if_false, hlist, hbatch]
      exact if_neg hne
    · exact hs.list
    · intro lbmList' hlist'
      refine ⟨hbatch, fun lbm hlbm => ?_⟩
      change lbm ∈ (ToRun.at (s.toRun.insert s.previousC b) s.previousC).l
      rw [ToRun.at_insert]
      exact (hs.batch lbmList' hlist').2 lbm hlbm

theorem visit_synced (pos : NodePos) (hs : Synced m s) :
    ∃ s', visit m c pos s = .ok s' ∧ Synced m s' ∧ s'.toRun = add m s.toRun c pos := by
  by_cases h : s.previousC = c
  · exact visit_of_eq pos hs h
  · exact visit_of_ne m pos h

variable {content : NodePos → UInt16} {ps : List NodePos}

theorem scan_synced (content : NodePos → UInt16) (ps : List NodePos) (hs : Synced m s) :
    ∃ s', ps.foldlM (fun s pos => visit m (content pos) pos s) s = .ok s' ∧
      s'.toRun = ps.foldl (fun toRun pos => add m toRun (content pos) pos) s.toRun := by
  induction ps generalizing s with
  | nil => exact ⟨s, rfl, rfl⟩
  | cons pos ps ih =>
    rcases visit_synced (c := content pos) pos hs with ⟨s₁, hvisit, hs₁, hadd⟩
    rcases ih hs₁ with ⟨s', hrest, htoRun⟩
    refine ⟨s', ?_, ?_⟩
    · rw [List.foldlM_cons, hvisit]
      exact hrest
    · rw [htoRun, hadd]
      rfl

/-- The cache starts with `CONTENT_IGNORE`, as if that had been looked up and not been found. -/
theorem scan_start (m : LBMContentMapping) (content : NodePos → UInt16) (ps : List NodePos)
    (toRun : ToRun) :
    ∃ s', ps.foldlM (fun s pos => visit m (content pos) pos s) { toRun := toRun } = .ok s' ∧
      s'.toRun = (ps.dropWhile fun pos => content pos = contentIgnore).foldl
        (fun toRun pos => add m toRun (content pos) pos) toRun := by
  induction ps with
  | nil => exact ⟨_, rfl, rfl⟩
  | cons pos ps ih =>
    by_cases hignore : content pos = contentIgnore
    · have hvisit : visit m (content pos) pos { toRun := toRun } = .ok { toRun := toRun } := by
        simp only [visit, hignore, ne_eq, not_true_eq_false, if_false]
        rfl
      rw [List.foldlM_cons, hvisit, List.dropWhile_cons_of_pos (by simpa using hignore)]
      exact ih
    · rcases visit_of_ne (s := { toRun := toRun }) m pos (Ne.symm hignore) with
        ⟨s₁, hvisit, hs₁, hadd⟩
      rcases scan_synced content ps hs₁ with ⟨s', hrest, htoRun⟩
      refine ⟨s', ?_, ?_⟩
      · rw [List.foldlM_cons, hvisit]
        exact hrest
      · rw [htoRun, hadd, List.dropWhile_cons_of_neg (by simpa using hignore)]
        rfl

/-! ## What the scan adds -/

theorem lookup_add (m : LBMContentMapping) (toRun : ToRun) (c : UInt16) (pos : NodePos)
    (c' : UInt16) :
    (add m toRun c pos).lookup c' =
      if c = c' ∧ m.map c' ≠ [] then some (((toRun.at c').insert pos).insertLBMs (m.map c'))
      else toRun.lookup c' := by
  rw [add, LBMContentMapping.lookup]
  by_cases hnil : m.map c = []
  · rw [if_pos hnil, if_neg]
    rintro ⟨rfl, hne⟩
    exact hne hnil
  · rw [if_neg hnil]
    by_cases hc : c = c'
    · subst hc
      rw [if_pos ⟨rfl, hnil⟩]
      exact AList.lookup_insert _
    · rw [if_neg fun h => hc h.1]
      exact AList.lookup_insert_ne (Ne.symm hc)

theorem lookup_foldl_add (m : LBMContentMapping) (content : NodePos → UInt16) (ps : List NodePos)
    (toRun : ToRun) (c : UInt16) :
    (ps.foldl (fun toRun pos => add m toRun (content pos) pos) toRun).lookup c =
      if ps.filter (fun pos => content pos = c) = [] ∨ m.map c = [] then toRun.lookup c
      else some
        { p := mergeOnce (toRun.at c).p (ps.filter fun pos => content pos = c)
          l := mergeOnce (toRun.at c).l (m.map c) } := by
  induction ps using List.reverseRecOn with
  | nil => exact (if_pos (.inl rfl)).symm
  | append_singleton ps pos ih =>
    rw [List.foldl_append, List.foldl_cons, List.foldl_nil, lookup_add, List.filter_append]
    by_cases hnil : m.map c = []
    · rw [if_neg fun h => h.2 hnil, ih, if_pos (.inr hnil), if_pos (.inr hnil)]
    by_cases hc : content pos = c
    · have hlast : [pos].filter (fun pos => content pos = c) = [pos] :=
        List.filter_cons_of_pos (by simpa using hc)
      rw [if_pos ⟨hc, hnil⟩, hlast, if_neg (by simp [hnil])]
      by_cases hps : ps.filter (fun pos => content pos = c) = []
      · rw [if_pos (.inl hps)] at ih
        have hat : ToRun.at (ps.foldl (fun toRun pos => add m toRun (content pos) pos) toRun) c =
            toRun.at c := by rw [ToRun.at, ih, ToRun.at]
        rw [hat, hps]
        rfl
      · rw [if_neg (by simp [hps, hnil])] at ih
        rw [ToRun.at_of_lookup ih, mergeOnce_append]
        simp only [LBMToRun.insert, LBMToRun.insertLBMs, mergeOnce_mergeOnce_self]
    · have hlast : [pos].filter (fun pos => content pos = c) = [] :=
        List.filter_cons_of_neg (by simpa using hc)
      rw [if_neg fun h => hc h.1, ih, hlast, List.append_nil]

end LBMScan

/-! ## The batches -/

/-- The nodes at the start of the block are not looked at while they are `CONTENT_IGNORE`. -/
def scanned (block : MapBlock) : List NodePos :=
  NodePos.all.dropWhile fun pos => nodeContent block pos = contentIgnore

/-- The positions of a content. -/
def held (block : MapBlock) (c : UInt16) : List NodePos :=
  (scanned block).filter fun pos => nodeContent block pos = c

/-- The modifiers of a content, each where it comes first. -/
def due (mappings : List LBMContentMapping) (c : UInt16) : List LoadingBlockModifierDef :=
  mergeAll (mappings.map fun m => m.map c)

def batchFor (block : MapBlock) (mappings : List LBMContentMapping) (c : UInt16) :
    Option LBMToRun :=
  if held block c = [] ∨ due mappings c = [] then none
  else some { p := held block c, l := due mappings c }

section

variable {block : MapBlock} {mappings : List LBMContentMapping} {toRun : ToRun} {c : UInt16}
  {pos : NodePos}

theorem nodup_held (block : MapBlock) (c : UInt16) : (held block c).Nodup :=
  (NodePos.nodup_all.sublist (List.dropWhile_sublist _)).filter _

theorem mem_held : pos ∈ held block c ↔ pos ∈ scanned block ∧ nodeContent block pos = c := by
  rw [held, List.mem_filter, decide_eq_true_eq]

theorem due_concat (mappings : List LBMContentMapping) (m : LBMContentMapping) (c : UInt16) :
    due (mappings ++ [m]) c = mergeOnce (due mappings c) (m.map c) := by
  rw [due, List.map_append]
  exact mergeAll_concat _ _

theorem scanBlock_lookup (block : MapBlock) (toRun : ToRun) (m : LBMContentMapping) :
    ∃ toRun', scanBlock block toRun m = .ok toRun' ∧ ∀ c, toRun'.lookup c =
      if held block c = [] ∨ m.map c = [] then toRun.lookup c
      else some
        { p := mergeOnce (toRun.at c).p (held block c)
          l := mergeOnce (toRun.at c).l (m.map c) } := by
  rcases LBMScan.scan_start m (nodeContent block) NodePos.all toRun with ⟨s', hscan, htoRun⟩
  refine ⟨s'.toRun, ?_, fun c => ?_⟩
  · rw [scanBlock, hscan]
    rfl
  · rw [htoRun]
    exact LBMScan.lookup_foldl_add m (nodeContent block) (scanned block) toRun c

/-- One more time of introduction. -/
theorem batchFor_concat (m : LBMContentMapping) (h : toRun.lookup c = batchFor block mappings c) :
    (if held block c = [] ∨ m.map c = [] then toRun.lookup c
      else some
        { p := mergeOnce (toRun.at c).p (held block c)
          l := mergeOnce (toRun.at c).l (m.map c) }) = batchFor block (mappings ++ [m]) c := by
  have hself : mergeOnce (held block c) (held block c) = held block c :=
    mergeOnce_of_subset fun _ => id
  have hnew : mergeOnce [] (held block c) = held block c :=
    mergeOnce_of_nodup (nodup_held block c)
  by_cases hheld : held block c = []
  · rw [if_pos (.inl hheld), h, batchFor, batchFor, if_pos (.inl hheld), if_pos (.inl hheld)]
  by_cases hmap : m.map c = []
  · rw [if_pos (.inr hmap), h, batchFor, batchFor, due_concat, hmap, mergeOnce_nil]
  · have hdue : mergeOnce (due mappings c) (m.map c) ≠ [] := mergeOnce_ne_nil_of_right hmap
    rw [if_neg (by simp [hheld, hmap]), batchFor, due_concat, if_neg (by simp [hheld, hdue])]
    rw [batchFor] at h
    by_cases hbefore : due mappings c = []
    · rw [if_pos (.inr hbefore)] at h
      rw [ToRun.at, h, hbefore]
      exact congrArg some (congrArg (LBMToRun.mk · _) hnew)
    · rw [if_neg (by simp [hheld, hbefore])] at h
      rw [ToRun.at_of_lookup h]
      exact congrArg some (congrArg (LBMToRun.mk · _) hself)

theorem scanBlocks_lookup (block : MapBlock) (mappings : List LBMContentMapping) :
    ∃ toRun, mappings.foldlM (scanBlock block) ∅ = .ok toRun ∧
      ∀ c, toRun.lookup c = batchFor block mappings c := by
  induction mappings using List.reverseRecOn with
  | nil => exact ⟨∅, rfl, fun c => (if_pos (.inr rfl)).symm⟩
  | append_singleton mappings m ih =>
    rcases ih with ⟨toRun, hfold, hlookup⟩
    rcases scanBlock_lookup block toRun m with ⟨toRun', hscan, hlookup'⟩
    refine ⟨toRun', ?_, fun c => ?_⟩
    · rw [List.foldlM_append, hfold]
      change (scanBlock block toRun m >>= pure) = _
      rw [hscan]
      rfl
    · rw [hlookup' c]
      exact batchFor_concat m (hlookup c)

end

namespace LBMManager

/-- What was introduced at the time of the block or later. -/
def introduced (m : LBMManager) (stamp : UInt32) : List LBMContentMapping :=
  (m.getLBMsIntroducedAfter stamp).map Prod.snd

theorem collect_lookup (m : LBMManager) (block : MapBlock) (stamp : UInt32) :
    ∃ toRun, m.collect block stamp = .ok toRun ∧
      ∀ c, toRun.lookup c = batchFor block (m.introduced stamp) c :=
  scanBlocks_lookup block _

end LBMManager

/-! ## The calls -/

section

variable {σ : Type} {E : LBMEnvironment σ} {trigger : Trigger σ} {s₀ : σ} {r : Running σ}
  {c : UInt16} {l : List LoadingBlockModifierDef} {p : List NodePos}

/-- What the calls of one batch have in common. -/
structure BatchCalls (E : LBMEnvironment σ) (c : UInt16) (l : List LoadingBlockModifierDef)
    (p : List NodePos) (calls : List (TriggerCall σ)) : Prop where
  content : ∀ call ∈ calls, call.content = c
  lbms : List.Sublist (calls.map TriggerCall.lbm) l
  positions : ∀ call ∈ calls, ∀ pos ∈ call.positions, pos ∈ p ∧ E.content call.before pos = c

theorem batchCalls_nil (E : LBMEnvironment σ) (c : UInt16) (l : List LoadingBlockModifierDef)
    (p : List NodePos) : BatchCalls E c l p [] where
  content := fun _ h => by cases h
  lbms := List.nil_sublist l
  positions := fun _ h => by cases h

/-- Nothing has changed as long as nothing was triggered. -/
def Running.FirstAt (s₀ : σ) (r : Running σ) : Prop :=
  r.first = true → r.state = s₀

theorem mem_recheck {pos : NodePos} (hfirst : r.FirstAt s₀) (hp : ∀ pos ∈ p, E.content s₀ pos = c)
    (h : pos ∈ recheck E c p r) : pos ∈ p ∧ E.content r.state pos = c := by
  rw [recheck] at h
  by_cases hr : r.first = true
  · rw [if_pos hr] at h
    rw [hfirst hr]
    exact ⟨h, hp pos h⟩
  · rw [if_neg hr, List.mem_filter, decide_eq_true_eq] at h
    exact h

theorem runBatch_calls (trigger : Trigger σ) (hfirst : r.FirstAt s₀) (hp : ∀ pos ∈ p, E.content s₀ pos = c)
    (hne : r.first = true → p ≠ []) :
    ∃ r' calls, runBatch E trigger c l p r = .ok r' ∧ r'.calls = r.calls ++ calls ∧
      r'.FirstAt s₀ ∧ BatchCalls E c l p calls := by
  induction l generalizing p r with
  | nil => exact ⟨r, [], rfl, (List.append_nil _).symm, hfirst, batchCalls_nil E c [] p⟩
  | cons lbm rest ih =>
    by_cases hnil : recheck E c p r = []
    · have hr : r.first = false := by
        by_contra hr
        rw [Bool.not_eq_false] at hr
        rw [recheck, if_pos hr] at hnil
        exact hne hr hnil
      refine ⟨r, [], ?_, (List.append_nil _).symm, hfirst, batchCalls_nil E c _ p⟩
      simp only [runBatch, hnil, hr, if_true, Bool.false_eq_true, if_false]
      rfl
    · let r₁ := r.call E trigger c lbm (recheck E c p r)
      let call : TriggerCall σ := ⟨c, lbm, recheck E c p r, r.state⟩
      have hcall : ∀ pos ∈ call.positions, pos ∈ p ∧ E.content call.before pos = c :=
        fun pos hpos => mem_recheck hfirst hp hpos
      have hfirst₁ : r₁.FirstAt s₀ := fun h => by cases h
      by_cases hreturned : r₁.returned = true
      · refine ⟨r₁, [call], ?_, rfl, hfirst₁, ?_, ?_, ?_⟩
        · rw [runBatch, if_neg hnil]
          exact if_pos hreturned
        · intro call' hcall'
          rw [List.mem_singleton.1 hcall']
        · exact (List.nil_sublist rest).cons_cons lbm
        · intro call' hcall'
          rw [List.mem_singleton.1 hcall']
          exact hcall
      · rcases ih (r := r₁) (p := recheck E c p r) hfirst₁
          (fun pos hpos => hp pos (hcall pos hpos).1) (fun h => by cases h) with
          ⟨r', calls, hrun, hcalls, hfirst', hbatch⟩
        refine ⟨r', call :: calls, ?_, ?_, hfirst', ?_, ?_, ?_⟩
        · rw [runBatch, if_neg hnil]
          exact (if_neg hreturned).trans hrun
        · rw [hcalls]
          exact List.append_assoc _ _ _
        · exact List.forall_mem_cons.2 ⟨rfl, hbatch.content⟩
        · exact hbatch.lbms.cons_cons lbm
        · refine List.forall_mem_cons.2 ⟨hcall, fun call' hcall' pos hpos => ?_⟩
          have hmem := hbatch.positions call' hcall' pos hpos
          exact ⟨(hcall pos hmem.1).1, hmem.2⟩

/-- A batch as it was collected. -/
structure BatchOf (E : LBMEnvironment σ) (s₀ : σ) (entry : Sigma fun _ : UInt16 => LBMToRun) :
    Prop where
  ne_nil : entry.2.p ≠ []
  content : ∀ pos ∈ entry.2.p, E.content s₀ pos = entry.1
  nodup : entry.2.l.Nodup

variable {entries : List (Sigma fun _ : UInt16 => LBMToRun)}

/-- The calls of all batches, whatever the modifiers do. -/
structure EntryCalls (E : LBMEnvironment σ) (entries : List (Sigma fun _ : UInt16 => LBMToRun))
    (calls : List (TriggerCall σ)) : Prop where
  nodup : (calls.map fun call => (call.content, call.lbm)).Nodup
  positions : ∀ call ∈ calls, ∃ entry ∈ entries, call.content = entry.1 ∧
    ∀ pos ∈ call.positions, pos ∈ entry.2.p ∧ E.content call.before pos = call.content

theorem entryCalls_nil (E : LBMEnvironment σ)
    (entries : List (Sigma fun _ : UInt16 => LBMToRun)) : EntryCalls E entries [] where
  nodup := List.nodup_nil
  positions := fun _ h => by cases h

theorem runEntries_returned (h : r.returned = true) :
    entries.foldlM (runEntry E trigger) r = .ok r := by
  induction entries with
  | nil => rfl
  | cons entry entries ih =>
    rw [List.foldlM_cons, runEntry, if_pos h]
    exact ih

theorem runEntries_calls (trigger : Trigger σ) (hfirst : r.FirstAt s₀)
    (hbatch : ∀ entry ∈ entries, BatchOf E s₀ entry)
    (hkeys : (entries.map Sigma.fst).Nodup) :
    ∃ r' calls, entries.foldlM (runEntry E trigger) r = .ok r' ∧ r'.calls = r.calls ++ calls ∧
      EntryCalls E entries calls := by
  induction entries generalizing r with
  | nil => exact ⟨r, [], rfl, (List.append_nil _).symm, entryCalls_nil E []⟩
  | cons entry entries ih =>
    by_cases hreturned : r.returned = true
    · exact ⟨r, [], runEntries_returned hreturned, (List.append_nil _).symm, entryCalls_nil E _⟩
    have hentry := hbatch entry List.mem_cons_self
    rcases runBatch_calls trigger (l := entry.2.l) hfirst hentry.content
      fun _ => hentry.ne_nil with ⟨r₁, calls₁, hrun, hcalls₁, hfirst₁, hof⟩
    rw [List.map_cons, List.nodup_cons] at hkeys
    rcases ih hfirst₁ (fun e he => hbatch e (List.mem_cons_of_mem entry he)) hkeys.2 with
      ⟨r', calls, hrest, hcalls, hentries⟩
    refine ⟨r', calls₁ ++ calls, ?_, ?_, ?_, ?_⟩
    · rw [List.foldlM_cons, runEntry, if_neg hreturned, hrun]
      exact hrest
    · rw [hcalls, hcalls₁, List.append_assoc]
    · rw [List.map_append]
      refine List.nodup_append.2 ⟨?_, hentries.nodup, ?_⟩
      · refine List.Nodup.of_map Prod.snd ?_
        rw [List.map_map]
        exact hentry.nodup.sublist hof.lbms
      · -- the later calls are for other contents
        rintro _ h₁ _ h₂ rfl
        rcases List.mem_map.1 h₁ with ⟨call₁, hcall₁, heq₁⟩
        rcases List.mem_map.1 h₂ with ⟨call₂, hcall₂, heq₂⟩
        rcases hentries.positions call₂ hcall₂ with ⟨e, he, hcontent, -⟩
        have hsame : call₂.content = call₁.content := congrArg Prod.fst (heq₂.trans heq₁.symm)
        refine hkeys.1 (List.mem_map.2 ⟨e, he, ?_⟩)
        rw [← hcontent, hsame, hof.content call₁ hcall₁]
    · intro call hcall
      rcases List.mem_append.1 hcall with hcall | hcall
      · refine ⟨entry, List.mem_cons_self, hof.content call hcall, ?_⟩
        rw [hof.content call hcall]
        exact hof.positions call hcall
      · rcases hentries.positions call hcall with ⟨e, he, hpositions⟩
        exact ⟨e, List.mem_cons_of_mem entry he, hpositions⟩

/-! ## Modifiers that change nothing -/

/-- No modifier changes a node, and none deletes the block. -/
def Quiet (E : LBMEnvironment σ) (trigger : Trigger σ) : Prop :=
  ∀ lbm p s, E.content (trigger lbm p s) = E.content s ∧
    (E.isOrphan s = false → E.isOrphan (trigger lbm p s) = false)

/-- The block is as it was. -/
structure Unchanged (E : LBMEnvironment σ) (s₀ : σ) (r : Running σ) : Prop where
  content : E.content r.state = E.content s₀
  live : E.isOrphan r.state = false
  returned : r.returned = false

/-- What is the same in every call of an entry. -/
def TriggerCall.key (call : TriggerCall σ) :
    UInt16 × LoadingBlockModifierDef × List NodePos :=
  (call.content, call.lbm, call.positions)

def entryKeys (entry : Sigma fun _ : UInt16 => LBMToRun) :
    List (UInt16 × LoadingBlockModifierDef × List NodePos) :=
  entry.2.l.map fun lbm => (entry.1, lbm, entry.2.p)

theorem recheck_unchanged (hr : Unchanged E s₀ r) (hp : ∀ pos ∈ p, E.content s₀ pos = c) :
    recheck E c p r = p := by
  rw [recheck]
  by_cases hfirst : r.first = true
  · rw [if_pos hfirst]
  · rw [if_neg hfirst, hr.content]
    exact List.filter_eq_self.2 fun pos hpos => decide_eq_true (hp pos hpos)

theorem runBatch_quiet (hquiet : Quiet E trigger) (hr : Unchanged E s₀ r)
    (hp : ∀ pos ∈ p, E.content s₀ pos = c) (hne : p ≠ []) :
    ∃ r' calls, runBatch E trigger c l p r = .ok r' ∧ r'.calls = r.calls ++ calls ∧
      Unchanged E s₀ r' ∧ calls.map TriggerCall.key = l.map fun lbm => (c, lbm, p) := by
  induction l generalizing r with
  | nil => exact ⟨r, [], rfl, (List.append_nil _).symm, hr, rfl⟩
  | cons lbm rest ih =>
    have hrecheck := recheck_unchanged hr hp
    rcases hquiet lbm p r.state with ⟨hcontent, hlive⟩
    have hr₁ : Unchanged E s₀ (r.call E trigger c lbm p) :=
      ⟨hcontent.trans hr.content, hlive hr.live, hlive hr.live⟩
    rcases ih hr₁ with ⟨r', calls, hrun, hcalls, hr', hkeys⟩
    refine ⟨r', ⟨c, lbm, p, r.state⟩ :: calls, ?_, ?_, hr', ?_⟩
    · rw [runBatch, hrecheck, if_neg hne]
      exact (if_neg (by rw [hr₁.returned]; exact Bool.false_ne_true)).trans hrun
    · rw [hcalls]
      exact List.append_assoc _ _ _
    · rw [List.map_cons, List.map_cons, hkeys]
      rfl

theorem runEntries_quiet (hquiet : Quiet E trigger) (hr : Unchanged E s₀ r)
    (hbatch : ∀ entry ∈ entries, BatchOf E s₀ entry) :
    ∃ r' calls, entries.foldlM (runEntry E trigger) r = .ok r' ∧ r'.calls = r.calls ++ calls ∧
      calls.map TriggerCall.key = entries.flatMap entryKeys := by
  induction entries generalizing r with
  | nil => exact ⟨r, [], rfl, (List.append_nil _).symm, rfl⟩
  | cons entry entries ih =>
    have hentry := hbatch entry List.mem_cons_self
    rcases runBatch_quiet (l := entry.2.l) hquiet hr hentry.content hentry.ne_nil with
      ⟨r₁, calls₁, hrun, hcalls₁, hr₁, hkeys₁⟩
    rcases ih hr₁ fun e he => hbatch e (List.mem_cons_of_mem entry he) with
      ⟨r', calls, hrest, hcalls, hkeys⟩
    refine ⟨r', calls₁ ++ calls, ?_, ?_, ?_⟩
    · rw [List.foldlM_cons, runEntry, if_neg (by rw [hr.returned]; exact Bool.false_ne_true), hrun]
      exact hrest
    · rw [hcalls, hcalls₁, List.append_assoc]
    · rw [List.map_append, hkeys₁, hkeys]
      rfl

end

end Abm
end AxisEngine
