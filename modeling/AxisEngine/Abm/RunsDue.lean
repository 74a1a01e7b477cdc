import AxisEngine.Abm.DueLBMs

/-!
# RunsDue — when exactly the modifiers that are due are run

For each content in the block, the modifiers introduced since the time of the block should be
triggered once, in the order of their introduction, with all positions of the content.  The nodes
before the first one that is not `CONTENT_IGNORE` are missed, and this shows where a modifier is
registered for `CONTENT_IGNORE`.

* `IsDue`, `RunsDue` — what should be run;
* `CallsValid` — what holds of every call, whatever the modifiers do;
* `appliesDue_iff` — when it is as it should be.
-/

namespace AxisEngine
namespace Abm

open Lib Util Map

namespace LBMManager

variable {m : LBMManager} {stamp : UInt32} {c : UInt16} {lbm : LoadingBlockModifierDef}

/-- The modifier was introduced at the time, and is for the content. -/
def RegisteredAt (m : LBMManager) (time : ℕ) (c : UInt16) (lbm : LoadingBlockModifierDef) : Prop :=
  ∃ mapping, (time, mapping) ∈ m.lbmLookup.entries ∧ lbm ∈ mapping.map c

/-- It was introduced since the time of the block. -/
def IsDue (m : LBMManager) (stamp : UInt32) (c : UInt16) (lbm : LoadingBlockModifierDef) : Prop :=
  ∃ time, stamp.toNat ≤ time ∧ m.RegisteredAt time c lbm

/-- The first was introduced no later than the second. -/
def NoLater (m : LBMManager) (stamp : UInt32) (c : UInt16) (lbm lbm' : LoadingBlockModifierDef) :
    Prop :=
  ∀ time, stamp.toNat ≤ time → m.RegisteredAt time c lbm' →
    ∃ time' ≤ time, stamp.toNat ≤ time' ∧ m.RegisteredAt time' c lbm

theorem mem_introducedAfter {it : ℕ × LBMContentMapping} :
    it ∈ m.getLBMsIntroducedAfter stamp ↔ it ∈ m.lbmLookup.entries ∧ stamp.toNat ≤ it.1 := by
  have hsorted := m.lbmLookup.sorted
  have hsplit := List.takeWhile_append_dropWhile
    (p := fun it : ℕ × LBMContentMapping => decide (it.1 < stamp.toNat)) (l := m.lbmLookup.entries)
  constructor
  · intro h
    refine ⟨(List.dropWhile_sublist _).mem h, ?_⟩
    rw [getLBMsIntroducedAfter] at h
    cases hlate : m.lbmLookup.entries.dropWhile fun it => decide (it.1 < stamp.toNat) with
    | nil =>
      rw [hlate] at h
      cases h
    | cons first rest =>
      have hfirst : stamp.toNat ≤ first.1 := by
        have hhead := List.head?_dropWhile_not
          (fun it : ℕ × LBMContentMapping => decide (it.1 < stamp.toNat)) m.lbmLookup.entries
        rw [hlate] at hhead
        simpa using hhead
      rw [hlate] at h
      rcases List.mem_cons.1 h with rfl | hrest
      · exact hfirst
      · have hlater : StrictSorted Prod.fst (first :: rest) := by
          rw [← hlate]
          exact hsorted.sublist (List.dropWhile_sublist _)
        exact hfirst.trans ((List.pairwise_cons.1 hlater).1 it hrest).le
  · rintro ⟨hmem, htime⟩
    rw [← hsplit, List.mem_append] at hmem
    refine hmem.resolve_left fun hearly => ?_
    have hlt := List.mem_takeWhile_imp hearly
    rw [decide_eq_true_eq] at hlt
    exact absurd htime hlt.not_ge

theorem mem_due_iff : lbm ∈ due (m.introduced stamp) c ↔ m.IsDue stamp c lbm := by
  rw [due, mem_mergeAll, introduced]
  constructor
  · rintro ⟨xs, hxs, hlbm⟩
    rcases List.mem_map.1 hxs with ⟨mapping, hmapping, rfl⟩
    rcases List.mem_map.1 hmapping with ⟨it, hit, rfl⟩
    rcases mem_introducedAfter.1 hit with ⟨hmem, htime⟩
    exact ⟨it.1, htime, it.2, hmem, hlbm⟩
  · rintro ⟨time, htime, mapping, hmem, hlbm⟩
    have hit := mem_introducedAfter.2 ⟨hmem, htime⟩
    exact ⟨mapping.map c, List.mem_map_of_mem (List.mem_map_of_mem hit), hlbm⟩

/-- The lists are those of the times, in their order. -/
theorem noLater_of_notAfter {lbm' : LoadingBlockModifierDef}
    (h : NotAfter ((m.introduced stamp).map fun mapping => mapping.map c) lbm lbm') :
    m.NoLater stamp c lbm lbm' := by
  intro time htime hregistered
  rcases hregistered with ⟨mapping, hmem, hlbm'⟩
  rcases List.mem_iff_getElem?.1 (mem_introducedAfter.2 ⟨hmem, htime⟩) with ⟨i, hi⟩
  have hlist : ∀ (j : ℕ) (it : ℕ × LBMContentMapping), (m.getLBMsIntroducedAfter stamp)[j]? = some it →
      ((m.introduced stamp).map fun mapping => mapping.map c)[j]? = some (it.2.map c) := by
    intro j it hj
    rw [introduced, List.getElem?_map, List.getElem?_map, hj]
    rfl
  rcases h i _ (hlist i _ hi) hlbm' with ⟨j, hji, xs, hxs, hlbm⟩
  rw [introduced, List.getElem?_map, List.getElem?_map] at hxs
  rcases Option.map_eq_some_iff.1 hxs with ⟨mapping', hmapping', rfl⟩
  rcases Option.map_eq_some_iff.1 hmapping' with ⟨it, hj, rfl⟩
  have hmem' := mem_introducedAfter.1 (List.mem_of_getElem? hj)
  refine ⟨it.1, ?_, hmem'.2, it.2, hmem'.1, hlbm⟩
  rcases hji.lt_or_eq with hlt | rfl
  · have hsorted : StrictSorted Prod.fst (m.getLBMsIntroducedAfter stamp) :=
      m.lbmLookup.sorted.sublist (List.dropWhile_sublist _)
    rcases List.getElem?_eq_some_iff.1 hi with ⟨hilt, hieq⟩
    rcases List.getElem?_eq_some_iff.1 hj with ⟨hjlt, hjeq⟩
    have hless := List.pairwise_iff_getElem.1 hsorted j i hjlt hilt hlt
    rw [hieq, hjeq] at hless
    exact hless.le
  · rw [hi] at hj
    rw [← Option.some.inj hj]

theorem pairwise_due (m : LBMManager) (stamp : UInt32) (c : UInt16) :
    (due (m.introduced stamp) c).Pairwise (m.NoLater stamp c) :=
  (pairwise_mergeAll _).imp noLater_of_notAfter

end LBMManager

/-! ## What is looked at -/

section

variable {block : MapBlock} {pos : NodePos} {c : UInt16}

theorem mem_scanned_of_ne (h : nodeContent block pos ≠ contentIgnore) : pos ∈ scanned block := by
  have hmem := NodePos.mem_all pos
  rw [← List.takeWhile_append_dropWhile (p := fun pos => nodeContent block pos = contentIgnore)
    (l := NodePos.all), List.mem_append] at hmem
  refine hmem.resolve_left fun hfirst => h ?_
  simpa using List.mem_takeWhile_imp hfirst

theorem scanned_eq_all (h : nodeContent block .origin ≠ contentIgnore) :
    scanned block = NodePos.all := by
  rw [scanned, NodePos.all_eq_cons, List.dropWhile_cons_of_neg (by simpa using h)]

theorem origin_not_mem_scanned (h : nodeContent block .origin = contentIgnore) :
    NodePos.origin ∉ scanned block := by
  have hnodup := NodePos.nodup_all
  rw [NodePos.all_eq_cons, List.nodup_cons] at hnodup
  rw [scanned, NodePos.all_eq_cons, List.dropWhile_cons_of_pos (by simpa using h)]
  exact fun hmem => hnodup.1 ((List.dropWhile_sublist _).mem hmem)

/-- All positions of a content are found, unless they are those at the start of the block. -/
theorem mem_held_iff (h : c = contentIgnore → nodeContent block .origin ≠ contentIgnore) :
    pos ∈ held block c ↔ nodeContent block pos = c := by
  rw [mem_held]
  refine ⟨And.right, fun hc => ⟨?_, hc⟩⟩
  by_cases hignore : c = contentIgnore
  · rw [scanned_eq_all (h hignore)]
    exact NodePos.mem_all pos
  · exact mem_scanned_of_ne (hc ▸ hignore)

end

/-! ## The calls -/

section

variable {σ : Type} {E : LBMEnvironment σ} {trigger : Trigger σ} {s : σ} {m : LBMManager}
  {stamp : UInt32} {c : UInt16} {toRun : ToRun} {calls : List (TriggerCall σ)}

/-- The modifiers that were triggered for a content. -/
def lbmsFor (calls : List (TriggerCall σ)) (c : UInt16) : List LoadingBlockModifierDef :=
  (calls.filter fun call => call.content = c).map TriggerCall.lbm

/-- Exactly the modifiers that are due have been triggered, each once. -/
structure RunsDue (E : LBMEnvironment σ) (m : LBMManager) (stamp : UInt32) (s : σ)
    (calls : List (TriggerCall σ)) : Prop where
  due : ∀ c, (∃ pos, E.content s pos = c) → ∀ lbm, lbm ∈ lbmsFor calls c ↔ m.IsDue stamp c lbm
  nodup : ∀ c, (lbmsFor calls c).Nodup
  ordered : ∀ c, (lbmsFor calls c).Pairwise (m.NoLater stamp c)
  positions : ∀ call ∈ calls, ∀ pos, pos ∈ call.positions ↔ E.content s pos = call.content

/-- No modifier is triggered twice for a content, and each position that it gets holds the content
and did so at the start. -/
structure CallsValid (E : LBMEnvironment σ) (s : σ) (calls : List (TriggerCall σ)) : Prop where
  nodup : (calls.map fun call => (call.content, call.lbm)).Nodup
  positions : ∀ call ∈ calls, ∀ pos ∈ call.positions,
    E.content call.before pos = call.content ∧ E.content s pos = call.content

/-- The batches, in the order in which they are run. -/
structure Collected (E : LBMEnvironment σ) (m : LBMManager) (stamp : UInt32) (s : σ)
    (toRun : ToRun) : Prop where
  lookup : ∀ c, toRun.lookup c = batchFor (E.block s) (m.introduced stamp) c

variable {entry : Sigma fun _ : UInt16 => LBMToRun}

section

variable (h : Collected E m stamp s toRun) (hentry : entry ∈ E.order toRun.entries)

include h hentry

theorem Collected.entry_eq :
    held (E.block s) entry.1 ≠ [] ∧ due (m.introduced stamp) entry.1 ≠ [] ∧
      entry.2 = { p := held (E.block s) entry.1, l := due (m.introduced stamp) entry.1 } := by
  have hmem : entry ∈ toRun.entries := (E.order_perm _).mem_iff.1 hentry
  have hlookup : toRun.lookup entry.1 = some entry.2 := AList.mem_lookup_iff.2 hmem
  rw [h.lookup, batchFor] at hlookup
  by_cases hnone : held (E.block s) entry.1 = [] ∨ due (m.introduced stamp) entry.1 = []
  · rw [if_pos hnone] at hlookup
    cases hlookup
  · rw [if_neg hnone, Option.some.injEq] at hlookup
    rw [not_or] at hnone
    exact ⟨hnone.1, hnone.2, hlookup.symm⟩

theorem Collected.batchOf : BatchOf E s entry := by
  rcases h.entry_eq hentry with ⟨hheld, -, heq⟩
  refine ⟨?_, ?_, ?_⟩
  · rw [heq]
    exact hheld
  · rw [heq]
    exact fun pos hpos => (mem_held.1 hpos).2
  · rw [heq]
    exact nodup_mergeAll _

end

theorem Collected.nodupKeys (E : LBMEnvironment σ) (toRun : ToRun) :
    ((E.order toRun.entries).map Sigma.fst).Nodup :=
  ((E.order_perm _).map Sigma.fst).nodup_iff.2 toRun.keys_nodup

theorem applyLBMs_eq (hquery : m.queryMode = true)
    (hcollect : m.collect (E.block s) stamp = .ok toRun) :
    m.applyLBMs E trigger stamp s =
      (E.order toRun.entries).foldlM (runEntry E trigger) { state := s } := by
  rw [LBMManager.applyLBMs, hquery, hcollect]
  rfl

/-- Only positions that were looked at are passed on. -/
theorem applyLBMs_calls (trigger : Trigger σ) (hquery : m.queryMode = true) (stamp : UInt32)
    (s : σ) :
    ∃ r, m.applyLBMs E trigger stamp s = .ok r ∧ CallsValid E s r.calls ∧
      ∀ call ∈ r.calls, ∀ pos ∈ call.positions, pos ∈ scanned (E.block s) := by
  rcases m.collect_lookup (E.block s) stamp with ⟨toRun, hcollect, hlookup⟩
  have h : Collected E m stamp s toRun := ⟨hlookup⟩
  have hfirst : ({ state := s } : Running σ).FirstAt s := fun _ => rfl
  rcases runEntries_calls trigger hfirst (fun entry => h.batchOf) (Collected.nodupKeys E toRun) with
    ⟨r, calls, hrun, hcalls, hof⟩
  have hcalls' : r.calls = calls := hcalls
  have hheld : ∀ call ∈ calls, ∀ pos ∈ call.positions,
      pos ∈ held (E.block s) call.content ∧ E.content call.before pos = call.content := by
    intro call hcall pos hpos
    rcases hof.positions call hcall with ⟨entry, hentry, hcontent, hpositions⟩
    rcases h.entry_eq hentry with ⟨-, -, heq⟩
    have hpos' := hpositions pos hpos
    rw [heq, ← hcontent] at hpos'
    exact hpos'
  refine ⟨r, (applyLBMs_eq hquery hcollect).trans hrun, ?_, ?_⟩
  · rw [hcalls']
    refine ⟨hof.nodup, fun call hcall pos hpos => ?_⟩
    have hpos' := hheld call hcall pos hpos
    exact ⟨hpos'.2, (mem_held.1 hpos'.1).2⟩
  · rw [hcalls']
    exact fun call hcall pos hpos => (mem_held.1 (hheld call hcall pos hpos).1).1

/-! ## The calls of modifiers that change nothing -/

theorem lbmsFor_eq (calls : List (TriggerCall σ)) (c : UInt16) :
    lbmsFor calls c = ((calls.map TriggerCall.key).filter fun key => key.1 = c).map
      fun key => key.2.1 := by
  rw [List.filter_map, List.map_map]
  rfl

variable {entries : List (Sigma fun _ : UInt16 => LBMToRun)}

theorem filter_entryKeys (entry : Sigma fun _ : UInt16 => LBMToRun) (c : UInt16) :
    ((entryKeys entry).filter fun key => key.1 = c).map (fun key => key.2.1) =
      if entry.1 = c then entry.2.l else [] := by
  have hkey : ∀ key ∈ entryKeys entry, key.1 = entry.1 := by
    intro key hmem
    rcases List.mem_map.1 hmem with ⟨lbm, -, rfl⟩
    rfl
  by_cases hc : entry.1 = c
  · have hall : (entryKeys entry).filter (fun key => key.1 = c) = entryKeys entry :=
      List.filter_eq_self.2 fun key hmem => decide_eq_true ((hkey key hmem).trans hc)
    rw [if_pos hc, hall, entryKeys, List.map_map]
    exact List.map_id _
  · have hnone : (entryKeys entry).filter (fun key => key.1 = c) = [] :=
      List.filter_eq_nil_iff.2 fun key hmem heq =>
        hc ((hkey key hmem).symm.trans (of_decide_eq_true heq))
    rw [if_neg hc, hnone]
    rfl

theorem lbms_of_not_mem (h : c ∉ entries.map Sigma.fst) :
    ((entries.flatMap entryKeys).filter fun key => key.1 = c).map (fun key => key.2.1) = [] := by
  induction entries with
  | nil => rfl
  | cons entry entries ih =>
    rw [List.map_cons, List.mem_cons, not_or] at h
    rw [List.flatMap_cons, List.filter_append, List.map_append, filter_entryKeys,
      if_neg (Ne.symm h.1), ih h.2]
    rfl

/-- One entry has all the modifiers of a content. -/
theorem lbms_of_mem (hkeys : (entries.map Sigma.fst).Nodup) (hentry : entry ∈ entries) :
    ((entries.flatMap entryKeys).filter fun key => key.1 = entry.1).map (fun key => key.2.1) =
      entry.2.l := by
  induction entries with
  | nil => cases hentry
  | cons e entries ih =>
    rw [List.map_cons, List.nodup_cons] at hkeys
    rw [List.flatMap_cons, List.filter_append, List.map_append, filter_entryKeys]
    rcases List.mem_cons.1 hentry with rfl | hentry
    · rw [if_pos rfl, lbms_of_not_mem hkeys.1, List.append_nil]
    · have hne : e.1 ≠ entry.1 := fun heq =>
        hkeys.1 (heq ▸ List.mem_map_of_mem hentry)
      rw [if_neg hne, ih hkeys.2 hentry]
      rfl

theorem Collected.lbmsFor (h : Collected E m stamp s toRun)
    (hkeys : calls.map TriggerCall.key = (E.order toRun.entries).flatMap entryKeys) (c : UInt16) :
    lbmsFor calls c = if held (E.block s) c = [] then [] else Abm.due (m.introduced stamp) c := by
  rw [lbmsFor_eq, hkeys]
  by_cases hc : c ∈ (E.order toRun.entries).map Sigma.fst
  · rcases List.mem_map.1 hc with ⟨entry, hentry, rfl⟩
    rcases h.entry_eq hentry with ⟨hheld, -, heq⟩
    rw [lbms_of_mem (Collected.nodupKeys E toRun) hentry, if_neg hheld, heq]
  · rw [lbms_of_not_mem hc]
    have hnone : toRun.lookup c = none := by
      refine AList.lookup_eq_none.2 fun hmem => hc ?_
      exact ((E.order_perm _).map Sigma.fst).mem_iff.2 hmem
    rw [h.lookup, batchFor] at hnone
    by_cases hheld : held (E.block s) c = []
    · rw [if_pos hheld]
    · by_cases hdue : Abm.due (m.introduced stamp) c = []
      · rw [if_neg hheld, hdue]
      · rw [if_neg (by simp [hheld, hdue])] at hnone
        cases hnone

theorem applyLBMs_quiet (hquery : m.queryMode = true) (stamp : UInt32)
    (hlive : E.isOrphan s = false) (hquiet : Quiet E trigger) :
    ∃ r, m.applyLBMs E trigger stamp s = .ok r ∧
      (∀ c, lbmsFor r.calls c =
        if held (E.block s) c = [] then [] else Abm.due (m.introduced stamp) c) ∧
      ∀ call ∈ r.calls, call.positions = held (E.block s) call.content ∧
        Abm.due (m.introduced stamp) call.content ≠ [] := by
  rcases m.collect_lookup (E.block s) stamp with ⟨toRun, hcollect, hlookup⟩
  have h : Collected E m stamp s toRun := ⟨hlookup⟩
  have hr : Unchanged E s ({ state := s } : Running σ) := ⟨rfl, hlive, rfl⟩
  rcases runEntries_quiet hquiet hr (fun entry => h.batchOf) with ⟨r, calls, hrun, hcalls, hkeys⟩
  have hcalls' : r.calls = calls := hcalls
  refine ⟨r, (applyLBMs_eq hquery hcollect).trans hrun, ?_, ?_⟩
  · rw [hcalls']
    exact h.lbmsFor hkeys
  · rw [hcalls']
    intro call hcall
    have hkey : call.key ∈ (E.order toRun.entries).flatMap entryKeys := by
      rw [← hkeys]
      exact List.mem_map_of_mem hcall
    rcases List.mem_flatMap.1 hkey with ⟨entry, hentry, hmem⟩
    rcases List.mem_map.1 hmem with ⟨lbm, -, heq⟩
    rcases h.entry_eq hentry with ⟨-, hdue, hbatch⟩
    have hcontent : entry.1 = call.content := congrArg Prod.fst heq
    have hpositions : entry.2.p = call.positions := congrArg (fun key => key.2.2) heq
    rw [← hpositions, ← hcontent, hbatch]
    exact ⟨rfl, hdue⟩

/-! ## When it is as it should be -/

/-- No modifier that is due is registered for `CONTENT_IGNORE` if the first node is that. -/
def FirstNodeSeen (E : LBMEnvironment σ) (m : LBMManager) (stamp : UInt32) (s : σ) : Prop :=
  E.content s .origin = contentIgnore → ∀ lbm, ¬ m.IsDue stamp contentIgnore lbm

theorem FirstNodeSeen.mem_held_iff {pos : NodePos} (h : FirstNodeSeen E m stamp s)
    (hdue : Abm.due (m.introduced stamp) c ≠ []) :
    pos ∈ held (E.block s) c ↔ E.content s pos = c := by
  refine Abm.mem_held_iff ?_
  rintro rfl hfirst
  rcases List.exists_mem_of_ne_nil _ hdue with ⟨lbm, hlbm⟩
  exact h hfirst lbm (LBMManager.mem_due_iff.1 hlbm)

theorem runsDue_of_firstNodeSeen (hquery : m.queryMode = true) (hlive : E.isOrphan s = false)
    (hquiet : Quiet E trigger) (h : FirstNodeSeen E m stamp s) :
    ∃ r, m.applyLBMs E trigger stamp s = .ok r ∧ RunsDue E m stamp s r.calls := by
  rcases applyLBMs_quiet hquery stamp hlive hquiet with ⟨r, hrun, hlbms, hpositions⟩
  refine ⟨r, hrun, ?_, ?_, ?_, ?_⟩
  · rintro c ⟨pos, hpos⟩ lbm
    rw [hlbms c, ← LBMManager.mem_due_iff]
    by_cases hdue : Abm.due (m.introduced stamp) c = []
    · rw [hdue, ite_self]
    · have hheld : held (E.block s) c ≠ [] :=
        List.ne_nil_of_mem ((h.mem_held_iff hdue).2 hpos)
      rw [if_neg hheld]
  · intro c
    rw [hlbms c]
    by_cases hheld : held (E.block s) c = []
    · rw [if_pos hheld]
      exact List.nodup_nil
    · rw [if_neg hheld]
      exact nodup_mergeAll _
  · intro c
    rw [hlbms c]
    by_cases hheld : held (E.block s) c = []
    · rw [if_pos hheld]
      exact List.Pairwise.nil
    · rw [if_neg hheld]
      exact m.pairwise_due stamp c
  · intro call hcall pos
    rcases hpositions call hcall with ⟨hheld, hdue⟩
    rw [hheld]
    exact h.mem_held_iff hdue

/-- The first node is never looked at if it is `CONTENT_IGNORE`. -/
theorem firstNodeSeen_of_runsDue (trigger : Trigger σ) (hquery : m.queryMode = true)
    (h : ∀ r, m.applyLBMs E trigger stamp s = .ok r → RunsDue E m stamp s r.calls) :
    FirstNodeSeen E m stamp s := by
  intro hfirst lbm hdue
  rcases applyLBMs_calls (E := E) trigger hquery stamp s with ⟨r, hrun, -, hscanned⟩
  have hruns := h r hrun
  have hmem := (hruns.due contentIgnore ⟨_, hfirst⟩ lbm).2 hdue
  rcases List.mem_map.1 hmem with ⟨call, hcall, -⟩
  rcases List.mem_filter.1 hcall with ⟨hcall, hcontent⟩
  rw [decide_eq_true_eq] at hcontent
  have horigin : NodePos.origin ∈ call.positions :=
    (hruns.positions call hcall .origin).2 (hfirst.trans hcontent.symm)
  exact origin_not_mem_scanned hfirst (hscanned call hcall .origin horigin)

theorem quiet_id (E : LBMEnvironment σ) : Quiet E fun _ _ s => s :=
  fun _ _ _ => ⟨rfl, id⟩

/-- What should hold whatever the modifiers are. -/
def AppliesDue (E : LBMEnvironment σ) (m : LBMManager) (stamp : UInt32) (s : σ) : Prop :=
  ∀ trigger, ∃ r, m.applyLBMs E trigger stamp s = .ok r ∧ CallsValid E s r.calls ∧
    (Quiet E trigger → RunsDue E m stamp s r.calls)

/-- Exactly the modifiers that are due are run, and no assertion fails, unless a modifier is
registered for `CONTENT_IGNORE` and the block starts with it. -/
theorem appliesDue_iff (E : LBMEnvironment σ) (m : LBMManager) (stamp : UInt32) (s : σ)
    (hquery : m.queryMode = true) (hlive : E.isOrphan s = false) :
    AppliesDue E m stamp s ↔ FirstNodeSeen E m stamp s := by
  constructor
  · intro h
    rcases h fun _ _ s => s with ⟨r, hrun, -, hruns⟩
    refine firstNodeSeen_of_runsDue (fun _ _ s => s) hquery fun r' hrun' => ?_
    rw [hrun] at hrun'
    rw [← Except.ok.inj hrun']
    exact hruns (quiet_id E)
  · intro h trigger
    rcases applyLBMs_calls (E := E) trigger hquery stamp s with ⟨r, hrun, hvalid, -⟩
    refine ⟨r, hrun, hvalid, fun hquiet => ?_⟩
    rcases runsDue_of_firstNodeSeen hquery hlive hquiet h with ⟨r', hrun', hruns⟩
    rw [hrun] at hrun'
    rwa [← Except.ok.inj hrun'] at hruns

/-! ## A modifier for `CONTENT_IGNORE` -/

/-- The block is the environment. -/
def blockOnly : LBMEnvironment MapBlock where
  block := id
  isOrphan := fun _ => false
  order := id
  order_perm := fun _ => .refl _

def fillIgnored : LoadingBlockModifierDef where
  triggerContents := [ascii "ignore"]
  name := ascii "mymod:fill"

/-- One modifier, introduced at the time 1. -/
def oneTime (mapping : LBMContentMapping) : LBMManager where
  queryMode := true
  lbmLookup := ⟨[(1, mapping)], List.pairwise_singleton _ _⟩

def onlyFor (lbm : LoadingBlockModifierDef) (content : UInt16) : LBMContentMapping where
  lbmList := [lbm]
  map := fun c => if c = content then [lbm] else []

theorem isDue_oneTime (lbm : LoadingBlockModifierDef) (content : UInt16) :
    (oneTime (onlyFor lbm content)).IsDue 0 content lbm := by
  refine ⟨1, Nat.zero_le 1, onlyFor lbm content, List.mem_singleton_self _, ?_⟩
  change lbm ∈ if content = content then [lbm] else []
  rw [if_pos rfl]
  exact List.mem_singleton_self lbm

theorem not_isDue_oneTime {content : UInt16} (hne : c ≠ content)
    (lbm lbm' : LoadingBlockModifierDef) : ¬ (oneTime (onlyFor lbm content)).IsDue 0 c lbm' := by
  rintro ⟨time, -, mapping, hmem, hlbm⟩
  have hmapping : mapping = onlyFor lbm content := congrArg Prod.snd (List.mem_singleton.1 hmem)
  rw [hmapping] at hlbm
  change lbm' ∈ if c = content then [lbm] else [] at hlbm
  rw [if_neg hne] at hlbm
  cases hlbm

theorem content_newBlock (pos : NodePos) : blockOnly.content ({} : MapBlock) pos = contentIgnore := by
  change ((Nodes.fill { param0 := contentIgnore }).get pos.index).getContent = contentIgnore
  rw [Nodes.get_fill]
  rfl

theorem newBlock_not_appliesDue :
    ¬ AppliesDue blockOnly (oneTime (onlyFor fillIgnored contentIgnore)) 0 {} := by
  intro h
  rcases h fun _ _ s => s with ⟨r, hrun, -, hruns⟩
  refine firstNodeSeen_of_runsDue (fun _ _ s => s) rfl (fun r' hrun' => ?_)
    (content_newBlock .origin) fillIgnored (isDue_oneTime fillIgnored contentIgnore)
  rw [hrun] at hrun'
  rw [← Except.ok.inj hrun']
  exact hruns (quiet_id blockOnly)

theorem appliesDue_iff_newBlock :
    (oneTime (onlyFor fillIgnored contentAir)).queryMode = true ∧
      blockOnly.isOrphan ({} : MapBlock) = false ∧
      AppliesDue blockOnly (oneTime (onlyFor fillIgnored contentAir)) 0 {} := by
  refine ⟨rfl, rfl, (appliesDue_iff _ _ _ _ rfl rfl).2 fun _ lbm => ?_⟩
  exact not_isDue_oneTime (by decide) fillIgnored lbm

end

end Abm
end AxisEngine
