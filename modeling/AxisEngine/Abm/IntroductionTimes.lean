import AxisEngine.Abm.LBMManager
import AxisEngine.Lib.SplitOn
import AxisEngine.Util.StringFields
import Mathlib.Data.Finset.Max

/-!
# IntroductionTimes — a modifier keeps the time of its introduction

What one session writes down of its modifiers is read in the next.  The names are registered without
the colon in front of them, and a colon is taken off once more where they are read: a name that has
a second one is not found again, and its modifier is new at every start.

* `Has`, `Introduced` — the modifiers that are registered, and their times;
* `introductionTime`, `loadIntroductionTimes_spec` — the time that a modifier gets;
* `Persistent`, `Steady`, `persistent_iff` — when the times persist.
-/

namespace AxisEngine
namespace Abm

open Lib Util Media

namespace LBMManager

/-- The modifier is registered, under its name. -/
def Has (m : LBMManager) (d : LoadingBlockModifierDef) : Prop :=
  m.lbmDefs.lookup d.name = some d

/-- The modifier stands under the time. -/
def Introduced (lookup : LBMLookupMap) (d : LoadingBlockModifierDef) (time : UInt32) : Prop :=
  d ∈ (bucket lookup time).lbmList

/-- The time that a modifier gets: the one it had, unless that is still to come. -/
def introductionTime (times : AList fun _ : Bytes => UInt32) (now : UInt32)
    (d : LoadingBlockModifierDef) : UInt32 :=
  if d.runAtEveryLoad then everyLoad
  else
    match times.lookup d.name with
    | none => now
    | some time => if now < time then now else time

/-- Every modifier has the same time in both. -/
def SameTimes (old new : LBMManager) : Prop :=
  ∀ d time, Introduced old.lbmLookup d time ↔ Introduced new.lbmLookup d time

/-- What should hold of the registered modifiers at the time `now`.  `kept`: from one session to the
next, and once more.  `fresh`: what is not mentioned is new.  `notStored`: what is run at every load
is not written down. -/
structure Persistent (P : LBMPlatform) (m : LBMManager) (now : UInt32) : Prop where
  kept : ∀ times before old, before ≤ now → m.loadIntroductionTimes P times before = .ok old →
    ∃ new, m.reload P old now = .ok new ∧ SameTimes old new ∧
      ∃ again, m.reload P new now = .ok again ∧ SameTimes new again
  fresh : ∀ times known new, parseIntroductionTimesString P times = .ok known →
    m.loadIntroductionTimes P times now = .ok new → ∀ d, m.Has d → d.runAtEveryLoad = false →
    known.lookup d.name = none → Introduced new.lbmLookup d now
  notStored : ∀ times new written, m.loadIntroductionTimes P times now = .ok new →
    new.createIntroductionTimesString = .ok written → ∀ d, m.Has d → d.runAtEveryLoad = true →
    ∀ text, d.name ++ 126 :: text ∉ timesEntries written

/-- No name has a colon in front, unless nothing is older than the world; and at the last time of all
something is run at every load. -/
structure Steady (m : LBMManager) (now : UInt32) : Prop where
  plain : now ≠ 0 → ∀ d, m.Has d → d.runAtEveryLoad = false → d.name.head? ≠ some 58
  always : now = everyLoad → ∃ d, m.Has d ∧ d.runAtEveryLoad = true

/-! ## Registration -/

/-- What is registered stands under its name, which can be written down. -/
structure Registered (m : LBMManager) : Prop where
  setUp : m.queryMode = false
  noTimes : m.lbmLookup = .empty
  named : ∀ name d, m.lbmDefs.lookup name = some d →
    d.name = name ∧ name ≠ [] ∧ stringAllowed name lbmNameAllowedChars = true

section

variable {m old new : LBMManager} {d d' : LoadingBlockModifierDef} {ds : List LoadingBlockModifierDef}
  {lookup : LBMLookupMap} {time time' now before : UInt32} {times : Bytes} {name : Bytes}

/-- The marks of the text are not allowed in a name, nor is what a settings file reads otherwise. -/
theorem of_mem_allowedChars : ∀ c ∈ lbmNameAllowedChars,
    (c ≠ 126 ∧ c ≠ 59) ∧ isSpace c = false ∧ c ≠ 34 ∧ c ≠ 123 :=
  forall_mem_ascii rfl

theorem Registered.allowed (hm : m.Registered) (hd : m.Has d) {c : UInt8} (hc : c ∈ d.name) :
    (c ≠ 126 ∧ c ≠ 59) ∧ isSpace c = false ∧ c ≠ 34 ∧ c ≠ 123 :=
  of_mem_allowedChars c (List.contains_iff_mem.1 (List.all_eq_true.1 (hm.named _ _ hd).2.2 c hc))

theorem Registered.not_mem (hm : m.Registered) (hd : m.Has d) : 126 ∉ d.name ∧ 59 ∉ d.name :=
  ⟨fun hmem => (hm.allowed hd hmem).1.1 rfl, fun hmem => (hm.allowed hd hmem).1.2 rfl⟩

theorem Registered.addLBMDef (hm : m.Registered) (h : m.addLBMDef d = .ok new) :
    new.Registered := by
  unfold LBMManager.addLBMDef at h
  rw [hm.setUp, if_neg Bool.false_ne_true] at h
  dsimp only at h
  split at h
  · cases h
  · rename_i hname
    cases h
    rw [not_or, Bool.not_eq_true', Bool.not_eq_false] at hname
    refine ⟨rfl, hm.noTimes, fun n d' hd' => ?_⟩
    by_cases hn : n = stripColon d.name
    · subst hn
      rw [AList.lookup_insert] at hd'
      cases hd'
      exact ⟨rfl, hname⟩
    · rw [AList.lookup_insert_ne hn] at hd'
      exact hm.named n d' hd'

theorem registered_addLBMDefs (h : addLBMDefs ds = .ok m) : m.Registered := by
  have hall : ∀ m₀ : LBMManager, m₀.Registered → ds.foldlM LBMManager.addLBMDef m₀ = .ok m →
      m.Registered := by
    clear h
    induction ds with
    | nil =>
      intro m₀ hm₀ h
      cases h
      exact hm₀
    | cons d ds ih =>
      intro m₀ hm₀ h
      rw [List.foldlM_cons] at h
      rcases bind_eq_ok.1 h with ⟨m₁, hm₁, hrest⟩
      exact ih m₁ (hm₀.addLBMDef hm₁) hrest
  refine hall {} ⟨rfl, rfl, fun n d hd => ?_⟩ h
  rw [AList.lookup_empty] at hd
  cases hd

theorem Has.eq_of_name (hd : m.Has d) (hd' : m.Has d') (hname : d.name = d'.name) : d = d' := by
  unfold Has at hd hd'
  rw [hname] at hd
  exact Option.some.inj (hd.symm.trans hd')

/-! ## The table of times -/

theorem bucket_put (lookup : LBMLookupMap) (time : UInt32) (b : LBMContentMapping)
    (time' : UInt32) : bucket (lookup.put time.toNat b) time' =
      if time' = time then b else bucket lookup time' := by
  unfold bucket
  rw [SortedMap.find_put]
  by_cases htime : time' = time
  · rw [if_pos (congrArg UInt32.toNat htime), if_pos htime]
    rfl
  · rw [if_neg (mt UInt32.toNat_inj.1 htime), if_neg htime]

theorem introduced_addAt {P : LBMPlatform} : Introduced (addAt P lookup time d) d' time' ↔
    Introduced lookup d' time' ∨ (d' = d ∧ time' = time) := by
  unfold Introduced addAt
  rw [bucket_put]
  by_cases htime : time' = time
  · subst htime
    rw [if_pos rfl]
    change d' ∈ (bucket lookup time').lbmList ++ [d] ↔ _
    rw [List.mem_append, List.mem_singleton, and_iff_left rfl]
  · rw [if_neg htime]
    exact (or_iff_left fun h => htime h.2).symm

theorem introduced_touch : Introduced (touch lookup time) d' time' ↔ Introduced lookup d' time' := by
  unfold Introduced touch
  rw [bucket_put]
  by_cases htime : time' = time
  · rw [if_pos htime, htime]
  · rw [if_neg htime]

theorem isEmptyAt_iff : isEmptyAt lookup time = true ↔ ∀ d, ¬ Introduced lookup d time := by
  rw [isEmptyAt, List.isEmpty_iff, List.eq_nil_iff_forall_not_mem]
  exact Iff.rfl

/-- An empty entry may go. -/
theorem introduced_erase (hempty : isEmptyAt lookup time = true) :
    Introduced (lookup.erase time.toNat) d' time' ↔ Introduced lookup d' time' := by
  by_cases htime : time' = time
  · subst htime
    refine iff_of_false ?_ (isEmptyAt_iff.1 hempty d')
    unfold Introduced bucket
    rw [SortedMap.find_erase, if_pos rfl]
    exact List.not_mem_nil
  · unfold Introduced bucket
    rw [SortedMap.find_erase, if_neg (mt UInt32.toNat_inj.1 htime)]

theorem introduced_empty : ¬ Introduced .empty d time :=
  List.not_mem_nil

/-- The keys are times of 32 bits. -/
def Keyed (lookup : LBMLookupMap) : Prop :=
  ∀ n b, lookup.find n = some b → n < 2 ^ 32

theorem Keyed.put (h : Keyed lookup) (time : UInt32) (b : LBMContentMapping) :
    Keyed (lookup.put time.toNat b) := by
  intro n b' hfind
  rw [SortedMap.find_put] at hfind
  split at hfind
  · rename_i hn
    rw [hn]
    exact time.toNat_lt
  · exact h n b' hfind

theorem Keyed.erase (h : Keyed lookup) (n : ℕ) : Keyed (lookup.erase n) := by
  intro n' b hfind
  rw [SortedMap.find_erase] at hfind
  split at hfind
  · cases hfind
  · exact h n' b hfind

/-! ## The two loops -/

/-- The first loop gives `d` the time. -/
def Gets (m : LBMManager) (now : UInt32) (l : List (Sigma fun _ : Bytes => UInt32))
    (d : LoadingBlockModifierDef) (time : UInt32) : Prop :=
  m.Has d ∧ d.runAtEveryLoad = false ∧ ⟨d.name, time⟩ ∈ l ∧ ¬ now < time

variable {l : List (LoadingBlockModifierDef × ℕ)} {known : AList fun _ : Bytes => UInt32}
  (P : LBMPlatform)

/-- A round of the first loop does nothing, or a modifier gets its time and is registered no more. -/
theorem introduce_cases (m : LBMManager) (now : UInt32) (entry : Sigma fun _ : Bytes => UInt32) :
    (introduce P now m entry = m ∧ ∀ d time, ¬ Gets m now [entry] d time) ∨
      ∃ d, m.lbmDefs.lookup entry.1 = some d ∧ d.runAtEveryLoad = false ∧ ¬ now < entry.2 ∧
        introduce P now m entry = { m with
          lbmLookup := addAt P m.lbmLookup entry.2 d
          lbmDefs := m.lbmDefs.erase entry.1 } := by
  unfold introduce
  have hentry : ∀ d time, Gets m now [entry] d time →
      m.lbmDefs.lookup entry.1 = some d ∧ d.runAtEveryLoad = false ∧ ¬ now < entry.2 := by
    rintro d time ⟨hd, heach, hmem, hpast⟩
    have heq := List.mem_singleton.1 hmem
    subst heq
    exact ⟨hd, heach, hpast⟩
  cases hlookup : m.lbmDefs.lookup entry.1 with
  | none =>
    refine .inl ⟨rfl, fun d time hgets => ?_⟩
    rw [(hentry d time hgets).1] at hlookup
    cases hlookup
  | some d =>
    dsimp only
    split
    · rename_i hevery
      refine .inl ⟨rfl, fun d' time hgets => ?_⟩
      rcases hentry d' time hgets with ⟨hd', heach, -⟩
      cases hlookup.symm.trans hd'
      rw [hevery] at heach
      cases heach
    · rename_i heach
      split
      · rename_i hfuture
        exact .inl ⟨rfl, fun d' time hgets => (hentry d' time hgets).2.2 hfuture⟩
      · rename_i hpast
        exact .inr ⟨d, rfl, Bool.eq_false_iff.2 heach, hpast, rfl⟩

theorem gets_cons {l : List (Sigma fun _ : Bytes => UInt32)}
    {entry : Sigma fun _ : Bytes => UInt32} : Gets m now (entry :: l) d time ↔
      Gets m now [entry] d time ∨ Gets m now l d time := by
  unfold Gets
  rw [List.mem_cons, List.mem_singleton]
  constructor
  · rintro ⟨hd, heach, hfirst | hrest, hpast⟩
    · exact .inl ⟨hd, heach, hfirst, hpast⟩
    · exact .inr ⟨hd, heach, hrest, hpast⟩
  · rintro (⟨hd, heach, hfirst, hpast⟩ | ⟨hd, heach, hrest, hpast⟩)
    · exact ⟨hd, heach, .inl hfirst, hpast⟩
    · exact ⟨hd, heach, .inr hrest, hpast⟩

/-- After the first loop a modifier stands under its time, or it is still registered. -/
theorem foldl_introduce (now : UInt32) (l : List (Sigma fun _ : Bytes => UInt32))
    (hnodup : (l.map Sigma.fst).Nodup) (m : LBMManager)
    (hnamed : ∀ name d, m.lbmDefs.lookup name = some d → d.name = name) :
    (∀ d time, Introduced (l.foldl (introduce P now) m).lbmLookup d time ↔
        Introduced m.lbmLookup d time ∨ Gets m now l d time) ∧
      (∀ name d, (l.foldl (introduce P now) m).lbmDefs.lookup name = some d ↔
        m.lbmDefs.lookup name = some d ∧ ∀ time, ¬ Gets m now l d time) ∧
      (l.foldl (introduce P now) m).queryMode = m.queryMode ∧
      (Keyed m.lbmLookup → Keyed (l.foldl (introduce P now) m).lbmLookup) := by
  induction l generalizing m with
  | nil =>
    have hnone : ∀ d time, ¬ Gets m now [] d time := fun d time h => absurd h.2.2.1 List.not_mem_nil
    exact ⟨fun d time => (or_iff_left (hnone d time)).symm,
      fun name d => (and_iff_left (hnone d)).symm, rfl, id⟩
  | cons entry l ih =>
    rw [List.map_cons, List.nodup_cons] at hnodup
    rw [List.foldl_cons]
    rcases introduce_cases P m now entry with ⟨heq, hnone⟩ | ⟨d₀, hd₀, heach, hpast, heq⟩
    · rw [heq]
      have hgets : ∀ d time, Gets m now (entry :: l) d time ↔ Gets m now l d time :=
        fun d time => gets_cons.trans (or_iff_right (hnone d time))
      simp only [hgets]
      exact ih hnodup.2 m hnamed
    · rw [heq]
      have hname₀ : d₀.name = entry.1 := hnamed _ _ hd₀
      have hhas : m.Has d₀ := by
        unfold Has
        rw [hname₀]
        exact hd₀
      have hfirst : ∀ d time, Gets m now [entry] d time ↔ d = d₀ ∧ time = entry.2 := by
        intro d time
        constructor
        · rintro ⟨hd, -, hmem, -⟩
          have heq' := List.mem_singleton.1 hmem
          subst heq'
          exact ⟨hd.eq_of_name hhas hname₀.symm, rfl⟩
        · rintro ⟨rfl, rfl⟩
          refine ⟨hhas, heach, List.mem_singleton.2 ?_, hpast⟩
          rw [hname₀]
      -- a name occurs once, so the one that is erased gets nothing more
      have hrest : ∀ d time, Gets { m with
          lbmLookup := addAt P m.lbmLookup entry.2 d₀
          lbmDefs := m.lbmDefs.erase entry.1 } now l d time ↔ Gets m now l d time := by
        intro d time
        unfold Gets Has
        refine and_congr_left fun h => ?_
        have hne : d.name ≠ entry.1 := by
          intro hsame
          refine hnodup.1 (List.mem_map.2 ⟨_, h.2.1, hsame⟩)
        dsimp only
        rw [AList.lookup_erase_ne hne]
      have hgets : ∀ d time, Gets m now (entry :: l) d time ↔
          (d = d₀ ∧ time = entry.2) ∨ Gets m now l d time :=
        fun d time => gets_cons.trans (or_congr_left (hfirst d time))
      have hnamed' : ∀ name d, (m.lbmDefs.erase entry.1).lookup name = some d → d.name = name := by
        intro name d h
        by_cases hname : name = entry.1
        · rw [hname, AList.lookup_erase] at h
          cases h
        · rw [AList.lookup_erase_ne hname] at h
          exact hnamed name d h
      rcases ih hnodup.2 { m with
          lbmLookup := addAt P m.lbmLookup entry.2 d₀
          lbmDefs := m.lbmDefs.erase entry.1 } hnamed' with ⟨htimes, hdefs, hmode, hkeyed⟩
      refine ⟨fun d time => ?_, fun name d => ?_, hmode, fun h => hkeyed (h.put _ _)⟩
      · rw [htimes, hrest, introduced_addAt, hgets, or_assoc]
      · rw [hdefs]
        simp only [hrest, hgets]
        by_cases hname : name = entry.1
        · rw [hname, AList.lookup_erase]
          refine iff_of_false (fun h => by cases h.1) fun h => ?_
          cases hd₀.symm.trans h.1
          exact h.2 entry.2 (.inl ⟨rfl, rfl⟩)
        · rw [AList.lookup_erase_ne hname]
          refine and_congr_right fun hd => forall_congr' fun time => not_congr ?_
          refine (or_iff_right ?_).symm
          rintro ⟨rfl, -⟩
          exact hname ((hnamed name d hd).symm.trans hname₀)

theorem foldl_addRest (now : UInt32) (l : List (Sigma fun _ : Bytes => LoadingBlockModifierDef))
    (lookup : LBMLookupMap) :
    (∀ d time, Introduced (l.foldl (addRest P now) lookup) d time ↔ Introduced lookup d time ∨
        ((∃ name, ⟨name, d⟩ ∈ l) ∧ time = if d.runAtEveryLoad then everyLoad else now)) ∧
      (Keyed lookup → Keyed (l.foldl (addRest P now) lookup)) := by
  induction l generalizing lookup with
  | nil =>
    refine ⟨fun d time => (or_iff_left ?_).symm, id⟩
    rintro ⟨⟨name, hmem⟩, -⟩
    cases hmem
  | cons entry l ih =>
    rw [List.foldl_cons]
    rcases ih (addRest P now lookup entry) with ⟨htimes, hkeyed⟩
    refine ⟨fun d time => ?_, fun h => hkeyed (h.put _ _)⟩
    rw [htimes, addRest, introduced_addAt, or_assoc]
    refine or_congr_right ?_
    constructor
    · rintro (⟨rfl, rfl⟩ | ⟨⟨name, hmem⟩, rfl⟩)
      · exact ⟨⟨entry.1, List.mem_cons_self⟩, rfl⟩
      · exact ⟨⟨name, List.mem_cons_of_mem _ hmem⟩, rfl⟩
    · rintro ⟨⟨name, hmem⟩, rfl⟩
      rcases List.mem_cons.1 hmem with rfl | hmem
      · exact .inl ⟨rfl, rfl⟩
      · exact .inr ⟨⟨name, hmem⟩, rfl⟩

theorem dropEmpty_cases (now : UInt32) (lookup : LBMLookupMap) :
    (dropEmpty now lookup = .error .undefined ∧ now = everyLoad ∧ ∀ d, ¬ Introduced lookup d now) ∨
      ∃ kept, dropEmpty now lookup = .ok kept ∧
        (∀ d time, Introduced kept d time ↔ Introduced lookup d time) ∧
        (now = everyLoad → ∃ d, Introduced lookup d now) ∧ (Keyed lookup → Keyed kept) := by
  unfold dropEmpty
  split
  · rename_i hempty
    exact .inl ⟨rfl, hempty.2, isEmptyAt_iff.1 hempty.1⟩
  · rename_i hsome
    have hnow : now = everyLoad → ∃ d, Introduced lookup d now := by
      intro heq
      by_contra hnone
      exact hsome ⟨isEmptyAt_iff.2 (not_exists.1 hnone), heq⟩
    have hdrop : ∀ (l : LBMLookupMap) (time : UInt32),
        (∀ d time', Introduced (if isEmptyAt l time then l.erase time.toNat else l) d time' ↔
          Introduced l d time') ∧
        (Keyed l → Keyed (if isEmptyAt l time then l.erase time.toNat else l)) := by
      intro l time
      split
      · rename_i hempty
        exact ⟨fun d time' => introduced_erase hempty, fun h => h.erase _⟩
      · exact ⟨fun d time' => Iff.rfl, id⟩
    refine .inr ⟨_, rfl, fun d time => ?_, hnow, fun h => ?_⟩
    · exact ((hdrop _ everyLoad).1 d time).trans ((hdrop lookup now).1 d time)
    · exact (hdrop _ everyLoad).2 ((hdrop lookup now).2 h)

/-! ## Loading -/

theorem introductionTime_le (heach : d.runAtEveryLoad = false) : introductionTime known now d ≤ now := by
  rw [introductionTime, heach, if_neg Bool.false_ne_true]
  cases known.lookup d.name with
  | none => exact UInt32.le_refl _
  | some time =>
    dsimp only
    split
    · exact UInt32.le_refl _
    · rename_i hpast
      exact UInt32.not_lt.1 hpast

/-- What the two loops have put down together. -/
theorem introduced_iff {l : List (Sigma fun _ : Bytes => UInt32)} (hl : l.Perm known.entries) :
    Gets m now l d time ∨
      ((m.Has d ∧ ∀ time, ¬ Gets m now l d time) ∧
        time = if d.runAtEveryLoad then everyLoad else now) ↔
    m.Has d ∧ time = introductionTime known now d := by
  have hmem : ∀ t, (⟨d.name, t⟩ : Sigma fun _ : Bytes => UInt32) ∈ l ↔
      known.lookup d.name = some t := by
    intro t
    rw [hl.mem_iff]
    exact AList.mem_lookup_iff.symm
  by_cases hhas : m.Has d
  · unfold Gets introductionTime
    simp only [hmem, hhas, true_and]
    cases heach : d.runAtEveryLoad with
    | true => simp
    | false =>
      cases hknown : known.lookup d.name with
      | none => simp
      | some t =>
        by_cases hpast : now < t
        · simp only [hpast]
          grind
        · simp only [hpast]
          grind
  · refine iff_of_false ?_ fun h => hhas h.1
    rintro (h | h)
    · exact hhas h.1
    · exact hhas h.1.1

/-- Every modifier gets its time.  At the last time of all something has to stand there. -/
theorem loadIntroductionTimes_spec (hm : m.Registered) {known : AList fun _ : Bytes => UInt32}
    (hparse : parseIntroductionTimesString P times = .ok known) (now : UInt32) :
    (m.loadIntroductionTimes P times now = .error .undefined ∧ now = everyLoad ∧
        ∀ d, m.Has d → introductionTime known now d ≠ now) ∨
      ∃ new, m.loadIntroductionTimes P times now = .ok new ∧ new.queryMode = true ∧
        Keyed new.lbmLookup ∧
        (∀ d time, Introduced new.lbmLookup d time ↔
          m.Has d ∧ time = introductionTime known now d) ∧
        (now = everyLoad → ∃ d, m.Has d ∧ introductionTime known now d = now) := by
  have hl := P.orderTimes_perm known.entries
  have hnodup : ((P.orderTimes known.entries).map Sigma.fst).Nodup :=
    (hl.map Sigma.fst).nodup_iff.2 known.nodupKeys
  rcases foldl_introduce P now (P.orderTimes known.entries) hnodup { m with queryMode := true }
    (fun name d h => (hm.named name d h).1) with ⟨htimes, hdefs, hmode, hkeyed⟩
  set m₁ := (P.orderTimes known.entries).foldl (introduce P now) { m with queryMode := true }
    with hm₁
  rcases foldl_addRest P now (P.orderDefs m₁.lbmDefs.entries)
    (touch (touch m₁.lbmLookup now) everyLoad) with ⟨hrest, hkeyed'⟩
  set lookup := (P.orderDefs m₁.lbmDefs.entries).foldl (addRest P now)
    (touch (touch m₁.lbmLookup now) everyLoad) with hlookup
  have hentries : ∀ d, (∃ name, (⟨name, d⟩ : Sigma fun _ : Bytes => LoadingBlockModifierDef) ∈
      P.orderDefs m₁.lbmDefs.entries) ↔
      m.Has d ∧ ∀ time, ¬ Gets m now (P.orderTimes known.entries) d time := by
    intro d
    constructor
    · rintro ⟨name, hmem⟩
      rw [(P.orderDefs_perm _).mem_iff] at hmem
      rcases (hdefs name d).1 (AList.mem_lookup_iff.2 hmem) with ⟨hd, hnone⟩
      have hname : d.name = name := (hm.named name d hd).1
      subst hname
      exact ⟨hd, hnone⟩
    · rintro ⟨hd, hnone⟩
      refine ⟨d.name, ?_⟩
      rw [(P.orderDefs_perm _).mem_iff]
      exact AList.mem_lookup_iff.1 ((hdefs d.name d).2 ⟨hd, hnone⟩)
  have hintroduced : ∀ d time, Introduced lookup d time ↔
      m.Has d ∧ time = introductionTime known now d := by
    intro d time
    rw [hrest, introduced_touch, introduced_touch, htimes, hentries]
    rw [show ({ m with queryMode := true } : LBMManager).lbmLookup = .empty from hm.noTimes,
      or_iff_right introduced_empty]
    exact introduced_iff hl
  have hempty : Keyed m.lbmLookup := by
    rw [hm.noTimes]
    intro n b hfind
    cases hfind
  have hload : m.loadIntroductionTimes P times now =
      (dropEmpty now lookup >>= fun lookup => .ok { m₁ with lbmDefs := ∅, lbmLookup := lookup }) := by
    rw [loadIntroductionTimes, hparse]
    rfl
  rw [hload]
  rcases dropEmpty_cases now lookup with ⟨hdrop, hnow, hnone⟩ | ⟨kept, hdrop, hkept, hsome, hkeyed''⟩
  · rw [hdrop]
    refine .inl ⟨rfl, hnow, fun d hd htime => hnone d ?_⟩
    exact (hintroduced d now).2 ⟨hd, htime.symm⟩
  · rw [hdrop]
    refine .inr ⟨_, rfl, hmode, ?_, fun d time => (hkept d time).trans (hintroduced d time),
      fun hnow => ?_⟩
    · exact hkeyed'' (hkeyed' (((hkeyed hempty).put _ _).put _ _))
    · rcases hsome hnow with ⟨d, hd⟩
      rcases (hintroduced d now).1 hd with ⟨hhas, htime⟩
      exact ⟨d, hhas, htime.symm⟩

/-! ## The text -/

/-- What is written with a semicolon behind each entry comes apart again. -/
theorem timesEntries_writes {parts : List Bytes} (h : ∀ part ∈ parts, 59 ∉ part) :
    timesEntries (parts.flatMap fun part => part ++ [59]) = parts := by
  unfold timesEntries
  induction parts with
  | nil => rfl
  | cons part parts ih =>
    rw [List.forall_mem_cons] at h
    rw [List.flatMap_cons, List.append_assoc, List.singleton_append,
      splitOn_cons_of_not_mem h.1, List.dropLast_cons_of_ne_nil (List.splitOn_ne_nil _ _), ih h.2]

theorem parseEntry_writeEntry {n : ℕ} (hname : name ≠ []) (hwave : 126 ∉ name) (hn : n < 2 ^ 32) :
    parseEntry P (writeEntry name n) = .ok (stripColon name, UInt32.ofNat n) := by
  have hdigits : 126 ∉ decimal n := fun hmem =>
    absurd (isDigit_of_mem_decimal hmem) (by decide)
  have hsplit : strSplit (writeEntry name n) 126 = [name, decimal n] := by
    have hjoin : writeEntry name n = [126].intercalate [name, decimal n] := by
      rw [List.intercalate_cons_cons, List.intercalate_singleton, List.append_assoc]
      rfl
    rw [hjoin]
    refine strSplit_intercalate ?_ (List.cons_ne_nil _ _) ?_
    · intro part hpart
      rcases List.mem_cons.1 hpart with rfl | hpart
      · exact hwave
      · rw [List.mem_singleton.1 hpart]
        exact hdigits
    · intro hlast
      exact decimal_ne_nil n (Option.some.inj hlast)
  have hnumber : fromStringU32 P (decimal n) = UInt32.ofNat n := by
    have hextract : ({ rest := decimal n ++ [] } : IStream).extract (2 ^ 32 - 1) =
        (some n, { rest := [], eof := true }) := IStream.extract_decimal (by omega) noDigit_nil
    rw [List.append_nil] at hextract
    rw [fromStringU32, hextract]
    rfl
  rw [parseEntry, hsplit]
  dsimp only
  rw [if_neg hname, hnumber]
  rfl

/-- What the parser puts down for modifiers and their times. -/
def tableOf (l : List (LoadingBlockModifierDef × ℕ)) (known : AList fun _ : Bytes => UInt32) :
    AList fun _ : Bytes => UInt32 :=
  l.foldl (fun known it => known.insert (stripColon it.1.name) (UInt32.ofNat it.2)) known

/-- A name that is found was written, or was there before. -/
theorem lookup_tableOf (h : (tableOf l known).lookup name = some time) :
    (∃ it ∈ l, stripColon it.1.name = name ∧ UInt32.ofNat it.2 = time) ∨
      known.lookup name = some time := by
  induction l generalizing known with
  | nil => exact .inr h
  | cons it l ih =>
    rcases ih h with ⟨it', hit', heq⟩ | hknown
    · exact .inl ⟨it', List.mem_cons_of_mem _ hit', heq⟩
    · by_cases hname : name = stripColon it.1.name
      · subst hname
        rw [AList.lookup_insert] at hknown
        exact .inl ⟨it, List.mem_cons_self, rfl, Option.some.inj hknown⟩
      · rw [AList.lookup_insert_ne hname] at hknown
        exact .inr hknown

/-- A name that is written is found. -/
theorem lookup_tableOf_ne_none (h : (∃ it ∈ l, stripColon it.1.name = name) ∨ known.lookup name ≠ none) :
    (tableOf l known).lookup name ≠ none := by
  induction l generalizing known with
  | nil =>
    rcases h with ⟨it, hit, -⟩ | h
    · cases hit
    · exact h
  | cons it l ih =>
    refine ih ?_
    by_cases hname : name = stripColon it.1.name
    · subst hname
      rw [AList.lookup_insert]
      exact .inr fun h => by cases h
    · rw [AList.lookup_insert_ne hname]
      refine h.imp_left ?_
      rintro ⟨it', hit', hname'⟩
      rcases List.mem_cons.1 hit' with rfl | hit'
      · exact absurd hname'.symm hname
      · exact ⟨it', hit', hname'⟩

theorem foldlM_parseEntry {l : List (LoadingBlockModifierDef × ℕ)}
    (h : ∀ it ∈ l, it.1.name ≠ [] ∧ 126 ∉ it.1.name ∧ it.2 < 2 ^ 32)
    (known : AList fun _ : Bytes => UInt32) :
    (l.map fun it => writeEntry it.1.name it.2).foldlM (fun ret entry => do
      let (name, time) ← parseEntry P entry
      return ret.insert name time) known = Except.ok (tableOf l known) := by
  induction l generalizing known with
  | nil => rfl
  | cons it l ih =>
    rw [List.forall_mem_cons] at h
    rw [List.map_cons, List.foldlM_cons, parseEntry_writeEntry P h.1.1 h.1.2.1 h.1.2.2]
    exact ih h.2 _

/-! ## What is written down -/

theorem mem_stored (hkeyed : Keyed m.lbmLookup) {n : ℕ} : (d, n) ∈ m.stored ↔
    d.runAtEveryLoad = false ∧ ∃ time : UInt32, n = time.toNat ∧ Introduced m.lbmLookup d time := by
  unfold stored
  simp only [List.mem_flatMap, List.mem_map, List.mem_filter, Prod.mk.injEq, Bool.not_eq_true']
  constructor
  · rintro ⟨it, hit, d', ⟨hd', heach⟩, rfl, rfl⟩
    have hfind := SortedMap.mem_entries_iff.1 hit
    have htime : (UInt32.ofNat it.1).toNat = it.1 := UInt32.toNat_ofNat_of_lt' (hkeyed _ _ hfind)
    refine ⟨heach, UInt32.ofNat it.1, htime.symm, ?_⟩
    unfold Introduced bucket
    rw [htime, hfind]
    exact hd'
  · rintro ⟨heach, time, rfl, hd⟩
    unfold Introduced bucket at hd
    cases hfind : m.lbmLookup.find time.toNat with
    | none =>
      rw [hfind] at hd
      cases hd
    | some b =>
      rw [hfind] at hd
      exact ⟨(time.toNat, b), SortedMap.mem_entries_iff.2 hfind, d, ⟨hd, heach⟩, rfl, rfl⟩

/-- What a session has loaded. -/
structure Loaded (m new : LBMManager) (known : AList fun _ : Bytes => UInt32) (now : UInt32) :
    Prop where
  queryMode : new.queryMode = true
  keyed : Keyed new.lbmLookup
  introduced : ∀ d time, Introduced new.lbmLookup d time ↔
    m.Has d ∧ time = introductionTime known now d

/-- A text that is loaded can be parsed. -/
theorem loaded_of_ok (hm : m.Registered) (h : m.loadIntroductionTimes P times now = .ok new) :
    ∃ known, parseIntroductionTimesString P times = .ok known ∧ Loaded m new known now := by
  cases hparse : parseIntroductionTimesString P times with
  | error e =>
    rw [loadIntroductionTimes, hparse] at h
    cases h
  | ok known =>
    rcases loadIntroductionTimes_spec P hm hparse now with ⟨hundefined, -⟩ |
      ⟨new', hnew, hmode, hkeyed, hintroduced, -⟩
    · rw [hundefined] at h
      cases h
    · rw [hnew] at h
      cases h
      exact ⟨known, rfl, hmode, hkeyed, hintroduced⟩

/-- The text of a session is read as a table of what it has. -/
theorem parse_create (hm : m.Registered) {known : AList fun _ : Bytes => UInt32}
    (hold : Loaded m old known before) :
    ∃ written, old.createIntroductionTimesString = .ok written ∧
      timesEntries written = old.stored.map (fun it => writeEntry it.1.name it.2) ∧
      parseIntroductionTimesString P written = .ok (tableOf old.stored ∅) := by
  have hwritten : ∀ it ∈ old.stored, m.Has it.1 ∧ it.2 < 2 ^ 32 := by
    rintro ⟨d, n⟩ hit
    rcases (mem_stored hold.keyed).1 hit with ⟨-, time, rfl, hd⟩
    exact ⟨((hold.introduced d time).1 hd).1, time.toNat_lt⟩
  have hparts : timesEntries ((old.stored.map fun it => writeEntry it.1.name it.2).flatMap
      fun part => part ++ [59]) = old.stored.map fun it => writeEntry it.1.name it.2 := by
    refine timesEntries_writes fun part hpart => ?_
    rcases List.mem_map.1 hpart with ⟨it, hit, rfl⟩
    intro hmem
    rcases List.mem_append.1 hmem with hmem | hmem
    · exact (hm.not_mem (hwritten it hit).1).2 hmem
    · rcases List.mem_cons.1 hmem with hmem | hmem
      · revert hmem
        decide
      · exact absurd (isDigit_of_mem_decimal hmem) (by decide)
  rw [List.flatMap_map] at hparts
  refine ⟨_, ?_, hparts, ?_⟩
  · rw [createIntroductionTimesString, if_pos hold.queryMode]
    rfl
  · rw [parseIntroductionTimesString, hparts]
    refine foldlM_parseEntry P (fun it hit => ?_) ∅
    rcases hwritten it hit with ⟨hhas, htime⟩
    exact ⟨(hm.named _ _ hhas).2.1, (hm.not_mem hhas).1, htime⟩

/-! ## From one session to the next -/

/-- What a session wrote of a modifier whose name has no colon is what the next one reads. -/
theorem lookup_tableOf_stored (hold : Loaded m old known before)
    (hplain : ∀ d, m.Has d → d.runAtEveryLoad = false → d.name.head? ≠ some 58) (hd : m.Has d)
    (heach : d.runAtEveryLoad = false) :
    (tableOf old.stored ∅).lookup d.name = some (introductionTime known before d) := by
  have hstrip : ∀ d, m.Has d → d.runAtEveryLoad = false → stripColon d.name = d.name :=
    fun d hd heach => if_neg (hplain d hd heach)
  have hstored : (d, (introductionTime known before d).toNat) ∈ old.stored :=
    (mem_stored hold.keyed).2 ⟨heach, _, rfl, (hold.introduced d _).2 ⟨hd, rfl⟩⟩
  have hfound : (tableOf old.stored ∅).lookup d.name ≠ none :=
    lookup_tableOf_ne_none (.inl ⟨_, hstored, hstrip d hd heach⟩)
  rcases Option.ne_none_iff_exists'.1 hfound with ⟨time, htime⟩
  rcases lookup_tableOf htime with ⟨⟨d', n⟩, hit, hname, hn⟩ | hnone
  · rcases (mem_stored hold.keyed).1 hit with ⟨heach', time', rfl, hd'⟩
    rcases (hold.introduced d' time').1 hd' with ⟨hhas', htime'⟩
    have hsame : d' = d := hhas'.eq_of_name hd ((hstrip d' hhas' heach').symm.trans hname)
    rw [htime, ← hn, hsame.symm, ← htime', UInt32.ofNat_toNat]
  · rw [AList.lookup_empty] at hnone
    cases hnone

/-- The next session gives every modifier the time it had. -/
theorem reload_keeps (hm : m.Registered) (hsteady : m.Steady now) {known : AList fun _ : Bytes => UInt32}
    (hold : Loaded m old known before) (hle : before ≤ now) :
    ∃ new known', m.reload P old now = .ok new ∧ Loaded m new known' now ∧ SameTimes old new := by
  rcases parse_create P hm hold with ⟨written, hwritten, -, hparse⟩
  have hreload : m.reload P old now = m.loadIntroductionTimes P written now := by
    rw [reload, hwritten]
    rfl
  have hkept : ∀ d, m.Has d → introductionTime (tableOf old.stored ∅) now d =
      introductionTime known before d := by
    intro d hd
    cases heach : d.runAtEveryLoad with
    | true => rw [introductionTime, introductionTime, heach, if_pos rfl, if_pos rfl]
    | false =>
      have hbefore : introductionTime known before d ≤ before := introductionTime_le heach
      by_cases hzero : now = 0
      · -- there is only one time so far
        have hnow : introductionTime (tableOf old.stored ∅) now d ≤ now :=
          introductionTime_le heach
        have hleast : ∀ time : UInt32, time ≤ now → time = 0 := by
          intro time h
          rw [hzero, UInt32.le_iff_toNat_le] at h
          exact UInt32.toNat_inj.1 (Nat.le_zero.1 h)
        rw [hleast _ hnow, hleast _ (UInt32.le_trans hbefore hle)]
      · have hlookup := lookup_tableOf_stored hold (hsteady.plain hzero) hd heach
        rw [introductionTime, heach, if_neg Bool.false_ne_true, hlookup]
        dsimp only
        exact if_neg (UInt32.not_lt.2 (UInt32.le_trans hbefore hle))
  rcases loadIntroductionTimes_spec P hm hparse now with ⟨-, hnow, hnone⟩ |
    ⟨new, hnew, hmode, hkeyed, hintroduced, -⟩
  · rcases hsteady.always hnow with ⟨d, hd, hevery⟩
    refine absurd ?_ (hnone d hd)
    rw [introductionTime, if_pos hevery, hnow]
  · refine ⟨new, _, hreload.trans hnew, ⟨hmode, hkeyed, hintroduced⟩, fun d time => ?_⟩
    rw [hold.introduced, hintroduced]
    refine and_congr_right fun hd => ?_
    rw [hkept d hd]

/-- Nothing that is run at every load is written down. -/
theorem not_stored (P : LBMPlatform) (hm : m.Registered) {known : AList fun _ : Bytes => UInt32}
    (hnew : Loaded m new known now) {written : Bytes}
    (hwritten : new.createIntroductionTimesString = .ok written) (hd : m.Has d)
    (hevery : d.runAtEveryLoad = true) (text : Bytes) :
    d.name ++ 126 :: text ∉ timesEntries written := by
  rcases parse_create P hm hnew with ⟨written', hwritten', hentries, -⟩
  cases hwritten.symm.trans hwritten'
  rw [hentries]
  intro hmem
  rcases List.mem_map.1 hmem with ⟨⟨d', n⟩, hit, heq⟩
  rcases (mem_stored hnew.keyed).1 hit with ⟨heach', time, rfl, hd'⟩
  have hhas' := ((hnew.introduced d' time).1 hd').1
  have hwave : 126 ∉ d.name := (hm.not_mem hd).1
  have hwave' : 126 ∉ d'.name := (hm.not_mem hhas').1
  -- both names end at the first wave
  have hname : d'.name = d.name := by
    have htake := congrArg (List.takeWhile fun b => decide (b ≠ 126)) heq
    rwa [writeEntry, (IStream.takeWhile_ne_append hwave' _).1,
      (IStream.takeWhile_ne_append hwave _).1] at htake
  cases hhas'.eq_of_name hd hname
  rw [hevery] at heach'
  cases heach'

theorem parse_nil : parseIntroductionTimesString P [] = .ok ∅ :=
  rfl

/-- A world begins with all its modifiers. -/
theorem exists_first (hm : m.Registered) :
    ∃ first, m.loadIntroductionTimes P [] 0 = .ok first ∧ Loaded m first ∅ 0 := by
  rcases loadIntroductionTimes_spec P hm (parse_nil P) 0 with ⟨-, hnow, -⟩ |
    ⟨first, hfirst, hmode, hkeyed, hintroduced, -⟩
  · exact absurd hnow (by decide)
  · exact ⟨first, hfirst, hmode, hkeyed, hintroduced⟩

theorem introductionTime_empty (heach : d.runAtEveryLoad = false) :
    introductionTime ∅ now d = now := by
  rw [introductionTime, heach, if_neg Bool.false_ne_true, AList.lookup_empty]

/-- Among the names with a colon in front there is one that does not have another before it. -/
theorem exists_last_colon (hm : m.Registered) (hd : m.Has d) (heach : d.runAtEveryLoad = false)
    (hcolon : d.name.head? = some 58) : ∃ d, m.Has d ∧ d.runAtEveryLoad = false ∧
      d.name.head? = some 58 ∧ ∀ d', m.Has d' → d'.runAtEveryLoad = false →
        d'.name ≠ 58 :: d.name := by
  let names := (m.lbmDefs.keys.toFinset).filter fun name => ∃ d, m.lbmDefs.lookup name = some d ∧
    d.runAtEveryLoad = false ∧ name.head? = some 58
  have hmem : ∀ d, m.Has d → d.runAtEveryLoad = false → d.name.head? = some 58 →
      d.name ∈ names := by
    intro d hd heach hcolon
    refine Finset.mem_filter.2 ⟨List.mem_toFinset.2 ?_, d, hd, heach, hcolon⟩
    exact AList.mem_keys.1 (AList.lookup_isSome.1 (Option.isSome_of_eq_some hd))
  rcases names.exists_max_image List.length ⟨d.name, hmem d hd heach hcolon⟩ with ⟨name, hname, hmax⟩
  rcases (Finset.mem_filter.1 hname).2 with ⟨last, hlast, hlasteach, hlastcolon⟩
  have hlastname : last.name = name := (hm.named _ _ hlast).1
  subst hlastname
  refine ⟨last, hlast, hlasteach, hlastcolon, fun d' hd' heach' heq => ?_⟩
  have hle := hmax d'.name (hmem d' hd' heach' (by rw [heq]; rfl))
  rw [heq, List.length_cons] at hle
  omega

/-- A name that begins with a colon is not read under itself. -/
theorem lookup_tableOf_colon (hold : Loaded m old known before) (hcolon : d.name.head? = some 58)
    (hlast : ∀ d', m.Has d' → d'.runAtEveryLoad = false → d'.name ≠ 58 :: d.name) :
    (tableOf old.stored ∅).lookup d.name = none := by
  by_contra hfound
  rcases Option.ne_none_iff_exists'.1 hfound with ⟨time, htime⟩
  rcases lookup_tableOf htime with ⟨⟨d', n⟩, hit, hname, -⟩ | hnone
  · rcases (mem_stored hold.keyed).1 hit with ⟨heach', time', -, hd'⟩
    have hhas' := ((hold.introduced d' time').1 hd').1
    dsimp only at hname
    unfold stripColon at hname
    split at hname
    · rename_i hcolon'
      refine hlast d' hhas' heach' ?_
      rw [← hname]
      exact (List.cons_head?_tail hcolon').symm
    · rename_i hplain
      rw [hname] at hplain
      exact hplain hcolon
  · rw [AList.lookup_empty] at hnone
    cases hnone

section

variable (hm : m.Registered)
  (hkept : ∀ times before old, before ≤ now → m.loadIntroductionTimes P times before = .ok old → ∃ new, m.reload P old now = .ok new ∧ SameTimes old new)

include hm hkept

/-- A name with a colon in front makes its modifier new. -/
theorem plain_of_kept (hzero : now ≠ 0) (hd : m.Has d) (heach : d.runAtEveryLoad = false) :
    d.name.head? ≠ some 58 := by
  intro hcolon
  rcases exists_last_colon hm hd heach hcolon with ⟨last, hhas, hlasteach, hlastcolon, hlast⟩
  rcases exists_first P hm with ⟨first, hfirst, hloaded⟩
  rcases hkept [] 0 first (UInt32.le_iff_toNat_le.2 (Nat.zero_le _)) hfirst with ⟨new, hnew, hsame⟩
  rcases parse_create P hm hloaded with ⟨written, hwritten, -, hparse⟩
  have hload : m.loadIntroductionTimes P written now = .ok new := by
    rw [← hnew, reload, hwritten]
    rfl
  rcases loaded_of_ok P hm hload with ⟨known, hknown, hagain⟩
  cases hparse.symm.trans hknown
  have hold : Introduced first.lbmLookup last 0 :=
    (hloaded.introduced last 0).2 ⟨hhas, (introductionTime_empty hlasteach).symm⟩
  have htime := ((hagain.introduced last 0).1 ((hsame last 0).1 hold)).2
  rw [introductionTime, hlasteach, if_neg Bool.false_ne_true,
    lookup_tableOf_colon hloaded hlastcolon hlast] at htime
  exact hzero htime.symm

/-- At the last time of all only what is run at every load can stand there. -/
theorem always_of_kept (hnow : now = everyLoad) : ∃ d, m.Has d ∧ d.runAtEveryLoad = true := by
  rcases exists_first P hm with ⟨first, hfirst, hloaded⟩
  rcases hkept [] 0 first (UInt32.le_iff_toNat_le.2 (Nat.zero_le _)) hfirst with ⟨new, hnew, hsame⟩
  rcases parse_create P hm hloaded with ⟨written, hwritten, -, hparse⟩
  have hload : m.loadIntroductionTimes P written now = .ok new := by
    rw [← hnew, reload, hwritten]
    rfl
  rcases loadIntroductionTimes_spec P hm hparse now with ⟨hundefined, -⟩ |
    ⟨new', hnew', -, -, hintroduced, hsome⟩
  · rw [hundefined] at hload
    cases hload
  · rw [hnew'] at hload
    cases hload
    rcases hsome hnow with ⟨d, hd, htime⟩
    refine ⟨d, hd, ?_⟩
    by_contra hnot
    have heach : d.runAtEveryLoad = false := Bool.eq_false_iff.2 hnot
    have hold : Introduced first.lbmLookup d 0 :=
      (hloaded.introduced d 0).2 ⟨hd, (introductionTime_empty heach).symm⟩
    have hzero := ((hintroduced d 0).1 ((hsame d 0).1 hold)).2
    rw [htime, hnow] at hzero
    revert hzero
    decide

end

/-- The times persist unless a name is registered with a colon in front, or the world has come to
the last time of all with nothing to stand there. -/
theorem persistent_iff (P : LBMPlatform) (h : addLBMDefs ds = .ok m) (now : UInt32) :
    Persistent P m now ↔ m.Steady now := by
  have hm := registered_addLBMDefs h
  constructor
  · intro hpersistent
    have hkept : ∀ times before old, before ≤ now →
        m.loadIntroductionTimes P times before = .ok old →
        ∃ new, m.reload P old now = .ok new ∧ SameTimes old new := by
      intro times before old hle hold
      rcases hpersistent.kept times before old hle hold with ⟨new, hnew, hsame, -⟩
      exact ⟨new, hnew, hsame⟩
    exact ⟨fun hzero d hd heach => plain_of_kept P hm hkept hzero hd heach,
      fun hnow => always_of_kept P hm hkept hnow⟩
  · intro hsteady
    refine ⟨fun times before old hle hold => ?_, fun times known new hparse hnew d hd heach hnone => ?_,
      fun times new written hnew hwritten d hd hevery text => ?_⟩
    · rcases loaded_of_ok P hm hold with ⟨known, -, hloaded⟩
      rcases reload_keeps P hm hsteady hloaded hle with ⟨new, known', hnew, hloaded', hsame⟩
      rcases reload_keeps P hm hsteady hloaded' (UInt32.le_refl now) with
        ⟨again, -, hagain, -, hsame'⟩
      exact ⟨new, hnew, hsame, again, hagain, hsame'⟩
    · rcases loaded_of_ok P hm hnew with ⟨known', hparse', hloaded⟩
      cases hparse.symm.trans hparse'
      refine (hloaded.introduced d now).2 ⟨hd, ?_⟩
      rw [introductionTime, heach, if_neg Bool.false_ne_true, hnone]
    · rcases loaded_of_ok P hm hnew with ⟨known, -, hloaded⟩
      exact not_stored P hm hloaded hwritten hd hevery text

end

/-! ## Two colons -/

/-- Nothing is looked up, and tables are gone through as they are. -/
def plainPlatform : LBMPlatform where
  getIds := fun _ => []
  unset := 0
  orderTimes := id
  orderTimes_perm := fun _ => List.Perm.refl _
  orderDefs := id
  orderDefs_perm := fun _ => List.Perm.refl _

/-- The colons of a script that does not give its own name. -/
def twoColons : List LoadingBlockModifierDef :=
  [{ name := ascii "::grow" }]

def oneColon : List LoadingBlockModifierDef :=
  [{ name := ascii ":mod:grow" }, { name := ascii "mod:always", runAtEveryLoad := true }]

theorem oneColon_persistent_iff :
    ∃ m, addLBMDefs oneColon = .ok m ∧ (Persistent plainPlatform m 100 ↔ m.Steady 100) := by
  have hregistered : ∃ m, addLBMDefs oneColon = .ok m := ⟨_, rfl⟩
  rcases hregistered with ⟨m, hm⟩
  exact ⟨m, hm, persistent_iff plainPlatform hm 100⟩

/-- Introduced at 5, and again at 9. -/
theorem twoColons_not_persistent :
    ∃ m, addLBMDefs twoColons = .ok m ∧ ¬ Persistent plainPlatform m 9 := by
  refine ⟨_, rfl, fun hpersistent => ?_⟩
  rcases hpersistent.kept [] 5 _ (by decide) rfl with ⟨new, hnew, hsame, -⟩
  have hfirst := (hsame { name := ascii ":grow" } 5).1 (by unfold Introduced; decide +kernel)
  cases hnew
  revert hfirst
  unfold Introduced
  decide +kernel

end LBMManager

end Abm
end AxisEngine
