import AxisEngine.Lib.Multimap
import AxisEngine.Lib.Transition
import AxisEngine.Util.V3s16
import Mathlib.Data.Rat.Defs
import Mathlib.Tactic.Linarith
import Mathlib.Tactic.Ring

/-!
# NodeTimers — the timers of a block while it is loaded

`nodetimer.h`, `nodetimer.cpp`: the timers by the time at which they elapse, where they are by
position, and the time at which the first one elapses, where `-1` stands for none.  Times are exact
here.

* `NodeTimerList` — the two indexes, the next time and the clock;
* `Timers` — what the timers are for: what is set grows older, and elapses when it is due;
* `Consistent` — the indexes have the same timers, and the next time is right;
* `runs_consistent` — so it is while nothing is set to elapse at the time `-1`.
-/

namespace AxisEngine
namespace Map
namespace Running

open Lib

structure NodeTimer where
  timeout : ℚ := 0
  elapsed : ℚ := 0
  position : V3s16 := ⟨0, 0, 0⟩
deriving DecidableEq

/-! ## The list of a block -/

/-- `m_timers`, `m_iterators`, `m_next_trigger_time` and `m_time`. -/
structure NodeTimerList where
  timers : Multimap ℚ NodeTimer := .empty
  iterators : V3s16 → Option ℕ := fun _ => none
  nextTriggerTime : ℚ := -1
  time : ℚ := 0

namespace NodeTimerList

variable (l : NodeTimerList) (p : V3s16) (t : NodeTimer)

def get : NodeTimer :=
  match (l.iterators p).bind l.timers.find with
  | none => {}
  | some n => { n.value with elapsed := n.value.timeout - (n.key - l.time) }

def remove : NodeTimerList :=
  match l.iterators p with
  | none => l
  | some i =>
    let timers := l.timers.erase i
    { l with
      timers
      iterators := Function.update l.iterators p none
      nextTriggerTime :=
        if (l.timers.find i).map MultimapEntry.key = some l.nextTriggerTime then
          timers.first.getD (-1)
        else l.nextTriggerTime }

def insert : NodeTimerList :=
  let triggerTime := l.time + (t.timeout - t.elapsed)
  { l with
    timers := l.timers.emplace triggerTime t
    iterators := Function.update l.iterators t.position (some l.timers.next)
    nextTriggerTime :=
      if l.nextTriggerTime = -1 ∨ triggerTime < l.nextTriggerTime then triggerTime
      else l.nextTriggerTime }

def set : NodeTimerList := (l.remove t.position).insert t

def clear : NodeTimerList :=
  { l with
    timers := l.timers.clear
    iterators := fun _ => none
    nextTriggerTime := -1 }

/-- The timers that have elapsed, and the list without them. -/
def step (dtime : ℚ) : List NodeTimer × NodeTimerList :=
  let l := { l with time := l.time + dtime }
  if l.nextTriggerTime = -1 ∨ l.time < l.nextTriggerTime then ([], l)
  else
    let elapsed := l.timers.upTo l.time
    let timers := l.timers.dropTo l.time
    (elapsed.map fun e => { e.value with elapsed := e.value.timeout + (l.time - e.key) },
      { l with
        timers
        iterators := fun p =>
          if p ∈ elapsed.map fun e => e.value.position then none else l.iterators p
        nextTriggerTime := timers.first.getD (-1) })

end NodeTimerList

inductive TimerOp
  | set (t : NodeTimer)
  | remove (p : V3s16)
  | get (p : V3s16)
  | clear
  | step (dtime : ℚ)

/-- What a call returns. -/
inductive TimerOutput
  | done
  | timer (t : NodeTimer)
  | elapsed (ts : List NodeTimer)

def NodeTimerList.exec (l : NodeTimerList) : TimerOp → NodeTimerList × TimerOutput
  | .set t => (l.set t, .done)
  | .remove p => (l.remove p, .done)
  | .get p => (l, .timer (l.get p))
  | .clear => (l.clear, .done)
  | .step dtime => ((l.step dtime).2, .elapsed (l.step dtime).1)

def NodeTimerList.Does (l : NodeTimerList) (a : TimerOp × TimerOutput) (l' : NodeTimerList) : Prop :=
  l.exec a.1 = (l', a.2)

/-! ## What timers are for -/

/-- How long a timer runs, and for how long it has. -/
structure Age where
  timeout : ℚ
  elapsed : ℚ

/-- The timers that are running. -/
abbrev Timers := V3s16 → Option Age

namespace Timers

def none : Timers := fun _ => Option.none

/-- Every timer is older by `dtime`. -/
def aged (m : Timers) (dtime : ℚ) : Timers := fun p =>
  (m p).map fun a => { a with elapsed := a.elapsed + dtime }

/-- The timer at its position is due. -/
def Due (m : Timers) (t : NodeTimer) : Prop :=
  m t.position = some ⟨t.timeout, t.elapsed⟩ ∧ t.timeout ≤ t.elapsed

def after (m : Timers) : TimerOp → Timers
  | .set t => Function.update m t.position (some ⟨t.timeout, t.elapsed⟩)
  | .remove p => Function.update m p Option.none
  | .get _ => m
  | .clear => none
  | .step dtime => fun p => (m.aged dtime p).filter fun a => decide (a.elapsed < a.timeout)

/-- What a call is to return: a step the timers that are due then, each once. -/
def Answers (m : Timers) : TimerOp → TimerOutput → Prop
  | .set _, out => out = .done
  | .remove _, out => out = .done
  | .get p, out => out = .timer ((m p).elim {} fun a => ⟨a.timeout, a.elapsed, p⟩)
  | .clear, out => out = .done
  | .step dtime, out => ∃ ts, out = .elapsed ts ∧ (ts.map NodeTimer.position).Nodup ∧
      ∀ t, t ∈ ts ↔ (m.aged dtime).Due t

def Does (m : Timers) (a : TimerOp × TimerOutput) (m' : Timers) : Prop :=
  m.Answers a.1 a.2 ∧ m' = m.after a.1

end Timers

/-! ## What holds of the list -/

/-- Both indexes have the same timers, and the next time is the first one, or `-1` just when there is
no timer. -/
structure Consistent (l : NodeTimerList) : Prop where
  iterators : ∀ p i, l.iterators p = some i ↔
    ∃ e ∈ l.timers.entries, e.address = i ∧ e.value.position = p
  first : ∀ e ∈ l.timers.entries, l.nextTriggerTime ≤ e.key
  among : l.timers.entries ≠ [] → ∃ e ∈ l.timers.entries, e.key = l.nextTriggerTime
  none_iff : l.nextTriggerTime = -1 ↔ l.timers.entries = []

/-- The list holds these timers. -/
structure Holds (l : NodeTimerList) (m : Timers) : Prop where
  of_entry : ∀ e ∈ l.timers.entries,
    m e.value.position = some ⟨e.value.timeout, e.value.timeout - (e.key - l.time)⟩
  exists_entry : ∀ p, m p ≠ none → ∃ e ∈ l.timers.entries, e.value.position = p

/-- Nothing is set to elapse at the time `-1`. -/
def Fits (l : NodeTimerList) : TimerOp → Prop
  | .set t => l.time + (t.timeout - t.elapsed) ≠ -1
  | _ => True

/-- What is kept while nothing is set to elapse at the time `-1`. -/
structure Inv (l : NodeTimerList) (m : Timers) : Prop where
  iterators : ∀ p i, l.iterators p = some i ↔
    ∃ e ∈ l.timers.entries, e.address = i ∧ e.value.position = p
  next : l.nextTriggerTime = l.timers.first.getD (-1)
  away : ∀ e ∈ l.timers.entries, e.key ≠ -1
  holds : Holds l m

section

variable {l : NodeTimerList} {m : Timers} {p : V3s16} {t : NodeTimer} {i : ℕ} {k dtime : ℚ}

namespace Inv

theorem next_of_first (h : Inv l m) (hk : l.timers.first = some k) :
    l.nextTriggerTime = k ∧ k ≠ -1 := by
  rcases (Multimap.first_eq_some.1 hk).1 with ⟨e, he, rfl⟩
  refine ⟨?_, h.away e he⟩
  rw [h.next, hk]
  rfl

theorem consistent (h : Inv l m) : Consistent l := by
  cases hfirst : l.timers.first with
  | none =>
    have hempty := Multimap.first_eq_none.1 hfirst
    refine ⟨h.iterators, fun e he => ?_, fun hne => absurd hempty hne, fun _ => hempty, fun _ => ?_⟩
    · rw [hempty] at he
      exact absurd he List.not_mem_nil
    · rw [h.next, hfirst]
      rfl
  | some k =>
    rcases h.next_of_first hfirst with ⟨hnext, hne⟩
    rcases Multimap.first_eq_some.1 hfirst with ⟨⟨e, he, hkey⟩, hleast⟩
    refine ⟨h.iterators, fun e' he' => hnext ▸ hleast e' he', fun _ => ⟨e, he, hkey.trans hnext.symm⟩,
      fun hnone => absurd (hnext.symm.trans hnone) hne, fun hempty => ?_⟩
    rw [hempty] at he
    exact absurd he List.not_mem_nil

/-- A position has one timer. -/
theorem eq_of_position (h : Inv l m) {e e' : MultimapEntry ℚ NodeTimer} (he : e ∈ l.timers.entries)
    (he' : e' ∈ l.timers.entries) (heq : e.value.position = e'.value.position) : e = e' := by
  have haddress := (h.iterators _ _).2 ⟨e, he, rfl, rfl⟩
  have haddress' := (h.iterators _ _).2 ⟨e', he', rfl, heq.symm⟩
  exact Multimap.eq_of_address he he' (Option.some.inj (haddress.symm.trans haddress'))

theorem not_position (h : Inv l m) (hnone : l.iterators p = none) {e : MultimapEntry ℚ NodeTimer}
    (he : e ∈ l.timers.entries) : e.value.position ≠ p := by
  intro hp
  rw [(h.iterators p _).2 ⟨e, he, rfl, hp⟩] at hnone
  cases hnone

end Inv

/-! ## One call -/

theorem inv_new : Inv {} .none where
  iterators p i := by
    refine ⟨fun h => (by cases h), ?_⟩
    rintro ⟨e, he, -⟩
    exact absurd he List.not_mem_nil
  next := rfl
  away e he := absurd he List.not_mem_nil
  holds := ⟨fun e he => absurd he List.not_mem_nil, fun p hp => absurd rfl hp⟩

theorem Inv.get (h : Inv l m) (p : V3s16) :
    l.get p = (m p).elim {} fun a => ⟨a.timeout, a.elapsed, p⟩ := by
  rw [NodeTimerList.get]
  cases hi : l.iterators p with
  | none =>
    have hnone : m p = none := by
      by_contra hsome
      rcases h.holds.exists_entry p hsome with ⟨e, he, hp⟩
      exact h.not_position hi he hp
    rw [hnone]
    rfl
  | some i =>
    rcases (h.iterators p i).1 hi with ⟨e, he, rfl, rfl⟩
    rw [Option.bind_some, Multimap.find_of_mem he, h.holds.of_entry e he]
    rfl

theorem iterators_remove : (l.remove p).iterators p = none := by
  rw [NodeTimerList.remove]
  split
  · rename_i hnone
    exact hnone
  · exact Function.update_self ..

theorem time_remove : (l.remove p).time = l.time := by
  rw [NodeTimerList.remove]
  split <;> rfl

theorem Inv.remove (h : Inv l m) (p : V3s16) :
    Inv (l.remove p) (Function.update m p none) := by
  rw [NodeTimerList.remove]
  cases hi : l.iterators p with
  | none =>
    refine ⟨h.iterators, h.next, h.away, fun e he => ?_, fun q hq => ?_⟩
    · rw [Function.update_of_ne (h.not_position hi he)]
      exact h.holds.of_entry e he
    · refine h.holds.exists_entry q fun hnone => hq ?_
      rw [Function.update_apply, hnone]
      split <;> rfl
  | some i =>
    rcases (h.iterators p i).1 hi with ⟨e, he, rfl, rfl⟩
    have hother : ∀ e' ∈ (l.timers.erase e.address).entries, e'.value.position ≠ e.value.position := by
      intro e' he' heq
      rcases Multimap.mem_erase.1 he' with ⟨hmem, hne⟩
      exact hne (congrArg _ (h.eq_of_position hmem he heq))
    dsimp only
    refine ⟨fun q j => ?_, ?_, fun e' he' => h.away e' (Multimap.mem_erase.1 he').1, fun e' he' => ?_,
      fun q hq => ?_⟩
    · change Function.update l.iterators e.value.position none q = some j ↔ _
      rw [Function.update_apply]
      split
      · rename_i heq
        refine ⟨fun hnever => (by cases hnever), ?_⟩
        rintro ⟨e', he', -, rfl⟩
        exact absurd heq (hother e' he')
      · rename_i hq
        rw [h.iterators q j]
        constructor
        · rintro ⟨e', he', rfl, rfl⟩
          refine ⟨e', Multimap.mem_erase.2 ⟨he', fun heq => hq ?_⟩, rfl, rfl⟩
          rw [Multimap.eq_of_address he' he heq]
        · rintro ⟨e', he', haddress, hp⟩
          exact ⟨e', (Multimap.mem_erase.1 he').1, haddress, hp⟩
    · dsimp only
      rw [Multimap.find_of_mem he]
      split
      · rfl
      · rename_i hkey
        cases hfirst : l.timers.first with
        | none =>
          rw [Multimap.first_eq_none.1 hfirst] at he
          exact absurd he List.not_mem_nil
        | some k =>
          -- The entry that is taken out is not one that elapses first.
          have hnext := (h.next_of_first hfirst).1
          rcases Multimap.first_eq_some.1 hfirst with ⟨⟨e₁, he₁, rfl⟩, hleast⟩
          have hne : e₁.address ≠ e.address := by
            intro heq
            rw [Multimap.eq_of_address he₁ he heq] at hnext
            exact hkey (congrArg some hnext.symm)
          have hstill : (l.timers.erase e.address).first = some e₁.key :=
            Multimap.first_eq_some.2 ⟨⟨e₁, Multimap.mem_erase.2 ⟨he₁, hne⟩, rfl⟩,
              fun e' he' => hleast e' (Multimap.mem_erase.1 he').1⟩
          rw [hstill, hnext]
          rfl
    · rw [Function.update_of_ne (hother e' he')]
      exact h.holds.of_entry e' (Multimap.mem_erase.1 he').1
    · have hne : q ≠ e.value.position := by
        rintro rfl
        exact hq (Function.update_self ..)
      rw [Function.update_of_ne hne] at hq
      rcases h.holds.exists_entry q hq with ⟨e', he', rfl⟩
      refine ⟨e', Multimap.mem_erase.2 ⟨he', fun heq => hne ?_⟩, rfl⟩
      rw [Multimap.eq_of_address he' he heq]

theorem Inv.insert (h : Inv l m) (hnew : l.iterators t.position = none)
    (hfits : l.time + (t.timeout - t.elapsed) ≠ -1) :
    Inv (l.insert t) (Function.update m t.position (some ⟨t.timeout, t.elapsed⟩)) := by
  refine ⟨fun q j => ?_, ?_, fun e he => ?_, fun e he => ?_, fun q hq => ?_⟩
  · change Function.update l.iterators t.position (some l.timers.next) q = some j ↔ _
    rw [Function.update_apply]
    split
    · rename_i heq
      rw [Option.some.injEq]
      constructor
      · rintro rfl
        exact ⟨_, Multimap.mem_emplace.2 (.inl rfl), rfl, heq.symm⟩
      · rintro ⟨e, he, rfl, hp⟩
        rcases Multimap.mem_emplace.1 he with rfl | he
        · rfl
        · exact absurd (hp.trans heq) (h.not_position hnew he)
    · rename_i hne
      rw [h.iterators q j]
      constructor
      · rintro ⟨e, he, haddress, hp⟩
        exact ⟨e, Multimap.mem_emplace.2 (.inr he), haddress, hp⟩
      · rintro ⟨e, he, haddress, hp⟩
        rcases Multimap.mem_emplace.1 he with rfl | he
        · exact absurd hp.symm hne
        · exact ⟨e, he, haddress, hp⟩
  · rw [NodeTimerList.insert]
    dsimp only
    cases hfirst : l.timers.first with
    | none =>
      have hempty := Multimap.first_eq_none.1 hfirst
      have hnext : l.nextTriggerTime = -1 := by
        rw [h.next, hfirst]
        rfl
      have honly : (l.timers.emplace (l.time + (t.timeout - t.elapsed)) t).first =
          some (l.time + (t.timeout - t.elapsed)) := by
        refine Multimap.first_eq_some.2 ⟨⟨_, Multimap.mem_emplace.2 (.inl rfl), rfl⟩, fun e he => ?_⟩
        rcases Multimap.mem_emplace.1 he with rfl | he
        · exact le_rfl
        · rw [hempty] at he
          exact absurd he List.not_mem_nil
      rw [if_pos (.inl hnext), honly]
      rfl
    | some k =>
      rcases h.next_of_first hfirst with ⟨hnext, hne⟩
      rcases Multimap.first_eq_some.1 hfirst with ⟨⟨e₁, he₁, hkey⟩, hleast⟩
      rw [hnext]
      split
      · rename_i hearlier
        have hlt := hearlier.resolve_left hne
        have hnewFirst : (l.timers.emplace (l.time + (t.timeout - t.elapsed)) t).first =
            some (l.time + (t.timeout - t.elapsed)) := by
          refine Multimap.first_eq_some.2 ⟨⟨_, Multimap.mem_emplace.2 (.inl rfl), rfl⟩,
            fun e he => ?_⟩
          rcases Multimap.mem_emplace.1 he with rfl | he
          · exact le_rfl
          · exact hlt.le.trans (hleast e he)
        rw [hnewFirst]
        rfl
      · rename_i hlater
        rw [not_or, not_lt] at hlater
        have hstill : (l.timers.emplace (l.time + (t.timeout - t.elapsed)) t).first = some k := by
          refine Multimap.first_eq_some.2 ⟨⟨e₁, Multimap.mem_emplace.2 (.inr he₁), hkey⟩,
            fun e he => ?_⟩
          rcases Multimap.mem_emplace.1 he with rfl | he
          · exact hlater.2
          · exact hleast e he
        rw [hstill]
        rfl
  · rcases Multimap.mem_emplace.1 he with rfl | he
    · exact hfits
    · exact h.away e he
  · rcases Multimap.mem_emplace.1 he with rfl | he
    · rw [Function.update_self]
      have helapsed : t.timeout - (l.time + (t.timeout - t.elapsed) - l.time) = t.elapsed := by ring
      exact congrArg (fun x => some (Age.mk t.timeout x)) helapsed.symm
    · rw [Function.update_of_ne (h.not_position hnew he)]
      exact h.holds.of_entry e he
  · by_cases heq : q = t.position
    · exact ⟨_, Multimap.mem_emplace.2 (.inl rfl), heq.symm⟩
    · rw [Function.update_of_ne heq] at hq
      rcases h.holds.exists_entry q hq with ⟨e, he, hp⟩
      exact ⟨e, Multimap.mem_emplace.2 (.inr he), hp⟩

theorem inv_clear (l : NodeTimerList) : Inv l.clear .none where
  iterators p i := by
    refine ⟨fun hi => (by cases hi), ?_⟩
    rintro ⟨e, he, -⟩
    exact absurd he List.not_mem_nil
  next := rfl
  away e he := absurd he List.not_mem_nil
  holds := ⟨fun e he => absurd he List.not_mem_nil, fun p hp => absurd rfl hp⟩

theorem Inv.aged (h : Inv l m) (dtime : ℚ) {e : MultimapEntry ℚ NodeTimer}
    (he : e ∈ l.timers.entries) : m.aged dtime e.value.position =
      some ⟨e.value.timeout, e.value.timeout + (l.time + dtime - e.key)⟩ := by
  rw [Timers.aged, h.holds.of_entry e he]
  have helapsed : e.value.timeout - (e.key - l.time) + dtime =
      e.value.timeout + (l.time + dtime - e.key) := by ring
  exact congrArg (fun x => some (Age.mk e.value.timeout x)) helapsed

/-- A timer runs on just when its time is still to come. -/
theorem Inv.after_step (h : Inv l m) (dtime : ℚ) {e : MultimapEntry ℚ NodeTimer}
    (he : e ∈ l.timers.entries) : m.after (.step dtime) e.value.position =
      if l.time + dtime < e.key then
        some ⟨e.value.timeout, e.value.timeout + (l.time + dtime - e.key)⟩
      else none := by
  change (m.aged dtime e.value.position).filter _ = _
  rw [h.aged dtime he, Option.filter_some]
  have hrun : e.value.timeout + (l.time + dtime - e.key) < e.value.timeout ↔
      l.time + dtime < e.key := by
    constructor
    · intro hlt
      linarith
    · intro hlt
      linarith
  simp only [hrun, decide_eq_true_eq]

/-- What is left are the timers that are still to elapse. -/
theorem Inv.holds_after (h : Inv l m) {l' : NodeTimerList} (htime : l'.time = l.time + dtime)
    (hentries : ∀ e, e ∈ l'.timers.entries ↔ e ∈ l.timers.entries ∧ l.time + dtime < e.key) :
    Holds l' (m.after (.step dtime)) := by
  constructor
  · intro e he
    rcases (hentries e).1 he with ⟨hmem, hlt⟩
    rw [h.after_step dtime hmem, if_pos hlt, htime]
    have helapsed : e.value.timeout + (l.time + dtime - e.key) =
        e.value.timeout - (e.key - (l.time + dtime)) := by ring
    rw [helapsed]
  · intro p hp
    have hsome : m p ≠ none := by
      intro hnone
      refine hp ?_
      change (Option.map _ (m p)).filter _ = none
      rw [hnone]
      rfl
    rcases h.holds.exists_entry p hsome with ⟨e, he, rfl⟩
    rw [h.after_step dtime he] at hp
    split at hp
    · rename_i hlt
      exact ⟨e, (hentries e).2 ⟨he, hlt⟩, rfl⟩
    · exact absurd rfl hp

/-- The timers that are due are those whose time has come. -/
theorem Inv.due_iff (h : Inv l m) :
    (m.aged dtime).Due t ↔ ∃ e ∈ l.timers.entries, e.key ≤ l.time + dtime ∧
      { e.value with elapsed := e.value.timeout + (l.time + dtime - e.key) } = t := by
  constructor
  · rintro ⟨hage, hdue⟩
    have hsome : m t.position ≠ none := by
      intro hnone
      rw [Timers.aged, hnone] at hage
      cases hage
    rcases h.holds.exists_entry _ hsome with ⟨e, he, hp⟩
    have hsame := (h.aged dtime he).symm.trans (hp ▸ hage)
    rw [Option.some.injEq, Age.mk.injEq] at hsame
    rcases hsame with ⟨htimeout, helapsed⟩
    refine ⟨e, he, by linarith, ?_⟩
    rcases t with ⟨timeout, elapsed, position⟩
    rw [NodeTimer.mk.injEq]
    exact ⟨htimeout, helapsed, hp⟩
  · rintro ⟨e, he, hkey, rfl⟩
    refine ⟨h.aged dtime he, ?_⟩
    dsimp only
    linarith

/-- What is due elapses, each timer once and as old as it is then. -/
theorem Inv.step (h : Inv l m) (dtime : ℚ) :
    Inv (l.step dtime).2 (m.after (.step dtime)) ∧
      m.Answers (.step dtime) (.elapsed (l.step dtime).1) := by
  rw [NodeTimerList.step]
  dsimp only
  split
  · rename_i hearly
    have hlater : ∀ e ∈ l.timers.entries, l.time + dtime < e.key := by
      intro e he
      rcases hearly with hnone | hlt
      · rw [h.consistent.none_iff.1 hnone] at he
        exact absurd he List.not_mem_nil
      · exact hlt.trans_le (h.consistent.first e he)
    refine ⟨⟨h.iterators, h.next, h.away, h.holds_after rfl fun e =>
      ⟨fun he => ⟨he, hlater e he⟩, And.left⟩⟩, [], rfl, List.nodup_nil, fun t => ?_⟩
    rw [h.due_iff]
    refine ⟨fun ht => absurd ht List.not_mem_nil, ?_⟩
    rintro ⟨e, he, hkey, -⟩
    exact absurd hkey (not_le.2 (hlater e he))
  · refine ⟨⟨fun p i => ?_, rfl, fun e he => h.away e (Multimap.mem_dropTo.1 he).1,
      h.holds_after rfl fun e => Multimap.mem_dropTo⟩, _, rfl, ?_, fun t => ?_⟩
    · dsimp only
      split
      · rename_i hgone
        rcases List.mem_map.1 hgone with ⟨e, he, rfl⟩
        rcases Multimap.mem_upTo.1 he with ⟨hmem, hle⟩
        refine ⟨fun hnever => (by cases hnever), ?_⟩
        rintro ⟨e', he', -, hp⟩
        rcases Multimap.mem_dropTo.1 he' with ⟨hmem', hlt⟩
        rw [h.eq_of_position hmem' hmem hp] at hlt
        exact absurd hle (not_le.2 hlt)
      · rename_i hstays
        rw [h.iterators p i]
        constructor
        · rintro ⟨e, he, haddress, rfl⟩
          refine ⟨e, Multimap.mem_dropTo.2 ⟨he, ?_⟩, haddress, rfl⟩
          by_contra hdue
          exact hstays (List.mem_map.2 ⟨e, Multimap.mem_upTo.2 ⟨he, not_lt.1 hdue⟩, rfl⟩)
        · rintro ⟨e, he, haddress, hp⟩
          exact ⟨e, (Multimap.mem_dropTo.1 he).1, haddress, hp⟩
    · rw [List.map_map]
      refine List.Nodup.map_on (fun e he e' he' heq => ?_) (List.Nodup.of_map _ Multimap.nodup_upTo)
      exact h.eq_of_position (Multimap.mem_upTo.1 he).1 (Multimap.mem_upTo.1 he').1 heq
    · rw [h.due_iff, List.mem_map]
      constructor
      · rintro ⟨e, he, rfl⟩
        exact ⟨e, (Multimap.mem_upTo.1 he).1, (Multimap.mem_upTo.1 he).2, rfl⟩
      · rintro ⟨e, he, hkey, rfl⟩
        exact ⟨e, Multimap.mem_upTo.2 ⟨he, hkey⟩, rfl⟩

/-! ## Any sequence of calls -/

/-- One call that fits does what the timers are for. -/
theorem Inv.does (h : Inv l m) {a : TimerOp × TimerOutput} {l' : NodeTimerList}
    (hfits : Fits l a.1) (hstep : l.Does a l') : ∃ m', Timers.Does m a m' ∧ Inv l' m' := by
  rcases a with ⟨op, out⟩
  rw [NodeTimerList.Does] at hstep
  refine ⟨m.after op, ⟨?_, rfl⟩, ?_⟩
  · cases op with
    | set t =>
      cases hstep
      rfl
    | remove p =>
      cases hstep
      rfl
    | get p =>
      cases hstep
      exact congrArg TimerOutput.timer (h.get p)
    | clear =>
      cases hstep
      rfl
    | step dtime =>
      cases hstep
      exact (h.step dtime).2
  · cases op with
    | set t =>
      cases hstep
      have hset := Inv.insert (t := t) (h.remove t.position) iterators_remove (by
        rw [time_remove]
        exact hfits)
      rwa [Function.update_idem] at hset
    | remove p =>
      cases hstep
      exact h.remove p
    | get p =>
      cases hstep
      exact h
    | clear =>
      cases hstep
      exact inv_clear l
    | step dtime =>
      cases hstep
      exact (h.step dtime).1

theorem Inv.run {as : List (TimerOp × TimerOutput)} {l' : NodeTimerList} (h : Inv l m)
    (hrun : Run.Guarded (fun l a => Fits l a.1) NodeTimerList.Does l as l') :
    ∃ m', Run Timers.Does m as m' ∧ Inv l' m' := by
  induction hrun generalizing m with
  | nil l => exact ⟨m, .nil m, h⟩
  | cons hstep _ ih =>
    rcases h.does hstep.1 hstep.2 with ⟨m₁, hdoes, h₁⟩
    rcases ih h₁ with ⟨m', hrest, h'⟩
    exact ⟨m', .cons hdoes hrest, h'⟩

end

/-- While nothing is set to elapse at the time `-1`, both indexes have the same timers, the next time
is right, and the calls return what the timers are for. -/
theorem runs_consistent : ∀ (as : List (TimerOp × TimerOutput)) (l : NodeTimerList),
    Run.Guarded (fun l a => Fits l a.1) NodeTimerList.Does {} as l →
      Consistent l ∧ ∃ m, Run Timers.Does .none as m ∧ Holds l m := by
  intro as l hrun
  rcases inv_new.run hrun with ⟨m, hdoes, h⟩
  exact ⟨h.consistent, m, hdoes, h.holds⟩

theorem runs_consistent_two :
    Consistent ((({} : NodeTimerList).set { timeout := 1 }).step 2).2 ∧
      ∃ m, Run Timers.Does .none
        [(.set { timeout := 1 }, .done),
          (.step 2, .elapsed ((({} : NodeTimerList).set { timeout := 1 }).step 2).1)] m ∧
        Holds ((({} : NodeTimerList).set { timeout := 1 }).step 2).2 m :=
  runs_consistent _ _ (.cons ⟨by norm_num [Fits], rfl⟩ (.cons ⟨trivial, rfl⟩ (.nil _)))

/-- A timer that is a second over its time when it is set never elapses. -/
theorem overdue_never_elapses :
    ¬ ∀ (as : List (TimerOp × TimerOutput)) (l : NodeTimerList), Run NodeTimerList.Does {} as l →
      Consistent l ∧ ∃ m, Run Timers.Does .none as m ∧ Holds l m := by
  intro h
  have hearly : ((({} : NodeTimerList).set { timeout := 1, elapsed := 2 }).step 1).1 = [] := by
    decide +kernel
  have hrun := h [(.set { timeout := 1, elapsed := 2 }, .done), (.step 1, .elapsed [])] _
    (.cons rfl (.cons (congrArg (fun ts => (_, TimerOutput.elapsed ts)) hearly) (.nil _)))
  rcases hrun with ⟨-, m, hdoes, -⟩
  cases hdoes with
  | cons hset hrest =>
    cases hrest with
    | cons hstep _ =>
      rcases hset with ⟨-, rfl⟩
      rcases hstep.1 with ⟨ts, hts, -, hdue⟩
      cases hts
      have helapsed := (hdue { timeout := 1, elapsed := 2 + 1 }).2 ⟨rfl, by norm_num⟩
      exact absurd helapsed List.not_mem_nil

end Running
end Map
end AxisEngine
