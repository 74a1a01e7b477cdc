import AxisEngine.Mesh.Accounts

/-!
# NewestMesh — in which order the meshes of a position arrive

Results wait in two queues, and `clear` takes the in-flight mark off the positions it drops.  So an urgent
result can overtake an older one of the same position, and two workers can be at one position.

* `Label.Spares` — the steps at which neither happens;
* `newest_of_run` — in runs of such steps the results of a position arrive in the order of their data.
-/

namespace AxisEngine
namespace Mesh

open Lib

/-- The snapshots of a position, as the client has got them or would get them from the queues. -/
def State.line (s : State) (p : V3s16) : List Nat :=
  ((s.handed ++ s.outUrgent ++ s.out).filter fun r => r.p = p).map fun r => r.mesh.snapshot

/-- `clear` drops no update whose position is in flight, an urgent result does not overtake one of its
position, and no result is taken while an urgent one of its position waits. -/
def Label.Spares (s : State) : Label → Prop
  | .main =>
    match s.todo with
    | .clearQueue finish :: _ =>
      ∀ q ∈ s.queue, State.drops finish q.ackList = true → q.p ∉ s.inflight
    | .popOut :: _ => ∀ r rest, s.out = r :: rest → ∀ r' ∈ s.outUrgent, r'.p ≠ r.p
    | _ => True
  | .putResult w => ∀ q data, s.workers[w]? = some (.making q data) → q.urgent = true →
      ∀ r ∈ s.out, r.p ≠ q.p
  | _ => True

/-- One worker for a position, and its mark is set. -/
structure Exclusive (s : State) : Prop where
  marked : ∀ (w : Nat) (x : Worker) (p : V3s16), s.workers[w]? = some x → x.position = some p →
    p ∈ s.inflight
  alone : ∀ (w w' : Nat) (x x' : Worker) (p : V3s16), s.workers[w]? = some x →
    s.workers[w']? = some x' → x.position = some p → x'.position = some p → w = w'

/-- The snapshots of a position are lined up, and those in the making come last. -/
structure Ordered (s : State) : Prop where
  sorted : ∀ p, (s.line p).Pairwise (· < ·)
  last : ∀ (w : Nat) (q : QueuedMeshUpdate) (data : MeshMakeData),
    s.workers[w]? = some (.making q data) → ∀ n ∈ s.line q.p, n < data.snapshot
  results : ∀ r ∈ s.handed ++ s.outUrgent ++ s.out, s.snapshots[r.mesh.snapshot]? = some r.p
  making : ∀ (w : Nat) (q : QueuedMeshUpdate) (data : MeshMakeData),
    s.workers[w]? = some (.making q data) → s.snapshots[data.snapshot]? = some q.p

/-- What these invariants see. -/
structure SameLines (s t : State) : Prop where
  workers : t.workers = s.workers
  inflight : t.inflight = s.inflight
  outUrgent : t.outUrgent = s.outUrgent
  out : t.out = s.out
  handed : t.handed = s.handed
  snapshots : t.snapshots = s.snapshots

structure Newest (s : State) : Prop where
  exclusive : Exclusive s
  ordered : Ordered s

section

variable {cfg : Config} {g : MeshGrid} {s t : State} {a : Label} {p : V3s16} {w : Nat}
variable {q : QueuedMeshUpdate} {data : MeshMakeData} {x : Worker}

theorem Newest.congr (h : Newest s) (hsame : SameLines s t) : Newest t := by
  have hline : ∀ p, t.line p = s.line p := by
    intro p
    rw [State.line, State.line, hsame.handed, hsame.outUrgent, hsame.out]
  refine ⟨⟨?_, ?_⟩, ⟨?_, ?_, ?_, ?_⟩⟩
  · rw [hsame.workers, hsame.inflight]
    exact h.exclusive.marked
  · rw [hsame.workers]
    exact h.exclusive.alone
  · intro p
    rw [hline]
    exact h.ordered.sorted p
  · intro w q data hw
    rw [hline]
    exact h.ordered.last w q data (hsame.workers ▸ hw)
  · rw [hsame.handed, hsame.outUrgent, hsame.out, hsame.snapshots]
    exact h.ordered.results
  · rw [hsame.workers, hsame.snapshots]
    exact h.ordered.making

theorem initial_newest (client : Client) (workers : Nat) : Newest (State.initial client workers) := by
  have hidle : ∀ (w : Nat) (x : Worker),
      (State.initial client workers).workers[w]? = some x → x = .idle := by
    intro w x hw
    exact List.eq_of_mem_replicate (List.mem_of_getElem? hw)
  refine ⟨⟨?_, ?_⟩, ⟨fun _ => List.Pairwise.nil, ?_, ?_, ?_⟩⟩
  · intro w x p hw hp
    rw [hidle w x hw] at hp
    cases hp
  · intro w w' x x' p hw _ hp
    rw [hidle w x hw] at hp
    cases hp
  · intro w q data hw
    cases hidle w _ hw
  · exact fun r hr => absurd hr List.not_mem_nil
  · intro w q data hw
    cases hidle w _ hw

theorem sameLines_addBlock (p : V3s16) (ack urgent fromNeighbor : Bool) :
    SameLines s (s.addBlock g p ack urgent fromNeighbor).2 := by
  rw [State.addBlock]
  split
  · exact ⟨rfl, rfl, rfl, rfl, rfl, rfl⟩
  · dsimp only
    split
    · exact ⟨rfl, rfl, rfl, rfl, rfl, rfl⟩
    · rw [State.place]
      dsimp only
      generalize (fromNeighbor && _) = skipped
      cases skipped <;> exact ⟨rfl, rfl, rfl, rfl, rfl, rfl⟩

/-! ## Workers -/

theorem set_cases {workers : List Worker} {w w' : Nat} {x x' : Worker}
    (h : (workers.set w x')[w']? = some x) :
    (w' = w ∧ x = x') ∨ (w' ≠ w ∧ workers[w']? = some x) := by
  rw [List.getElem?_set] at h
  split at h
  · rename_i heq
    split at h
    · cases h
      exact .inl ⟨heq.symm, rfl⟩
    · cases h
  · rename_i hne
    exact .inr ⟨Ne.symm hne, h⟩

/-- One worker goes on to a position where no other is, and the others keep their marks. -/
theorem Exclusive.set (h : Exclusive s) {y : Worker} (hworkers : t.workers = s.workers.set w y)
    (hkeep : ∀ (w' : Nat) (z : Worker) (p : V3s16), w' ≠ w → s.workers[w']? = some z →
      z.position = some p → p ∈ t.inflight)
    (hnew : ∀ p, y.position = some p → p ∈ t.inflight ∧
      ∀ (w' : Nat) (z : Worker), w' ≠ w → s.workers[w']? = some z → z.position ≠ some p) :
    Exclusive t := by
  constructor
  · intro w₁ x₁ p h₁ hp
    rw [hworkers] at h₁
    rcases set_cases h₁ with ⟨rfl, rfl⟩ | ⟨hne, h₁⟩
    · exact (hnew p hp).1
    · exact hkeep w₁ x₁ p hne h₁ hp
  · intro w₁ w₂ x₁ x₂ p h₁ h₂ hp₁ hp₂
    rw [hworkers] at h₁ h₂
    rcases set_cases h₁ with ⟨rfl, rfl⟩ | ⟨hne₁, hold₁⟩
    · rcases set_cases h₂ with ⟨rfl, rfl⟩ | ⟨hne₂, hold₂⟩
      · rfl
      · exact absurd hp₂ ((hnew p hp₁).2 w₂ x₂ hne₂ hold₂)
    · rcases set_cases h₂ with ⟨rfl, rfl⟩ | ⟨hne₂, hold₂⟩
      · exact absurd hp₁ ((hnew p hp₂).2 w₁ x₁ hne₁ hold₁)
      · exact h.alone w₁ w₂ x₁ x₂ p hold₁ hold₂ hp₁ hp₂

/-- A worker that stays at its position. -/
theorem Exclusive.stay (h : Exclusive s) (hw : s.workers[w]? = some x) {y : Worker}
    (hposition : y.position = x.position) (hworkers : t.workers = s.workers.set w y)
    (hinflight : t.inflight = s.inflight) : Exclusive t := by
  refine h.set hworkers ?_ ?_
  · intro w' z p _ hy hp
    rw [hinflight]
    exact h.marked w' z p hy hp
  · intro p hp
    rw [hposition] at hp
    rw [hinflight]
    exact ⟨h.marked w x p hw hp, fun w' z hne hy hp' => hne (h.alone w' w z x p hy hw hp' hp)⟩

theorem Newest.pop (h : Newest s) (w : Nat) : Newest (s.pop w) := by
  rw [State.pop]
  split
  · exact h
  · rename_i q rest hpop
    rcases popFirst_some hpop with ⟨-, hfree, -⟩
    constructor
    · refine h.exclusive.set (y := .popped q) rfl ?_ ?_
      · intro w' y p _ hy hp
        exact Finset.mem_insert_of_mem (h.exclusive.marked w' y p hy hp)
      · intro p hp
        cases hp
        refine ⟨Finset.mem_insert_self .., ?_⟩
        intro w' y _ hy hp
        exact hfree (h.exclusive.marked w' y _ hy hp)
    · refine ⟨h.ordered.sorted, ?_, h.ordered.results, ?_⟩
      · intro w' q' data hw'
        rcases set_cases hw' with ⟨-, heq⟩ | ⟨-, hw'⟩
        · cases heq
        · exact h.ordered.last w' q' data hw'
      · intro w' q' data hw'
        rcases set_cases hw' with ⟨-, heq⟩ | ⟨-, hw'⟩
        · cases heq
        · exact h.ordered.making w' q' data hw'

theorem mem_line {n : Nat} : n ∈ s.line p ↔
    ∃ r ∈ s.handed ++ s.outUrgent ++ s.out, r.p = p ∧ r.mesh.snapshot = n := by
  simp only [State.line, List.mem_map, List.mem_filter, decide_eq_true_eq, and_assoc]

theorem Ordered.lt_length (h : Ordered s) {n : Nat} (hn : n ∈ s.line p) : n < s.snapshots.length := by
  rcases mem_line.1 hn with ⟨r, hr, -, rfl⟩
  exact (List.getElem?_eq_some_iff.1 (h.results r hr)).1

theorem getElem?_append_of_some {α : Type*} {l : List α} {n : Nat} {a b : α} (h : l[n]? = some a) :
    (l ++ [b])[n]? = some a := by
  rw [List.getElem?_append_left (List.getElem?_eq_some_iff.1 h).1]
  exact h

theorem Newest.snapshot (h : Newest s) (hw : s.workers[w]? = some (.popped q)) :
    Newest (s.snapshot w q) := by
  constructor
  · exact h.exclusive.stay (y := .making q _) hw rfl rfl rfl
  · refine ⟨h.ordered.sorted, ?_, ?_, ?_⟩
    · intro w' q' data hw'
      rcases set_cases hw' with ⟨-, heq⟩ | ⟨-, hw'⟩
      · cases heq
        exact fun n hn => h.ordered.lt_length hn
      · exact h.ordered.last w' q' data hw'
    · exact fun r hr => getElem?_append_of_some (h.ordered.results r hr)
    · intro w' q' data hw'
      rcases set_cases hw' with ⟨-, heq⟩ | ⟨-, hw'⟩
      · cases heq
        exact List.getElem?_concat_length ..
      · exact getElem?_append_of_some (h.ordered.making w' q' data hw')

/-- A result is put behind the others of its position. -/
theorem Newest.putResult (h : Newest s) (hw : s.workers[w]? = some (.making q data))
    (hspares : q.urgent = true → ∀ r ∈ s.out, r.p ≠ q.p) :
    Newest ((s.putResult ⟨q.p, data, q.ackList, q.urgent, q.mapBlocks⟩).setWorker w
      (.finished q.p)) := by
  generalize hr : (⟨q.p, data, q.ackList, q.urgent, q.mapBlocks⟩ : MeshUpdateResult) = r
  have hrp : r.p = q.p := by rw [← hr]
  have hrn : r.mesh.snapshot = data.snapshot := by rw [← hr]
  have hru : r.urgent = q.urgent := by rw [← hr]
  generalize ht : (s.putResult r).setWorker w (.finished q.p) = t
  have hworkers : t.workers = s.workers.set w (.finished q.p) := by
    rw [← ht, State.putResult]
    split <;> rfl
  have hinflight : t.inflight = s.inflight := by
    rw [← ht, State.putResult]
    split <;> rfl
  have hsnapshots : t.snapshots = s.snapshots := by
    rw [← ht, State.putResult]
    split <;> rfl
  have hline : ∀ p, t.line p = if q.p = p then s.line p ++ [data.snapshot] else s.line p := by
    intro p
    rw [← ht, State.putResult, hru]
    by_cases hp : q.p = p
    · have hr' : [r].filter (fun r => r.p = p) = [r] := by simp [hrp, hp]
      rw [if_pos hp]
      split
      · rename_i hurgent
        have hout : s.out.filter (fun r => r.p = p) = [] := by
          refine List.filter_eq_nil_iff.2 fun r' hr' => ?_
          simpa [← hp] using hspares hurgent r' hr'
        simp only [State.line, State.setWorker, List.filter_append, hr', hout, List.map_append,
          List.append_nil, List.append_assoc, List.map_singleton, hrn]
      · simp only [State.line, State.setWorker, List.filter_append, hr', List.map_append,
          List.append_assoc, List.map_singleton, hrn]
    · have hr' : [r].filter (fun r => r.p = p) = [] := by simp [hrp, hp]
      rw [if_neg hp]
      split
      · simp only [State.line, State.setWorker, List.filter_append, hr', List.append_nil]
      · simp only [State.line, State.setWorker, List.filter_append, hr', List.append_nil]
  have hmem : ∀ r' ∈ t.handed ++ t.outUrgent ++ t.out,
      r' = r ∨ r' ∈ s.handed ++ s.outUrgent ++ s.out := by
    intro r' hr'
    rw [← ht, State.putResult] at hr'
    split at hr'
    · simp only [State.setWorker, List.mem_append, List.mem_singleton] at hr' ⊢
      tauto
    · simp only [State.setWorker, List.mem_append, List.mem_singleton] at hr' ⊢
      tauto
  constructor
  · exact h.exclusive.stay (y := .finished q.p) hw rfl hworkers hinflight
  · refine ⟨?_, ?_, ?_, ?_⟩
    · intro p
      rw [hline]
      split
      · rename_i hp
        subst hp
        refine List.pairwise_append.2 ⟨h.ordered.sorted q.p, List.pairwise_singleton .., ?_⟩
        intro n hn m hm
        rw [List.mem_singleton.1 hm]
        exact h.ordered.last w q data hw n hn
      · exact h.ordered.sorted p
    · intro w' q' data' hw'
      rw [hworkers] at hw'
      rcases set_cases hw' with ⟨-, heq⟩ | ⟨hne, hw'⟩
      · cases heq
      · have hother : q.p ≠ q'.p := by
          intro heq
          exact hne (h.exclusive.alone w' w _ _ q'.p hw' hw rfl (congrArg some heq))
        rw [hline, if_neg hother]
        exact h.ordered.last w' q' data' hw'
    · intro r' hr'
      rw [hsnapshots]
      rcases hmem r' hr' with rfl | hr'
      · rw [hrn, hrp]
        exact h.ordered.making w q data hw
      · exact h.ordered.results r' hr'
    · intro w' q' data' hw'
      rw [hworkers] at hw'
      rw [hsnapshots]
      rcases set_cases hw' with ⟨-, heq⟩ | ⟨-, hw'⟩
      · cases heq
      · exact h.ordered.making w' q' data' hw'

theorem Newest.done (h : Newest s) (hw : s.workers[w]? = some (.finished p)) :
    Newest (State.setWorker { s with inflight := s.inflight.erase p } w .idle) := by
  constructor
  · refine h.exclusive.set (y := .idle) rfl ?_ nofun
    intro w' y p' hne hy hp'
    refine Finset.mem_erase.2 ⟨?_, h.exclusive.marked w' y p' hy hp'⟩
    rintro rfl
    exact hne (h.exclusive.alone w' w y _ p' hy hw hp' rfl)
  · refine ⟨h.ordered.sorted, ?_, h.ordered.results, ?_⟩
    · intro w' q data hw'
      rcases set_cases hw' with ⟨-, heq⟩ | ⟨-, hw'⟩
      · cases heq
      · exact h.ordered.last w' q data hw'
    · intro w' q data hw'
      rcases set_cases hw' with ⟨-, heq⟩ | ⟨-, hw'⟩
      · cases heq
      · exact h.ordered.making w' q data hw'

/-! ## Results -/

/-- Results are taken from the front or dropped, and no line changes its order. -/
theorem Newest.shorten (h : Newest s) (hworkers : t.workers = s.workers)
    (hinflight : t.inflight = s.inflight) (hsnapshots : t.snapshots = s.snapshots)
    (hline : ∀ p, (t.line p).Sublist (s.line p))
    (hresults : ∀ r ∈ t.handed ++ t.outUrgent ++ t.out, r ∈ s.handed ++ s.outUrgent ++ s.out) :
    Newest t := by
  refine ⟨⟨?_, ?_⟩, ⟨?_, ?_, ?_, ?_⟩⟩
  · rw [hworkers, hinflight]
    exact h.exclusive.marked
  · rw [hworkers]
    exact h.exclusive.alone
  · exact fun p => (h.ordered.sorted p).sublist (hline p)
  · intro w q data hw n hn
    exact h.ordered.last w q data (hworkers ▸ hw) n ((hline q.p).subset hn)
  · intro r hr
    rw [hsnapshots]
    exact h.ordered.results r (hresults r hr)
  · rw [hworkers, hsnapshots]
    exact h.ordered.making

theorem Newest.runSection (h : Newest s) {sec : Section} {rest : List Section}
    (hspares : Label.Spares { s with todo := sec :: rest } .main)
    (hsec : State.runSection cfg { s with todo := rest } sec = some t) : Newest t := by
  cases sec with
  | updateBlock p ack urgent updateNeighbors =>
    have hsame := sameLines_addBlock (s := { s with todo := rest }) (g := cfg.grid) p ack urgent false
    rw [State.runSection] at hsec
    dsimp only at hsec
    split at hsec
    · cases hsec
      exact h.congr ⟨hsame.workers, hsame.inflight, hsame.outUrgent, hsame.out, hsame.handed,
        hsame.snapshots⟩
    · cases hsec
      exact h.congr ⟨hsame.workers, hsame.inflight, hsame.outUrgent, hsame.out, hsame.handed,
        hsame.snapshots⟩
  | neighbor p urgent =>
    have hsame := sameLines_addBlock (s := { s with todo := rest }) (g := cfg.grid) p false urgent true
    cases hsec
    exact h.congr ⟨hsame.workers, hsame.inflight, hsame.outUrgent, hsame.out, hsame.handed,
      hsame.snapshots⟩
  | urgentEmpty =>
    cases hsec
    exact h.congr ⟨rfl, rfl, rfl, rfl, rfl, rfl⟩
  | outEmpty =>
    cases hsec
    split <;> exact h.congr ⟨rfl, rfl, rfl, rfl, rfl, rfl⟩
  | popUrgent =>
    rw [State.runSection] at hsec
    split at hsec
    · cases hsec
    · rename_i r rest hout
      change s.outUrgent = r :: rest at hout
      cases hsec
      have hall : s.handed ++ [r] ++ rest ++ s.out = s.handed ++ s.outUrgent ++ s.out := by
        simp only [hout, List.append_assoc, List.singleton_append]
      refine h.shorten rfl rfl rfl (fun p => ?_) (fun r' hr' => hall ▸ hr')
      simp only [State.line, hall]
      exact .refl _
  | popOut =>
    rw [State.runSection] at hsec
    split at hsec
    · cases hsec
    · rename_i r rest hout
      change s.out = r :: rest at hout
      cases hsec
      refine h.shorten rfl rfl rfl (fun p => ?_) (fun r' hr' => ?_)
      · have hothers : r.p = p → s.outUrgent.filter (fun r => r.p = p) = [] := by
          rintro rfl
          refine List.filter_eq_nil_iff.2 fun r' hr' => ?_
          simpa using hspares r rest hout r' hr'
        by_cases hp : r.p = p
        · simp only [State.line, hout, List.filter_append, hothers hp, List.append_assoc,
            List.filter_cons, hp, decide_true, if_true, List.singleton_append]
          exact .refl _
        · simp only [State.line, hout, List.filter_append, List.append_nil, List.filter_cons,
            List.filter_nil, hp, decide_false, Bool.false_eq_true, if_false]
          exact .refl _
      · simp only [hout, List.mem_append, List.mem_cons, List.not_mem_nil, or_false] at hr' ⊢
        tauto
  | clearQueue finish =>
    cases hsec
    have hinflight : (State.clear finish { s with todo := rest }).inflight = s.inflight := by
      refine Finset.sdiff_eq_self_iff_disjoint.2 (Finset.disjoint_right.2 ?_)
      intro p hp
      rcases List.mem_map.1 (List.mem_toFinset.1 hp) with ⟨q, hq, rfl⟩
      rcases List.mem_filter.1 hq with ⟨hq, hdrop⟩
      exact hspares q hq hdrop
    exact h.congr ⟨rfl, hinflight, rfl, rfl, rfl, rfl⟩
  | clearUrgent finish =>
    cases hsec
    have hsub : (s.handed ++ s.outUrgent.filter (fun r => !State.drops finish r.ackList) ++
        s.out).Sublist (s.handed ++ s.outUrgent ++ s.out) :=
      ((List.Sublist.refl _).append List.filter_sublist).append (.refl _)
    exact h.shorten rfl rfl rfl (fun p => (hsub.filter _).map _) hsub.subset
  | clearOut finish =>
    cases hsec
    have hsub : (s.handed ++ s.outUrgent ++ s.out.filter
        (fun r => !State.drops finish r.ackList)).Sublist (s.handed ++ s.outUrgent ++ s.out) :=
      (List.Sublist.refl _).append List.filter_sublist
    exact h.shorten rfl rfl rfl (fun p => (hsub.filter _).map _) hsub.subset

theorem Newest.step (h : Newest s) (hspares : a.Spares s) (hstep : Step cfg s a t) : Newest t := by
  rw [Step] at hstep
  cases a with
  | world client =>
    rw [State.step] at hstep
    split at hstep
    · cases hstep
      exact h.congr ⟨rfl, rfl, rfl, rfl, rfl, rfl⟩
    · cases hstep
  | call op =>
    rw [State.step] at hstep
    split at hstep
    · cases hstep
      exact h.congr ⟨rfl, rfl, rfl, rfl, rfl, rfl⟩
    · cases hstep
  | main =>
    rw [State.step] at hstep
    split at hstep
    · cases hstep
    · rename_i sec rest htodo
      refine h.runSection ?_ hstep
      rw [← htodo]
      exact hspares
  | pop w =>
    rw [State.step] at hstep
    split at hstep
    · cases hstep
      exact h.pop w
    · cases hstep
  | snapshot w =>
    rw [State.step] at hstep
    split at hstep
    · rename_i q hw
      cases hstep
      exact h.snapshot hw
    · cases hstep
  | putResult w =>
    rw [State.step] at hstep
    split at hstep
    · rename_i q data hw
      cases hstep
      exact h.putResult hw (hspares q data hw)
    · cases hstep
  | done w =>
    rw [State.step] at hstep
    split at hstep
    · rename_i p hw
      cases hstep
      exact h.done hw
    · cases hstep

/-! ## Runs -/

theorem le_getLast_of_pairwise {l : List Nat} {m n : Nat} (h : l.Pairwise (· < ·))
    (hm : l.getLast? = some m) (hn : n ∈ l) : n ≤ m := by
  induction l with
  | nil => cases hn
  | cons k rest ih =>
    rcases List.pairwise_cons.1 h with ⟨hk, hrest⟩
    cases rest with
    | nil =>
      rw [List.getLast?_singleton] at hm
      cases hm
      exact (List.mem_singleton.1 hn).le
    | cons k' rest =>
      rw [List.getLast?_cons_cons] at hm
      rcases List.mem_cons.1 hn with rfl | hn
      · exact (hk m (List.mem_of_getLast? hm)).le
      · exact ih hrest hm hn

theorem mem_cargo_sum {results : List MeshUpdateResult} {n : Nat}
    (h : n ∈ (results.map MeshUpdateResult.cargo).sum.2.2) :
    ∃ r ∈ results, r.mesh.snapshot = n := by
  induction results with
  | nil => exact absurd h (Multiset.notMem_zero n)
  | cons r rest ih =>
    rw [List.map_cons, List.sum_cons, Prod.snd_add, Prod.snd_add, Multiset.mem_add] at h
    rcases h with h | h
    · exact ⟨r, List.mem_cons_self .., (Multiset.mem_singleton.1 h).symm⟩
    · rcases ih h with ⟨r', hr', hn⟩
      exact ⟨r', List.mem_cons_of_mem _ hr', hn⟩

/-- In these runs one worker at most is at a position, the results of a position arrive in the order of
their data, and the last one is from the latest data that are neither on their way nor dropped. -/
theorem newest_of_run {client : Client} {workers : Nat} {labels : List Label}
    (hrun : Run.Guarded (fun s a => a.Spares s) (Step cfg) (State.initial client workers) labels s) :
    (∀ (w w' : Nat) (x x' : Worker) (p : V3s16), s.workers[w]? = some x → s.workers[w']? = some x' →
        x.position = some p → x'.position = some p → w = w') ∧
      ∀ p, ((s.handed.filter fun r => r.p = p).map fun r => r.mesh.snapshot).Pairwise (· < ·) ∧
        ∀ m, ((s.handed.filter fun r => r.p = p).map fun r => r.mesh.snapshot).getLast? = some m →
          ∀ n, s.snapshots[n]? = some p → n ≤ m ∨ n ∈ s.held.2.2 ∨ n ∈ s.cleared.2.2 := by
  have h : Newest s :=
    Run.guarded_invariant (P := Newest) (fun _ _ _ hs ha hst => hs.step ha hst) hrun
      (initial_newest client workers)
  have hbalanced : Balanced cfg.grid s :=
    Run.invariant (P := Balanced cfg.grid) (fun _ _ _ hs hst => hs.step hst) (Run.of_guarded hrun)
      (initial_balanced client workers)
  refine ⟨h.exclusive.alone, fun p => ?_⟩
  have hsub : s.handed.Sublist (s.handed ++ s.outUrgent ++ s.out) := by
    rw [List.append_assoc]
    exact List.sublist_append_left ..
  have hsorted := (h.ordered.sorted p).sublist ((hsub.filter _).map _)
  refine ⟨hsorted, fun m hm n hn => ?_⟩
  have hmem : n ∈ s.total.2.2 := by
    rw [hbalanced.total]
    exact Multiset.mem_range.2 (List.getElem?_eq_some_iff.1 hn).1
  simp only [State.total, Prod.snd_add, Multiset.mem_add] at hmem
  rcases hmem with (hheld | hgot) | hcleared
  · exact .inr (.inl hheld)
  · rcases mem_cargo_sum hgot with ⟨r, hr, rfl⟩
    have hrp := h.ordered.results r (hsub.subset hr)
    rw [hn] at hrp
    cases hrp
    refine .inl (le_getLast_of_pairwise hsorted hm ?_)
    exact List.mem_map_of_mem (List.mem_filter.2 ⟨hr, decide_eq_true rfl⟩)
  · exact .inr (.inr hcleared)

end

/-- A mesh is made while an urgent update of the same position is made and put as well. -/
def urgentOvertakes : List Label :=
  [.call (.updateBlock ⟨0, 0, 0⟩ false false false), .main, .pop 0, .snapshot 0, .putResult 0, .done 0,
    .call (.updateBlock ⟨0, 0, 0⟩ false true false), .main, .pop 0, .snapshot 0, .putResult 0, .done 0,
    .call .getNextResult, .main, .main, .call .getNextResult, .main, .main, .main]

/-- The queue is cleared while a position is in flight and queued again. -/
def clearsInFlight : List Label :=
  [.call (.updateBlock ⟨0, 0, 0⟩ false false false), .main, .pop 0,
    .call (.updateBlock ⟨0, 0, 0⟩ false false false), .main,
    .call (.clearAllQueues false), .main, .main, .main,
    .call (.updateBlock ⟨0, 0, 0⟩ false false false), .main, .pop 1]

/-- The older data arrive last, and two workers are at one position. -/
theorem outdated_mesh_wins :
    (∃ s, Run (Step smallGrid) (State.initial oneBlock 1) urgentOvertakes s ∧
        s.handed.map (fun r => (r.p, r.mesh.snapshot)) = [(⟨0, 0, 0⟩, 1), (⟨0, 0, 0⟩, 0)]) ∧
      ∃ s, Run (Step smallGrid) (State.initial oneBlock 2) clearsInFlight s ∧
        s.workers.map Worker.position = [some ⟨0, 0, 0⟩, some ⟨0, 0, 0⟩] := by
  have hfirst : (urgentOvertakes.foldlM (State.step smallGrid) (State.initial oneBlock 1)).map
      (fun s => s.handed.map fun r => (r.p, r.mesh.snapshot)) =
        some [(⟨0, 0, 0⟩, 1), (⟨0, 0, 0⟩, 0)] := by
    decide +kernel
  have hsecond : (clearsInFlight.foldlM (State.step smallGrid) (State.initial oneBlock 2)).map
      (fun s => s.workers.map Worker.position) = some [some ⟨0, 0, 0⟩, some ⟨0, 0, 0⟩] := by
    decide +kernel
  constructor
  · rcases Option.map_eq_some_iff.1 hfirst with ⟨s, hs, hhanded⟩
    exact ⟨s, run_of_foldlM hs, hhanded⟩
  · rcases Option.map_eq_some_iff.1 hsecond with ⟨s, hs, hworkers⟩
    exact ⟨s, run_of_foldlM hs, hworkers⟩

theorem newest_of_run_oneUpdate : ∃ s, Run.Guarded (fun s a => a.Spares s) (Step smallGrid)
    (State.initial oneBlock 1) oneUpdate s ∧
      ((s.handed.filter fun r => r.p = ⟨0, 0, 0⟩).map fun r => r.mesh.snapshot).Pairwise (· < ·) := by
  have hrun : ∃ s, Run.Guarded (fun s a => a.Spares s) (Step smallGrid) (State.initial oneBlock 1)
      oneUpdate s := by
    exact ⟨_, .cons ⟨trivial, rfl⟩ <| .cons ⟨trivial, rfl⟩ <| .cons ⟨trivial, rfl⟩ <|
      .cons ⟨trivial, rfl⟩ <| .cons ⟨fun _ _ hw hurgent => (by cases hw; cases hurgent), rfl⟩ <|
      .cons ⟨trivial, rfl⟩ <| .cons ⟨trivial, rfl⟩ <| .cons ⟨trivial, rfl⟩ <| .cons ⟨trivial, rfl⟩ <|
      .cons ⟨fun _ _ _ r' hr' => absurd hr' List.not_mem_nil, rfl⟩ <| .nil _⟩
  rcases hrun with ⟨s, hrun⟩
  exact ⟨s, hrun, ((newest_of_run hrun).2 ⟨0, 0, 0⟩).1⟩

end Mesh
end AxisEngine
