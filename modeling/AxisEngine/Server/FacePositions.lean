import AxisEngine.Lib.CountP
import AxisEngine.Server.SendBlocks
import Mathlib.Data.Int.Range

/-!
# FacePositions — the positions at one distance

Blocks are sent in shells around the player, the nearest first.

* `shell`, `generateFacePosition` — the borders of a cube;
* `mem_shell`, `nodup_shell` — each position on them occurs once;
* `each_position_once` — so a scan meets each position in its range once.
-/

namespace AxisEngine
namespace Server

open Lib

/-! ## A shell -/

/-- "An optimized sequence of coordinates" -/
def firstShell : List (ℤ × ℤ × ℤ) :=
  [(0, 1, 0), (0, 0, 1), (-1, 0, 0), (1, 0, 0), (0, 0, -1), (0, -1, 0),
    (-1, 0, 1), (1, 0, 1), (-1, 0, -1), (1, 0, -1), (-1, -1, 0), (1, -1, 0),
    (0, -1, 1), (0, -1, -1), (-1, 1, 0), (1, 1, 0), (0, 1, 1), (0, 1, -1),
    (-1, 1, 1), (1, 1, 1), (-1, 1, -1), (1, 1, -1),
    (-1, -1, 1), (1, -1, 1), (-1, -1, -1), (1, -1, -1)]

/-- Left and right, with the borders -/
def leftRight (d y : ℤ) : List (ℤ × ℤ × ℤ) :=
  (Int.range (-d) (d + 1)).flatMap fun z =>
    [(d, y, z), (-d, y, z)] ++ if y ≠ 0 then [(d, -y, z), (-d, -y, z)] else []

/-- Back and front, without them -/
def backFront (d y : ℤ) : List (ℤ × ℤ × ℤ) :=
  (Int.range (-d + 1) d).flatMap fun x =>
    [(x, y, d), (x, y, -d)] ++ if y ≠ 0 then [(x, -y, d), (x, -y, -d)] else []

def bottomTop (d : ℤ) : List (ℤ × ℤ × ℤ) :=
  (Int.range (-d) (d + 1)).flatMap fun x =>
    (Int.range (-d) (d + 1)).flatMap fun z => [(x, -d, z), (x, d, z)]

def shell (d : ℤ) : List (ℤ × ℤ × ℤ) :=
  if d = 0 then [(0, 0, 0)]
  else if d = 1 then firstShell
  else ((Int.range 0 d).flatMap fun y => leftRight d y ++ backFront d y) ++ bottomTop d

def toV3s16 (p : ℤ × ℤ × ℤ) : V3s16 :=
  ⟨Int16.ofInt p.1, Int16.ofInt p.2.1, Int16.ofInt p.2.2⟩

/-- From 32767 on the `s16` counters never pass `d`. -/
def generateFacePosition (d : UInt16) : Option (List V3s16) :=
  if d.toNat < 32767 then some ((shell d.toNat).map toV3s16) else none

section

variable {d y : ℤ} {p : ℤ × ℤ × ℤ}

/-! ## What is on it -/

theorem mem_leftRight (hy : 0 ≤ y) : p ∈ leftRight d y ↔
    p.1.natAbs = d.natAbs ∧ p.2.1.natAbs = y ∧ -d ≤ p.2.2 ∧ p.2.2 ≤ d := by
  rcases p with ⟨x, y', z⟩
  simp only [leftRight, List.mem_flatMap, Int.mem_range_iff, List.mem_append, List.mem_cons,
    List.not_mem_nil, or_false, List.mem_ite_nil_right, Prod.mk.injEq]
  constructor
  · rintro ⟨z', hz, h⟩
    omega
  · rintro h
    exact ⟨z, by omega, by omega⟩

theorem mem_backFront (hy : 0 ≤ y) : p ∈ backFront d y ↔
    -d < p.1 ∧ p.1 < d ∧ p.2.1.natAbs = y ∧ p.2.2.natAbs = d.natAbs := by
  rcases p with ⟨x, y', z⟩
  simp only [backFront, List.mem_flatMap, Int.mem_range_iff, List.mem_append, List.mem_cons,
    List.not_mem_nil, or_false, List.mem_ite_nil_right, Prod.mk.injEq]
  constructor
  · rintro ⟨x', hx, h⟩
    omega
  · rintro h
    exact ⟨x, by omega, by omega⟩

theorem mem_bottomTop : p ∈ bottomTop d ↔
    -d ≤ p.1 ∧ p.1 ≤ d ∧ p.2.1.natAbs = d.natAbs ∧ -d ≤ p.2.2 ∧ p.2.2 ≤ d := by
  rcases p with ⟨x, y', z⟩
  simp only [bottomTop, List.mem_flatMap, Int.mem_range_iff, List.mem_cons, List.not_mem_nil,
    or_false, Prod.mk.injEq]
  constructor
  · rintro ⟨x', hx, z', hz, h⟩
    omega
  · rintro h
    exact ⟨x, by omega, z, by omega, by omega⟩

theorem mem_firstShell :
    p ∈ firstShell ↔ max p.1.natAbs (max p.2.1.natAbs p.2.2.natAbs) = 1 := by
  constructor
  · revert p
    decide
  · rcases p with ⟨x, y, z⟩
    intro h
    dsimp only at h
    have hx : x = -1 ∨ x = 0 ∨ x = 1 := by omega
    have hy : y = -1 ∨ y = 0 ∨ y = 1 := by omega
    have hz : z = -1 ∨ z = 0 ∨ z = 1 := by omega
    rcases hx with rfl | rfl | rfl <;> rcases hy with rfl | rfl | rfl <;>
      rcases hz with rfl | rfl | rfl <;> first | decide | exact absurd h (by decide)

theorem mem_shell {d : ℕ} :
    p ∈ shell d ↔ max p.1.natAbs (max p.2.1.natAbs p.2.2.natAbs) = d := by
  unfold shell
  split
  case isTrue h =>
    rw [List.mem_singleton, Prod.ext_iff, Prod.ext_iff]
    dsimp only
    omega
  case isFalse =>
    split
    case isTrue h =>
      rw [mem_firstShell]
      omega
    case isFalse =>
      rw [List.mem_append, mem_bottomTop]
      simp only [List.mem_flatMap, Int.mem_range_iff, List.mem_append]
      constructor
      · rintro (⟨y, hy, h | h⟩ | h)
        · rw [mem_leftRight hy.1] at h
          omega
        · rw [mem_backFront hy.1] at h
          omega
        · omega
      · intro h
        by_cases htop : p.2.1.natAbs = d
        · exact .inr (by omega)
        · refine .inl ⟨p.2.1.natAbs, by omega, ?_⟩
          rw [mem_leftRight (by omega), mem_backFront (by omega)]
          omega

/-! ## Once -/

theorem nodup_range (a b : ℤ) : (Int.range a b).Nodup :=
  List.nodup_range.map fun i j h => by omega

theorem nodup_leftRight (hd : d ≠ 0) : (leftRight d y).Nodup := by
  refine nodup_flatMap_of_key (·.2.2) (nodup_range _ _) (fun z _ => ?_) fun z _ p hp => ?_
  · split <;> simp <;> omega
  · split at hp <;> simp at hp <;> rcases hp with rfl | rfl | rfl | rfl <;> rfl

theorem nodup_backFront (hd : d ≠ 0) : (backFront d y).Nodup := by
  refine nodup_flatMap_of_key (·.1) (nodup_range _ _) (fun x _ => ?_) fun x _ p hp => ?_
  · split <;> simp <;> omega
  · split at hp <;> simp at hp <;> rcases hp with rfl | rfl | rfl | rfl <;> rfl

theorem nodup_bottomTop (hd : d ≠ 0) : (bottomTop d).Nodup := by
  refine nodup_flatMap_of_key (·.1) (nodup_range _ _) (fun x _ => ?_) fun x _ p hp => ?_
  · refine nodup_flatMap_of_key (·.2.2) (nodup_range _ _) (fun z _ => ?_) fun z _ p hp => ?_
    · simp
      omega
    · simp at hp
      rcases hp with rfl | rfl <;> rfl
  · simp at hp
    rcases hp with ⟨z, -, rfl | rfl⟩ <;> rfl

theorem nodup_shell (d : ℕ) : (shell d).Nodup := by
  unfold shell
  split
  · exact List.nodup_singleton _
  split
  · decide
  refine List.nodup_append.2 ⟨?_, nodup_bottomTop (by omega), ?_⟩
  · refine nodup_flatMap_of_key (fun p => (p.2.1.natAbs : ℤ)) (nodup_range _ _) (fun y hy => ?_)
      fun y hy p hp => ?_
    · refine List.nodup_append.2 ⟨nodup_leftRight (by omega), nodup_backFront (by omega), ?_⟩
      rintro p hp _ hp' rfl
      rw [mem_leftRight (Int.mem_range_iff.1 hy).1] at hp
      rw [mem_backFront (Int.mem_range_iff.1 hy).1] at hp'
      omega
    · rw [List.mem_append, mem_leftRight (Int.mem_range_iff.1 hy).1,
        mem_backFront (Int.mem_range_iff.1 hy).1] at hp
      omega
  · rintro p hp _ hp' rfl
    rw [mem_bottomTop] at hp'
    rcases List.mem_flatMap.1 hp with ⟨y, hy, hp⟩
    rw [Int.mem_range_iff] at hy
    rw [List.mem_append, mem_leftRight hy.1, mem_backFront hy.1] at hp
    omega

end

/-! ## As positions -/

theorem toInt_ofInt {n : ℤ} (h : n.natAbs < 32768) : (Int16.ofInt n).toInt = n :=
  Int16.toInt_ofInt_of_le (by omega) (by omega)

/-- Each position at distance `d` is in the list, once. -/
theorem generateFacePosition_spec {d : UInt16} {l : List V3s16} (h : generateFacePosition d = some l) :
    l.Nodup ∧ ∀ p, p ∈ l ↔ p.cubeRadius = d.toNat := by
  unfold generateFacePosition at h
  split at h
  case isFalse => cases h
  case isTrue hd =>
    cases h
    constructor
    · refine (nodup_shell _).map_on fun p hp q hq hpq => ?_
      rw [mem_shell] at hp hq
      rw [toV3s16, toV3s16, V3s16.mk.injEq] at hpq
      rw [Prod.ext_iff, Prod.ext_iff]
      refine ⟨?_, ?_, ?_⟩
      · rw [← toInt_ofInt (n := p.1) (by omega), hpq.1, toInt_ofInt (by omega)]
      · rw [← toInt_ofInt (n := p.2.1) (by omega), hpq.2.1, toInt_ofInt (by omega)]
      · rw [← toInt_ofInt (n := p.2.2) (by omega), hpq.2.2, toInt_ofInt (by omega)]
    · intro p
      rw [List.mem_map]
      constructor
      · rintro ⟨q, hq, rfl⟩
        rw [mem_shell] at hq
        rw [V3s16.cubeRadius, toV3s16, toInt_ofInt (by omega), toInt_ofInt (by omega),
          toInt_ofInt (by omega)]
        exact hq
      · intro hp
        refine ⟨(p.x.toInt, p.y.toInt, p.z.toInt), mem_shell.2 hp, ?_⟩
        simp [toV3s16]

/-! ## The scan -/

def getFacePositions (d : ℤ) : List V3s16 := (generateFacePosition (UInt16.ofInt d)).getD []

theorem add_sub_cancel (p q : V3s16) : p + q - q = p := by
  change V3s16.mk (p.x + q.x - q.x) (p.y + q.y - q.y) (p.z + q.z - q.z) = ⟨p.x, p.y, p.z⟩
  rw [Int16.add_sub_cancel, Int16.add_sub_cancel, Int16.add_sub_cancel]

theorem sub_add_cancel (p q : V3s16) : p - q + q = p := by
  change V3s16.mk (p.x - q.x + q.x) (p.y - q.y + q.y) (p.z - q.z + q.z) = ⟨p.x, p.y, p.z⟩
  rw [Int16.sub_add_cancel, Int16.sub_add_cancel, Int16.sub_add_cancel]

theorem getFacePositions_spec {d : ℤ} (hd : 0 ≤ d) (hlt : d < 32767) :
    (getFacePositions d).Nodup ∧ ∀ p, p ∈ getFacePositions d ↔ (p.cubeRadius : ℤ) = d := by
  have hnat : (UInt16.ofInt d).toNat = d.toNat := by
    rw [UInt16.ofInt, UInt16.toNat_ofNat']
    omega
  have hspec := generateFacePosition_spec (d := UInt16.ofInt d) (if_pos (by omega))
  rw [getFacePositions, generateFacePosition, if_pos (by omega), Option.getD_some]
  exact ⟨hspec.1, fun p => (hspec.2 p).trans (by omega)⟩

section

variable {v : View} {dStart dMax : ℤ} {c : RemoteClient} {d dEnd : ℤ} {p : V3s16} {s : Scan} {N : ℕ}

theorem positions_spec (hface : v.facePositions = getFacePositions) (hstart : 0 ≤ dStart)
    (hmax : dMax < 32767) :
    ((v.positions dStart dMax).map Prod.snd).Nodup ∧ ∀ p, p ∈ (v.positions dStart dMax).map Prod.snd ↔
      dStart ≤ (p - v.center).cubeRadius ∧ (p - v.center).cubeRadius ≤ dMax := by
  have hpositions : (v.positions dStart dMax).map Prod.snd =
      (Int.range dStart (dMax + 1)).flatMap fun d => (getFacePositions d).map (· + v.center) := by
    rw [View.positions, hface, List.map_flatMap]
    simp only [List.map_map, bind_pure_comp, List.map_eq_map]
    rfl
  have hspec : ∀ d ∈ Int.range dStart (dMax + 1), (getFacePositions d).Nodup ∧
      ∀ p, p ∈ getFacePositions d ↔ (p.cubeRadius : ℤ) = d := by
    intro d hd
    rw [Int.mem_range_iff] at hd
    exact getFacePositions_spec (by omega) (by omega)
  rw [hpositions]
  constructor
  · refine nodup_flatMap_of_key (fun p => ((p - v.center).cubeRadius : ℤ)) (nodup_range _ _)
      (fun d hd => (hspec d hd).1.map fun p q h => ?_) fun d hd p hp => ?_
    · rw [← add_sub_cancel p v.center, h, add_sub_cancel]
    · rcases List.mem_map.1 hp with ⟨q, hq, rfl⟩
      rw [add_sub_cancel]
      exact ((hspec d hd).2 q).1 hq
  · intro p
    rw [List.mem_flatMap]
    constructor
    · rintro ⟨d, hd, hp⟩
      rcases List.mem_map.1 hp with ⟨q, hq, rfl⟩
      rw [(hspec d hd).2] at hq
      rw [Int.mem_range_iff] at hd
      rw [add_sub_cancel]
      omega
    · intro hp
      have hd : ((p - v.center).cubeRadius : ℤ) ∈ Int.range dStart (dMax + 1) :=
        Int.mem_range_iff.2 (by omega)
      exact ⟨_, hd, List.mem_map.2 ⟨p - v.center, ((hspec _ hd).2 _).2 rfl, sub_add_cancel _ _⟩⟩

/-- A scan that goes no further than 32766 meets each position in its range, once. -/
theorem each_position_once (hface : v.facePositions = getFacePositions) (hstart : 0 ≤ dStart)
    (hmax : dMax < 32767) (p : V3s16) :
    ((v.positions dStart dMax).map Prod.snd).count p =
      if dStart ≤ (p - v.center).cubeRadius ∧ (p - v.center).cubeRadius ≤ dMax then 1 else 0 := by
  rcases positions_spec hface hstart hmax with ⟨hnodup, hmem⟩
  split
  case isTrue h => exact List.count_eq_one_of_mem hnodup ((hmem p).2 h)
  case isFalse h => exact List.count_eq_zero.2 fun hp => h ((hmem p).1 hp)

def shellView : View := { originView with facePositions := getFacePositions }

theorem each_position_once_corner : ((shellView.positions 0 2).map Prod.snd).count ⟨2, -2, 2⟩ = 1 :=
  each_position_once rfl (by decide) (by decide) _

/-! ## The selection -/

theorem visit_dest (hN : c.maxSimulSends ≤ N ∧ v.maxSimulSendsUsually ≤ N) :
    ((v.visit c d p s).dest = s.dest ∧ (v.visit c d p s).numBlocksSelected = s.numBlocksSelected) ∨
      ((v.visit c d p s).dest = s.dest ++ [p] ∧ s.numBlocksSelected < N ∧
        (v.visit c d p s).numBlocksSelected = s.numBlocksSelected + 1) := by
  unfold View.visit
  split
  · exact .inl ⟨rfl, rfl⟩
  split
  · exact .inl ⟨rfl, rfl⟩
  case isFalse hfree =>
    split
    · exact .inl ⟨rfl, rfl⟩
    split
    · exact .inl ⟨rfl, rfl⟩
    split
    · exact .inl ⟨rfl, rfl⟩
    have hlt : s.numBlocksSelected < N := by
      unfold View.maxSimulDynamic at hfree
      split at hfree <;> omega
    unfold View.offer
    dsimp only
    split
    · exact .inl ⟨rfl, rfl⟩
    split
    · exact .inl ⟨rfl, rfl⟩
    split
    · exact .inl ⟨rfl, rfl⟩
    · exact .inr ⟨rfl, hlt, rfl⟩

theorem scan_dest (dEnd : ℤ) (ps : List (ℤ × V3s16))
    (hN : c.maxSimulSends ≤ N ∧ v.maxSimulSendsUsually ≤ N) (hs : s.numBlocksSelected ≤ N) :
    ∃ l, (v.scan c dEnd ps s).2.dest = s.dest ++ l ∧ l.Sublist (ps.map Prod.snd) ∧
      s.numBlocksSelected + l.length ≤ N := by
  induction ps generalizing s with
  | nil => exact ⟨[], (List.append_nil _).symm, .slnil, hs⟩
  | cons entry ps ih =>
    have hvisit := visit_dest (d := entry.1) (p := entry.2) (s := s) hN
    rw [View.scan]
    split
    · rcases hvisit with ⟨hdest, -⟩ | ⟨hdest, hlt, -⟩
      · exact ⟨[], by rw [hdest, List.append_nil], List.nil_sublist _, hs⟩
      · exact ⟨[entry.2], hdest, List.singleton_sublist.2 List.mem_cons_self, hlt⟩
    · rcases hvisit with ⟨hdest, hcount⟩ | ⟨hdest, hlt, hcount⟩
      · rcases ih (s := v.visit c entry.1 entry.2 s) (by omega) with ⟨l, hl, hsub, hle⟩
        exact ⟨l, by rw [hl, hdest], hsub.cons _, by omega⟩
      · rcases ih (s := v.visit c entry.1 entry.2 s) (by omega) with ⟨l, hl, hsub, hle⟩
        refine ⟨entry.2 :: l, by rw [hl, hdest, List.append_assoc]; rfl, hsub.cons_cons _, ?_⟩
        rw [List.length_cons]
        omega

theorem tick_keeps (hstart : 0 ≤ c.nearestUnsentD) :
    (c.tick v).maxSimulSends = c.maxSimulSends ∧ 0 ≤ (c.tick v).nearestUnsentD := by
  unfold RemoteClient.tick
  dsimp only
  split
  · exact ⟨rfl, le_rfl⟩
  · exact ⟨rfl, hstart⟩

theorem recenter_keeps (hstart : 0 ≤ c.nearestUnsentD) :
    (c.recenter v).maxSimulSends = c.maxSimulSends ∧ 0 ≤ (c.recenter v).nearestUnsentD := by
  unfold RemoteClient.recenter
  dsimp only
  split <;> split
  · exact ⟨rfl, le_rfl⟩
  · exact ⟨rfl, le_rfl⟩
  · exact ⟨rfl, le_rfl⟩
  · exact ⟨rfl, hstart⟩

/-- A selection has each block once, all within the distance, none of them sent before, and no more
than may be under way. -/
theorem selected_once (hface : v.facePositions = getFacePositions) (hstart : 0 ≤ c.nearestUnsentD)
    (hmax : v.fullDMax < 32767) :
    (c.getNextBlocks v).2.Nodup ∧
      (∀ p ∈ (c.getNextBlocks v).2, (p - v.center).cubeRadius ≤ v.fullDMax ∧ ¬ c.Recorded p) ∧
      ((c.getNextBlocks v).2 ≠ [] → c.blocksSending.card + (c.getNextBlocks v).2.length ≤
        max c.maxSimulSends v.maxSimulSendsUsually) := by
  have hnew := (c.getNextBlocks_spec v).2
  have htick := tick_keeps (v := v) hstart
  have hcenter := recenter_keeps (v := v) htick.2
  have hsame := (c.tick v).sameRecord_recenter v
  unfold RemoteClient.getNextBlocks at hnew ⊢
  dsimp only at hnew ⊢
  split
  · exact ⟨List.nodup_nil, fun p hp => absurd hp List.not_mem_nil, fun h => absurd rfl h⟩
  case isFalse hpaused =>
    rw [if_neg hpaused] at hnew
    have hcard : (c.tick v).blocksSending.card < c.maxSimulSends := by
      simp only [RemoteClient.isPaused, Bool.or_eq_true, decide_eq_true_eq, not_or, htick.1] at hpaused
      omega
    generalize (c.tick v).recenter v = c' at *
    have hend : c'.scanEnd v ≤ v.fullDMax := min_le_left _ _
    have hpositions := positions_spec hface hcenter.2 (hend.trans_lt hmax)
    rcases scan_dest (v := v) (c := c') (N := max c.maxSimulSends v.maxSimulSendsUsually)
        (s := { numBlocksSelected := c'.blocksSending.card, blocksOcc := c'.blocksOcc })
        (max c'.nearestUnsentD (c'.scanEnd v + 1)) (v.positions c'.nearestUnsentD (c'.scanEnd v))
        (by omega) (by dsimp only; rw [hsame.sending]; omega) with ⟨l, hl, hsub, hle⟩
    rw [hl] at hnew ⊢
    refine ⟨hpositions.1.sublist hsub, fun p hp => ⟨?_, hnew p hp⟩, fun _ => ?_⟩
    · exact ((hpositions.2 p).1 (hsub.subset hp)).2.trans hend
    · rw [← (c.sameRecord_tick v).sending, ← hsame.sending]
      exact hle

theorem selected_once_origin : (newClient.getNextBlocks shellView).2.Nodup :=
  (selected_once rfl (by decide) (by decide)).1

end

end Server
end AxisEngine
