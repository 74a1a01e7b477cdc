import AxisEngine.Util.V3s16
import Mathlib.Data.List.Nodup
import Mathlib.Data.List.Perm.Subperm

/-!
# BlockPos — positions in a block

A block is 16 nodes wide, and a position in it is stored as one number below 4096.

* `InBlock` — the positions of a block;
* `blockIndex`, `ofBlockIndex` — the number of a position, and back;
* `length_le_of_inBlock` — there are 4096 of them.
-/

namespace AxisEngine
namespace Map

/-- Each coordinate is below `MAP_BLOCKSIZE`. -/
structure InBlock (p : V3s16) : Prop where
  x : 0 ≤ p.x.toInt ∧ p.x.toInt < 16
  y : 0 ≤ p.y.toInt ∧ p.y.toInt < 16
  z : 0 ≤ p.z.toInt ∧ p.z.toInt < 16

def blockIndex (p : V3s16) : UInt16 :=
  (p.z.toUInt16 * 16 + p.y.toUInt16) * 16 + p.x.toUInt16

def ofBlockIndex (p16 : UInt16) : V3s16 :=
  ⟨(p16 &&& 15).toInt16, (p16 / 16 &&& 15).toInt16, (p16 / 16 / 16).toInt16⟩

section

variable {p q : V3s16}

theorem toNat_toUInt16 {n : Int16} (h : 0 ≤ n.toInt) : (n.toUInt16.toNat : ℤ) = n.toInt := by
  have hcond := BitVec.toInt_eq_toNat_cond n.toBitVec
  have hlt := n.toBitVec.isLt
  change n.toInt = _ at hcond
  change (n.toBitVec.toNat : ℤ) = n.toInt
  split at hcond
  · exact hcond.symm
  · omega

/-- Nothing overflows. -/
theorem toNat_blockIndex (h : InBlock p) :
    (blockIndex p).toNat =
      (p.z.toUInt16.toNat * 16 + p.y.toUInt16.toNat) * 16 + p.x.toUInt16.toNat := by
  rcases h with ⟨hx, hy, hz⟩
  have hxnat := toNat_toUInt16 hx.1
  have hynat := toNat_toUInt16 hy.1
  have hznat := toNat_toUInt16 hz.1
  have h16 : (16 : UInt16).toNat = 16 := rfl
  rw [blockIndex, UInt16.toNat_add, UInt16.toNat_mul, UInt16.toNat_add, UInt16.toNat_mul, h16]
  omega

theorem toNat_blockIndex_lt (h : InBlock p) : (blockIndex p).toNat < 4096 := by
  rw [toNat_blockIndex h]
  rcases h with ⟨hx, hy, hz⟩
  have hxnat := toNat_toUInt16 hx.1
  have hynat := toNat_toUInt16 hy.1
  have hznat := toNat_toUInt16 hz.1
  omega

theorem toNat_and_15 (n : UInt16) : (n &&& 15).toNat = n.toNat % 16 := by
  rw [UInt16.toNat_and]
  exact Nat.and_two_pow_sub_one_eq_mod n.toNat 4

theorem ofBlockIndex_blockIndex (h : InBlock p) : ofBlockIndex (blockIndex p) = p := by
  have hindex := toNat_blockIndex h
  rcases h with ⟨hx, hy, hz⟩
  have hxnat := toNat_toUInt16 hx.1
  have hynat := toNat_toUInt16 hy.1
  have hznat := toNat_toUInt16 hz.1
  have h16 : (16 : UInt16).toNat = 16 := rfl
  have hlow : blockIndex p &&& 15 = p.x.toUInt16 := by
    apply UInt16.toNat_inj.1
    rw [toNat_and_15, hindex]
    omega
  have hmiddle : blockIndex p / 16 &&& 15 = p.y.toUInt16 := by
    apply UInt16.toNat_inj.1
    rw [toNat_and_15, UInt16.toNat_div, h16, hindex]
    omega
  have hhigh : blockIndex p / 16 / 16 = p.z.toUInt16 := by
    apply UInt16.toNat_inj.1
    rw [UInt16.toNat_div, UInt16.toNat_div, h16, hindex]
    omega
  rw [ofBlockIndex, hlow, hmiddle, hhigh, Int16.toInt16_toUInt16, Int16.toInt16_toUInt16,
    Int16.toInt16_toUInt16]

/-- Distinct positions in a block have distinct numbers, and there are 4096 of these. -/
theorem length_le_of_inBlock {l : List V3s16} (hnodup : l.Nodup) (h : ∀ p ∈ l, InBlock p) :
    l.length ≤ 4096 := by
  have hindices : (l.map fun p => (blockIndex p).toNat).Nodup := by
    refine hnodup.map_on fun p hp q hq heq => ?_
    rw [← ofBlockIndex_blockIndex (h p hp), ← ofBlockIndex_blockIndex (h q hq),
      UInt16.toNat_inj.1 heq]
  have hsub : (l.map fun p => (blockIndex p).toNat) ⊆ List.range 4096 := by
    intro k hk
    rcases List.mem_map.1 hk with ⟨p, hp, rfl⟩
    exact List.mem_range.2 (toNat_blockIndex_lt (h p hp))
  have hle := (hindices.subperm hsub).length_le
  rw [List.length_map, List.length_range] at hle
  exact hle

end

end Map
end AxisEngine
