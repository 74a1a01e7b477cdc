import AxisEngine.Emerge.EmergeManager

/-!
# DatabaseKeys — the number of a block in a database

Three coordinates are added up in one integer, each shifted by twelve bits more.

* `getBlockAsInteger`, `getIntegerAsBlock` — a position and its number;
* `key_roundTrip_iff` — which positions come back.
-/

namespace AxisEngine
namespace Map

/-- `(s64)((u64) n << k)` -/
def shifted (n : Int16) (k : UInt64) : Int64 := (n.toInt64.toUInt64 <<< k).toInt64

def getBlockAsInteger (pos : V3s16) : Int64 :=
  shifted pos.z 24 + shifted pos.y 12 + pos.x.toInt64

def coordinate (i : Int64) : Int16 := ((i &&& 0xFFF) - 0x800).toInt16

def getIntegerAsBlock (i : Int64) : V3s16 :=
  let i := i + 0x800800800
  ⟨coordinate i, coordinate (i >>> 12), coordinate (i >>> 24)⟩

/-- Twelve bits have room for each coordinate. -/
def KeyFits (p : V3s16) : Prop :=
  (-2048 ≤ p.x.toInt ∧ p.x.toInt < 2048) ∧ (-2048 ≤ p.y.toInt ∧ p.y.toInt < 2048) ∧
    -2048 ≤ p.z.toInt ∧ p.z.toInt < 2048

theorem bmod_small {n : ℤ} (h : -9223372036854775808 ≤ n) (h' : n < 9223372036854775808) :
    n.bmod (2 ^ 64) = n :=
  Int.bmod_eq_of_le h h'

theorem s16_range (n : Int16) : -32768 ≤ n.toInt ∧ n.toInt < 32768 := ⟨n.le_toInt, n.toInt_lt⟩

theorem toInt_shifted (n : Int16) :
    (shifted n 12).toInt = n.toInt * 4096 ∧ (shifted n 24).toInt = n.toInt * 16777216 := by
  have hn : n.toInt64.toBitVec.toInt = n.toInt := Int16.toInt_toInt64 n
  have hrange := s16_range n
  constructor
  · change (n.toInt64.toBitVec <<< 12).toInt = _
    rw [BitVec.shiftLeft_eq_mul_twoPow, BitVec.toInt_mul, hn,
      show (BitVec.twoPow 64 12).toInt = 4096 by decide]
    exact bmod_small (by omega) (by omega)
  · change (n.toInt64.toBitVec <<< 24).toInt = _
    rw [BitVec.shiftLeft_eq_mul_twoPow, BitVec.toInt_mul, hn,
      show (BitVec.twoPow 64 24).toInt = 16777216 by decide]
    exact bmod_small (by omega) (by omega)

/-- Nothing overflows. -/
theorem toInt_getBlockAsInteger (p : V3s16) :
    (getBlockAsInteger p).toInt = p.z.toInt * 16777216 + p.y.toInt * 4096 + p.x.toInt := by
  have hx := s16_range p.x
  have hy := s16_range p.y
  have hz := s16_range p.z
  have hzy : (shifted p.z 24 + shifted p.y 12).toInt = p.z.toInt * 16777216 + p.y.toInt * 4096 := by
    rw [Int64.toInt_add, (toInt_shifted p.z).2, (toInt_shifted p.y).1]
    exact bmod_small (by omega) (by omega)
  rw [getBlockAsInteger, Int64.toInt_add, hzy, Int16.toInt_toInt64]
  exact bmod_small (by omega) (by omega)

theorem toInt_coordinate (i : Int64) : (coordinate i).toInt = i.toInt % 4096 - 2048 := by
  have hmask : (i &&& 0xFFF).toInt = i.toInt % 4096 := by
    have hnat : (i.toBitVec &&& 4095#64).toNat = i.toBitVec.toNat % 4096 :=
      Nat.and_two_pow_sub_one_eq_mod i.toBitVec.toNat 12
    have hint := BitVec.toInt_eq_toNat_cond (i.toBitVec &&& 4095#64)
    have hi := BitVec.toInt_eq_toNat_cond i.toBitVec
    change (i.toBitVec &&& 4095#64).toInt = i.toBitVec.toInt % 4096
    rw [hnat] at hint
    split at hi <;> split at hint <;> omega
  rw [coordinate, Int64.toInt_toInt16, Int64.toInt_sub, hmask]
  change ((i.toInt % 4096 - 2048).bmod (2 ^ 64)).bmod (2 ^ 16) = _
  rw [bmod_small (by omega) (by omega)]
  exact Int.bmod_eq_of_le (by omega) (by omega)

theorem toInt_shiftRight (i : Int64) :
    (i >>> 12).toInt = i.toInt / 4096 ∧ (i >>> 24).toInt = i.toInt / 16777216 := by
  constructor
  · change (i.toBitVec.sshiftRight' 12).toInt = _
    rw [BitVec.toInt_sshiftRight', Int.shiftRight_eq_div_pow]
    rfl
  · change (i.toBitVec.sshiftRight' 24).toInt = _
    rw [BitVec.toInt_sshiftRight', Int.shiftRight_eq_div_pow]
    rfl

/-- A position comes back from its number exactly if it fits. -/
theorem key_roundTrip_iff (p : V3s16) : getIntegerAsBlock (getBlockAsInteger p) = p ↔ KeyFits p := by
  constructor
  · intro h
    rw [← h]
    refine ⟨?_, ?_, ?_⟩
    all_goals
      dsimp only [getIntegerAsBlock]
      rw [toInt_coordinate]
      omega
  · rintro ⟨hx, hy, hz⟩
    have hsum : (getBlockAsInteger p + 0x800800800).toInt =
        p.z.toInt * 16777216 + p.y.toInt * 4096 + p.x.toInt + 34368129024 := by
      rw [Int64.toInt_add, toInt_getBlockAsInteger, show (0x800800800 : Int64).toInt = 34368129024 by decide]
      exact bmod_small (by omega) (by omega)
    change V3s16.mk _ _ _ = V3s16.mk p.x p.y p.z
    rw [V3s16.mk.injEq]
    refine ⟨Int16.toInt_inj.1 ?_, Int16.toInt_inj.1 ?_, Int16.toInt_inj.1 ?_⟩
    · rw [toInt_coordinate, hsum]
      omega
    · rw [toInt_coordinate, (toInt_shiftRight _).1, hsum]
      omega
    · rw [toInt_coordinate, (toInt_shiftRight _).2, hsum]
      omega

/-- All blocks within the limits of the map fit. -/
theorem keyFits_of_limits {p : V3s16} (h : Emerge.blockposOverMaxLimit p = false) : KeyFits p := by
  unfold Emerge.blockposOverMaxLimit Emerge.maxLimitBp at h
  rw [decide_eq_false_iff_not] at h
  unfold KeyFits
  omega

end Map
end AxisEngine
