import AxisEngine.Lib.Reader

/-!
# V3s16 — positions of blocks and nodes

`v3s16` has three 16-bit coordinates, and adding or subtracting wraps around.  In a file or a packet
each coordinate takes two bytes.
-/

namespace AxisEngine

structure V3s16 where
  x : Int16
  y : Int16
  z : Int16
deriving DecidableEq, Repr, Inhabited

open Lib

namespace V3s16

instance : Add V3s16 := ⟨fun p q => ⟨p.x + q.x, p.y + q.y, p.z + q.z⟩⟩

instance : Sub V3s16 := ⟨fun p q => ⟨p.x - q.x, p.y - q.y, p.z - q.z⟩⟩

/-- `std::max({std::abs(p.X), std::abs(p.Y), std::abs(p.Z)})`. -/
def cubeRadius (p : V3s16) : Nat :=
  max p.x.toInt.natAbs (max p.y.toInt.natAbs p.z.toInt.natAbs)

end V3s16

/-! ## The bytes of a position -/

def writeS16 (n : Int16) : Bytes :=
  writeU16 n.toUInt16

def writeV3S16 (p : V3s16) : Bytes :=
  writeS16 p.x ++ (writeS16 p.y ++ writeS16 p.z)

def readS16 : Reader Int16 := do
  let n ← Reader.readU16
  return n.toInt16

/-- The position in six bytes. -/
def decodeV3S16 (d : Bytes) : V3s16 :=
  ⟨(readU16 d 0).toInt16, (readU16 d 2).toInt16, (readU16 d 4).toInt16⟩

def readV3S16 : Reader V3s16 :=
  Reader.field 6 decodeV3S16

theorem reads_readS16 (n : Int16) : Reader.Reads readS16 (writeS16 n) n := by
  have h := (Reader.reads_readU16 n.toUInt16).map (g := UInt16.toInt16)
  rw [Int16.toInt16_toUInt16] at h
  exact h

theorem reads_readV3S16 (p : V3s16) : Reader.Reads readV3S16 (writeV3S16 p) p := by
  have hsecond : readU16 (writeV3S16 p) 2 = p.y.toUInt16 := by
    rw [writeV3S16, writeS16, readU16_append_right _ _ 2 (by rw [length_writeU16])]
    exact readU16_writeU16 _ _
  have hthird : readU16 (writeV3S16 p) 4 = p.z.toUInt16 := by
    rw [writeV3S16, ← List.append_assoc, readU16_append_right _ _ 4 (by rfl)]
    have h := readU16_writeU16 p.z.toUInt16 []
    rw [List.append_nil] at h
    exact h
  have hdecode : decodeV3S16 (writeV3S16 p) = p := by
    rw [decodeV3S16, hsecond, hthird,
      show readU16 (writeV3S16 p) 0 = p.x.toUInt16 from readU16_writeU16 _ _]
    rfl
  have h : Reader.Reads readV3S16 (writeV3S16 p) (decodeV3S16 (writeV3S16 p)) :=
    Reader.reads_field rfl
  rw [hdecode] at h
  exact h

end AxisEngine
