import Mathlib.Algebra.Group.Nat.Defs
import Mathlib.Algebra.GroupWithZero.Nat
import Mathlib.Data.List.GetD

/-!
# Bytes — byte strings and big-endian integers

A byte string is a list of bytes.  `writeU16` and `writeU32` give the big-endian bytes of an
integer, `readU16` and `readU32` read them back, and `putU16` and `putU32` overwrite them in place.
-/

namespace AxisEngine
namespace Lib

/-- A byte string. -/
abbrev Bytes := List UInt8

instance : LawfulBEq Bytes := List.instLawfulBEq

/-- The bytes of an ASCII literal. -/
def ascii (s : String) : Bytes :=
  s.toList.map fun c => UInt8.ofNat c.toNat

/-- A literal is the list of its characters; taking it apart by evaluation is slow. -/
theorem ascii_ofList (cs : List Char) :
    ascii (String.ofList cs) = cs.map fun c => UInt8.ofNat c.toNat := by
  rw [ascii, String.toList_ofList]

variable {cs : List Char} (n : UInt16) (d e : Bytes) (i : Nat)

theorem forall_mem_ascii {p : UInt8 → Prop} [DecidablePred p]
    (h : (cs.map fun c => UInt8.ofNat c.toNat).all (fun b => decide (p b)) = true) :
    ∀ b ∈ ascii (String.ofList cs), p b := by
  rw [ascii_ofList]
  exact fun b hb => of_decide_eq_true (List.all_eq_true.1 h b hb)

theorem not_mem_ascii {b : UInt8}
    (h : (cs.map fun c => UInt8.ofNat c.toNat).all (fun c => decide (c ≠ b)) = true) :
    b ∉ ascii (String.ofList cs) :=
  fun hmem => forall_mem_ascii h b hmem rfl

/-! ## Big-endian integers -/

def writeU16 (n : UInt16) : Bytes :=
  [UInt8.ofNat (n.toNat / 256), UInt8.ofNat n.toNat]

def writeU32 (n : UInt32) : Bytes :=
  [UInt8.ofNat (n.toNat / 2 ^ 24), UInt8.ofNat (n.toNat / 2 ^ 16), UInt8.ofNat (n.toNat / 256),
    UInt8.ofNat n.toNat]

section

variable (d : Bytes) (i : Nat)

/-- Byte `i`; callers check the size first. -/
def readU8 : UInt8 :=
  d.getD i 0

/-- The integer in bytes `i` and `i + 1`; callers check the size first. -/
def readU16 : UInt16 :=
  UInt16.ofNat (256 * (readU8 d i).toNat + (readU8 d (i + 1)).toNat)

/-- Overwrite bytes `i` and `i + 1`. -/
def putU16 (n : UInt16) : Bytes :=
  (d.set i (UInt8.ofNat (n.toNat / 256))).set (i + 1) (UInt8.ofNat n.toNat)

/-- The integer in the four bytes from `i` on; callers check the size first. -/
def readU32 : UInt32 :=
  UInt32.ofNat (2 ^ 24 * (readU8 d i).toNat + 2 ^ 16 * (readU8 d (i + 1)).toNat +
    256 * (readU8 d (i + 2)).toNat + (readU8 d (i + 3)).toNat)

/-- Overwrite the four bytes from `i` on. -/
def putU32 (n : UInt32) : Bytes :=
  d.take i ++ writeU32 n ++ d.drop (i + 4)

end

@[simp] theorem length_writeU16 : (writeU16 n).length = 2 := rfl

@[simp] theorem length_writeU32 (n : UInt32) : (writeU32 n).length = 4 := rfl

/-- The two bytes of an integer give the integer back. -/
theorem ofNat_bytes :
    UInt16.ofNat (256 * (UInt8.ofNat (n.toNat / 256)).toNat + (UInt8.ofNat n.toNat).toNat) = n := by
  have hn : n.toNat < 65536 := n.toNat_lt
  apply UInt16.toNat_inj.1
  simp only [UInt16.toNat_ofNat', UInt8.toNat_ofNat']
  omega

theorem readU8_append_left (h : i < d.length) :
    readU8 (d ++ e) i = readU8 d i :=
  List.getD_append d e 0 i h

theorem readU8_append_right (h : d.length ≤ i) :
    readU8 (d ++ e) i = readU8 e (i - d.length) :=
  List.getD_append_right d e 0 i h

theorem readU16_append_right (h : d.length ≤ i) :
    readU16 (d ++ e) i = readU16 e (i - d.length) := by
  have hsucc : i + 1 - d.length = i - d.length + 1 := by omega
  simp [readU16, readU8_append_right _ _ _ h, readU8_append_right d e (i + 1) (by omega), hsucc]

theorem readU16_writeU16 (rest : Bytes) : readU16 (writeU16 n ++ rest) 0 = n :=
  ofNat_bytes n

theorem readU32_writeU32 (n : UInt32) (rest : Bytes) : readU32 (writeU32 n ++ rest) 0 = n := by
  have hn : n.toNat < 2 ^ 32 := n.toNat_lt
  apply UInt32.toNat_inj.1
  have hbytes : readU32 (writeU32 n ++ rest) 0 =
      UInt32.ofNat (2 ^ 24 * (UInt8.ofNat (n.toNat / 2 ^ 24)).toNat +
        2 ^ 16 * (UInt8.ofNat (n.toNat / 2 ^ 16)).toNat +
        256 * (UInt8.ofNat (n.toNat / 256)).toNat + (UInt8.ofNat n.toNat).toNat) := rfl
  rw [hbytes]
  simp only [UInt32.toNat_ofNat', UInt8.toNat_ofNat']
  omega

theorem readU32_append_right (h : d.length ≤ i) :
    readU32 (d ++ e) i = readU32 e (i - d.length) := by
  have hone : i + 1 - d.length = i - d.length + 1 := by omega
  have htwo : i + 2 - d.length = i - d.length + 2 := by omega
  have hthree : i + 3 - d.length = i - d.length + 3 := by omega
  simp [readU32, readU8_append_right _ _ _ h, readU8_append_right d e (i + 1) (by omega),
    readU8_append_right d e (i + 2) (by omega), readU8_append_right d e (i + 3) (by omega), hone,
    htwo, hthree]

end Lib
end AxisEngine
