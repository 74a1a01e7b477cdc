import AxisEngine.Lib.Reader
import AxisEngine.Lib.Returns

/-!
# StringFields — strings behind their length

`serializeString16` and `serializeString32` of `util/serialize.cpp` put a string behind its length
in two or four bytes; a string that is too long is refused when it is written, and the longer kind
also when it is read.

* `serializeString16`, `serializeString32` and their readers;
* `concatM` — the bytes of the elements of a list, one after the other;
* `reads_string16`, `reads_string32` — what is accepted is read back.
-/

namespace AxisEngine
namespace Util

open Lib

/-- `STRING_MAX_LEN`. -/
def stringMaxLen : Nat := 0xffff

/-- `LONG_STRING_MAX_LEN`. -/
def longStringMaxLen : Nat := 64 * 1024 * 1024

def serializeString16 (plain : Bytes) : Except String Bytes :=
  if plain.length > stringMaxLen then throw "String too long for serializeString16"
  else return writeU16 (UInt16.ofNat plain.length) ++ plain

def serializeString32 (plain : Bytes) : Except String Bytes :=
  if plain.length > longStringMaxLen then throw "String too long for serializeLongString"
  else return writeU32 (UInt32.ofNat plain.length) ++ plain

/-- `read` with `gcount` compared: `n` bytes, or the error. -/
def readExactly (n : Nat) (what : String) : Reader Bytes := fun s =>
  if (s.read n).1.length = n then .ok (s.read n) else .error what

def deSerializeString16 : Reader Bytes := do
  let size ← readExactly 2 "deSerializeString16: size not read"
  if readU16 size 0 = 0 then return []
  else readExactly (readU16 size 0).toNat "deSerializeString16: truncated"

def deSerializeString32 : Reader Bytes := do
  let size ← readExactly 4 "deSerializeLongString: size not read"
  if readU32 size 0 = 0 then return []
  -- "We don't really want a remote attacker to force us to allocate 4GB..."
  else if (readU32 size 0).toNat > longStringMaxLen then
    throw ("deSerializeLongString: string too long: " ++ toString (readU32 size 0).toNat ++ " bytes")
  else readExactly (readU32 size 0).toNat "deSerializeLongString: truncated"

/-- A byte string in an error message. -/
def textOf (s : Bytes) : String :=
  String.ofList (s.map fun b => Char.ofNat b.toNat)

/-- What a loop over `l` writes. -/
def concatM {α : Type} (f : α → Except String Bytes) (l : List α) : Except String Bytes := do
  let parts ← l.mapM f
  return parts.flatten

section

variable {α β : Type} {f g : α → Except String Bytes} {bytes plain : Bytes} {l : List α}

theorem mapM_eq_ok_map {f : α → Except String β} {g : α → β} (h : ∀ a ∈ l, f a = .ok (g a)) :
    l.mapM f = .ok (l.map g) := by
  induction l with
  | nil => rfl
  | cons a l ih =>
    rw [List.forall_mem_cons] at h
    rw [List.mapM_cons, h.1, ih h.2]
    rfl

theorem concatM_eq_ok {g : α → Bytes} (h : ∀ a ∈ l, f a = .ok (g a)) :
    concatM f l = .ok (l.flatMap g) := by
  rw [concatM, mapM_eq_ok_map h, List.flatMap_def]
  rfl

/-- Elements that are written alike leave lists that are written alike. -/
theorem concatM_congr {γ : Type} {g : γ → Except String Bytes} {l' : List γ}
    (h : List.Forall₂ (fun a c => f a = g c) l l') : concatM f l = concatM g l' := by
  have hparts : l.mapM f = l'.mapM g := by
    induction h with
    | nil => rfl
    | cons hac _ ih => rw [List.mapM_cons, List.mapM_cons, hac, ih]
  rw [concatM, concatM, hparts]

/-! ## Reading back -/

theorem reads_readExactly (what : String) (bytes : Bytes) :
    Reader.Reads (readExactly bytes.length what) bytes bytes := by
  intro rest
  rw [readExactly, Reader.read_append]
  exact if_pos rfl

theorem toNat_ofNat_length16 (h : plain.length ≤ stringMaxLen) :
    (UInt16.ofNat plain.length).toNat = plain.length :=
  UInt16.toNat_ofNat_of_lt' (Nat.lt_succ_of_le h)

theorem toNat_ofNat_length32 (h : plain.length ≤ longStringMaxLen) :
    (UInt32.ofNat plain.length).toNat = plain.length := by
  have hmax : longStringMaxLen < 2 ^ 32 := by decide
  exact UInt32.toNat_ofNat_of_lt' (h.trans_lt hmax)

theorem serializeString16_eq_ok (h : plain.length ≤ stringMaxLen) :
    serializeString16 plain = .ok (writeU16 (UInt16.ofNat plain.length) ++ plain) :=
  if_neg (Nat.not_lt.2 h)

theorem serializeString32_eq_ok (h : plain.length ≤ longStringMaxLen) :
    serializeString32 plain = .ok (writeU32 (UInt32.ofNat plain.length) ++ plain) :=
  if_neg (Nat.not_lt.2 h)

theorem reads_string16 (h : plain.length ≤ stringMaxLen) :
    Reader.Reads deSerializeString16 (writeU16 (UInt16.ofNat plain.length) ++ plain) plain := by
  refine (reads_readExactly _ (writeU16 (UInt16.ofNat plain.length))).bind ?_
  have hsize : readU16 (writeU16 (UInt16.ofNat plain.length)) 0 = UInt16.ofNat plain.length := by
    have hread := readU16_writeU16 (UInt16.ofNat plain.length) []
    rw [List.append_nil] at hread
    exact hread
  rw [hsize]
  split
  · rename_i hzero
    have hnil : plain = [] := by
      rw [← List.length_eq_zero_iff, ← toNat_ofNat_length16 h, hzero]
      rfl
    rw [hnil]
    exact Reader.Reads.pure []
  · rw [toNat_ofNat_length16 h]
    exact reads_readExactly _ plain

theorem reads_string32 (h : plain.length ≤ longStringMaxLen) :
    Reader.Reads deSerializeString32 (writeU32 (UInt32.ofNat plain.length) ++ plain) plain := by
  refine (reads_readExactly _ (writeU32 (UInt32.ofNat plain.length))).bind ?_
  have hsize : readU32 (writeU32 (UInt32.ofNat plain.length)) 0 = UInt32.ofNat plain.length := by
    have hread := readU32_writeU32 (UInt32.ofNat plain.length) []
    rw [List.append_nil] at hread
    exact hread
  rw [hsize]
  split
  · rename_i hzero
    have hnil : plain = [] := by
      rw [← List.length_eq_zero_iff, ← toNat_ofNat_length32 h, hzero]
      rfl
    rw [hnil]
    exact Reader.Reads.pure []
  · rw [toNat_ofNat_length32 h, if_neg (Nat.not_lt.2 h)]
    exact reads_readExactly _ plain

end

end Util
end AxisEngine
