import AxisEngine.Lib.Bytes
import Mathlib.Data.List.Basic
import Mathlib.Tactic.Basic

/-!
# Hex — hexadecimal digits

Digits and bytes as `util/hex.h` writes and reads them.

* `hexChar`, `hexDigitDecode` — one digit;
* `hexEncode` — two digits for each byte;
* `ofHex` — the number that digits stand for;
* `hexEncode_injective` — different bytes have different digits.
-/

namespace AxisEngine
namespace Util

open Lib

/-- `hex_chars`. -/
def hexChar (n : Nat) : UInt8 :=
  (ascii "0123456789abcdef").getD n 0

/-- `hex_digit_decode`. -/
def hexDigitDecode (c : UInt8) : Option UInt8 :=
  if 48 ≤ c ∧ c ≤ 57 then some (c - 48)
  else if 65 ≤ c ∧ c ≤ 70 then some (c - 65 + 10)
  else if 97 ≤ c ∧ c ≤ 102 then some (c - 97 + 10)
  else none

/-- A digit that is none counts as zero. -/
def hexValue (c : UInt8) : Nat :=
  ((hexDigitDecode c).getD 0).toNat

/-- `hex_encode`. -/
def hexEncode (data : Bytes) : Bytes :=
  data.flatMap fun c => [hexChar (c.toNat / 16), hexChar (c.toNat % 16)]

/-- The number that digits stand for. -/
def ofHex (digits : Bytes) : Nat :=
  digits.foldl (fun n c => 16 * n + hexValue c) 0

theorem hexValue_hexChar : ∀ n, n < 16 → hexValue (hexChar n) = n := by decide

theorem hexChar_ne : ∀ n, n < 16 → hexChar n ≠ 34 ∧ hexChar n ≠ 92 := by decide

theorem isSome_hexChar : ∀ n, n < 16 → (hexDigitDecode (hexChar n)).isSome = true := by decide

theorem hexChar_injective {m n : Nat} (hm : m < 16) (hn : n < 16) (h : hexChar m = hexChar n) :
    m = n := by
  have hvalue := congrArg hexValue h
  rwa [hexValue_hexChar m hm, hexValue_hexChar n hn] at hvalue

section

variable {data data' : Bytes} {b c : UInt8}

@[simp] theorem hexEncode_nil : hexEncode [] = [] := rfl

theorem hexEncode_cons (c : UInt8) (data : Bytes) :
    hexEncode (c :: data) = hexChar (c.toNat / 16) :: hexChar (c.toNat % 16) :: hexEncode data := rfl

@[simp] theorem length_hexEncode (data : Bytes) : (hexEncode data).length = 2 * data.length := by
  induction data with
  | nil => rfl
  | cons c data ih =>
    rw [hexEncode_cons, List.length_cons, List.length_cons, List.length_cons, ih]
    omega

theorem hexEncode_injective (h : hexEncode data = hexEncode data') : data = data' := by
  induction data generalizing data' with
  | nil =>
    cases data' with
    | nil => rfl
    | cons c data' => cases h
  | cons b data ih =>
    cases data' with
    | nil => cases h
    | cons c data' =>
      rw [hexEncode_cons, hexEncode_cons, List.cons.injEq, List.cons.injEq] at h
      have hb := b.toNat_lt
      have hc := c.toNat_lt
      have hhigh := hexChar_injective (by omega) (by omega) h.1
      have hlow := hexChar_injective (by omega) (by omega) h.2.1
      have hbyte : b = c := UInt8.toNat_inj.1 (by omega)
      rw [hbyte, ih h.2.2]

end

end Util
end AxisEngine
