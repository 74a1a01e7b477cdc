import AxisEngine.Lib.Decimal
import AxisEngine.Lib.SplitOn
import AxisEngine.Lib.Trim

/-!
# Strings — helpers of `util/string.h`

* `strSplit` — the parts of a string between delimiters;
* `itos`, `mystoi`, `isNumber` — 32-bit numbers in text;
* `strSplit_intercalate`, `mystoi_itos` — what is put together comes apart again.
-/

namespace AxisEngine
namespace Util

open Lib

/-- `str_split`.  `getline` gives no empty part behind the last delimiter. -/
def strSplit (str : Bytes) (delimiter : UInt8) : List Bytes :=
  let parts := str.splitOn delimiter
  if parts.getLast? = some [] then parts.dropLast else parts

def itos (i : Int32) : Bytes :=
  if i < 0 then 45 :: decimal i.toInt.natAbs else decimal i.toInt.natAbs

def mystoi (str : Bytes) (min max : Int32) : Int32 :=
  let i := atoi str
  let i := if i < min then min else i
  if i > max then max else i

/-- `is_number`. -/
def isNumber (toCheck : Bytes) : Bool :=
  toCheck.all isDigit && !toCheck.isEmpty

section

variable {c : UInt8} {parts : List Bytes} {i max : Int32}

/-- Parts without the delimiter, of which the last is not empty, come apart again. -/
theorem strSplit_intercalate (hparts : ∀ part ∈ parts, c ∉ part) (hne : parts ≠ [])
    (hlast : parts.getLast? ≠ some []) : strSplit ([c].intercalate parts) c = parts := by
  rw [strSplit, List.splitOn_intercalate c hparts hne, if_neg hlast]

theorem itos_of_nonneg (h : 0 ≤ i) : itos i = decimal i.toInt.natAbs := by
  rw [itos, if_neg (Int32.not_lt.2 h)]

theorem isNumber_itos (h : 0 ≤ i) : isNumber (itos i) = true := by
  rw [itos_of_nonneg h, isNumber, Bool.and_eq_true, List.all_eq_true, Bool.not_eq_true',
    List.isEmpty_eq_false_iff]
  exact ⟨fun b hb => isDigit_of_mem_decimal hb, decimal_ne_nil _⟩

/-- What is printed is read back, whatever its sign. -/
theorem atoi_itos (i : Int32) : atoi (itos i) = i := by
  have hlow := i.le_toInt
  have hhigh := i.toInt_lt
  by_cases hneg : i < 0
  · have hi : i.toInt < 0 := Int32.lt_iff_toInt_lt.1 hneg
    have hzero : (45 :: decimal i.toInt.natAbs).takeWhile (fun b => b ≠ 0) = 45 :: decimal i.toInt.natAbs := by
      refine List.takeWhile_eq_self_iff.2 fun b hb => ?_
      rcases List.mem_cons.1 hb with rfl | hb
      · rfl
      · rw [decide_eq_true_eq]
        rintro rfl
        exact absurd (isDigit_of_mem_decimal hb) (by decide)
    have htake := takeWhile_decimal (n := i.toInt.natAbs) noDigit_nil
    have hscan : scanInt (45 :: decimal i.toInt.natAbs) =
        (true, decimal i.toInt.natAbs, (decimal i.toInt.natAbs).dropWhile isDigit) := by
      rw [List.append_nil] at htake
      calc
        scanInt (45 :: decimal i.toInt.natAbs)
            = (true, (decimal i.toInt.natAbs).takeWhile isDigit, (decimal i.toInt.natAbs).dropWhile isDigit) :=
              rfl
        _ = _ := by rw [htake]
    rw [itos, if_pos hneg, atoi, hzero, hscan, ← Int32.toInt_inj]
    simp only [ofDigits_decimal, if_true]
    rw [Int32.toInt_ofInt_of_le (by omega) (by omega)]
    omega
  · rw [itos, if_neg hneg, ← Int32.toInt_inj]
    have hi : 0 ≤ i.toInt := Int32.le_iff_toInt_le.1 (Int32.not_lt.1 hneg)
    rw [atoi_decimal (by omega)]
    omega

theorem mem_itos {i : Int32} {b : UInt8} (h : b ∈ itos i) : b = 45 ∨ isDigit b = true := by
  unfold itos at h
  split at h
  · rcases List.mem_cons.1 h with rfl | h
    · exact .inl rfl
    · exact .inr (isDigit_of_mem_decimal h)
  · exact .inr (isDigit_of_mem_decimal h)

theorem mystoi_itos (h : 0 ≤ i) (hmax : i ≤ max) : mystoi (itos i) 0 max = i := by
  rw [mystoi, atoi_itos, if_neg (Int32.not_lt.2 h)]
  exact if_neg (Int32.not_lt.2 hmax)

/-- A number that was read lies within the bounds. -/
theorem mystoi_mem (str : Bytes) (h : 0 ≤ max) : 0 ≤ mystoi str 0 max ∧ mystoi str 0 max ≤ max := by
  rw [mystoi]
  split
  · -- below the lower bound
    rw [if_neg (Int32.not_lt.2 h)]
    exact ⟨Int32.le_refl 0, h⟩
  · rename_i hlow
    split
    · exact ⟨h, Int32.le_refl max⟩
    · rename_i hhigh
      exact ⟨Int32.not_lt.1 hlow, Int32.not_lt.1 hhigh⟩

end

end Util
end AxisEngine
