import AxisEngine.Lib.Bytes
import Mathlib.Algebra.Group.Int.Defs
import Mathlib.Algebra.Group.Nat.Defs
import Mathlib.Tactic.Basic

/-!
# Decimal — numbers in text

Numbers as C and C++ print and read them.

* `decimal` — the digits of a number;
* `scanInt` — blanks, a sign and digits at the start of a text;
* `atoi` — the C function;
* `scanInt_decimal`, `atoi_decimal` — what is printed is read back.
-/

namespace AxisEngine
namespace Lib

def isSpace (b : UInt8) : Bool :=
  b = 32 || (9 ≤ b && b ≤ 13)

def isDigit (b : UInt8) : Bool :=
  48 ≤ b && b ≤ 57

def isLetter (b : UInt8) : Bool :=
  (65 ≤ b && b ≤ 90) || (97 ≤ b && b ≤ 122)

/-- A number in decimal digits. -/
def decimal (n : Nat) : Bytes :=
  (Nat.toDigits 10 n).map fun c => UInt8.ofNat c.toNat

/-- The number that digits stand for. -/
def ofDigits (digits : Bytes) : Nat :=
  digits.foldl (fun n d => 10 * n + (d.toNat - 48)) 0

/-- Whether there is a minus sign, the digits, and what follows them. -/
def scanInt (s : Bytes) : Bool × Bytes × Bytes :=
  match s.dropWhile isSpace with
  | 45 :: s => (true, s.takeWhile isDigit, s.dropWhile isDigit)
  | 43 :: s => (false, s.takeWhile isDigit, s.dropWhile isDigit)
  | s => (false, s.takeWhile isDigit, s.dropWhile isDigit)

/-- `(int) strtol(s, NULL, 10)`: the string ends at a zero byte, `strtol` stays within 64 bits, and
the conversion to `int` takes the lower 32. -/
def atoi (s : Bytes) : Int32 :=
  let (negative, digits, _) := scanInt (s.takeWhile fun b => b ≠ 0)
  let value : Int := if negative then -ofDigits digits else ofDigits digits
  Int32.ofInt (max (-2 ^ 63) (min (2 ^ 63 - 1) value))

section

variable {n : Nat} {b : UInt8} {rest : Bytes}

theorem toNat_ofNat_digit {c : Char} (hc : c.isDigit = true) :
    (UInt8.ofNat c.toNat).toNat = c.toNat ∧ 48 ≤ c.toNat ∧ c.toNat ≤ 57 := by
  simp only [Char.isDigit, Bool.and_eq_true, decide_eq_true_eq] at hc
  have hlow : 48 ≤ c.toNat := UInt32.le_iff_toNat_le.1 hc.1
  have hhigh : c.toNat ≤ 57 := UInt32.le_iff_toNat_le.1 hc.2
  refine ⟨?_, hlow, hhigh⟩
  rw [UInt8.toNat_ofNat']
  omega

theorem isDigit_iff : isDigit b = true ↔ 48 ≤ b.toNat ∧ b.toNat ≤ 57 := by
  rw [isDigit, Bool.and_eq_true, decide_eq_true_eq, decide_eq_true_eq, UInt8.le_iff_toNat_le,
    UInt8.le_iff_toNat_le]
  rfl

theorem isDigit_of_mem_decimal (h : b ∈ decimal n) : isDigit b = true := by
  rcases List.mem_map.1 h with ⟨c, hc, rfl⟩
  rcases toNat_ofNat_digit (Nat.isDigit_of_mem_toDigits (by decide) (by decide) hc) with
    ⟨heq, hlow, hhigh⟩
  rw [isDigit_iff, heq]
  exact ⟨hlow, hhigh⟩

theorem decimal_ne_nil (n : Nat) : decimal n ≠ [] := by
  rw [decimal, Ne, List.map_eq_nil_iff]
  exact Nat.toDigits_ne_nil

/-- The digits of a number stand for it. -/
theorem ofDigits_decimal (n : Nat) : ofDigits (decimal n) = n := by
  have hchars : ∀ (cs : List Char) (m : Nat), (∀ c ∈ cs, c.isDigit = true) →
      (cs.map fun c => UInt8.ofNat c.toNat).foldl (fun n d => 10 * n + (d.toNat - 48)) m =
        Nat.ofDigitChars 10 cs m := by
    intro cs
    induction cs with
    | nil => exact fun m _ => rfl
    | cons c cs ih =>
      intro m hcs
      have hdigit := (toNat_ofNat_digit (hcs c (List.mem_cons_self ..))).1
      rw [List.map_cons, List.foldl_cons, hdigit, Nat.ofDigitChars_cons]
      exact ih _ fun c hc => hcs c (List.mem_cons_of_mem _ hc)
  have hall : ∀ c ∈ Nat.toDigits 10 n, c.isDigit = true := fun c hc =>
    Nat.isDigit_of_mem_toDigits (by decide) (by decide) hc
  calc ofDigits (decimal n) = Nat.ofDigitChars 10 (Nat.toDigits 10 n) 0 := hchars _ 0 hall
    _ = n := Nat.ofDigitChars_ten_toDigits

/-- The text does not go on with a digit. -/
def NoDigit (rest : Bytes) : Prop :=
  ∀ b, rest.head? = some b → isDigit b = false

theorem noDigit_nil : NoDigit [] :=
  fun b hb => by cases hb

theorem takeWhile_decimal (hrest : NoDigit rest) :
    (decimal n ++ rest).takeWhile isDigit = decimal n := by
  rw [List.takeWhile_append_of_pos fun b hb => isDigit_of_mem_decimal hb]
  cases rest with
  | nil => rw [List.takeWhile_nil, List.append_nil]
  | cons b rest => rw [List.takeWhile_cons, hrest b rfl, if_neg Bool.false_ne_true, List.append_nil]

theorem dropWhile_decimal (hrest : NoDigit rest) :
    (decimal n ++ rest).dropWhile isDigit = rest := by
  rw [List.dropWhile_append_of_pos fun b hb => isDigit_of_mem_decimal hb]
  cases rest with
  | nil => rfl
  | cons b rest => rw [List.dropWhile_cons, hrest b rfl, if_neg Bool.false_ne_true]

theorem scanInt_decimal (n : Nat) (hrest : NoDigit rest) :
    scanInt (decimal n ++ rest) = (false, decimal n, rest) := by
  cases hdigits : decimal n with
  | nil => exact absurd hdigits (decimal_ne_nil n)
  | cons d ds =>
    have hd : isDigit d = true := isDigit_of_mem_decimal (n := n) (by
      rw [hdigits]
      exact List.mem_cons_self ..)
    rcases isDigit_iff.1 hd with ⟨hlow, hhigh⟩
    have hspace : isSpace d = false := by
      rw [← Bool.not_eq_true, isSpace]
      simp only [Bool.or_eq_true, Bool.and_eq_true, decide_eq_true_eq, UInt8.le_iff_toNat_le]
      rintro (rfl | ⟨-, hle⟩)
      · exact absurd hlow (by decide)
      · have h13 : (13 : UInt8).toNat = 13 := rfl
        omega
    have htake := takeWhile_decimal (n := n) hrest
    have hdrop := dropWhile_decimal (n := n) hrest
    rw [hdigits] at htake hdrop
    rw [scanInt, List.cons_append, List.dropWhile_cons, hspace, if_neg Bool.false_ne_true]
    split
    · rename_i heq
      cases heq
      exact absurd hlow (by decide)
    · rename_i heq
      cases heq
      exact absurd hlow (by decide)
    · rw [← List.cons_append, htake, hdrop]

/-- What is printed is read back, up to `INT_MAX`. -/
theorem atoi_decimal (hn : n < 2 ^ 31) : (atoi (decimal n)).toInt = n := by
  have hzero : (decimal n).takeWhile (fun b => b ≠ 0) = decimal n := by
    have hne : ∀ b ∈ decimal n, decide (b ≠ 0) = true := by
      intro b hb
      rw [decide_eq_true_eq]
      rintro rfl
      exact absurd (isDigit_of_mem_decimal hb) (by decide)
    have happend : (decimal n ++ []).takeWhile (fun b => decide (b ≠ 0)) = _ :=
      List.takeWhile_append_of_pos hne
    rwa [List.takeWhile_nil, List.append_nil] at happend
  have hscan := scanInt_decimal n noDigit_nil
  rw [List.append_nil] at hscan
  rw [atoi, hzero, hscan]
  simp only [ofDigits_decimal, Bool.false_eq_true, if_false]
  rw [Int32.toInt_ofInt_of_le (by omega) (by omega)]
  omega

end

end Lib
end AxisEngine
