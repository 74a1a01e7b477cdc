import AxisEngine.Lib.Decimal
import Mathlib.Data.List.TakeWhile
import Mathlib.Order.Defs.LinearOrder

/-!
# IStream — reading from a string

The part of `std::istream` that text formats are read with: the bytes that are still to come and
two flags.  A failed or exhausted stream gives nothing more.

* `getline`, `get`, `peek`, `unget`, `extract` — the reading operations;
* `getline_cons`, `getline_end` — a line that ends with its delimiter, and the last one.
-/

namespace AxisEngine
namespace Lib

structure IStream where
  rest : Bytes
  eof : Bool := false
  fail : Bool := false
  deriving DecidableEq

namespace IStream

variable (s : IStream)

def good : Bool :=
  !s.eof && !s.fail

/-- `std::getline`: the delimiter is taken out of the stream and does not come with the line. -/
def getline (delim : UInt8) : Bytes × IStream :=
  if s.good then
    match s.rest.dropWhile fun b => b ≠ delim with
    | _ :: rest => (s.rest.takeWhile fun b => b ≠ delim, { s with rest := rest })
    -- no delimiter: everything is the line, and reading nothing at all is a failure
    | [] => (s.rest, { rest := [], eof := true, fail := s.rest.isEmpty })
  else ([], { s with fail := true })

/-- `none` is `EOF`. -/
def get : Option UInt8 × IStream :=
  if s.good then
    match s.rest with
    | b :: rest => (some b, { s with rest := rest })
    | [] => (none, { s with eof := true, fail := true })
  else (none, { s with fail := true })

/-- `none` is `EOF`. -/
def peek : Option UInt8 × IStream :=
  if s.good then
    match s.rest with
    | b :: _ => (some b, s)
    | [] => (none, { s with eof := true })
  else (none, { s with fail := true })

/-- Put back the byte `b`, the last one that was read. -/
def unget (b : UInt8) : IStream :=
  if s.fail then { s with eof := false } else { s with rest := b :: s.rest, eof := false }

/-- `operator >>` for an unsigned integer up to `max`.  `none` leaves the variable as it was: no
attempt was made.  Too large a number gives `max`, and no number gives 0. -/
def extract (max : Nat) : Option Nat × IStream :=
  if !s.good then (none, { s with fail := true })
  else if (s.rest.dropWhile isSpace).isEmpty then
    (none, { rest := [], eof := true, fail := true })
  else
    let (negative, digits, rest) := scanInt s.rest
    let s := { rest := rest, eof := rest.isEmpty }
    if digits.isEmpty then (some 0, { s with fail := true })
    else if max < ofDigits digits then (some max, { s with fail := true })
    else if negative then (some ((max + 1 - ofDigits digits) % (max + 1)), s)
    else (some (ofDigits digits), s)

section

variable {line rest : Bytes} {delim : UInt8} {n max : Nat}

@[simp] theorem good_rest (rest : Bytes) : ({ rest := rest } : IStream).good = true := rfl

theorem takeWhile_ne_append (h : delim ∉ line) (rest : Bytes) :
    (line ++ delim :: rest).takeWhile (fun b => decide (b ≠ delim)) = line ∧
      (line ++ delim :: rest).dropWhile (fun b => decide (b ≠ delim)) = delim :: rest := by
  have hne : ∀ b ∈ line, decide (b ≠ delim) = true := by
    intro b hb
    rw [decide_eq_true_eq]
    rintro rfl
    exact h hb
  rw [List.takeWhile_append_of_pos hne, List.dropWhile_append_of_pos hne]
  simp

/-- A line comes out whole when it does not have the delimiter in it. -/
theorem getline_cons (h : delim ∉ line) (rest : Bytes) :
    ({ rest := line ++ delim :: rest } : IStream).getline delim = (line, { rest := rest }) := by
  rcases takeWhile_ne_append h rest with ⟨htake, hdrop⟩
  simp only [getline, good_rest, if_true, hdrop, htake]

/-- The last line has no delimiter. -/
theorem getline_end (h : delim ∉ line) :
    ({ rest := line } : IStream).getline delim =
      (line, { rest := [], eof := true, fail := line.isEmpty }) := by
  have hnone : line.dropWhile (fun b => decide (b ≠ delim)) = [] := by
    rw [List.dropWhile_eq_nil_iff]
    intro b hb
    rw [decide_eq_true_eq]
    rintro rfl
    exact h hb
  simp only [getline, good_rest, if_true, hnone]

/-- No line has its delimiter in it. -/
theorem not_mem_getline (s : IStream) (delim : UInt8) : delim ∉ (s.getline delim).1 := by
  rw [getline]
  split
  · split
    · intro hmem
      have hne := List.mem_takeWhile_imp hmem
      exact absurd hne (by simp)
    · rename_i hnone
      intro hmem
      have hne := List.dropWhile_eq_nil_iff.1 hnone delim hmem
      exact absurd hne (by simp)
  · exact List.not_mem_nil

theorem mem_of_mem_getline {s : IStream} {b : UInt8} (h : b ∈ (s.getline delim).1) : b ∈ s.rest := by
  rw [getline] at h
  split at h
  · split at h
    · exact (List.takeWhile_subset _) h
    · exact h
  · cases h

/-- What is left was to come before. -/
theorem mem_of_mem_rest_getline {s : IStream} {b : UInt8} (h : b ∈ (s.getline delim).2.rest) :
    b ∈ s.rest := by
  rw [getline] at h
  split at h
  · split at h
    · rename_i hdrop
      refine (List.dropWhile_suffix _).subset (hdrop ▸ List.mem_cons_of_mem _ h)
    · cases h
  · exact h

/-- A printed number is read back. -/
theorem extract_decimal (hn : n ≤ max) (hrest : NoDigit rest) :
    ({ rest := decimal n ++ rest } : IStream).extract max =
      (some n, { rest := rest, eof := rest.isEmpty }) := by
  have hscan := scanInt_decimal n hrest
  have hnonempty : ((decimal n ++ rest).dropWhile isSpace).isEmpty = false := by
    cases hdrop : (decimal n ++ rest).dropWhile isSpace with
    | nil =>
      -- then the digits would all be blanks
      rw [scanInt, hdrop] at hscan
      simp only [List.takeWhile_nil, Prod.mk.injEq] at hscan
      exact absurd hscan.2.1.symm (decimal_ne_nil n)
    | cons _ _ => rfl
  have hdigits : (decimal n).isEmpty = false := by
    rw [List.isEmpty_eq_false_iff]
    exact decimal_ne_nil n
  rw [extract]
  simp only [good, hnonempty, hscan, hdigits, ofDigits_decimal, if_neg (not_lt.2 hn),
    Bool.not_false, Bool.and_self, Bool.not_true, Bool.false_eq_true, if_false]

end

end IStream

end Lib
end AxisEngine
