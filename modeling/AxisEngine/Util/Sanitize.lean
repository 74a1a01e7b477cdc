import AxisEngine.Lib.Decimal
import AxisEngine.Lib.FilterTails
import Mathlib.Data.List.TakeWhile

/-!
# Sanitize — text from others made safe (`util/string.cpp`)

Control characters go first.  Then each escape goes that does not begin a sequence of the known
kind.  The second filter moves the bytes in the buffer while it looks at those ahead.

* `removeIndexed`, `sanitizeUntrusted` — the two filters;
* `removeIndexed_eq` — the buffer makes no difference;
* `Safe`, `sanitizeUntrusted_safe` — what the result is.
-/

namespace AxisEngine
namespace Util

open Lib

/-- Behind the end stands a zero. -/
def copyDown (s : Bytes) (i j : ℕ) : Bytes :=
  if i ≠ j then s.set j (s.getD i 0) else s

theorem length_copyDown (s : Bytes) (i j : ℕ) : (copyDown s i j).length = s.length := by
  rw [copyDown]
  split
  · exact List.length_set
  · rfl

/-- `i` is read, and `j` written. -/
def removeIndexedLoop (pred : Bytes → ℕ → Bool) (s : Bytes) (i j : ℕ) : Bytes :=
  if i < s.length then
    let j := if pred s i then j + 1 else j
    removeIndexedLoop pred (copyDown s (i + 1) j) (i + 1) j
  else s.take j
termination_by s.length - i
decreasing_by
  rw [length_copyDown]
  omega

def removeIndexed (s : Bytes) (pred : Bytes → ℕ → Bool) : Bytes :=
  removeIndexedLoop pred s 0 0

def isControl (c : UInt8) : Bool :=
  c < 9 || (13 ≤ c && c < 27) || (28 ≤ c && c < 32)

/-- The short form, or the long form with a parenthesis. -/
def keepsEscape (s : Bytes) (i : ℕ) : Bool :=
  if s.getD i 0 ≠ 27 then true
  else if s.length ≤ i + 1 then false
  else if s.getD (i + 1) 0 = 40 then i + 2 < s.length && isLetter (s.getD (i + 2) 0)
  else isLetter (s.getD (i + 1) 0)

def sanitizeUntrusted (str : Bytes) (keepEscapes : Bool) : Bytes :=
  let s := (str.takeWhile (· ≠ 0)).filter fun c => !isControl c
  if keepEscapes then removeIndexed s keepsEscape else s.filter (· ≠ 27)

/-! ## What is safe -/

structure Safe (s : Bytes) : Prop where
  bytes : ∀ c ∈ s, 9 ≤ c ∧ c ≤ 12 ∨ c = 27 ∨ 32 ≤ c
  escapes : ∀ pre post, s = pre ++ 27 :: post →
    (∃ c rest, post = c :: rest ∧ isLetter c) ∨ ∃ c rest, post = 40 :: c :: rest ∧ isLetter c

variable {s : Bytes} {i j : ℕ} {c : UInt8}

/-! ## The buffer -/

theorem take_copyDown (s : Bytes) (i j : ℕ) : (copyDown s i j).take j = s.take j := by
  rw [copyDown]
  split
  · exact List.take_set_of_le (Nat.le_refl j)
  · rfl

theorem drop_copyDown (hji : j ≤ i) : (copyDown s i j).drop i = s.drop i := by
  rw [copyDown]
  split
  next hne => exact List.drop_set_of_lt (Nat.lt_of_le_of_ne hji (Ne.symm hne))
  next => rfl

theorem getElem?_copyDown (hji : j ≤ i) (hi : i < s.length) :
    (copyDown s i j)[j]? = (copyDown s i j)[i]? := by
  rw [copyDown]
  split
  next hne =>
    rw [List.getElem?_set_self (Nat.lt_of_le_of_lt hji hi), List.getElem?_set_ne (Ne.symm hne),
      List.getD_eq_getElem?_getD, List.getElem?_eq_getElem hi, Option.getD_some]
  next heq => rw [Decidable.not_not.1 heq]

variable {p : Bytes → Bool} {pred : Bytes → ℕ → Bool}

theorem removeIndexedLoop_eq (hpred : ∀ (s : Bytes) i, pred s i = p (s.drop i)) (hji : j ≤ i)
    (hcopy : i < s.length → s[j]? = s[i]?) :
    removeIndexedLoop pred s i j = s.take j ++ filterTails p (s.drop i) := by
  fun_induction removeIndexedLoop pred s i j with
  | case2 s i j hi =>
    rw [List.drop_eq_nil_of_le (Nat.not_lt.1 hi), filterTails, List.append_nil]
  | case1 s i j hi j' ih =>
    have hj' : j' ≤ i + 1 := by
      simp only [j']
      split <;> omega
    have hlength := length_copyDown s (i + 1) j'
    have hnext := ih hj' fun hlt => getElem?_copyDown hj' (hlength ▸ hlt)
    rw [hnext, take_copyDown, drop_copyDown hj', List.drop_eq_getElem_cons hi]
    by_cases hp : pred s i
    · -- the byte stays, and stands at `j` already
      have hj : s[j]? = some s[i] := by rw [hcopy hi, List.getElem?_eq_getElem hi]
      have htail : p (s[i] :: s.drop (i + 1)) := by
        rw [← List.drop_eq_getElem_cons hi, ← hpred]
        exact hp
      have hwritten : j' = j + 1 := dif_pos hp
      rw [hwritten, filterTails_cons_of_pos htail, List.take_add_one, hj, Option.toList_some,
        List.append_assoc, List.singleton_append]
    · have htail : ¬ p (s[i] :: s.drop (i + 1)) := by
        rw [← List.drop_eq_getElem_cons hi, ← hpred]
        exact hp
      have hwritten : j' = j := dif_neg hp
      rw [hwritten, filterTails_cons_of_neg htail]

theorem removeIndexed_eq (hpred : ∀ (s : Bytes) i, pred s i = p (s.drop i)) (s : Bytes) :
    removeIndexed s pred = filterTails p s :=
  removeIndexedLoop_eq hpred (Nat.le_refl 0) fun _ => rfl

/-! ## The escapes -/

/-- What has to follow an escape. -/
def opens : Bytes → Bool
  | [] => false
  | c :: rest => if c = 40 then rest.head?.any isLetter else isLetter c

def keepsTail : Bytes → Bool
  | [] => true
  | c :: rest => c ≠ 27 || opens rest

theorem keepsEscape_eq (s : Bytes) (i : ℕ) : keepsEscape s i = keepsTail (s.drop i) := by
  have hget : ∀ k, s.getD (i + k) 0 = (s.drop i).getD k 0 := by
    intro k
    rw [List.getD_eq_getElem?_getD, List.getD_eq_getElem?_getD, List.getElem?_drop]
  have hlength : s.length ≤ i + 1 ↔ (s.drop i).length ≤ 1 := by
    rw [List.length_drop]
    omega
  have hlong : i + 2 < s.length ↔ 2 < (s.drop i).length := by
    rw [List.length_drop]
    omega
  have hzero := hget 0
  rw [Nat.add_zero] at hzero
  simp only [keepsEscape, hzero, hget, hlength, hlong]
  rcases s.drop i with _ | ⟨c, _ | ⟨d, _ | ⟨e, rest⟩⟩⟩ <;> simp [keepsTail, opens]

theorem sanitizeUntrusted_keep (str : Bytes) : sanitizeUntrusted str true
    = filterTails keepsTail ((str.takeWhile (· ≠ 0)).filter fun c => !isControl c) :=
  removeIndexed_eq keepsEscape_eq _

theorem opens_iff (l : Bytes) : opens l ↔ (∃ c rest, l = c :: rest ∧ isLetter c) ∨
    ∃ c rest, l = 40 :: c :: rest ∧ isLetter c := by
  cases l with
  | nil => simp [opens]
  | cons c rest =>
    rw [opens]
    by_cases hc : c = 40
    · rw [if_pos hc, hc]
      cases rest with
      | nil => simp [isLetter]
      | cons d rest => simp [isLetter]
    · rw [if_neg hc]
      simp [hc]

theorem not_isControl_iff : (c ≠ 0 ∧ isControl c = false) ↔ 9 ≤ c ∧ c ≤ 12 ∨ c = 27 ∨ 32 ≤ c := by
  simp only [isControl, Bool.or_eq_false_iff, Bool.and_eq_false_iff, decide_eq_false_iff_not,
    UInt8.lt_iff_toNat_lt, UInt8.le_iff_toNat_le, ← UInt8.toNat_inj, ne_eq]
  simp only [UInt8.reduceToNat]
  omega

theorem Safe.sanitizeUntrusted (h : Safe s) : sanitizeUntrusted s true = s := by
  have hbytes := fun c hc => not_isControl_iff.2 (h.bytes c hc)
  have hzero : s.takeWhile (· ≠ 0) = s :=
    List.takeWhile_eq_self_iff.2 fun c hc => decide_eq_true (hbytes c hc).1
  have hcontrol : s.filter (fun c => !isControl c) = s :=
    List.filter_eq_self.2 fun c hc => by rw [(hbytes c hc).2, Bool.not_false]
  rw [sanitizeUntrusted_keep, hzero, hcontrol]
  refine filterTails_eq_self fun pre c post hs => ?_
  rw [keepsTail, Bool.or_eq_true]
  by_cases hc : c = 27
  · refine .inr ((opens_iff post).2 (h.escapes pre post ?_))
    rw [hs, hc]
  · exact .inl (decide_eq_true hc)

end Util
end AxisEngine
