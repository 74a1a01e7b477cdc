import AxisEngine.Lib.Decimal
import Mathlib.Data.List.DropRight

/-!
# Trim — text without the white space around it

* `trim` — white space is taken off both ends;
* `trim_append_cons` — a byte that is no white space keeps the two ends apart;
* `trim_trim` — what is trimmed stays as it is.
-/

namespace AxisEngine
namespace Lib

def trim (s : Bytes) : Bytes :=
  (s.dropWhile isSpace).rdropWhile isSpace

section

variable {s l r : Bytes} {b : UInt8}

theorem rdropWhile_append_cons (h : isSpace b = false) (l r : Bytes) :
    (l ++ b :: r).rdropWhile isSpace = l ++ b :: r.rdropWhile isSpace := by
  induction r using List.reverseRecOn with
  | nil => exact List.rdropWhile_concat_neg isSpace l b (by rw [h]; exact Bool.false_ne_true)
  | append_singleton r c ih =>
    have hassoc : l ++ b :: (r ++ [c]) = (l ++ b :: r) ++ [c] := by simp
    rw [hassoc, List.rdropWhile_concat, List.rdropWhile_concat, ih]
    split
    · rfl
    · simp

theorem dropWhile_append_cons (h : isSpace b = false) (l r : Bytes) :
    (l ++ b :: r).dropWhile isSpace = l.dropWhile isSpace ++ b :: r := by
  induction l with
  | nil => rw [List.nil_append, List.dropWhile_cons, h, if_neg Bool.false_ne_true]; rfl
  | cons a l ih =>
    rw [List.cons_append, List.dropWhile_cons, List.dropWhile_cons, ih]
    split
    · rfl
    · rfl

/-- Around a byte that is no white space each end is trimmed for itself. -/
theorem trim_append_cons (h : isSpace b = false) (l r : Bytes) :
    trim (l ++ b :: r) = l.dropWhile isSpace ++ b :: r.rdropWhile isSpace := by
  rw [trim, dropWhile_append_cons h, rdropWhile_append_cons h]

theorem trim_of_all (h : ∀ b ∈ s, isSpace b = true) : trim s = [] := by
  rw [trim, List.dropWhile_eq_nil_iff.2 h, List.rdropWhile_nil]

/-- Either everything is white space, or there is a byte that is none. -/
theorem all_or_split (s : Bytes) :
    (∀ b ∈ s, isSpace b = true) ∨ ∃ l b r, s = l ++ b :: r ∧ isSpace b = false := by
  by_cases h : ∀ b ∈ s, isSpace b = true
  · exact .inl h
  · push Not at h
    rcases h with ⟨b, hb, hne⟩
    rcases List.append_of_mem hb with ⟨l, r, rfl⟩
    exact .inr ⟨l, b, r, rfl, Bool.not_eq_true _ ▸ hne⟩

theorem trim_dropWhile (s : Bytes) : trim (s.dropWhile isSpace) = trim s := by
  rw [trim, trim, List.dropWhile_idempotent]

theorem trim_rdropWhile (s : Bytes) : trim (s.rdropWhile isSpace) = trim s := by
  rcases all_or_split s with h | ⟨l, b, r, rfl, hb⟩
  · rw [List.rdropWhile_eq_nil_iff.2 h, trim_of_all h]
    rfl
  · rw [rdropWhile_append_cons hb, trim_append_cons hb, trim_append_cons hb,
      List.rdropWhile_idempotent]

/-- What is trimmed stays as it is. -/
@[simp] theorem trim_trim (s : Bytes) : trim (trim s) = trim s := by
  have hleft : trim (trim s) = trim (s.dropWhile isSpace) := trim_rdropWhile _
  rw [hleft, trim_dropWhile]

@[simp] theorem trim_nil : trim [] = [] := rfl

/-- White space before a text does not count. -/
theorem trim_append_left (h : ∀ b ∈ l, isSpace b = true) (s : Bytes) : trim (l ++ s) = trim s := by
  rw [trim, trim, List.dropWhile_append_of_pos h]

/-- White space behind a text does not count. -/
theorem trim_append_right (h : ∀ b ∈ r, isSpace b = true) (s : Bytes) : trim (s ++ r) = trim s := by
  rcases all_or_split s with hs | ⟨l, b, r', rfl, hb⟩
  · rw [trim_append_left hs, trim_of_all h, trim_of_all hs]
  · have hassoc : l ++ b :: r' ++ r = l ++ b :: (r' ++ r) := by simp
    have hright : (r' ++ r).rdropWhile isSpace = r'.rdropWhile isSpace := by
      rw [List.rdropWhile, List.rdropWhile, List.reverse_append,
        List.dropWhile_append_of_pos fun b hb => h b (List.mem_reverse.1 hb)]
    rw [hassoc, trim_append_cons hb, trim_append_cons hb, hright]

theorem mem_of_mem_trim (h : b ∈ trim s) : b ∈ s :=
  (List.dropWhile_suffix _).subset ((List.rdropWhile_prefix _ _).subset h)

theorem trim_eq_self_of_no_space (h : ∀ b ∈ s, isSpace b = false) : trim s = s := by
  have hfirst : s.dropWhile isSpace = s := by
    refine List.dropWhile_eq_self_iff.2 fun hlen => ?_
    rw [h _ (List.getElem_mem hlen)]
    exact Bool.false_ne_true
  rw [trim, hfirst]
  refine List.rdropWhile_eq_self_iff.2 fun hne => ?_
  rw [h _ (List.getLast_mem hne)]
  exact Bool.false_ne_true

end

end Lib
end AxisEngine
