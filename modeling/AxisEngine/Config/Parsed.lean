import AxisEngine.Config.Blocks

/-!
# Parsed — what the reader can give

Whatever text is read, the names and values that come out of it are such that a text can hold them.

* `getMultiline_eq` — a value of several lines in one formula;
* `parse_conforms` — the names and values of an object that was read;
* `Reached` — the objects that exist.
-/

namespace AxisEngine
namespace Config

open Lib

/-- Lines as one value. -/
def joinLines (lines : List Bytes) : Bytes :=
  (lines.flatMap fun line => line ++ [10]).dropLast

/-- What an event carries came out of one line. -/
def SettingsParseEvent.Ok : SettingsParseEvent → Prop
  | .kvPair name value =>
    NameOk name ∧ (10 : UInt8) ∉ value ∧ trim value = value ∧ value ≠ ascii "\x7b" ∧ value ≠ quotes
  | .group name | .multiline name => NameOk name
  | .none | .invalid | .comment | .endTag => True

/-- What the operations make out of an empty object.  At each call the map may come into any order. -/
inductive Reached : Settings → Prop
  | empty : Reached .nil
  | set {s : Settings} (order : HashOrder) (name value : Bytes) :
      Reached s → Reached (s.set order name value).1
  | setGroup {s group : Settings} (order : HashOrder) (name : Bytes) :
      Reached s → Reached group → Reached (s.setGroup order name group).1
  | remove {s : Settings} (name : Bytes) : Reached s → Reached (s.remove name).1
  | parse {s : Settings} (order : HashOrder) (endTag text : Bytes) :
      Reached s → Reached (parseConfigLines order endTag (readLines text) s).2.1

section

variable {order : HashOrder} {endTag line text : Bytes} {is lines : List Bytes} {s : Settings}

/-! ## Values of several lines -/

theorem joinLines_eq (lines : List Bytes) : joinLines lines = [(10 : UInt8)].intercalate lines := by
  cases lines with
  | nil => rfl
  | cons line lines =>
    rw [joinLines, flatMap_eq_intercalate (List.cons_ne_nil _ _), List.dropLast_concat]

theorem readLines_joinLines (hlines : ∀ line ∈ lines, (10 : UInt8) ∉ line) (hne : lines ≠ []) :
    readLines (joinLines lines) = lines := by
  rw [joinLines_eq, readLines, List.splitOn_intercalate _ hlines hne]

/-- The value ends where the first line of quotes stands. -/
theorem getMultiline_eq (is : List Bytes) :
    getMultiline is = (joinLines (is.takeWhile fun line => line ≠ quotes),
      (is.dropWhile fun line => line ≠ quotes).tail) := by
  have hloop : ∀ (is : List Bytes) (acc : Bytes), getMultilineLoop is acc =
      (acc ++ (is.takeWhile fun line => line ≠ quotes).flatMap fun line => line ++ [10],
        (is.dropWhile fun line => line ≠ quotes).tail) := by
    intro is
    induction is with
    | nil => intro acc; simp [getMultilineLoop]
    | cons line is ih =>
      intro acc
      rw [getMultilineLoop]
      by_cases h : line = quotes
      · simp [h]
      · simp [h, ih]
  rw [getMultiline, hloop]
  rfl

theorem mem_of_mem_getMultiline (h : line ∈ (getMultiline is).2) : line ∈ is := by
  rw [getMultiline_eq] at h
  exact (List.dropWhile_suffix _).subset (List.mem_of_mem_tail h)

theorem valueOk_getMultiline (his : ∀ line ∈ is, (10 : UInt8) ∉ line) :
    ValueOk (getMultiline is).1 := by
  rw [getMultiline_eq, ValueOk]
  by_cases hne : (is.takeWhile fun line => line ≠ quotes) = []
  · rw [hne]
    exact of_decide_eq_true rfl
  · rw [readLines_joinLines (fun line hline => his line ((List.takeWhile_subset _) hline)) hne]
    intro hmem
    have htake := List.mem_takeWhile_imp hmem
    simp at htake

/-! ## One line -/

theorem parseConfigObject_ok (hline : (10 : UInt8) ∉ line) :
    (parseConfigObject endTag line).Ok := by
  have hmem : ∀ b, b ∈ trim line → b ∈ line := fun b hb => mem_of_mem_trim hb
  rw [parseConfigObject]
  by_cases hempty : trim line = []
  · simp only [if_pos hempty]
    trivial
  simp only [if_neg hempty]
  by_cases hcomment : (trim line).head? = some 35
  · rw [if_pos hcomment]
    trivial
  rw [if_neg hcomment]
  by_cases hend : trim line = endTag
  · rw [if_pos hend]
    trivial
  rw [if_neg hend]
  -- the name stands before the sign
  have hname : NameOk (trim ((trim line).takeWhile fun b => b ≠ 61)) := by
    refine ⟨trim_trim _, fun h => ?_, fun h => ?_, fun h => ?_⟩
    · have htake := List.mem_takeWhile_imp (mem_of_mem_trim h)
      simp at htake
    · exact hline (hmem 10 ((List.takeWhile_subset _) (mem_of_mem_trim h)))
    · cases hcase : trim line with
      | nil => exact hempty hcase
      | cons b l =>
        rw [hcase, List.takeWhile_cons] at h
        split at h
        · -- the first byte is no white space, so it is the first byte of the name
          have hb : isSpace b = false := by
            have hfirst := trim_trim line
            rw [hcase] at hfirst
            by_contra hspace
            rw [Bool.not_eq_false] at hspace
            have hshort := congrArg List.length (@trim_append_left [b] (by simpa using hspace) l)
            rw [List.singleton_append, hfirst] at hshort
            have hle : (trim l).length ≤ l.length := by
              rw [trim]
              exact (List.rdropWhile_prefix _ _).length_le.trans (List.dropWhile_suffix _).length_le
            rw [List.length_cons] at hshort
            omega
          have hhead := trim_append_cons hb [] (l.takeWhile fun b => b ≠ 61)
          rw [List.nil_append] at hhead
          rw [hhead] at h
          exact hcomment (by rw [hcase]; exact h)
        · cases h
  split
  · trivial
  · rename_i b after hafter
    split
    · exact hname
    · split
      · exact hname
      · rename_i hgroup hquotes
        refine ⟨hname, fun h => ?_, trim_trim _, hgroup, hquotes⟩
        have hdrop : (10 : UInt8) ∈ (trim line).dropWhile fun b => b ≠ 61 := by
          rw [hafter]
          exact List.mem_cons_of_mem _ (mem_of_mem_trim h)
        exact hline (hmem 10 ((List.dropWhile_suffix _).subset hdrop))

/-! ## All lines -/

theorem valueOk_of_line {value : Bytes} (hline : (10 : UInt8) ∉ value) (h : value ≠ quotes) :
    ValueOk value := by
  rw [ValueOk, readLines, List.splitOn_eq_singleton hline, List.mem_singleton]
  exact Ne.symm h

/-- What is read conforms, and what is left was to be read. -/
theorem parse_conforms (his : ∀ line ∈ is, (10 : UInt8) ∉ line) (hs : s.Conforms NameOk ValueOk) :
    (parseConfigLines order endTag is s).2.1.Conforms NameOk ValueOk ∧
      ∀ line ∈ (parseConfigLines order endTag is s).2.2, line ∈ is := by
  induction hn : is.length using Nat.strong_induction_on generalizing endTag is s with
  | _ n ih =>
    cases is with
    | nil => exact ⟨hs, fun line h => h⟩
    | cons line is =>
      have his' : ∀ line ∈ is, (10 : UInt8) ∉ line := fun line h =>
        his line (List.mem_cons_of_mem _ h)
      have hlen : is.length < n := by
        rw [← hn, List.length_cons]
        exact Nat.lt_succ_self _
      -- the rounds that follow read fewer lines
      have hrest : ∀ (endTag : Bytes) (rest : List Bytes) (s : Settings),
          rest.length ≤ is.length → (∀ line ∈ rest, line ∈ is) → s.Conforms NameOk ValueOk →
            (parseConfigLines order endTag rest s).2.1.Conforms NameOk ValueOk ∧
              ∀ line ∈ (parseConfigLines order endTag rest s).2.2, line ∈ is := by
        intro endTag rest s hle hsub hs
        rcases ih _ (hle.trans_lt hlen) (fun line h => his' line (hsub line h)) hs rfl with
          ⟨hconforms, hleft⟩
        exact ⟨hconforms, fun line h => hsub line (hleft line h)⟩
      have hcons : ∀ {left : List Bytes}, (∀ line ∈ left, line ∈ is) →
          ∀ line' ∈ left, line' ∈ line :: is := fun h line' hmem =>
        List.mem_cons_of_mem _ (h line' hmem)
      have hok : (parseConfigObject endTag line).Ok :=
        parseConfigObject_ok (his line (List.mem_cons_self ..))
      rw [parseConfigLines_cons]
      cases hevent : parseConfigObject endTag line with
      | none =>
        exact (hrest endTag is s le_rfl (fun _ h => h) hs).imp_right hcons
      | invalid =>
        exact (hrest endTag is s le_rfl (fun _ h => h) hs).imp_right hcons
      | comment =>
        exact (hrest endTag is s le_rfl (fun _ h => h) hs).imp_right hcons
      | endTag => exact ⟨hs, hcons fun _ h => h⟩
      | kvPair name value =>
        rw [hevent] at hok
        rcases hok with ⟨hname, hline, -, -, hquotes⟩
        exact (hrest endTag is _ le_rfl (fun _ h => h)
          (hs.put hname (Settings.conforms_value.2 (valueOk_of_line hline hquotes)))).imp_right
            hcons
      | multiline name =>
        rw [hevent] at hok
        exact (hrest endTag _ _ (length_getMultiline is) (fun _ h => mem_of_mem_getMultiline h)
          (hs.put hok (Settings.conforms_value.2 (valueOk_getMultiline his')))).imp_right hcons
      | group name =>
        rw [hevent] at hok
        have hlength := length_parseConfigLines order (ascii "\x7d") is .nil
        rcases hrest (ascii "\x7d") is .nil le_rfl (fun _ h => h) Settings.conforms_nil with
          ⟨hgroup, hleft⟩
        cases hparse : parseConfigLines order (ascii "\x7d") is .nil with
        | mk complete result =>
          rw [hparse] at hgroup hleft hlength
          cases complete with
          | true =>
            exact (hrest endTag _ _ hlength hleft
              (hs.put hok (Settings.conforms_group.2 hgroup))).imp_right hcons
          | false => exact ⟨hs, hcons hleft⟩

theorem newline_not_mem_readLines (text : Bytes) : ∀ line ∈ readLines text, (10 : UInt8) ∉ line :=
  fun _ h => (mem_splitOn h).1

theorem Reached.conforms (h : Reached s) : s.Conforms NameOk ValueOk := by
  induction h with
  | empty => exact Settings.conforms_nil
  | set order name value _ ih =>
    rw [Settings.set]
    split
    · rename_i hvalid
      rw [Bool.and_eq_true] at hvalid
      exact ih.put (nameOk_of_check hvalid.1)
        (Settings.conforms_value.2 (valueOk_of_check hvalid.2))
    · exact ih
  | setGroup order name _ _ ih ihgroup =>
    rw [Settings.setGroup]
    split
    · rename_i hvalid
      exact ih.put (nameOk_of_check hvalid) (Settings.conforms_group.2 ihgroup)
    · exact ih
  | remove name _ ih =>
    rw [Settings.remove]
    split
    · exact ih.erase
    · exact ih
  | parse order endTag text _ ih =>
    exact (parse_conforms (newline_not_mem_readLines text) ih).1

end

end Config
end AxisEngine
