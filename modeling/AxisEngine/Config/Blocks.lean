import AxisEngine.Config.ConfigText
import AxisEngine.Lib.IStream
import AxisEngine.Lib.SplitOn

/-!
# Blocks — what is written, piece by piece

The text of an object is a row of blocks: a value, the line that opens a group, and the line that
closes one.  What the reader does at a block depends on that block only, apart from a value that
opens something itself.

* `Block`, `Settings.blocks` — the pieces of a text;
* `readLines_writeLines` — the lines of a text are the lines of its blocks;
* `parse_value`, `parse_multiline`, `parse_opening`, `parse_closing` — the reader at a block.
-/

namespace AxisEngine
namespace Config

open Lib

inductive Block
  | value (tabDepth : Nat) (name value : Bytes)
  | opening (tabDepth : Nat) (name : Bytes)
  | closing (tabDepth : Nat)

/-- What a line of an entry starts with. -/
def lead (tabDepth : Nat) (name : Bytes) : Bytes :=
  tabs tabDepth ++ name ++ ascii " = "

def Block.lines : Block → List Bytes
  | .value tabDepth name v =>
    if (10 : UInt8) ∈ v then (lead tabDepth name ++ quotes) :: (readLines v ++ [quotes])
    else [lead tabDepth name ++ v]
  | .opening tabDepth name => [lead tabDepth name ++ ascii "\x7b"]
  | .closing tabDepth => [tabs tabDepth ++ ascii "\x7d"]

def Settings.blocks : Settings → Nat → List Block
  | .nil, _ => []
  | .cons name (.value v) rest, tabDepth => .value tabDepth name v :: rest.blocks tabDepth
  | .cons name (.group g) rest, tabDepth =>
    .opening tabDepth name :: (g.blocks (tabDepth + 1) ++
      .closing (tabDepth + 1) :: rest.blocks tabDepth)

/-- The lines of an object's text. -/
def Settings.lines (s : Settings) (tabDepth : Nat) : List Bytes :=
  (s.blocks tabDepth).flatMap Block.lines

/-- The lines behind the entries of an object. -/
def endLines (endTag : Bytes) : List Bytes :=
  if endTag = [] then [[]] else [endTag, []]

/-- A name as the reader gives it. -/
def NameOk (name : Bytes) : Prop :=
  trim name = name ∧ (61 : UInt8) ∉ name ∧ (10 : UInt8) ∉ name ∧ name.head? ≠ some 35

/-- No line of the value ends it. -/
def ValueOk (value : Bytes) : Prop :=
  quotes ∉ readLines value

/-- An end tag that no entry can be taken for: none of `="#`, and no white space. -/
def EndTagOk (endTag : Bytes) : Prop :=
  ∀ b ∈ endTag, b ∉ ascii "=\"#" ∧ isSpace b = false

section

variable {order : HashOrder} {endTag name value line : Bytes} {is : List Bytes} {s t : Settings}
variable {tabDepth : Nat} {b : UInt8}

/-! ## Names and end tags -/

/-- What `set` accepts as a name is one. -/
theorem nameOk_of_check (h : checkNameValid name = true) : NameOk name := by
  rw [checkNameValid, List.all_eq_true] at h
  have hplain : ∀ b ∈ ascii "=\"\x7b\x7d#", b ∉ name := by
    intro b hb hmem
    have hcheck := h b hmem
    rw [Bool.and_eq_true, Bool.not_eq_true', ← Bool.not_eq_true, List.contains_iff_mem] at hcheck
    exact hcheck.1 hb
  have hspace : ∀ b ∈ name, isSpace b = false := by
    intro b hb
    have hcheck := h b hb
    rw [Bool.and_eq_true] at hcheck
    simpa using hcheck.2
  refine ⟨trim_eq_self_of_no_space hspace, hplain 61 (by decide), fun hmem => ?_, fun hhead => ?_⟩
  · exact absurd (hspace 10 hmem) (by decide)
  · exact hplain 35 (by decide) (List.mem_of_head? hhead)

/-- What `set` accepts as a value is one. -/
theorem valueOk_of_check (h : checkValueValid value = true) : ValueOk value := by
  rw [checkValueValid, Bool.and_eq_true, Bool.not_eq_true', Bool.not_eq_true'] at h
  intro hmem
  rcases (mem_splitOn hmem).2 with hfront | hinner
  · have htrue := List.isPrefixOf_iff_prefix.2 hfront
    rw [h.1] at htrue
    cases htrue
  · exact of_decide_eq_false h.2 hinner

theorem ValueOk.ne_quotes (h : ValueOk value) : value ≠ quotes := by
  rintro rfl
  exact h (by decide)

theorem isSpace_of_mem_tabs (h : b ∈ tabs tabDepth) : isSpace b = true := by
  rw [List.eq_of_mem_replicate h]
  rfl

theorem not_mem_tabs (hb : b ≠ 9) : b ∉ tabs tabDepth :=
  fun h => hb (List.eq_of_mem_replicate h)

theorem newline_not_mem_lead (h : NameOk name) : (10 : UInt8) ∉ lead tabDepth name := by
  rw [lead, List.mem_append, List.mem_append, not_or, not_or]
  exact ⟨⟨not_mem_tabs (by decide), h.2.2.1⟩, by decide⟩

theorem EndTagOk.not_mem (h : EndTagOk endTag) (hb : b ∈ ascii "=\"#" ∨ isSpace b = true) :
    b ∉ endTag := by
  intro hmem
  rcases hb with hb | hb
  · exact (h b hmem).1 hb
  · rw [(h b hmem).2] at hb
    cases hb

theorem endTagOk_nil : EndTagOk [] :=
  fun _ h => absurd h List.not_mem_nil

theorem endTagOk_group : EndTagOk (ascii "\x7d") := by
  unfold EndTagOk
  decide +kernel

/-! ## The lines of a text -/

theorem readLines_cons (h : (10 : UInt8) ∉ line) (text : Bytes) :
    readLines (line ++ 10 :: text) = line :: readLines text :=
  splitOn_cons_of_not_mem h text

theorem readLines_append (line text : Bytes) :
    readLines (line ++ 10 :: text) = readLines line ++ readLines text :=
  List.splitOn_append_cons_self line text

theorem lines_value (tabDepth : Nat) (name value : Bytes) (rest : Settings) :
    (Settings.cons name (.value value) rest).lines tabDepth =
      (Block.value tabDepth name value).lines ++ rest.lines tabDepth := by
  rw [Settings.lines, Settings.blocks, List.flatMap_cons, Settings.lines]

theorem lines_group (tabDepth : Nat) (name : Bytes) (group rest : Settings) :
    (Settings.cons name (.group group) rest).lines tabDepth =
      (Block.opening tabDepth name).lines ++ (group.lines (tabDepth + 1) ++
        ((Block.closing (tabDepth + 1)).lines ++ rest.lines tabDepth)) := by
  rw [Settings.lines, Settings.blocks, List.flatMap_cons, List.flatMap_append, List.flatMap_cons,
    Settings.lines, Settings.lines]

/-- The lines of a text are the lines of its blocks. -/
theorem readLines_writeEntries {V : Bytes → Prop} (hs : s.Conforms NameOk V) (tabDepth : Nat)
    (text : Bytes) :
    readLines (writeEntries s tabDepth ++ text) = s.lines tabDepth ++ readLines text := by
  induction s using Settings.treeInduct generalizing tabDepth text with
  | nil => rw [writeEntries, Settings.lines, Settings.blocks]; rfl
  | value name value rest ih =>
    rcases Settings.conforms_cons.1 hs with ⟨-, hname, -, hrest⟩
    have hlead : (10 : UInt8) ∉ lead tabDepth name := newline_not_mem_lead hname
    rw [lines_value, Block.lines, writeEntries, printEntry]
    by_cases hmulti : (10 : UInt8) ∈ value
    · have hheader : (10 : UInt8) ∉ lead tabDepth name ++ quotes := by
        rw [List.mem_append, not_or]
        exact ⟨hlead, by decide⟩
      have htext : tabs tabDepth ++ name ++ ascii " = " ++
          (ascii "\"\"\"\n" ++ value ++ ascii "\n\"\"\"\n") ++ writeEntries rest tabDepth ++ text =
          (lead tabDepth name ++ quotes) ++ 10 :: (value ++ 10 :: (quotes ++ 10 ::
            (writeEntries rest tabDepth ++ text))) := by
        simp [lead, quotes, ascii]
      rw [if_pos hmulti, if_pos hmulti, htext, readLines_cons hheader, readLines_append,
        readLines_cons (by decide), ih hrest]
      simp
    · have hline : (10 : UInt8) ∉ lead tabDepth name ++ value := by
        rw [List.mem_append, not_or]
        exact ⟨hlead, hmulti⟩
      have htext : tabs tabDepth ++ name ++ ascii " = " ++ (value ++ ascii "\n") ++
          writeEntries rest tabDepth ++ text =
          (lead tabDepth name ++ value) ++ 10 :: (writeEntries rest tabDepth ++ text) := by
        simp [lead, ascii]
      rw [if_neg hmulti, if_neg hmulti, htext, readLines_cons hline, ih hrest]
      simp
  | group name group rest ihgroup ihrest =>
    rcases Settings.conforms_cons.1 hs with ⟨-, hname, hgroup, hrest⟩
    rw [Settings.conforms_group] at hgroup
    have hheader : (10 : UInt8) ∉ lead tabDepth name ++ ascii "\x7b" := by
      rw [List.mem_append, not_or]
      exact ⟨newline_not_mem_lead hname, by decide⟩
    have hclose : (10 : UInt8) ∉ tabs (tabDepth + 1) ++ ascii "\x7d" := by
      rw [List.mem_append, not_or]
      exact ⟨not_mem_tabs (by decide), by decide⟩
    have htext : printEntry name (.group group) tabDepth ++ writeEntries rest tabDepth ++ text =
        (lead tabDepth name ++ ascii "\x7b") ++ 10 :: (writeEntries group (tabDepth + 1) ++
          ((tabs (tabDepth + 1) ++ ascii "\x7d") ++ 10 ::
            (writeEntries rest tabDepth ++ text))) := by
      rw [printEntry]
      simp [lead, ascii]
    rw [lines_group, writeEntries, htext, readLines_cons hheader, ihgroup hgroup,
      readLines_cons hclose, ihrest hrest]
    simp [Block.lines]

theorem parseConfigObject_assign (hend : EndTagOk endTag) (hname : NameOk name) (tabDepth : Nat)
    (value : Bytes) :
    parseConfigObject endTag (lead tabDepth name ++ value) =
      if trim value = ascii "\x7b" then .group name
      else if trim value = quotes then .multiline name
      else .kvPair name (trim value) := by
  have hline : lead tabDepth name ++ value = (tabs tabDepth ++ (name ++ [32])) ++ 61 :: 32 :: value := by
    simp [lead, ascii]
  have htrim : trim (lead tabDepth name ++ value) =
      (tabs tabDepth ++ (name ++ [32])).dropWhile isSpace ++
        61 :: (32 :: value).rdropWhile isSpace := by
    rw [hline, trim_append_cons (by decide)]
  -- what stands before the sign is made of tabs, the name and a blank
  have hleft : (61 : UInt8) ∉ (tabs tabDepth ++ (name ++ [32])).dropWhile isSpace := by
    intro hmem
    have hmem := (List.dropWhile_suffix _).subset hmem
    rw [List.mem_append, List.mem_append, List.mem_singleton] at hmem
    rcases hmem with hmem | hmem | heq
    · exact not_mem_tabs (by decide) hmem
    · exact hname.2.1 hmem
    · exact absurd heq (by decide)
  have hsplit := IStream.takeWhile_ne_append hleft ((32 :: value).rdropWhile isSpace)
  have hnameTrim : trim ((tabs tabDepth ++ (name ++ [32])).dropWhile isSpace) = name := by
    rw [trim_dropWhile, trim_append_left fun b hb => isSpace_of_mem_tabs hb,
      trim_append_right (by decide +kernel), hname.1]
  have hvalueTrim : trim ((32 :: value).rdropWhile isSpace) = trim value := by
    rw [trim_rdropWhile]
    exact trim_append_left (l := [32]) (by decide +kernel) value
  rw [parseConfigObject, htrim]
  simp only [hsplit.1, hsplit.2, hnameTrim, hvalueTrim]
  rw [if_neg (by simp), if_neg, if_neg]
  · rintro heq
    exact hend.not_mem (by decide) (heq ▸ List.mem_append_right _ (List.mem_cons_self ..))
  · cases hcase : (tabs tabDepth ++ (name ++ [32])).dropWhile isSpace with
    | nil => simp
    | cons b l =>
      -- the first byte is the first byte of the name
      have hb : isSpace b = false := by
        have hfirst := List.head_dropWhile_not isSpace (hcase ▸ List.cons_ne_nil b l)
        simpa [hcase] using hfirst
      have hhead := trim_append_cons hb [] l
      rw [List.nil_append, ← hcase, hnameTrim] at hhead
      rw [List.cons_append, List.head?_cons]
      intro hcomment
      exact hname.2.2.2 (by rw [hhead]; exact hcomment)

theorem parseConfigObject_closing (endTag : Bytes) (tabDepth : Nat) :
    parseConfigObject endTag (tabs tabDepth ++ ascii "\x7d") =
      if endTag = ascii "\x7d" then .endTag else .invalid := by
  have htrim : trim (tabs tabDepth ++ ascii "\x7d") = ascii "\x7d" := by
    rw [trim_append_left fun b hb => isSpace_of_mem_tabs hb]
    rfl
  rw [parseConfigObject, htrim, if_neg (by decide), if_neg (by decide)]
  by_cases h : endTag = ascii "\x7d"
  · rw [if_pos h, if_pos h.symm]
  · rw [if_neg h, if_neg (Ne.symm h)]
    rfl

/-- The lines up to the end of a value are the value. -/
theorem getMultiline_readLines (hvalue : ValueOk value) (is : List Bytes) :
    getMultiline (readLines value ++ quotes :: is) = (value, is) := by
  have hloop : ∀ (lines : List Bytes) (acc : Bytes), quotes ∉ lines →
      getMultilineLoop (lines ++ quotes :: is) acc =
        (acc ++ lines.flatMap fun line => line ++ [10], is) := by
    intro lines
    induction lines with
    | nil => intro acc _; simp [getMultilineLoop]
    | cons line lines ih =>
      intro acc hnot
      rw [List.mem_cons, not_or] at hnot
      rw [List.cons_append, getMultilineLoop, if_neg (Ne.symm hnot.1), ih _ hnot.2]
      simp
  rw [getMultiline, hloop _ _ hvalue, List.nil_append, readLines, flatMap_splitOn]
  simp

section

variable (hend : EndTagOk endTag) (hname : NameOk name)

include hend hname

theorem parse_value (hline : (10 : UInt8) ∉ value) (hgroup : trim value ≠ ascii "\x7b")
    (hquotes : trim value ≠ quotes) :
    parseConfigLines order endTag ((Block.value tabDepth name value).lines ++ is) s =
      parseConfigLines order endTag is (s.put order name (.value (trim value))) := by
  rw [Block.lines, if_neg hline, List.singleton_append, parseConfigLines_cons,
    parseConfigObject_assign hend hname, if_neg hgroup, if_neg hquotes]

theorem parse_multiline (hvalue : ValueOk value) (hlines : (10 : UInt8) ∈ value) :
    parseConfigLines order endTag ((Block.value tabDepth name value).lines ++ is) s =
      parseConfigLines order endTag is (s.put order name (.value value)) := by
  have htail : readLines value ++ [quotes] ++ is = readLines value ++ quotes :: is := by simp
  rw [Block.lines, if_pos hlines, List.cons_append, parseConfigLines_cons,
    parseConfigObject_assign hend hname, if_neg (by decide), if_pos (by decide), htail]
  simp only [getMultiline_readLines hvalue]

theorem parse_opening {group : Settings} {rest : List Bytes}
    (h : parseConfigLines order (ascii "\x7d") is .nil = (true, group, rest)) :
    parseConfigLines order endTag ((Block.opening tabDepth name).lines ++ is) s =
      parseConfigLines order endTag rest (s.put order name (.group group)) := by
  rw [Block.lines, List.singleton_append, parseConfigLines_cons,
    parseConfigObject_assign hend hname, if_pos (by decide)]
  simp only [h]

end

theorem parse_closing :
    parseConfigLines order (ascii "\x7d") ((Block.closing tabDepth).lines ++ is) s =
      (true, s, is) := by
  rw [Block.lines, List.singleton_append, parseConfigLines_cons, parseConfigObject_closing,
    if_pos rfl]

end

end Config
end AxisEngine
