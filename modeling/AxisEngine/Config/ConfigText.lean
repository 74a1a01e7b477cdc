import AxisEngine.Config.Settings

/-!
# ConfigText — the text of a settings object

How settings are written to a file and read back (`settings.cpp`).  The reader only ever takes one
line after the other, so a stream is the list of the lines that `getline` will give: what stands
between the newlines of the text.  It is good as long as there is a line.

* `parseConfigObject`, `getMultiline`, `parseConfigLines` — the reader;
* `printEntry`, `writeLines` — the writer;
* `parseConfigLines_cons` — one round of the reader's loop.
-/

namespace AxisEngine
namespace Config

open Lib

/-! ## The reader -/

inductive SettingsParseEvent
  | none
  | invalid
  | comment
  | kvPair (name value : Bytes)
  | endTag
  | group (name : Bytes)
  | multiline (name : Bytes)
  deriving DecidableEq

def parseConfigObject (endTag line : Bytes) : SettingsParseEvent :=
  let trimmedLine := trim line
  if trimmedLine = [] then .none
  else if trimmedLine.head? = some 35 then .comment
  else if trimmedLine = endTag then .endTag
  else
    match trimmedLine.dropWhile fun b => b ≠ 61 with
    | [] => .invalid
    | _ :: after =>
      let name := trim (trimmedLine.takeWhile fun b => b ≠ 61)
      let value := trim after
      if value = ascii "\x7b" then .group name
      else if value = quotes then .multiline name
      else .kvPair name value

/-- The lines of a text. -/
def readLines (text : Bytes) : List Bytes :=
  text.splitOn 10

def getMultilineLoop : List Bytes → Bytes → Bytes × List Bytes
  | [], value => (value, [])
  | line :: is, value =>
    if line = quotes then (value, is) else getMultilineLoop is (value ++ line ++ [10])

/-- Lines up to the one that ends the value; the last newline does not count. -/
def getMultiline (is : List Bytes) : Bytes × List Bytes :=
  let (value, is) := getMultilineLoop is []
  (value.dropLast, is)

/-- The loop of `parseConfigLines`: whether the object is complete, the object, and the lines that
are left.  Each round takes a line. -/
def parseLoop (order : HashOrder) : Bytes → Nat → List Bytes → Settings →
    Bool × Settings × List Bytes
  | endTag, 0, is, s => (endTag.isEmpty, s, is)
  | endTag, _ + 1, [], s => (endTag.isEmpty, s, [])
  | endTag, fuel + 1, line :: is, s =>
    match parseConfigObject endTag line with
    | .none | .invalid | .comment => parseLoop order endTag fuel is s
    | .kvPair name value => parseLoop order endTag fuel is (s.put order name (.value value))
    | .endTag => (true, s, is)
    | .group name =>
      match parseLoop order (ascii "\x7d") fuel is .nil with
      | (true, group, is) => parseLoop order endTag fuel is (s.put order name (.group group))
      | (false, _, is) => (false, s, is)
    | .multiline name =>
      let (value, is) := getMultiline is
      parseLoop order endTag fuel is (s.put order name (.value value))

def parseConfigLines (order : HashOrder) (endTag : Bytes) (is : List Bytes) (s : Settings) :
    Bool × Settings × List Bytes :=
  parseLoop order endTag (is.length + 1) is s

/-! ## The writer -/

def tabs (tabDepth : Nat) : Bytes :=
  List.replicate tabDepth 9

mutual

def printEntry (name : Bytes) : SettingsEntry → Nat → Bytes
  | .value value, tabDepth =>
    tabs tabDepth ++ name ++ ascii " = " ++
      if (10 : UInt8) ∈ value then ascii "\"\"\"\n" ++ value ++ ascii "\n\"\"\"\n"
      else value ++ ascii "\n"
  -- the closing bracket comes from `writeLines`, one tab further in
  | .group group, tabDepth =>
    tabs tabDepth ++ name ++ ascii " = \x7b\n" ++
      (writeEntries group (tabDepth + 1) ++ tabs (tabDepth + 1) ++ ascii "\x7d\n")

/-- All entries of an object. -/
def writeEntries : Settings → Nat → Bytes
  | .nil, _ => []
  | .cons name entry rest, tabDepth => printEntry name entry tabDepth ++ writeEntries rest tabDepth

end

def writeLines (endTag : Bytes) (s : Settings) (tabDepth : Nat) : Bytes :=
  writeEntries s tabDepth ++ if endTag = [] then [] else tabs tabDepth ++ endTag ++ ascii "\n"

section

variable {order : HashOrder} {endTag line : Bytes} {is : List Bytes} {s : Settings}
variable {fuel fuel' : Nat}

/-! ## One round -/

theorem length_getMultilineLoop (is : List Bytes) (value : Bytes) :
    (getMultilineLoop is value).2.length ≤ is.length := by
  induction is generalizing value with
  | nil => exact le_rfl
  | cons line is ih =>
    rw [getMultilineLoop, List.length_cons]
    split
    · exact Nat.le_succ _
    · exact (ih _).trans (Nat.le_succ _)

theorem length_getMultiline (is : List Bytes) : (getMultiline is).2.length ≤ is.length :=
  length_getMultilineLoop is []

/-- With more rounds than lines the loop does not run out of rounds. -/
theorem parseLoop_fuel (hfuel : is.length < fuel) (hfuel' : is.length < fuel') :
    parseLoop order endTag fuel is s = parseLoop order endTag fuel' is s ∧
      (parseLoop order endTag fuel is s).2.2.length ≤ is.length := by
  induction fuel generalizing fuel' endTag is s with
  | zero => cases hfuel
  | succ fuel ih =>
    cases fuel' with
    | zero => cases hfuel'
    | succ fuel' =>
      cases is with
      | nil => exact ⟨rfl, le_rfl⟩
      | cons line is =>
        rw [List.length_cons] at hfuel hfuel' ⊢
        have hlt : is.length < fuel := Nat.lt_of_succ_lt_succ hfuel
        have hlt' : is.length < fuel' := Nat.lt_of_succ_lt_succ hfuel'
        -- the rounds that are left are enough for fewer lines
        have hrest : ∀ (rest : List Bytes) (s : Settings), rest.length ≤ is.length →
            parseLoop order endTag fuel rest s = parseLoop order endTag fuel' rest s ∧
              (parseLoop order endTag fuel rest s).2.2.length ≤ is.length + 1 := by
          intro rest s hle
          rcases ih (hle.trans_lt hlt) (hle.trans_lt hlt') with ⟨heq, hlen⟩
          exact ⟨heq, (hlen.trans hle).trans (Nat.le_succ _)⟩
        rw [parseLoop, parseLoop]
        cases parseConfigObject endTag line with
        | none => exact hrest is s le_rfl
        | invalid => exact hrest is s le_rfl
        | comment => exact hrest is s le_rfl
        | kvPair name value => exact hrest is _ le_rfl
        | endTag => exact ⟨rfl, Nat.le_succ _⟩
        | multiline name => exact hrest _ _ (length_getMultiline is)
        | group name =>
          have hsub : parseLoop order (ascii "\x7d") fuel is .nil =
              parseLoop order (ascii "\x7d") fuel' is .nil ∧ _ := ih hlt hlt'
          rcases hsub with ⟨heq, hlen⟩
          simp only [← heq]
          cases hgroup : parseLoop order (ascii "\x7d") fuel is .nil with
          | mk complete result =>
            rw [hgroup] at hlen
            cases complete with
            | true => exact hrest _ _ hlen
            | false => exact ⟨rfl, hlen.trans (Nat.le_succ _)⟩

theorem parseLoop_eq (hfuel : is.length < fuel) :
    parseLoop order endTag fuel is s = parseConfigLines order endTag is s :=
  (parseLoop_fuel hfuel (Nat.lt_succ_self _)).1

theorem length_parseConfigLines (order : HashOrder) (endTag : Bytes) (is : List Bytes)
    (s : Settings) : (parseConfigLines order endTag is s).2.2.length ≤ is.length :=
  (parseLoop_fuel (Nat.lt_succ_self _) (Nat.lt_succ_self _)).2

theorem parseConfigLines_cons (order : HashOrder) (endTag line : Bytes) (is : List Bytes)
    (s : Settings) :
    parseConfigLines order endTag (line :: is) s = match parseConfigObject endTag line with
      | .none | .invalid | .comment => parseConfigLines order endTag is s
      | .kvPair name value => parseConfigLines order endTag is (s.put order name (.value value))
      | .endTag => (true, s, is)
      | .group name =>
        match parseConfigLines order (ascii "\x7d") is .nil with
        | (true, group, is) => parseConfigLines order endTag is (s.put order name (.group group))
        | (false, _, is) => (false, s, is)
      | .multiline name =>
        parseConfigLines order endTag (getMultiline is).2
          (s.put order name (.value (getMultiline is).1)) := by
  have hfuel : ∀ (rest : List Bytes) (s : Settings), rest.length ≤ is.length →
      parseLoop order endTag (is.length + 1) rest s = parseConfigLines order endTag rest s :=
    fun rest s hle => parseLoop_eq (Nat.lt_succ_of_le hle)
  rewrite [parseConfigLines, List.length_cons, parseLoop]
  cases parseConfigObject endTag line with
  | none => exact hfuel is s le_rfl
  | invalid => exact hfuel is s le_rfl
  | comment => exact hfuel is s le_rfl
  | kvPair name value => exact hfuel is _ le_rfl
  | endTag => rfl
  | multiline name => exact hfuel _ _ (length_getMultiline is)
  | group name =>
    have hlen := length_parseConfigLines order (ascii "\x7d") is .nil
    simp only [parseLoop_eq (Nat.lt_succ_self is.length)]
    cases hgroup : parseConfigLines order (ascii "\x7d") is .nil with
    | mk complete result =>
      rw [hgroup] at hlen
      cases complete with
      | true => exact hfuel _ _ hlen
      | false => rfl

end

end Config
end AxisEngine
