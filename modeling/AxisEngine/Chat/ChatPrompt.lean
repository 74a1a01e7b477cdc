import Mathlib.Data.List.Basic
import Mathlib.Data.List.Destutter
import Mathlib.Data.List.Infix

/-!
# ChatPrompt — suggestions and completion in the chat line

The prompt of the chat console, as far as suggestions go.  An access that the source makes without a bound of
its own is an `Option`: `none` is an access out of range or a `std::out_of_range`.

* `tokenAroundCursor`, `splitWords`, `parseCommandLine` — the three scans of the line;
* `formsFitting`, `parametersAt` — which shapes of a command's parameters still fit;
* `ChatPrompt.updateSuggestions`, `ChatPrompt.applySuggestion`, `ChatPrompt.commandCompletion`.
-/

namespace AxisEngine
namespace Chat

/-! ## Wide strings -/

/-- `wchar_t` -/
abbrev WChar := Int32

/-- `std::wstring`.  Player names come as `utf8_to_wide` gives them. -/
abbrev WString := List WChar

abbrev space : WChar := 32
abbrev slash : WChar := 47
abbrev bar : WChar := 124

def text (s : String) : WString := s.toList.map fun c => Int32.ofNat c.toNat

/-- `my_tolower` of a `char`; letters beyond ASCII pass unchanged. -/
def myTolower (c : Int8) : Int8 :=
  if c < 0 then c
  else if 65 ≤ c ∧ c ≤ 90 then c + 32
  else c

/-- `my_tolower(c)` for a `wchar_t`, which is cut to a `char` first. -/
def lowered (c : WChar) : Int8 := myTolower c.toInt8

/-- `str_equal` with `case_insensitive` -/
def strEqual (s1 s2 : WString) : Bool := s1.map lowered == s2.map lowered

/-- `str_starts_with` with `case_insensitive` -/
def strStartsWith (str start : WString) : Bool := (start.map lowered).isPrefixOf (str.map lowered)

/-- `s.substr(pos, n)` -/
def substr (s : WString) (pos n : ℕ) : Option WString :=
  if pos ≤ s.length then some ((s.drop pos).take n) else none

/-- `s.replace(pos, n, with)` -/
def replaceAt (s : WString) (pos n : ℕ) (new : WString) : Option WString :=
  if pos ≤ s.length then some (s.take pos ++ new ++ s.drop (pos + n)) else none

/-- `s.resize(s.size() - 2)`: a shorter string has no such length. -/
def withoutLastTwo (s : WString) : Option WString :=
  if 2 ≤ s.length then some (s.take (s.length - 2)) else none

/-- `s.find(part) != npos` -/
def contains (s part : WString) : Bool := decide (part <:+: s)

/-! ## The line and its parameters -/

/-- Where the token starts: back from the cursor to a space. -/
def tokenStart (line : WString) : ℕ → Option ℕ
  | 0 => some 0
  | start + 1 => do
      let c ← (line)[start]?
      if c ≠ space then tokenStart line start else some (start + 1)

/-- Where the token ends: on from the cursor to a space. -/
def tokenEnd (line : WString) (cursor : ℕ) : ℕ :=
  cursor + ((line.drop cursor).takeWhile (· ≠ space)).length

def tokenAroundCursor (line : WString) (cursor : ℕ) : Option (ℕ × ℕ) := do
  let start ← tokenStart line cursor
  some (start, tokenEnd line cursor)

def splitWords (text : WString) : List WString := (text.splitOn space).filter (· ≠ [])

/-- `wcschr` also finds the zero character, at the end of the text it looks in. -/
def wcschr (s : String) (c : WChar) : Bool := c ∈ text s ++ [0]

def bareWord (word : WString) : WString :=
  let word := word.dropWhile (wcschr "([")
  (word.reverse.dropWhile (wcschr ")]")).reverse

def isLiteral (bare : WString) : Bool :=
  2 ≤ bare.length && bare.all fun c =>
    (97 ≤ c && c ≤ 122) || (48 ≤ c && c ≤ 57) || c == 45 || c == 95

/-- The fixed words of a shape agree with what is typed. -/
def fits (form typed : List WString) : Bool :=
  (form.zip typed).all fun (word, arg) => !isLiteral (bareWord word) || strEqual (bareWord word) arg

def formsFitting (params : WString) (typed : List WString) : List (List WString) :=
  ((params.splitOn bar).map splitWords).filter fun form => fits form typed && form ≠ []

def parametersAt (forms : List (List WString)) (index : ℕ) : Option (List WString) :=
  forms.foldlM (fun found form => do
    if form.length < index then some found
    else
      let word ← if index = 0 then none else form[index - 1]?
      some (if word ∈ found then found else found ++ [word])) []

/-- `L" | "` between the parts, once there is something to divide -/
def joinBars (parts : List WString) : WString :=
  parts.foldl (fun joined part => (if joined = [] then [] else joined ++ text " | ") ++ part) []

def joinForms (forms : List (List WString)) : WString := joinBars (forms.map [space].intercalate)

/-- What is left of the shortest candidate after a look at one more. -/
def agreeing (start : ℕ) (shortest candidate : WString) : WString :=
  let differs i := shortest[i]?.map lowered != candidate[i]?.map lowered
  let stop := min shortest.length candidate.length
  let shortest := match ((List.range stop).drop start).find? differs with
    | some i => shortest.take i
    | none => shortest
  if candidate.length < shortest.length ∧ strStartsWith shortest candidate then candidate else shortest

def commonPrefix (candidates : List WString) (start : ℕ) : WString :=
  match candidates with
  | [] => []
  | first :: _ => candidates.foldl (agreeing start) first

/-- One command the player may use, as far as completion is concerned -/
structure CommandInfo where
  name : WString
  params : WString
  description : WString
  deriving DecidableEq

structure CommandLine where
  /-- The deepest command typed in full -/
  command : Option CommandInfo := none
  /-- Words after the command and before the one being typed -/
  arguments : List WString := []
  /-- Words before the one being typed, without the slash -/
  words : List WString := []
  deriving DecidableEq

/-- The loop of `parseCommandLine`: the longest command first -/
def deepest (commands : List CommandInfo) (words : List WString) : ℕ → CommandLine
  | 0 => { words }
  | depth + 1 =>
    match commands.find? fun c => strEqual c.name ([space].intercalate (words.take (depth + 1))) with
    | some command => { command, arguments := words.drop (depth + 1), words }
    | none => deepest commands words depth

def parseCommandLine (line : WString) (tokenStart : ℕ) (commands : List CommandInfo) :
    Option CommandLine := do
  let words ← if 0 < tokenStart then (substr line 1 (tokenStart - 1)).map splitWords else some []
  some (deepest commands words words.length)

/-! ## The prompt -/

structure HistoryEntry where
  line : WString
  /-- If line is edited, saved holds the unedited version. -/
  saved : Option WString

/-- What could be typed next, worked out from what is typed already. -/
structure Suggestions where
  options : List WString := []
  chosen : ℕ := 0
  typed : WString := []
  hint : WString := []
  tokenStart : ℕ := 0
  details : List WString := []
  command : WString := []
  params : WString := []
  description : WString := []
  argument : ℕ := 0
  deriving DecidableEq

structure ChatPrompt where
  line : WString
  history : List HistoryEntry
  historyIndex : ℕ
  cols : ℤ
  view : ℤ
  suggestions : Suggestions
  cursor : ℕ
  cursorLen : ℤ

variable (p : ChatPrompt)

def ChatPrompt.getLineRef : WString :=
  match p.history[p.historyIndex]? with
  | some entry => entry.line
  | none => p.line

/-- The line after an edit through `makeLineRef()` -/
def ChatPrompt.setLine (line : WString) : ChatPrompt :=
  match p.history[p.historyIndex]? with
  | some entry =>
    let saved := entry.saved.getD entry.line
    { p with history := p.history.set p.historyIndex { line, saved } }
  | none => { p with line }

def ChatPrompt.clampView : ChatPrompt :=
  let length : ℤ := p.getLineRef.length
  if length + 1 ≤ p.cols then { p with view := 0 }
  else
    let view := min (min p.view (length + 1 - p.cols)) p.cursor
    { p with view := max (max view (p.cursor - p.cols + 1)) 0 }

/-- An edit of the line from `start` on, with the cursor behind it. -/
def ChatPrompt.edit (start n : ℕ) (new : WString) : Option ChatPrompt := do
  let line ← replaceAt p.getLineRef start n new
  some (ChatPrompt.clampView { p.setLine line with cursor := start + new.length, cursorLen := 0 })

def Suggestions.keepChoice (s previous : Suggestions) : Suggestions :=
  let chosen := if previous.options = s.options ∧ previous.typed = s.typed then previous.chosen else s.chosen
  { s with chosen := if s.options.length ≤ chosen then 0 else chosen }

/-- An option and its parameters -/
abbrev Offer := WString × WString

def Offer.le (a b : Offer) : Bool := a.1 < b.1 || (a.1 == b.1 && a.2 ≤ b.2)

/-- `finish` of `updateSuggestions` -/
def Suggestions.finish (s previous : Suggestions) (offer : List Offer) : Suggestions :=
  let offer := (offer.mergeSort Offer.le).destutter fun a b => a.1 ≠ b.1
  Suggestions.keepChoice { s with options := offer.map (·.1), details := offer.map (·.2) } previous

/-! ## What may stand at the cursor -/

def CommandInfo.oneWord (c : CommandInfo) : Bool := !c.name.contains space

/-- The command itself, with its slash -/
def commandOffer (commands : List CommandInfo) (start : WString) : List Offer :=
  (commands.filter fun c => c.oneWord && strStartsWith c.name start).map fun c => (slash :: c.name, c.params)

/-- `sub` is a subcommand one word below `command`. -/
def CommandInfo.isSub (command sub : CommandInfo) : Bool :=
  let stem := command.name ++ [space]
  stem.length < sub.name.length && strStartsWith sub.name stem && !(sub.name.drop stem.length).contains space

/-- The last words of the subcommands -/
def subcommandWords (command : CommandInfo) (commands : List CommandInfo) : List Offer :=
  (commands.filter command.isSub).map fun sub => (sub.name.drop (command.name.length + 1), sub.params)

/-- The words that are typed as they are written -/
def literalWords (wanted : List WString) : List Offer :=
  ((wanted.map bareWord).filter isLiteral).map fun bare => (bare, [])

/-- `c = my_tolower(c)` for each character -/
def loweredText (word : WString) : WString := word.map fun c => (lowered c).toInt32

def wantsPlayer (wanted : List WString) : Bool :=
  wanted.any fun word => contains (loweredText word) (text "player") || contains (loweredText word) (text "name")

def wantsCommand (wanted : List WString) : Bool :=
  wanted.any fun word => contains (loweredText word) (text "command")

variable (commands : List CommandInfo) (names : List WString)

/-- What an argument is compared with, before what is typed is looked at -/
def argumentWords (command : CommandInfo) (arguments wanted : List WString) : List Offer :=
  (if arguments = [] then subcommandWords command commands else []) ++ literalWords wanted ++
    (if wantsPlayer wanted then names.map fun name => (name, []) else []) ++
    (if wantsCommand wanted then (commands.filter (·.oneWord)).map fun c => (c.name, c.params) else [])

def ChatPrompt.updateSuggestions : Option ChatPrompt := do
  let previous := p.suggestions
  let line := p.getLineRef
  match line with
  | [] => some { p with suggestions := {} }
  | first :: _ =>
    let (tokenStart, tokenEnd) ← tokenAroundCursor line p.cursor
    let typed ← substr line tokenStart (tokenEnd - tokenStart)
    let suggestions : Suggestions := { typed, tokenStart }
    if first ≠ slash then
      if typed = [] then some { p with suggestions }
      else
        let options := (names.filter (strStartsWith · typed)).mergeSort
        some { p with suggestions := Suggestions.keepChoice { suggestions with options } previous }
    else
      let parsed ← parseCommandLine line tokenStart commands
      if parsed.words = [] then
        let start ← substr typed 1 typed.length
        some { p with suggestions := suggestions.finish previous (commandOffer commands start) }
      else match parsed.command with
        | none => some { p with suggestions }
        | some command =>
          let argument := parsed.arguments.length + 1
          let forms := formsFitting command.params parsed.arguments
          let wanted ← parametersAt forms argument
          let hint := joinBars wanted
          let suggestions := { suggestions with
            command := command.name
            params := if forms = [] then command.params else joinForms forms
            description := command.description
            argument
            hint := if hint = [] then command.params else hint }
          let offer := (argumentWords commands names command parsed.arguments wanted).filter fun o =>
            strStartsWith o.1 typed
          some { p with suggestions := suggestions.finish previous offer }

/-- `by` steps; the numbers stay far inside `s32`. -/
def ChatPrompt.cycleSuggestion (steps : ℤ) : ChatPrompt :=
  let count := p.suggestions.options.length
  if count < 2 then p
  else
    let chosen := ((p.suggestions.chosen : ℤ) + steps).tmod count
    let chosen := if chosen < 0 then chosen + count else chosen
    { p with suggestions := { p.suggestions with chosen := chosen.toNat } }

/-- The prompt afterwards, and whether a suggestion was put in. -/
def ChatPrompt.applySuggestion : Option (ChatPrompt × Bool) := do
  let s := p.suggestions
  if s.options = [] then some (p, false)
  else
    let chosen ← s.options[s.chosen]?
    let q ← p.edit s.tokenStart s.typed.length chosen
    some ({ q with suggestions := {} }, true)

/-- The shape of the command, where there is nothing to fill in -/
def Suggestions.note (s : Suggestions) : WString :=
  if s.options = [] ∧ s.command ≠ [] ∧ s.params ≠ [] then
    [slash] ++ s.command ++ [space] ++ s.params ++
      (if s.description = [] then [] else text " - " ++ s.description)
  else []

/-- What `commandCompletion` leaves, the texts it shows and what it returns. -/
structure Completed where
  prompt : ChatPrompt
  shown : List WString := []
  result : Bool

def ChatPrompt.commandCompletion : Option Completed := do
  let line := p.getLineRef
  if line.head? ≠ some slash then some { prompt := p, result := false }
  else
    let p ← p.updateSuggestions commands names
    let s := p.suggestions
    let candidates := s.options
    let tokenEnd := s.tokenStart + s.typed.length
    if s.note ≠ [] then some { prompt := p, shown := [s.note], result := true }
    else if candidates = [] then some { prompt := p, result := true }
    else
      let completion := commonPrefix candidates s.typed.length
      if 1 < candidates.length ∧ completion.length = s.typed.length then
        let options ← withoutLastTwo (candidates.flatMap (· ++ text ", "))
        some { prompt := p, shown := [options], result := true }
      else
        let completion :=
          if candidates.length = 1 ∧ tokenEnd = line.length then completion ++ [space] else completion
        let p ← p.edit s.tokenStart (tokenEnd - s.tokenStart) completion
        some { prompt := p, result := true }

end Chat
end AxisEngine
