import AxisEngine.Config.Blocks

/-!
# UpdateObject — a config file is brought up to date

`Settings::updateConfigObject` (`settings.cpp`) copies a stream and puts the values of the object
into it on the way.  Lines are taken as in `ConfigText`; the stream is at its end when no line is
left.

* `Update` — what the function keeps while it reads;
* `updateConfigObject` — the function;
* `UpdateRun` — the same, line by line, with the lines that are written;
* `exists_updateRun` — the function makes such a run.
-/

namespace AxisEngine
namespace Config

open Lib

/-! ## The function -/

namespace Settings

/-- The entries whose names are accepted. -/
def filter (accept : Bytes → Bool) : Settings → Settings
  | .nil => .nil
  | .cons name entry rest =>
    if accept name then .cons name entry (rest.filter accept) else rest.filter accept

/-- "A setting the filter rejects is treated as if the object did not have it". -/
def wanted (s : Settings) (filter : Bytes → Bool) (name : Bytes) : Option SettingsEntry :=
  if filter name then s.lookup name else none

end Settings

/-- What was written, which names are there, whether something is new, and the line read last. -/
structure Update where
  os : Bytes := []
  presentEntries : List Bytes := []
  wasModified : Bool := false
  line : Bytes := []

namespace Update

def write (u : Update) (text : Bytes) : Update :=
  { u with os := u.os ++ text }

/-- A name is in the file, perhaps with something new. -/
def present (u : Update) (name : Bytes) (modified : Bool) : Update :=
  { u with presentEntries := name :: u.presentEntries, wasModified := u.wasModified || modified }

def modified (u : Update) : Update :=
  { u with wasModified := true }

end Update

/-- The entries that are not in the file yet. -/
def missingEntries (s : Settings) (filter : Bytes → Bool) (presentEntries : List Bytes) : Settings :=
  s.filter fun name => decide (name ∉ presentEntries) && filter name

/-- A value in the file. -/
def updatePlain (wanted : Option SettingsEntry) (tabDepth : Nat) (name value text : Bytes)
    (u : Update) : Update :=
  match wanted with
  -- "Remove by skipping"
  | none => u.modified
  | some entry =>
    if entry = .value value then (u.write text).present name false
    else (u.write (printEntry name entry tabDepth)).present name true

/-- What comes after the loop. -/
def updateEnd (endTag : Bytes) (s : Settings) (filter : Bytes → Bool) (tabDepth : Nat)
    (endFound : Bool) (is : List Bytes) (u : Update) : Bool × List Bytes × Bytes :=
  let newline := if u.line ≠ [] ∧ is = [] then ascii "\n" else []
  -- "Add any settings in the object that don't exist in the config file yet"
  let missing := missingEntries s filter u.presentEntries
  -- "Append ending tag"
  let closing := if endTag = [] then [] else endTag ++ ascii "\n"
  (u.wasModified || decide (missing ≠ .nil) || (decide (endTag ≠ []) && !endFound), is,
    u.os ++ newline ++ writeEntries missing tabDepth ++ closing)

/-- The loop.  Each round takes a line. -/
def updateLoop : Nat → Bytes → Settings → (Bytes → Bool) → Nat → List Bytes → Update →
    Bool × List Bytes × Bytes
  | 0, endTag, s, filter, tabDepth, is, u => updateEnd endTag s filter tabDepth false is u
  | _ + 1, endTag, s, filter, tabDepth, [], u => updateEnd endTag s filter tabDepth false [] u
  | fuel + 1, endTag, s, filter, tabDepth, line :: is, u =>
    let u := { u with line := line }
    match parseConfigObject endTag line with
    | .endTag => updateEnd endTag s filter tabDepth true is u
    | .multiline name =>
      let value := (getMultiline is).1
      let text := line ++ ascii "\n" ++ (value ++ ascii "\n\"\"\"\n")
      updateLoop fuel endTag s filter tabDepth (getMultiline is).2
        (updatePlain (s.wanted filter name) tabDepth name value text u)
    | .kvPair name value =>
      updateLoop fuel endTag s filter tabDepth is
        (updatePlain (s.wanted filter name) tabDepth name value (line ++ ascii "\n") u)
    | .group name =>
      match s.wanted filter name with
      | some (.group group) =>
        let r := updateLoop fuel (ascii "\x7d") group (fun _ => true) (tabDepth + 1) is
          { os := u.os ++ (line ++ ascii "\n") }
        updateLoop fuel endTag s filter tabDepth r.2.1 ({ u with os := r.2.2 }.present name r.1)
      | none =>
        -- "Move 'is' to group end"
        let r := updateLoop fuel (ascii "\x7d") .nil (fun _ => true) (tabDepth + 1) is {}
        updateLoop fuel endTag s filter tabDepth r.2.1 u.modified
      | some (.value value) =>
        updateLoop fuel endTag s filter tabDepth is
          ((u.write (printEntry name (.value value) tabDepth)).present name true)
    | .none | .invalid | .comment =>
      updateLoop fuel endTag s filter tabDepth is
        (u.write (line ++ if is = [] then [] else ascii "\n"))

/-- Whether something was modified, the lines that are left, and what was written. -/
def updateConfigObject (endTag : Bytes) (s : Settings) (filter : Bytes → Bool) (tabDepth : Nat)
    (is : List Bytes) : Bool × List Bytes × Bytes :=
  updateLoop (is.length + 1) endTag s filter tabDepth is {}

/-! ## Line by line -/

/-- Lines as a text. -/
def linesText (lines : List Bytes) : Bytes :=
  lines.flatMap fun line => line ++ ascii "\n"

def closingText (endTag : Bytes) : Bytes :=
  if endTag = [] then [] else endTag ++ ascii "\n"

def SettingsParseEvent.IsRemark (event : SettingsParseEvent) : Prop :=
  event = .none ∨ event = .invalid ∨ event = .comment

/-- From the lines a value is read; `copy` are the lines with which it is written as it was. -/
inductive ReadValue (endTag : Bytes) : List Bytes → Bytes → Bytes → List Bytes → List Bytes → Prop
  | line (line name value : Bytes) (is : List Bytes)
      (hevent : parseConfigObject endTag line = .kvPair name value) :
      ReadValue endTag (line :: is) name value [line] is
  | multiline (line name : Bytes) (is : List Bytes)
      (hevent : parseConfigObject endTag line = .multiline name) :
      ReadValue endTag (line :: is) name (getMultiline is).1
        (line :: (readLines (getMultiline is).1 ++ [quotes])) (getMultiline is).2

/-- An object that the filter leaves as it is. -/
def noFilter : Bytes → Bool := fun _ => true

/-- A run over the lines that are still to be read: the lines it writes, whether it modifies
something, and the lines it leaves.  A blank line may come before what is added at the end. -/
inductive UpdateRun : Bytes → Settings → (Bytes → Bool) → Nat → List Bytes → List Bytes →
    List Bytes → Bool → List Bytes → Prop
  | eof {endTag s filter tabDepth presentEntries} (blank : List Bytes)
      (hblank : ∀ line ∈ blank, line = []) :
      UpdateRun endTag s filter tabDepth presentEntries []
        (blank ++ (missingEntries s filter presentEntries).lines tabDepth)
        (decide (missingEntries s filter presentEntries ≠ .nil) || decide (endTag ≠ [])) []
  | lastLine {endTag s filter tabDepth presentEntries} :
      UpdateRun endTag s filter tabDepth presentEntries [[]]
        ((missingEntries s filter presentEntries).lines tabDepth)
        (decide (missingEntries s filter presentEntries ≠ .nil) || decide (endTag ≠ [])) []
  | endTag {endTag s filter tabDepth presentEntries line is} (blank : List Bytes)
      (hblank : ∀ line ∈ blank, line = []) (hevent : parseConfigObject endTag line = .endTag) :
      UpdateRun endTag s filter tabDepth presentEntries (line :: is)
        (blank ++ (missingEntries s filter presentEntries).lines tabDepth)
        (decide (missingEntries s filter presentEntries ≠ .nil)) is
  | remark {endTag s filter tabDepth presentEntries line is body modified rest}
      (hevent : (parseConfigObject endTag line).IsRemark)
      (hrest : UpdateRun endTag s filter tabDepth presentEntries is body modified rest) :
      UpdateRun endTag s filter tabDepth presentEntries (line :: is) (line :: body) modified rest
  | kept {endTag s filter tabDepth presentEntries is name value copy is' body modified rest}
      (hread : ReadValue endTag is name value copy is')
      (hwanted : s.wanted filter name = some (.value value))
      (hrest : UpdateRun endTag s filter tabDepth (name :: presentEntries) is' body modified rest) :
      UpdateRun endTag s filter tabDepth presentEntries is (copy ++ body) modified rest
  | changed {endTag s filter tabDepth presentEntries is name value copy is' entry body modified rest}
      (hread : ReadValue endTag is name value copy is')
      (hwanted : s.wanted filter name = some entry)
      (hrest : UpdateRun endTag s filter tabDepth (name :: presentEntries) is' body modified rest) :
      UpdateRun endTag s filter tabDepth presentEntries is
        ((Settings.cons name entry .nil).lines tabDepth ++ body) true rest
  | dropped {endTag s filter tabDepth presentEntries is name value copy is' body modified rest}
      (hread : ReadValue endTag is name value copy is') (hwanted : s.wanted filter name = none)
      (hrest : UpdateRun endTag s filter tabDepth presentEntries is' body modified rest) :
      UpdateRun endTag s filter tabDepth presentEntries is body true rest
  | group {endTag s filter tabDepth presentEntries line is name group inner modified is' body
        modified' rest} (hevent : parseConfigObject endTag line = .group name)
      (hwanted : s.wanted filter name = some (.group group))
      (hgroup : UpdateRun (ascii "\x7d") group noFilter (tabDepth + 1) [] is inner modified is')
      (hrest : UpdateRun endTag s filter tabDepth (name :: presentEntries) is' body modified' rest) :
      UpdateRun endTag s filter tabDepth presentEntries (line :: is)
        (line :: (inner ++ ascii "\x7d" :: body)) (modified || modified') rest
  | droppedGroup {endTag s filter tabDepth presentEntries line is name inner modified is' body
        modified' rest} (hevent : parseConfigObject endTag line = .group name)
      (hwanted : s.wanted filter name = none)
      (hgroup : UpdateRun (ascii "\x7d") .nil noFilter (tabDepth + 1) [] is inner modified is')
      (hrest : UpdateRun endTag s filter tabDepth presentEntries is' body modified' rest) :
      UpdateRun endTag s filter tabDepth presentEntries (line :: is) body true rest
  | flattened {endTag s filter tabDepth presentEntries line is name value body modified rest}
      (hevent : parseConfigObject endTag line = .group name)
      (hwanted : s.wanted filter name = some (.value value))
      (hrest : UpdateRun endTag s filter tabDepth (name :: presentEntries) is body modified rest) :
      UpdateRun endTag s filter tabDepth presentEntries (line :: is)
        ((Settings.cons name (.value value) .nil).lines tabDepth ++ body) true rest

section

variable {endTag name value : Bytes} {s : Settings} {f : Bytes → Bool} {N V : Bytes → Prop}
variable {entry : SettingsEntry} {accept : Bytes → Bool}

/-! ### Some of the entries -/

namespace Settings

theorem lookup_filter : (s.filter accept).lookup name =
    if accept name then s.lookup name else none := by
  induction s using listInduct with
  | nil => simp [Settings.filter]
  | cons name' entry rest ih =>
    rw [Settings.filter]
    by_cases haccept : accept name' = true
    · rw [if_pos haccept, lookup_cons, lookup_cons]
      by_cases hname : name' = name
      · rw [if_pos hname, if_pos hname, if_pos (hname ▸ haccept)]
      · rw [if_neg hname, if_neg hname, ih]
    · rw [if_neg haccept, ih, lookup_cons]
      by_cases hname : name' = name
      · rw [if_neg (hname ▸ haccept), if_neg (hname ▸ haccept)]
      · rw [if_neg hname]

theorem names_filter : (s.filter accept).names = s.names.filter accept := by
  induction s using listInduct with
  | nil => rw [Settings.filter, names_nil, List.filter_nil]
  | cons name' entry rest ih =>
    rw [Settings.filter, names_cons, List.filter_cons]
    split
    · rw [names_cons, ih]
    · exact ih

theorem Conforms.filter_names (h : s.Conforms N V) : (s.filter accept).Conforms N V := by
  rcases conforms_iff.1 h with ⟨hnodup, hall⟩
  refine conforms_iff.2 ⟨?_, fun name entry hlookup => ?_⟩
  · rw [names_filter]
    exact hnodup.filter _
  · rw [lookup_filter] at hlookup
    split at hlookup
    · exact hall name entry hlookup
    · cases hlookup

theorem lookup_of_wanted (h : s.wanted f name = some entry) : s.lookup name = some entry := by
  rw [wanted] at h
  split at h
  · exact h
  · cases h

end Settings

/-! ### The text of lines -/

theorem linesText_append (lines lines' : List Bytes) :
    linesText (lines ++ lines') = linesText lines ++ linesText lines' :=
  List.flatMap_append

theorem linesText_cons (line : Bytes) (lines : List Bytes) :
    linesText (line :: lines) = line ++ ascii "\n" ++ linesText lines :=
  List.flatMap_cons

theorem linesText_readLines (text : Bytes) : linesText (readLines text) = text ++ ascii "\n" :=
  flatMap_splitOn ..

theorem linesText_lines (hs : s.Conforms NameOk V) (tabDepth : Nat) :
    linesText (s.lines tabDepth) = writeEntries s tabDepth := by
  have hlines := readLines_writeEntries hs tabDepth []
  have htext := congrArg linesText hlines
  rw [linesText_readLines, linesText_append, List.append_nil, linesText_readLines] at htext
  exact (List.append_cancel_right htext).symm

theorem printEntry_eq (hname : NameOk name) (hentry : entry.Conforms NameOk V) (tabDepth : Nat) :
    printEntry name entry tabDepth = linesText ((Settings.cons name entry .nil).lines tabDepth) := by
  have hs : (Settings.cons name entry .nil).Conforms NameOk V := by
    refine Settings.conforms_cons.2 ⟨?_, hname, hentry, Settings.conforms_nil⟩
    rw [Settings.names_nil]
    exact List.not_mem_nil
  rw [linesText_lines hs, writeEntries, writeEntries, List.append_nil]

/-! ### The function makes a run -/

theorem updateEnd_eq (hs : s.Conforms NameOk V) (tabDepth : Nat) (endFound : Bool)
    (is : List Bytes) (u : Update) :
    updateEnd endTag s f tabDepth endFound is u =
      (u.wasModified || (decide (missingEntries s f u.presentEntries ≠ .nil) ||
        (decide (endTag ≠ []) && !endFound)), is,
        u.os ++ (if u.line ≠ [] ∧ is = [] then ascii "\n" else []) ++
          linesText ((missingEntries s f u.presentEntries).lines tabDepth) ++ closingText endTag) := by
  rw [updateEnd, missingEntries, linesText_lines hs.filter_names, Bool.or_assoc]
  rfl

theorem updateLoop_nil (fuel : Nat) (endTag : Bytes) (s : Settings) (f : Bytes → Bool)
    (tabDepth : Nat) (u : Update) :
    updateLoop fuel endTag s f tabDepth [] u = updateEnd endTag s f tabDepth false [] u := by
  cases fuel with
  | zero => rw [updateLoop]
  | succ fuel => rw [updateLoop]

/-- The result is that of a run. -/
def MakesRun (endTag : Bytes) (s : Settings) (f : Bytes → Bool) (tabDepth : Nat) (is : List Bytes)
    (u : Update) (r : Bool × List Bytes × Bytes) : Prop :=
  ∃ body modified rest, UpdateRun endTag s f tabDepth u.presentEntries is body modified rest ∧
    r = (u.wasModified || modified, rest, u.os ++ linesText body ++ closingText endTag) ∧
    rest.length ≤ is.length

variable {tabDepth : Nat} {is is' copy : List Bytes} {line : Bytes} {u : Update}
variable {r : Bool × List Bytes × Bytes}

theorem MakesRun.rest_le (h : MakesRun endTag s f tabDepth is u r) : r.2.1.length ≤ is.length := by
  rcases h with ⟨body, modified, rest, -, rfl, hle⟩
  exact hle

theorem makesRun_eof (hs : s.Conforms NameOk V) :
    MakesRun endTag s f tabDepth [] u (updateEnd endTag s f tabDepth false [] u) := by
  refine ⟨_, _, _, .eof (if u.line ≠ [] then [[]] else []) ?_, ?_, le_rfl⟩
  · intro line hline
    split at hline
    · exact List.mem_singleton.1 hline
    · cases hline
  · rw [updateEnd_eq hs]
    by_cases hline : u.line = []
    · simp [hline]
    · simp [hline, linesText]

theorem makesRun_endTag (hs : s.Conforms NameOk V) (hline : u.line = line)
    (hevent : parseConfigObject endTag line = .endTag) :
    MakesRun endTag s f tabDepth (line :: is) u (updateEnd endTag s f tabDepth true is u) := by
  subst hline
  refine ⟨_, _, _, .endTag (if u.line ≠ [] ∧ is = [] then [[]] else []) ?_ hevent, ?_,
    Nat.le_succ _⟩
  · intro line' hline
    split at hline
    · exact List.mem_singleton.1 hline
    · cases hline
  · rw [updateEnd_eq hs]
    by_cases hline : u.line ≠ [] ∧ is = []
    · simp [hline, linesText]
    · simp only [if_neg hline]
      simp

theorem makesRun_remark (hevent : (parseConfigObject endTag line).IsRemark)
    (h : MakesRun endTag s f tabDepth is (u.write (line ++ ascii "\n")) r) :
    MakesRun endTag s f tabDepth (line :: is) u r := by
  rcases h with ⟨body, modified, rest, hrun, rfl, hle⟩
  refine ⟨line :: body, modified, rest, .remark hevent hrun, ?_, hle.trans (Nat.le_succ _)⟩
  rw [linesText_cons]
  simp [Update.write]

/-- The last line is written without a newline, which is added behind it unless it is empty. -/
theorem makesRun_lastRemark (hs : s.Conforms NameOk V) (hline : u.line = line)
    (hevent : (parseConfigObject endTag line).IsRemark) :
    MakesRun endTag s f tabDepth [line] u
      (updateEnd endTag s f tabDepth false [] (u.write line)) := by
  rw [updateEnd_eq hs]
  by_cases hempty : line = []
  · subst hempty
    refine ⟨_, _, _, .lastLine, ?_, Nat.le_succ _⟩
    simp [Update.write, hline]
  · refine ⟨_, _, _, .remark hevent (.eof [] (by simp)), ?_, Nat.le_succ _⟩
    rw [List.nil_append, linesText_cons, Bool.not_false, Bool.and_true, Update.write, hline,
      if_pos ⟨hempty, rfl⟩]
    simp

theorem makesRun_plain (hs : s.Conforms NameOk V) (hread : ReadValue endTag is name value copy is')
    (hle : is'.length ≤ is.length)
    (h : MakesRun endTag s f tabDepth is'
      (updatePlain (s.wanted f name) tabDepth name value (linesText copy) u) r) :
    MakesRun endTag s f tabDepth is u r := by
  rcases h with ⟨body, modified, rest, hrun, rfl, hrest⟩
  cases hwanted : s.wanted f name with
  | none =>
    rw [hwanted, updatePlain] at hrun
    refine ⟨body, true, rest, .dropped hread hwanted hrun, ?_, hrest.trans hle⟩
    simp [updatePlain, Update.modified]
  | some entry =>
    have hentry := hs.lookup (Settings.lookup_of_wanted hwanted)
    by_cases hsame : entry = .value value
    · subst hsame
      rw [hwanted, updatePlain, if_pos rfl] at hrun
      refine ⟨copy ++ body, modified, rest, .kept hread hwanted hrun, ?_, hrest.trans hle⟩
      rw [updatePlain, if_pos rfl, linesText_append]
      simp [Update.present, Update.write]
    · rw [hwanted, updatePlain, if_neg hsame] at hrun
      refine ⟨_, true, rest, .changed hread hwanted hrun, ?_, hrest.trans hle⟩
      rw [updatePlain, if_neg hsame, linesText_append, printEntry_eq hentry.1 hentry.2]
      simp [Update.present, Update.write]

theorem makesRun_droppedGroup {r' : Bool × List Bytes × Bytes}
    (hevent : parseConfigObject endTag line = .group name) (hwanted : s.wanted f name = none)
    (hgroup : MakesRun (ascii "\x7d") .nil noFilter (tabDepth + 1) is {} r')
    (h : MakesRun endTag s f tabDepth r'.2.1 u.modified r) :
    MakesRun endTag s f tabDepth (line :: is) u r := by
  rcases hgroup with ⟨inner, modified, is', hrun, rfl, hle⟩
  rcases h with ⟨body, modified', rest, hrun', rfl, hle'⟩
  refine ⟨body, true, rest, .droppedGroup hevent hwanted hrun hrun', ?_, ?_⟩
  · simp [Update.modified]
  · exact (hle'.trans hle).trans (Nat.le_succ _)

theorem makesRun_group {group : Settings} {r' : Bool × List Bytes × Bytes}
    (hevent : parseConfigObject endTag line = .group name)
    (hwanted : s.wanted f name = some (.group group))
    (hgroup : MakesRun (ascii "\x7d") group noFilter (tabDepth + 1) is
      { os := u.os ++ (line ++ ascii "\n") } r')
    (h : MakesRun endTag s f tabDepth r'.2.1 (Update.present { u with os := r'.2.2 } name r'.1) r) :
    MakesRun endTag s f tabDepth (line :: is) u r := by
  rcases hgroup with ⟨inner, modified, is', hrun, rfl, hle⟩
  rcases h with ⟨body, modified', rest, hrun', rfl, hle'⟩
  refine ⟨_, _, rest, .group hevent hwanted hrun hrun', ?_, ?_⟩
  · rw [linesText_cons, linesText_append, linesText_cons]
    simp [Update.present, closingText, Bool.or_assoc, ascii]
  · exact (hle'.trans hle).trans (Nat.le_succ _)

theorem makesRun_flattened (hs : s.Conforms NameOk V)
    (hevent : parseConfigObject endTag line = .group name)
    (hwanted : s.wanted f name = some (.value value))
    (h : MakesRun endTag s f tabDepth is
      ((u.write (printEntry name (.value value) tabDepth)).present name true) r) :
    MakesRun endTag s f tabDepth (line :: is) u r := by
  rcases h with ⟨body, modified, rest, hrun, rfl, hle⟩
  have hentry := hs.lookup (Settings.lookup_of_wanted hwanted)
  refine ⟨_, true, rest, .flattened hevent hwanted hrun, ?_, hle.trans (Nat.le_succ _)⟩
  rw [linesText_append, printEntry_eq hentry.1 hentry.2]
  simp [Update.present, Update.write]

/-- With more rounds than lines the loop makes a run, and writes its lines. -/
theorem makesRun_updateLoop {fuel : Nat} (hs : s.Conforms NameOk V) (hfuel : is.length < fuel) :
    MakesRun endTag s f tabDepth is u (updateLoop fuel endTag s f tabDepth is u) := by
  induction fuel generalizing endTag s f tabDepth is u with
  | zero => cases hfuel
  | succ fuel ih =>
    cases is with
    | nil =>
      rw [updateLoop_nil]
      exact makesRun_eof hs
    | cons line is =>
      rw [List.length_cons] at hfuel
      have hlt : is.length < fuel := Nat.lt_of_succ_lt_succ hfuel
      have hrounds : ∀ (is' : List Bytes) (u' : Update), is'.length ≤ is.length →
          MakesRun endTag s f tabDepth is' u' (updateLoop fuel endTag s f tabDepth is' u') :=
        fun is' u' hle => ih hs (hle.trans_lt hlt)
      change MakesRun endTag s f tabDepth (line :: is) { u with line := line } _
      rw [updateLoop]
      generalize hu : ({ u with line := line } : Update) = u'
      have hline : u'.line = line := by rw [← hu]
      cases hevent : parseConfigObject endTag line with
      | kvPair name value =>
        have htext : linesText [line] = line ++ ascii "\n" := by simp [linesText]
        dsimp only
        rw [← htext]
        exact makesRun_plain hs (.line line name value is hevent) (Nat.le_succ _)
          (hrounds _ _ le_rfl)
      | multiline name =>
        have htext : linesText (line :: (readLines (getMultiline is).1 ++ [quotes])) =
            line ++ ascii "\n" ++ ((getMultiline is).1 ++ ascii "\n\"\"\"\n") := by
          rw [linesText_cons, linesText_append, linesText_readLines]
          simp [linesText, quotes, ascii]
        have hle := length_getMultiline is
        dsimp only
        rw [← htext]
        exact makesRun_plain hs (.multiline line name is hevent) (hle.trans (Nat.le_succ _))
          (hrounds _ _ hle)
      | endTag => exact makesRun_endTag hs hline hevent
      | group name =>
        dsimp only
        cases hwanted : s.wanted f name with
        | none =>
          have hgroup : MakesRun (ascii "\x7d") .nil noFilter (tabDepth + 1) is {} _ :=
            ih Settings.conforms_nil hlt
          exact makesRun_droppedGroup hevent hwanted hgroup (hrounds _ _ hgroup.rest_le)
        | some entry =>
          have hentry := hs.lookup (Settings.lookup_of_wanted hwanted)
          cases entry with
          | value value =>
            exact makesRun_flattened hs hevent hwanted (hrounds _ _ le_rfl)
          | group group =>
            have hgroup : MakesRun (ascii "\x7d") group noFilter (tabDepth + 1) is
                { os := u'.os ++ (line ++ ascii "\n") } _ :=
              ih (Settings.conforms_group.1 hentry.2) hlt
            exact makesRun_group hevent hwanted hgroup (hrounds _ _ hgroup.rest_le)
      | _ =>
        all_goals
          have hremark : (parseConfigObject endTag line).IsRemark := by
            rw [hevent]
            simp [SettingsParseEvent.IsRemark]
          dsimp only
          by_cases hlast : is = []
          · subst hlast
            rw [if_pos rfl, List.append_nil, updateLoop_nil]
            exact makesRun_lastRemark hs hline hremark
          · rw [if_neg hlast]
            exact makesRun_remark hremark (hrounds _ _ le_rfl)

end

end Config
end AxisEngine
