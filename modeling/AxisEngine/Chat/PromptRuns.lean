import AxisEngine.Chat.Completion
import AxisEngine.Lib.Transition

/-!
# PromptRuns — cursor, selection and view of the chat line

The prompt takes key after key.  Its line is the one that is written or one of the history, the cursor and the
selection are numbers, and the view follows the cursor.

* `ChatPrompt.input`, `clear`, `replace`, `addToHistory`, ... — the operations;
* `ChatPrompt.cursorOperation`, `reformat`, `nickCompletion` — the cursor, the width, the names of players;
* `Valid` — what the numbers promise;
* `valid_of_run_iff` — which runs keep that.
-/

namespace AxisEngine
namespace Chat

open Lib

/-- What a prompt is made with; `isSpace` is `iswspace`. -/
structure Setup where
  prompt : WString
  historyLimit : ℕ
  isSpace : WChar → Bool

inductive CursorOp
  | move
  | delete
  | select

inductive CursorOpDir
  | left
  | right

inductive CursorOpScope
  | character
  | word
  | line
  | selection
  deriving DecidableEq

/-- `operator==` -/
def HistoryEntry.same (a b : HistoryEntry) : Bool :=
  a.line = b.line &&
    (a.saved = b.saved || (a.saved.getD a.line = a.line && b.saved.getD b.line = b.line))

/-! ## Names of players -/

/-- A character beyond ASCII is none, and only then cut to a `char`. -/
def isPlayernameChar (c : WChar) : Bool :=
  c ≤ 0x7F && c.toInt8 ∈ (text
    "abcdefghijklmnopqrstuvwxyzABCDEFGHIJKLMNOPQRSTUVWXYZ0123456789-_").map Int32.toInt8

def nameStart (line : WString) : ℕ → Option ℕ
  | 0 => some 0
  | start + 1 => do
      let c ← (line)[start]?
      if isPlayernameChar c then nameStart line start else some (start + 1)

/-- On over the characters with the property -/
def skip (q : WChar → Bool) (line : WString) (cursor : ℕ) : ℕ :=
  cursor + ((line.drop cursor).takeWhile q).length

/-- Back over them -/
def skipBack (q : WChar → Bool) (line : WString) (cursor : ℕ) : ℕ :=
  cursor - ((line.take cursor).reverse.takeWhile q).length

/-- The shortest completion after a look at one more -/
def shortened (start : ℕ) (shortest completion : WString) : WString :=
  if shortest = [] then completion
  else
    let differs i := shortest[i]?.map lowered != completion[i]?.map lowered
    match ((List.range (min shortest.length completion.length)).drop start).find? differs with
    | some i => shortest.take i
    | none => if completion.length < shortest.length then completion else shortest

namespace ChatPrompt

/-! ## The operations -/

def initial : ChatPrompt where
  line := []
  history := []
  historyIndex := 0
  cols := 0
  view := 0
  suggestions := {}
  cursor := 0
  cursorLen := 0

variable (p : ChatPrompt)

/-- One character or many -/
def input (str : WString) : Option ChatPrompt := do
  let line ← replaceAt p.getLineRef p.cursor 0 str
  some (clampView { p.setLine line with cursor := p.cursor + str.length })

def clear : ChatPrompt :=
  { p.setLine [] with view := 0, cursor := 0 }

/-- `m_view = m_cursor = getLineRef().size()` -/
def toEnd : ChatPrompt :=
  clampView { p with view := p.getLineRef.length, cursor := p.getLineRef.length }

def replace (line : WString) : ChatPrompt := (p.setLine line).toEnd

def historyPrev : ChatPrompt :=
  if p.historyIndex ≠ 0 then toEnd { p with historyIndex := p.historyIndex - 1 } else p

def historyNext : ChatPrompt :=
  if p.historyIndex < p.history.length then toEnd { p with historyIndex := p.historyIndex + 1 } else p

/-- The history with the entry of the line as it was before it was edited -/
def restored (line : WString) : List HistoryEntry :=
  match p.history[p.historyIndex]? with
  | none => p.history
  | some entry =>
    match entry.saved with
    | none => p.history
    | some saved =>
      if entry.line ≠ line then p.history
      else
        let entry : HistoryEntry := ⟨saved, none⟩
        let before := p.history.take p.historyIndex
        let after := p.history.drop (p.historyIndex + 1)
        if before.any (·.same entry) then before.eraseP (·.same entry) ++ entry :: after
        else if after.any (·.same entry) then before ++ after
        else before ++ entry :: after

variable (setup : Setup) (p : ChatPrompt)

def addToHistory (line : WString) : ChatPrompt :=
  let history := p.restored line
  let history :=
    if line ≠ [] ∧ history.getLast?.map (·.line) ≠ some line then
      history.filter (fun entry => !entry.same ⟨line, none⟩) ++ [⟨line, none⟩]
    else history
  let history := if setup.historyLimit < history.length then history.tail else history
  { p with history, historyIndex := history.length, line := p.getLineRef }

/-- Where the cursor would go, before it is kept inside the line -/
def newCursor (isSpace : WChar → Bool) (p : ChatPrompt) : CursorOpDir → CursorOpScope → Option ℕ
  | .right, .character => some (p.cursor + 1)
  | .left, .character => some (p.cursor - 1)
  | .right, .word =>
    let line := p.getLineRef
    some (skip isSpace line (skip (!isSpace ·) line (skip isSpace line p.cursor)))
  | .left, .word =>
    let line := p.getLineRef
    if p.cursor ≤ line.length then some (skipBack (!isSpace ·) line (skipBack isSpace line p.cursor))
    else none
  | .right, .line => some (p.cursor + p.getLineRef.length)
  | .left, .line => some (p.cursor - p.getLineRef.length)
  | _, .selection => some p.cursor

def cursorOperation (op : CursorOp) (dir : CursorOpDir)
    (scope : CursorOpScope) : Option ChatPrompt := do
  let length := p.getLineRef.length
  let new ← p.newCursor setup.isSpace dir scope
  let new := min new length
  let first := min new p.cursor
  let between := max new p.cursor - first
  match op with
  | .move => some (clampView { p with cursor := new, cursorLen := 0 })
  | .delete =>
    -- the selection, or what lies between
    if 0 < p.cursorLen then p.edit p.cursor p.cursorLen.toNat [] else p.edit first between []
  | .select =>
    if scope = .line then some (clampView { p with cursor := 0, cursorLen := length })
    else some (clampView { p with cursor := first,
                                  cursorLen := min (p.cursorLen + between) (length - first) })

def reformat (cols : UInt32) : ChatPrompt :=
  if cols.toNat ≤ setup.prompt.length then { p with cols := 0, view := p.cursor }
  else
    let length : ℤ := p.getLineRef.length
    let view := if length + 1 ≤ p.view + p.cols then length else p.view
    clampView { p with cols := ((cols.toNat - setup.prompt.length : ℕ) : ℤ).bmod 4294967296, view }

def nickCompletion (names : List WString) : Option ChatPrompt := do
  let line := p.getLineRef
  let prefixStart ← nameStart line p.cursor
  let prefixEnd := skip isPlayernameChar line p.cursor
  if prefixStart = prefixEnd then some p
  else
    let start ← substr line prefixStart (prefixEnd - prefixStart)
    let completions := names.filter (strStartsWith · start)
    let shortest := completions.foldl (shortened start.length) []
    if completions = [] ∨ 1 < completions.length ∧ start.length = shortest.length then some p
    else
      let shortest :=
        if completions.length ≠ 1 then shortest
        else if start.length = line.length then shortest ++ text ": "
        else if prefixEnd = line.length then shortest ++ [space]
        else shortest
      p.edit prefixStart (prefixEnd - prefixStart) shortest

inductive Op
  | input (str : WString)
  | clear
  | replace (line : WString)
  | historyPrev
  | historyNext
  | addToHistory (line : WString)
  | cursorOperation (op : CursorOp) (dir : CursorOpDir) (scope : CursorOpScope)
  | reformat (cols : UInt32)
  | updateSuggestions (commands : List CommandInfo) (names : List WString)
  | cycleSuggestion (steps : ℤ)
  | applySuggestion
  | commandCompletion (commands : List CommandInfo) (names : List WString)
  | nickCompletion (names : List WString)

def apply : Op → Option ChatPrompt
  | .input str => p.input str
  | .clear => some p.clear
  | .replace line => some (p.replace line)
  | .historyPrev => some p.historyPrev
  | .historyNext => some p.historyNext
  | .addToHistory line => some (p.addToHistory setup line)
  | .cursorOperation op dir scope => p.cursorOperation setup op dir scope
  | .reformat cols => some (p.reformat setup cols)
  | .updateSuggestions commands names => p.updateSuggestions commands names
  | .cycleSuggestion steps => some (p.cycleSuggestion steps)
  | .applySuggestion => p.applySuggestion.map (·.1)
  | .commandCompletion commands names => (p.commandCompletion commands names).map (·.prompt)
  | .nickCompletion names => p.nickCompletion names

def Step (op : Op) (q : ChatPrompt) : Prop :=
  p.apply setup op = some q

/-! ## What the numbers promise -/

/-- `cols` is zero where no column is left for text. -/
structure Valid (p : ChatPrompt) : Prop where
  cursor : p.cursor ≤ p.getLineRef.length
  nonneg : 0 ≤ p.cursorLen
  selection : p.cursor + p.cursorLen ≤ p.getLineRef.length
  view : p.cols ≠ 0 → 0 ≤ p.view ∧ p.view ≤ p.cursor ∧ p.cursor < p.view + p.cols

/-- Nothing is selected where the line is exchanged, and the width is an `s32`. -/
def Fine : Op → Prop
  | .clear => p.cursorLen = 0
  | .replace _ => p.cursorLen = 0
  | .historyPrev => p.historyIndex = 0 ∨ p.cursorLen = 0
  | .historyNext => p.history.length ≤ p.historyIndex ∨ p.cursorLen = 0
  | .reformat cols => cols.toNat - setup.prompt.length < 2147483648
  | _ => True

section

variable {p q : ChatPrompt} {setup : Setup} {commands : List CommandInfo} {names : List WString}

theorem Valid.cols_nonneg (h : Valid p) : 0 ≤ p.cols := by
  by_cases hcols : p.cols = 0
  · omega
  · have hview := h.view hcols
    omega

theorem cols_clampView (p : ChatPrompt) : p.clampView.cols = p.cols := by
  unfold clampView
  dsimp only
  split <;> rfl

theorem cursorLen_clampView (p : ChatPrompt) : p.clampView.cursorLen = p.cursorLen := by
  unfold clampView
  dsimp only
  split <;> rfl

theorem valid_clampView (hcols : 0 ≤ p.cols) (hcursor : p.cursor ≤ p.getLineRef.length)
    (hnonneg : 0 ≤ p.cursorLen) (hselection : p.cursor + p.cursorLen ≤ p.getLineRef.length) :
    Valid p.clampView := by
  have hsame := cursorLen_clampView p
  refine ⟨by simpa using hcursor, hsame ▸ hnonneg, ?_, fun hne => ?_⟩
  · rw [getLineRef_clampView, cursor_clampView, hsame]
    exact hselection
  · rw [cols_clampView] at hne ⊢
    rw [cursor_clampView]
    unfold clampView
    dsimp only
    split
    · dsimp only
      omega
    · dsimp only
      omega

theorem setLine_numbers (line : WString) :
    (p.setLine line).cols = p.cols ∧ (p.setLine line).cursorLen = p.cursorLen := by
  unfold setLine
  split <;> exact ⟨rfl, rfl⟩

theorem valid_written {line : WString} {cursor : ℕ} {n : ℤ} (hcols : 0 ≤ p.cols)
    (hcursor : cursor ≤ line.length) (hn : 0 ≤ n) (hselection : cursor + n ≤ line.length) :
    Valid (clampView { p.setLine line with cursor := cursor, cursorLen := n }) := by
  have hline : getLineRef { p.setLine line with cursor := cursor, cursorLen := n } = line :=
    getLineRef_setLine p line
  refine valid_clampView ((setLine_numbers line).1.symm ▸ hcols) ?_ hn ?_
  · rw [hline]
    exact hcursor
  · rw [hline]
    exact hselection

/-- An edit drops the selection. -/
theorem valid_edit {start n : ℕ} {new : WString} (hcols : 0 ≤ p.cols)
    (h : p.edit start n new = some q) : Valid q := by
  unfold edit replaceAt at h
  split at h
  case isTrue hstart =>
    cases h
    have hle : start + new.length ≤
        (p.getLineRef.take start ++ new ++ p.getLineRef.drop (start + n)).length := by
      simp only [List.length_append, List.length_take]
      omega
    exact valid_written hcols hle (Int.le_refl 0) (by omega)
  case isFalse => cases h

/-- The cursor goes to the end, the selection stays as long as it was. -/
theorem valid_toEnd_iff (hcols : 0 ≤ p.cols) (hnonneg : 0 ≤ p.cursorLen) :
    Valid p.toEnd ↔ p.cursorLen = 0 := by
  have hlen : p.toEnd.cursorLen = p.cursorLen := cursorLen_clampView _
  constructor
  · intro h
    have hselection := h.selection
    rw [hlen, toEnd, getLineRef_clampView, cursor_clampView] at hselection
    change ((p.getLineRef.length : ℕ) : ℤ) + p.cursorLen ≤ (p.getLineRef.length : ℕ) at hselection
    omega
  · intro hzero
    exact valid_clampView hcols le_rfl hnonneg (by
      change ((p.getLineRef.length : ℕ) : ℤ) + p.cursorLen ≤ (p.getLineRef.length : ℕ)
      omega)

theorem exists_suggestions (h : p.updateSuggestions commands names = some q) :
    ∃ s, q = { p with suggestions := s } := by
  unfold updateSuggestions at h
  dsimp only at h
  split at h
  · cases h
    exact ⟨_, rfl⟩
  · simp only [Option.bind_eq_bind, Option.bind_eq_some_iff] at h
    rcases h with ⟨⟨tokenStart, tokenEnd⟩, -, typed, -, h⟩
    dsimp only at h
    split at h
    · split at h <;> cases h <;> exact ⟨_, rfl⟩
    · simp only [Option.bind_eq_some_iff] at h
      rcases h with ⟨parsed, -, h⟩
      split at h
      · simp only [Option.bind_eq_some_iff] at h
        rcases h with ⟨start, -, h⟩
        cases h
        exact ⟨_, rfl⟩
      · split at h
        · cases h
          exact ⟨_, rfl⟩
        · simp only [Option.bind_eq_some_iff] at h
          rcases h with ⟨wanted, -, h⟩
          cases h
          exact ⟨_, rfl⟩

theorem valid_suggestions (h : Valid p) (s : Suggestions) : Valid { p with suggestions := s } :=
  ⟨h.cursor, h.nonneg, h.selection, h.view⟩

theorem valid_input {str : WString} (h : Valid p) (hstep : p.input str = some q) : Valid q := by
  unfold input replaceAt at hstep
  split at hstep
  case isTrue hle =>
    cases hstep
    have hcursor : p.cursor + str.length ≤
        (p.getLineRef.take p.cursor ++ str ++ p.getLineRef.drop (p.cursor + 0)).length := by
      simp only [List.length_append, List.length_take]
      omega
    have hselection := h.selection
    have hwritten := valid_written (p := p) h.cols_nonneg hcursor h.nonneg (by
      simp only [List.length_append, List.length_take, List.length_drop]
      omega)
    rwa [← (setLine_numbers _).2] at hwritten
  case isFalse => cases hstep

theorem valid_clear_iff (h : Valid p) : Valid p.clear ↔ p.cursorLen = 0 := by
  have hline : p.clear.getLineRef = [] := getLineRef_setLine p []
  have hlen : p.clear.cursorLen = p.cursorLen := (setLine_numbers []).2
  have hcols : p.clear.cols = p.cols := (setLine_numbers []).1
  constructor
  · intro hclear
    have hselection := hclear.selection
    rw [hline, hlen] at hselection
    have hnonneg := h.nonneg
    change ((0 : ℕ) : ℤ) + p.cursorLen ≤ (0 : ℕ) at hselection
    omega
  · intro hzero
    refine ⟨Nat.zero_le _, by rw [hlen]; exact h.nonneg, ?_, fun hne => ?_⟩
    · rw [hline, hlen, hzero]
      exact Int.le_refl 0
    · rw [hcols] at hne ⊢
      have hview := h.view hne
      change 0 ≤ (0 : ℤ) ∧ (0 : ℤ) ≤ (0 : ℕ) ∧ ((0 : ℕ) : ℤ) < 0 + p.cols
      omega

theorem valid_cursorOperation {op : CursorOp} {dir : CursorOpDir} {scope : CursorOpScope} (h : Valid p)
    (hstep : p.cursorOperation setup op dir scope = some q) : Valid q := by
  have hcols := h.cols_nonneg
  have hnonneg := h.nonneg
  have hcursor := h.cursor
  unfold cursorOperation at hstep
  simp only [Option.bind_eq_bind, Option.bind_eq_some_iff] at hstep
  rcases hstep with ⟨new, -, hstep⟩
  cases op with
  | move =>
    cases hstep
    exact valid_clampView hcols (Nat.min_le_right _ _) (Int.le_refl 0) (by
      change ((min new p.getLineRef.length : ℕ) : ℤ) + 0 ≤ (p.getLineRef.length : ℕ)
      omega)
  | delete =>
    dsimp only at hstep
    split at hstep
    · exact valid_edit hcols hstep
    · exact valid_edit hcols hstep
  | select =>
    dsimp only at hstep
    split at hstep
    · cases hstep
      exact valid_clampView hcols (Nat.zero_le _) (Int.natCast_nonneg _) (by
        change ((0 : ℕ) : ℤ) + (p.getLineRef.length : ℕ) ≤ (p.getLineRef.length : ℕ)
        omega)
    · cases hstep
      refine valid_clampView hcols ?_ ?_ ?_
      · exact (Nat.min_le_right _ _).trans hcursor
      · dsimp only
        omega
      · exact Int.add_le_of_le_sub_left (Int.min_le_right _ _)

/-- As an `s32`, a width is negative from `2 ^ 31` on. -/
theorem bmod_nonneg_iff {n : ℕ} (h : n < 4294967296) : 0 ≤ (n : ℤ).bmod 4294967296 ↔ n < 2147483648 := by
  have hneg := Int.bmod_neg_iff (m := 4294967296) (x := n) (by omega) (by omega)
  omega

theorem valid_resized_iff {cols view : ℤ} (h : Valid p) :
    Valid (clampView { p with cols := cols, view := view }) ↔ 0 ≤ cols := by
  constructor
  · intro hvalid
    have hnonneg := hvalid.cols_nonneg
    rwa [cols_clampView] at hnonneg
  · exact fun hnonneg => valid_clampView hnonneg h.cursor h.nonneg h.selection

theorem valid_reformat_iff {cols : UInt32} (h : Valid p) :
    Valid (p.reformat setup cols) ↔ cols.toNat - setup.prompt.length < 2147483648 := by
  have hcols := cols.toNat_lt
  unfold reformat
  split
  case isTrue hle =>
    exact iff_of_true ⟨h.cursor, h.nonneg, h.selection, fun hne => absurd rfl hne⟩ (by omega)
  case isFalse =>
    rw [valid_resized_iff h]
    exact bmod_nonneg_iff (by omega)

theorem valid_applySuggestion (h : Valid p) (hstep : p.applySuggestion.map (·.1) = some q) : Valid q := by
  unfold applySuggestion at hstep
  dsimp only at hstep
  split at hstep
  · cases hstep
    exact h
  · simp only [Option.bind_eq_bind, Option.map_eq_some_iff, Option.bind_eq_some_iff] at hstep
    rcases hstep with ⟨_, ⟨chosen, -, edited, hedit, hsome⟩, rfl⟩
    cases hsome
    exact valid_suggestions (valid_edit h.cols_nonneg hedit) {}

theorem valid_commandCompletion (h : Valid p)
    (hstep : (p.commandCompletion commands names).map (·.prompt) = some q) : Valid q := by
  rw [Option.map_eq_some_iff] at hstep
  rcases hstep with ⟨completed, hstep, rfl⟩
  unfold commandCompletion at hstep
  dsimp only at hstep
  split at hstep
  · cases hstep
    exact h
  · simp only [Option.bind_eq_bind, Option.bind_eq_some_iff] at hstep
    rcases hstep with ⟨u, hu, hstep⟩
    rcases exists_suggestions hu with ⟨s, rfl⟩
    have hvalid := valid_suggestions h s
    split at hstep
    · cases hstep
      exact hvalid
    split at hstep
    · cases hstep
      exact hvalid
    split at hstep
    · simp only [Option.bind_eq_some_iff] at hstep
      rcases hstep with ⟨options, -, hstep⟩
      cases hstep
      exact hvalid
    · simp only [Option.bind_eq_some_iff] at hstep
      rcases hstep with ⟨edited, hedit, hstep⟩
      cases hstep
      exact valid_edit hvalid.cols_nonneg hedit

theorem valid_nickCompletion (h : Valid p) (hstep : p.nickCompletion names = some q) : Valid q := by
  unfold nickCompletion at hstep
  simp only [Option.bind_eq_bind, Option.bind_eq_some_iff] at hstep
  rcases hstep with ⟨prefixStart, -, hstep⟩
  split at hstep
  · cases hstep
    exact h
  · rw [Option.bind_eq_some_iff] at hstep
    rcases hstep with ⟨start, -, hstep⟩
    split at hstep
    · cases hstep
      exact h
    · exact valid_edit h.cols_nonneg hstep

/-- A step keeps the numbers right exactly if it is one of these. -/
theorem step_valid_iff {op : Op} (h : Valid p) (hstep : Step setup p op q) :
    Valid q ↔ Fine setup p op := by
  have hcols := h.cols_nonneg
  cases op with
  | input str => exact iff_of_true (valid_input h hstep) trivial
  | clear =>
    cases hstep
    exact valid_clear_iff h
  | replace line =>
    cases hstep
    rw [replace, valid_toEnd_iff ((setLine_numbers line).1.symm ▸ hcols)
      ((setLine_numbers line).2.symm ▸ h.nonneg), (setLine_numbers line).2]
    rfl
  | historyPrev =>
    cases hstep
    unfold historyPrev
    split
    case isTrue hindex =>
      have hend := valid_toEnd_iff (p := { p with historyIndex := p.historyIndex - 1 }) hcols h.nonneg
      exact hend.trans (or_iff_right hindex).symm
    case isFalse hindex => exact iff_of_true h (.inl (not_not.1 hindex))
  | historyNext =>
    cases hstep
    unfold historyNext
    split
    case isTrue hindex =>
      have hend := valid_toEnd_iff (p := { p with historyIndex := p.historyIndex + 1 }) hcols h.nonneg
      exact hend.trans (or_iff_right (Nat.not_le.2 hindex)).symm
    case isFalse hindex => exact iff_of_true h (.inl (Nat.not_lt.1 hindex))
  | addToHistory line =>
    cases hstep
    have hline : (p.addToHistory setup line).getLineRef = p.getLineRef := by
      simp [getLineRef, addToHistory]
    exact iff_of_true ⟨hline ▸ h.cursor, h.nonneg, hline ▸ h.selection, h.view⟩ trivial
  | cursorOperation op dir scope => exact iff_of_true (valid_cursorOperation h hstep) trivial
  | reformat cols =>
    cases hstep
    exact valid_reformat_iff h
  | updateSuggestions commands names =>
    rcases exists_suggestions hstep with ⟨s, rfl⟩
    exact iff_of_true (valid_suggestions h s) trivial
  | cycleSuggestion steps =>
    cases hstep
    refine iff_of_true ?_ trivial
    unfold cycleSuggestion
    dsimp only
    split
    · exact h
    · exact valid_suggestions h _
  | applySuggestion => exact iff_of_true (valid_applySuggestion h hstep) trivial
  | commandCompletion commands names => exact iff_of_true (valid_commandCompletion h hstep) trivial
  | nickCompletion names => exact iff_of_true (valid_nickCompletion h hstep) trivial

/-- The runs through right numbers are those whose steps are fine. -/
theorem valid_of_run_iff (setup : Setup) (ops : List Op) (p : ChatPrompt) :
    Run.Guarded (Fine setup) (Step setup) initial ops p ↔
      Run (fun p op q => Step setup p op q ∧ Valid q) initial ops p :=
  Run.guarded_iff (fun _ _ _ h hfine hstep => (step_valid_iff h hstep).2 hfine)
    (fun _ _ _ h hnot hstep hvalid => hnot ((step_valid_iff h hstep).1 hvalid))
    ⟨Nat.zero_le _, Int.le_refl 0, Int.le_refl 0, fun hne => absurd rfl hne⟩

/-- The line is selected and cleared, the selection remains. -/
theorem selection_of_nothing :
    ∃ p : ChatPrompt, Run (Step ⟨[], 10, fun _ => false⟩) initial
        [.input (text "ab"), .cursorOperation .select .left .line, .clear] p ∧
      p.getLineRef = [] ∧ p.cursorLen = 2 ∧ ¬ Valid p := by
  refine ⟨_, .cons rfl (.cons rfl (.cons rfl (.nil _))), rfl, rfl, fun hvalid => ?_⟩
  exact absurd hvalid.selection (by decide)

end

end ChatPrompt

end Chat
end AxisEngine
