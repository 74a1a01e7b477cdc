import AxisEngine.Chat.ChatPrompt
import AxisEngine.Lib.SplitOn
import Mathlib.Data.List.DropRight
import Mathlib.Data.List.TakeWhile

/-!
# Completion — the token under the cursor

The three scans of the line agree about where the command word is, but for a slash that stands alone: there
the token behind it is taken for a command that has its slash.  And letters are compared as bytes.

* `TokenAt` — the word the cursor is in;
* `Compared` — the words it is compared with at its place in the line;
* `Completes` — what completion promises there;
* `completes_iff` — where it keeps the promise.
-/

namespace AxisEngine
namespace Chat

/-! ## The promise -/

/-- `token` is the word at the cursor: it has no space and reaches as far as it can. -/
structure TokenAt (line : WString) (cursor : ℕ) (before token after : WString) : Prop where
  line_eq : line = before ++ token ++ after
  noSpace : space ∉ token
  behind : before.length ≤ cursor
  ahead : cursor ≤ before.length + token.length
  left : before = [] ∨ before.getLast? = some space
  right : after = [] ∨ after.head? = some space

def asciiLower (c : WChar) : WChar := if 65 ≤ c ∧ c ≤ 90 then c + 32 else c

/-- `option` begins with `token`, but for the case of its letters. -/
def Begins (option token : WString) : Prop := token.map asciiLower <+: option.map asciiLower

/-- Only spaces stand between the slash and the token. -/
def SlashAlone (before : WString) : Prop := before.head? = some slash ∧ ∀ c ∈ before.tail, c = space

/-- The words that a token is compared with, by its place in the line -/
inductive Compared (commands : List CommandInfo) (names : List WString) (before token after : WString) :
    WString → Prop
  | name {w : WString} :
      (before ++ token ++ after).head? ≠ some slash → w ∈ names →
        Compared commands names before token after w
  | command {c : CommandInfo} :
      (before ++ token ++ after).head? = some slash → splitWords before.tail = [] →
        c ∈ commands → c.oneWord = true →
        Compared commands names before token after (slash :: c.name)
  | argument {words arguments wanted : List WString} {c : CommandInfo} {o : Offer} :
      (before ++ token ++ after).head? = some slash → words = splitWords before.tail → words ≠ [] →
        deepest commands words words.length = { command := some c, arguments, words } →
        parametersAt (formsFitting c.params arguments) (arguments.length + 1) = some wanted →
        o ∈ argumentWords commands names c arguments wanted →
        Compared commands names before token after o.1

/-- `applySuggestion` puts the chosen option where the token was, and the cursor behind it. -/
def Applies (q : ChatPrompt) (before after : WString) : Prop :=
  if q.suggestions.options = [] then q.applySuggestion = some (q, false)
  else ∃ chosen r, q.suggestions.options[q.suggestions.chosen]? = some chosen ∧
    q.applySuggestion = some (r, true) ∧ r.getLineRef = before ++ chosen ++ after ∧
    r.cursor = before.length + chosen.length

/-- No access is out of range, each option begins with the token, and the chosen one can take its place. -/
def Completes (p : ChatPrompt) (commands : List CommandInfo) (names : List WString)
    (before token after : WString) : Prop :=
  (∃ q, p.updateSuggestions commands names = some q ∧
    q.getLineRef = p.getLineRef ∧ q.cursor = p.cursor ∧
    (∀ o ∈ q.suggestions.options, Begins o token) ∧ Applies q before after) ∧
  ∃ c, p.commandCompletion commands names = some c

/-! ## The scans -/

section Scans

variable {line before token after : WString} {cursor : ℕ}

section

variable (h : TokenAt line cursor before token after)

include h

theorem tokenStart_eq (k : ℕ) (hk : k ≤ token.length) :
    tokenStart line (before.length + k) = some before.length := by
  induction k with
  | zero =>
    rcases h.left with rfl | hlast
    · rfl
    · have hne : before ≠ [] := by
        intro hnil
        simp [hnil] at hlast
      rcases List.eq_nil_or_concat before with hnil | ⟨init, c, rfl⟩
      · exact absurd hnil hne
      · have hc : c = space := by simpa using hlast
        have hget : (line)[init.length]? = some c := by simp [h.line_eq]
        simp [tokenStart, hget, hc]
  | succ k ih =>
    have hlt : k < token.length := hk
    have hget : (line)[before.length + k]? = some token[k] := by
      rw [h.line_eq, List.append_assoc, List.getElem?_append_right (Nat.le_add_right _ _),
        Nat.add_sub_cancel_left, List.getElem?_append_left hlt, List.getElem?_eq_getElem hlt]
    have hc : token[k] ≠ space := fun heq => h.noSpace (heq ▸ List.getElem_mem hlt)
    calc
      tokenStart line (before.length + (k + 1))
          = tokenStart line (before.length + k) := by
            simp [tokenStart, hget, hc]
      _ = some before.length := ih hlt.le

theorem tokenEnd_eq : tokenEnd line cursor = before.length + token.length := by
  rcases Nat.exists_eq_add_of_le h.behind with ⟨k, rfl⟩
  have hk : k ≤ token.length := by
    have := h.ahead
    omega
  have hdrop : line.drop (before.length + k) = token.drop k ++ after := by
    rw [h.line_eq, List.append_assoc, List.drop_append, Nat.add_sub_cancel_left,
      List.drop_append_of_le_length hk, List.drop_of_length_le (Nat.le_add_right _ _), List.nil_append]
  have hafter : after.takeWhile (· ≠ space) = [] := by
    rcases h.right with rfl | hhead
    · rfl
    · cases after with
      | nil => rfl
      | cons c rest =>
        have hc : c = space := by simpa using hhead
        simp [hc]
  have htoken : ∀ c ∈ token.drop k, decide (c ≠ space) = true := by
    intro c hc
    have hmem : c ∈ token := List.mem_of_mem_drop hc
    exact decide_eq_true fun heq => h.noSpace (heq ▸ hmem)
  have htake : (token.drop k ++ after).takeWhile (· ≠ space) = token.drop k := by
    rw [List.takeWhile_append_of_pos htoken, hafter, List.append_nil]
  unfold tokenEnd
  rw [hdrop, htake, List.length_drop]
  omega

theorem tokenAroundCursor_eq :
    tokenAroundCursor line cursor = some (before.length, before.length + token.length) := by
  rcases Nat.exists_eq_add_of_le h.behind with ⟨k, rfl⟩
  have hk : k ≤ token.length := by
    have := h.ahead
    omega
  simp [tokenAroundCursor, tokenStart_eq h k hk, tokenEnd_eq h]

theorem substr_token : substr line before.length token.length = some token := by
  simp [substr, h.line_eq, List.append_assoc]

/-- All words before the token, without the slash -/
theorem parseCommandLine_eq (commands : List CommandInfo) :
    parseCommandLine line before.length commands =
      some (deepest commands (splitWords before.tail) (splitWords before.tail).length) := by
  cases before with
  | nil => simp [parseCommandLine, splitWords]
  | cons c rest => simp [parseCommandLine, substr, h.line_eq, List.append_assoc]

end

theorem splitWords_eq_nil {t : WString} : splitWords t = [] ↔ ∀ c ∈ t, c = space := by
  constructor
  · intro hnil c hc
    have hmem : c ∈ (t.splitOn space).flatMap fun part => part ++ [space] := by
      rw [Lib.flatMap_splitOn]
      exact List.mem_append_left _ hc
    rcases List.mem_flatMap.1 hmem with ⟨part, hpart, hcpart⟩
    have hempty : part = [] := by
      have := List.filter_eq_nil_iff.1 hnil part hpart
      simpa using this
    simpa [hempty] using hcpart
  · intro hall
    refine List.filter_eq_nil_iff.2 fun part hpart => ?_
    rcases Lib.mem_splitOn hpart with ⟨hnot, hwhere⟩
    have hsub : ∀ c ∈ part, c ∈ t := by
      intro c hc
      rcases hwhere with hprefix | hinfix
      · exact hprefix.subset hc
      · exact hinfix.subset (List.mem_cons_of_mem _ hc)
    have hempty : part = [] := by
      refine List.eq_nil_iff_forall_not_mem.2 fun c hc => hnot ?_
      exact hall c (hsub c hc) ▸ hc
    simp [hempty]

end Scans

theorem deepest_words (commands : List CommandInfo) (words : List WString) (depth : ℕ) :
    (deepest commands words depth).words = words := by
  fun_induction deepest commands words depth <;> simp_all

theorem foldlM_some {α β : Type} {f : β → α → Option β} (hf : ∀ b a, ∃ b', f b a = some b')
    (l : List α) (b : β) : ∃ b', l.foldlM f b = some b' := by
  induction l generalizing b with
  | nil => exact ⟨b, rfl⟩
  | cons a l ih =>
    rcases hf b a with ⟨b', hb'⟩
    rcases ih b' with ⟨r, hr⟩
    exact ⟨r, by simp [hb', hr]⟩

/-- An argument's index counts from one, so each shape is read within its bounds. -/
theorem parametersAt_succ (forms : List (List WString)) (k : ℕ) :
    ∃ wanted, parametersAt forms (k + 1) = some wanted := by
  refine foldlM_some (fun found form => ?_) forms []
  by_cases hshort : form.length < k + 1
  · exact ⟨found, by simp [hshort]⟩
  · have hlt : k < form.length := by omega
    refine ⟨if form[k] ∈ found then found else found ++ [form[k]], ?_⟩
    simp [hshort, List.getElem?_eq_getElem hlt]

/-! ## Suggestions -/

/-- The suggestions are for this token, and one of them is chosen. -/
structure Suits (s : Suggestions) (before token : WString) : Prop where
  typed : s.typed = token
  tokenStart : s.tokenStart = before.length
  chosen_lt : s.options ≠ [] → s.chosen < s.options.length

variable {before token : WString} (s previous : Suggestions) (offer : List Offer)

theorem keepChoice_chosen_lt (h : s.options ≠ []) : (s.keepChoice previous).chosen < s.options.length := by
  have hpos : 0 < s.options.length := List.length_pos_iff.2 h
  unfold Suggestions.keepChoice
  simp only
  split_ifs <;> omega

@[simp] theorem keepChoice_options : (s.keepChoice previous).options = s.options := rfl

@[simp] theorem keepChoice_typed : (s.keepChoice previous).typed = s.typed := rfl

@[simp] theorem keepChoice_tokenStart : (s.keepChoice previous).tokenStart = s.tokenStart := rfl

theorem keepChoice_suits {s : Suggestions} (previous : Suggestions) (htyped : s.typed = token)
    (hstart : s.tokenStart = before.length) :
    Suits (s.keepChoice previous) before token :=
  ⟨htyped, hstart, keepChoice_chosen_lt s previous⟩

theorem finish_suits {s : Suggestions} (previous : Suggestions) (offer : List Offer)
    (htyped : s.typed = token) (hstart : s.tokenStart = before.length) :
    Suits (s.finish previous offer) before token :=
  keepChoice_suits previous htyped hstart

/-- Dropping repeated options loses none. -/
theorem mem_destutter'_fst {o : WString} (a : Offer) :
    o ∈ (offer.destutter' (fun a b => a.1 ≠ b.1) a).map (·.1) ↔ o ∈ (a :: offer).map (·.1) := by
  induction offer generalizing a with
  | nil => simp
  | cons b offer ih =>
    by_cases heq : a.1 = b.1
    · simp [List.destutter', heq, ih]
    · simp [List.destutter', heq, ih]

@[simp] theorem mem_finish_options {o : WString} :
    o ∈ (s.finish previous offer).options ↔ o ∈ offer.map (·.1) := by
  have hsort : ∀ x, x ∈ (offer.mergeSort Offer.le).map (·.1) ↔ x ∈ offer.map (·.1) := by
    intro x
    simp [List.mem_mergeSort]
  have hunique : o ∈ ((offer.mergeSort Offer.le).destutter fun a b => a.1 ≠ b.1).map (·.1) ↔
      o ∈ (offer.mergeSort Offer.le).map (·.1) := by
    cases offer.mergeSort Offer.le with
    | nil => exact Iff.rfl
    | cons a rest => exact mem_destutter'_fst rest a
  exact hunique.trans (hsort o)

section Update

variable {p : ChatPrompt} (commands : List CommandInfo) (names : List WString)
  {before token after : WString}

/-- Away from a slash the token is a nickname. -/
theorem updateSuggestions_name (h : TokenAt p.getLineRef p.cursor before token after)
    (hslash : p.getLineRef.head? ≠ some slash) :
    ∃ s, p.updateSuggestions commands names = some { p with suggestions := s } ∧ Suits s before token ∧
      ∀ o, o ∈ s.options ↔ token ≠ [] ∧ o ∈ names ∧ strStartsWith o token = true := by
  have hline := h.line_eq
  unfold ChatPrompt.updateSuggestions
  cases hcase : p.getLineRef with
  | nil =>
    rw [hcase] at hline
    have hparts : before = [] ∧ token = [] ∧ after = [] := by simpa using hline.symm
    rcases hparts with ⟨rfl, rfl, rfl⟩
    exact ⟨{}, rfl, ⟨rfl, rfl, fun hne => absurd rfl hne⟩, by simp⟩
  | cons first rest =>
    have hfirst : first ≠ slash := by
      intro heq
      exact hslash (by rw [hcase, heq, List.head?_cons])
    rw [hcase] at h
    by_cases hempty : token = []
    · refine ⟨{ typed := token, tokenStart := before.length }, ?_, ⟨rfl, rfl, ?_⟩, ?_⟩
      · simp only [tokenAroundCursor_eq h, substr_token h, Option.bind_eq_bind, Option.bind_some,
          Nat.add_sub_cancel_left, if_pos hfirst, if_pos hempty]
      · exact fun hne => absurd rfl hne
      · simp [hempty]
    · let options := (names.filter (strStartsWith · token)).mergeSort
      let offered : Suggestions := { typed := token, tokenStart := before.length, options }
      refine ⟨offered.keepChoice p.suggestions, ?_, keepChoice_suits p.suggestions rfl rfl, ?_⟩
      · simp only [tokenAroundCursor_eq h, substr_token h, Option.bind_eq_bind, Option.bind_some,
          Nat.add_sub_cancel_left, if_pos hfirst, if_neg hempty]
        rfl
      · intro o
        simp [offered, options, List.mem_mergeSort, hempty]

theorem mem_commandOffer {commands : List CommandInfo} {o start : WString} :
    o ∈ (commandOffer commands start).map (·.1) ↔
      ∃ c ∈ commands, c.oneWord = true ∧ strStartsWith c.name start = true ∧ slash :: c.name = o := by
  simp [commandOffer, and_assoc]

theorem cons_of_head {line : WString} {c : WChar} (h : line.head? = some c) : ∃ rest, line = c :: rest := by
  cases line with
  | nil => cases h
  | cons d rest => exact ⟨rest, by simpa using h⟩

section

variable (h : TokenAt p.getLineRef p.cursor before token after) (hslash : p.getLineRef.head? = some slash)

include h hslash

/-- With no word before it the token is the command, and its first character is taken for the slash. -/
theorem updateSuggestions_command (hwords : splitWords before.tail = []) (htoken : token ≠ []) :
    ∃ s, p.updateSuggestions commands names = some { p with suggestions := s } ∧ Suits s before token ∧
      ∀ o, o ∈ s.options ↔
        ∃ c ∈ commands, c.oneWord = true ∧ strStartsWith c.name token.tail = true ∧ slash :: c.name = o := by
  rcases cons_of_head hslash with ⟨rest, hcase⟩
  unfold ChatPrompt.updateSuggestions
  rw [hcase] at h ⊢
  have htail : substr token 1 token.length = some token.tail := by
    cases token with
    | nil => exact absurd rfl htoken
    | cons c t => simp [substr]
  let found : Suggestions := { typed := token, tokenStart := before.length }
  refine ⟨found.finish p.suggestions (commandOffer commands token.tail), ?_,
    finish_suits p.suggestions _ rfl rfl, ?_⟩
  · simp only [tokenAroundCursor_eq h, substr_token h, Option.bind_eq_bind, Option.bind_some,
      Nat.add_sub_cancel_left, ne_eq, not_true_eq_false, if_false, parseCommandLine_eq h, deepest_words,
      hwords, if_true, htail]
    rfl
  · intro o
    rw [mem_finish_options, mem_commandOffer]

/-- Without even a first character there is nothing to cut off. -/
theorem updateSuggestions_crash (hwords : splitWords before.tail = []) (htoken : token = []) :
    p.updateSuggestions commands names = none := by
  rcases cons_of_head hslash with ⟨rest, hcase⟩
  have hnone : substr token 1 token.length = none := by
    subst htoken
    rfl
  unfold ChatPrompt.updateSuggestions
  rw [hcase] at h ⊢
  simp only [tokenAroundCursor_eq h, substr_token h, Option.bind_eq_bind, Option.bind_some,
    Nat.add_sub_cancel_left, ne_eq, not_true_eq_false, if_false, parseCommandLine_eq h, deepest_words,
    hwords, if_true, hnone, Option.bind_none]

/-- Behind a word the token is an argument, or a subcommand. -/
theorem updateSuggestions_argument (hwords : splitWords before.tail ≠ []) :
    ∃ s, p.updateSuggestions commands names = some { p with suggestions := s } ∧ Suits s before token ∧
      ∀ o, o ∈ s.options ↔
        Compared commands names before token after o ∧ strStartsWith o token = true := by
  rcases cons_of_head hslash with ⟨rest, hcase⟩
  have hline : (before ++ token ++ after).head? = some slash := h.line_eq ▸ hslash
  unfold ChatPrompt.updateSuggestions
  rw [hcase] at h ⊢
  have hkept := deepest_words commands (splitWords before.tail) (splitWords before.tail).length
  cases hdeepest : deepest commands (splitWords before.tail) (splitWords before.tail).length with
  | mk command arguments words =>
    rw [hdeepest] at hkept
    have hwhole : words = splitWords before.tail := hkept
    subst hwhole
    cases command with
    | none =>
      refine ⟨{ typed := token, tokenStart := before.length }, ?_, ⟨rfl, rfl, ?_⟩, ?_⟩
      · simp only [tokenAroundCursor_eq h, substr_token h, Option.bind_eq_bind, Option.bind_some,
          Nat.add_sub_cancel_left, ne_eq, not_true_eq_false, if_false, parseCommandLine_eq h, hdeepest,
          if_neg hwords]
      · exact fun hne => absurd rfl hne
      · intro o
        refine ⟨fun hmem => absurd hmem (List.not_mem_nil), ?_⟩
        rintro ⟨hcompared, -⟩
        cases hcompared with
        | name hno => exact absurd hline hno
        | command _ hnil => exact absurd hnil hwords
        | argument _ hw _ hcommand =>
          subst hw
          rw [hdeepest] at hcommand
          cases hcommand
    | some c =>
      rcases parametersAt_succ (formsFitting c.params arguments) arguments.length with ⟨wanted, hwanted⟩
      let forms := formsFitting c.params arguments
      let described : Suggestions :=
        { typed := token
          tokenStart := before.length
          command := c.name
          params := if forms = [] then c.params else joinForms forms
          description := c.description
          argument := arguments.length + 1
          hint := if joinBars wanted = [] then c.params else joinBars wanted }
      let offer := (argumentWords commands names c arguments wanted).filter fun o =>
        strStartsWith o.1 token
      refine ⟨described.finish p.suggestions offer, ?_, finish_suits p.suggestions _ rfl rfl, ?_⟩
      · simp only [tokenAroundCursor_eq h, substr_token h, Option.bind_eq_bind, Option.bind_some,
          Nat.add_sub_cancel_left, ne_eq, not_true_eq_false, if_false, parseCommandLine_eq h, hdeepest,
          if_neg hwords, hwanted]
        rfl
      · intro o
        rw [mem_finish_options]
        constructor
        · intro hmem
          rcases List.mem_map.1 hmem with ⟨x, hx, rfl⟩
          rcases List.mem_filter.1 hx with ⟨hoffer, hstarts⟩
          exact ⟨.argument hline rfl hwords hdeepest hwanted hoffer, hstarts⟩
        · rintro ⟨hcompared, hstarts⟩
          cases hcompared with
          | name hno => exact absurd hline hno
          | command _ hnil => exact absurd hnil hwords
          | argument _ hw _ hcommand hwanted' hoffer =>
            subst hw
            rw [hdeepest] at hcommand
            cases hcommand
            rw [hwanted] at hwanted'
            cases hwanted'
            exact List.mem_map.2 ⟨_, List.mem_filter.2 ⟨hoffer, hstarts⟩, rfl⟩

end

/-! ## Putting an option in -/

variable {commands names}

@[simp] theorem getLineRef_setLine (p : ChatPrompt) (line : WString) : (p.setLine line).getLineRef = line := by
  unfold ChatPrompt.setLine
  cases hget : p.history[p.historyIndex]? with
  | none => simp [ChatPrompt.getLineRef, hget]
  | some entry =>
    have hlt : p.historyIndex < p.history.length := (List.getElem?_eq_some_iff.1 hget).1
    simp [ChatPrompt.getLineRef, hlt]

@[simp] theorem getLineRef_clampView (p : ChatPrompt) : p.clampView.getLineRef = p.getLineRef := by
  unfold ChatPrompt.clampView
  dsimp only
  split <;> rfl

@[simp] theorem cursor_clampView (p : ChatPrompt) : p.clampView.cursor = p.cursor := by
  unfold ChatPrompt.clampView
  dsimp only
  split <;> rfl

theorem edit_token (h : TokenAt p.getLineRef p.cursor before token after) (new : WString) :
    ∃ q, p.edit before.length token.length new = some q ∧ q.getLineRef = before ++ new ++ after ∧
      q.cursor = before.length + new.length := by
  have hreplace : replaceAt p.getLineRef before.length token.length new = some (before ++ new ++ after) := by
    simp [replaceAt, h.line_eq, List.append_assoc]
  let edited : ChatPrompt :=
    { p.setLine (before ++ new ++ after) with cursor := before.length + new.length, cursorLen := 0 }
  refine ⟨edited.clampView, ?_, ?_, ?_⟩
  · simp [ChatPrompt.edit, hreplace, edited]
  · rw [getLineRef_clampView]
    exact getLineRef_setLine p _
  · rw [cursor_clampView]

theorem applies_of_suits (h : TokenAt p.getLineRef p.cursor before token after) {s : Suggestions}
    (hs : Suits s before token) : Applies { p with suggestions := s } before after := by
  unfold Applies ChatPrompt.applySuggestion
  by_cases hnone : s.options = []
  · simp [hnone]
  · have hlt : s.chosen < s.options.length := hs.chosen_lt hnone
    have hget : s.options[s.chosen]? = some s.options[s.chosen] := List.getElem?_eq_getElem hlt
    have h' : TokenAt ({ p with suggestions := s } : ChatPrompt).getLineRef p.cursor before token after := h
    rcases edit_token h' s.options[s.chosen] with ⟨q, hedit, hline, hcursor⟩
    rw [if_neg hnone]
    refine ⟨s.options[s.chosen], { q with suggestions := {} }, hget, ?_, hline, hcursor⟩
    simp [hnone, hget, hs.typed, hs.tokenStart, hedit]

theorem withoutLastTwo_some {candidates : List WString} (h : candidates ≠ []) :
    ∃ t, withoutLastTwo (candidates.flatMap (· ++ text ", ")) = some t := by
  cases candidates with
  | nil => exact absurd rfl h
  | cons first rest =>
    have hlong : 2 ≤ ((first :: rest).flatMap (· ++ text ", ")).length := by
      have htwo : (text ", ").length = 2 := rfl
      rw [List.flatMap_cons, List.length_append, List.length_append, htwo]
      omega
    exact ⟨_, if_pos hlong⟩

/-- Where the suggestions are found, the rest of the completion finishes. -/
theorem commandCompletion_some (h : TokenAt p.getLineRef p.cursor before token after) {s : Suggestions}
    (hs : Suits s before token)
    (hupdate : p.updateSuggestions commands names = some { p with suggestions := s }) :
    ∃ c, p.commandCompletion commands names = some c := by
  unfold ChatPrompt.commandCompletion
  simp only [hupdate, Option.bind_eq_bind, Option.bind_some, hs.typed, hs.tokenStart, Nat.add_sub_cancel_left]
  by_cases hslash : p.getLineRef.head? = some slash
  · rw [if_neg (not_not.2 hslash)]
    by_cases hnote : s.note = []
    · rw [if_neg (not_not.2 hnote)]
      by_cases hnone : s.options = []
      · rw [if_pos hnone]
        exact ⟨_, rfl⟩
      · rw [if_neg hnone]
        split
        · rcases withoutLastTwo_some hnone with ⟨t, ht⟩
          rw [ht]
          exact ⟨_, rfl⟩
        · have h' : TokenAt ({ p with suggestions := s } : ChatPrompt).getLineRef p.cursor before token after := h
          rcases edit_token h' _ with ⟨q, hedit, -, -⟩
          rw [hedit]
          exact ⟨_, rfl⟩
    · rw [if_pos hnote]
      exact ⟨_, rfl⟩
  · rw [if_pos hslash]
    exact ⟨_, rfl⟩

/-- What is left of the promise is that the options begin with the token. -/
theorem completes_iff_begins (h : TokenAt p.getLineRef p.cursor before token after) {s : Suggestions}
    (hs : Suits s before token)
    (hupdate : p.updateSuggestions commands names = some { p with suggestions := s }) :
    Completes p commands names before token after ↔ ∀ o ∈ s.options, Begins o token := by
  constructor
  · rintro ⟨⟨q, hq, -, -, hbegins, -⟩, -⟩
    rw [hupdate] at hq
    cases hq
    exact hbegins
  · intro hbegins
    exact ⟨⟨_, hupdate, rfl, rfl, hbegins, applies_of_suits h hs⟩, commandCompletion_some h hs hupdate⟩

end Update

/-! ## Where the promise is kept -/

theorem begins_nil (w : WString) : Begins w [] := List.nil_prefix

theorem strStartsWith_slash (name rest : WString) :
    strStartsWith (slash :: name) (slash :: rest) = strStartsWith name rest := by
  simp [strStartsWith]

theorem asciiLower_eq_slash {c : WChar} (h : asciiLower c = slash) : c = slash := by
  unfold asciiLower at h
  split at h
  · next hupper =>
      have hc : c = 15 := by
        calc
          c = c + 32 - 32 := by simp
          _ = 15 := by rw [h]; rfl
      exact absurd hupper.1 (by rw [hc]; decide)
  · exact h

/-- An option with a slash does not begin with a token that has none. -/
theorem not_begins_slash {name token : WString} (htoken : token ≠ []) (hhead : token.head? ≠ some slash) :
    ¬ Begins (slash :: name) token := by
  cases token with
  | nil => exact absurd rfl htoken
  | cons c rest =>
    rintro ⟨tail, htail⟩
    have hlower : asciiLower c = asciiLower slash := (List.cons.inj htail).1
    have hc : c = slash := asciiLower_eq_slash (hlower.trans rfl)
    exact hhead (by rw [hc, List.head?_cons])

theorem strStartsWith_tail {c : WChar} {name token : WString} (htoken : token ≠ [])
    (h : strStartsWith (c :: name) token = true) : strStartsWith name token.tail = true := by
  cases token with
  | nil => exact absurd rfl htoken
  | cons d rest => simp_all [strStartsWith]

/-- A slash in front of the whole line is in front of what is before the token, or of the token. -/
theorem slash_cases {line before token after : WString} {cursor : ℕ}
    (h : TokenAt line cursor before token after) (hslash : line.head? = some slash) :
    before.head? = some slash ∨ before = [] ∧ token.head? = some slash := by
  have hline := h.line_eq
  cases before with
  | cons c rest =>
    refine .inl ?_
    rwa [hline] at hslash
  | nil =>
    refine .inr ⟨rfl, ?_⟩
    cases token with
    | cons c rest => rwa [hline] at hslash
    | nil =>
      rcases h.right with rfl | hspace
      · rw [hline] at hslash
        cases hslash
      · rw [hline, List.nil_append, List.nil_append, hspace] at hslash
        exact absurd hslash (by decide)

/-- At the command itself -/
theorem completes_iff_command {p : ChatPrompt} {commands : List CommandInfo} {names : List WString}
    {before token after : WString} (h : TokenAt p.getLineRef p.cursor before token after)
    (hslash : p.getLineRef.head? = some slash) (hwords : splitWords before.tail = []) :
    Completes p commands names before token after ↔
      (SlashAlone before → token ≠ [] ∧ (token.head? = some slash ∨
        ∀ c ∈ commands, c.oneWord = true → strStartsWith c.name token.tail = false)) ∧
      ∀ w, Compared commands names before token after w → strStartsWith w token = true →
        Begins w token := by
  have hline : (before ++ token ++ after).head? = some slash := h.line_eq ▸ hslash
  have halone : before.head? = some slash → SlashAlone before :=
    fun hfirst => ⟨hfirst, splitWords_eq_nil.1 hwords⟩
  by_cases hempty : token = []
  · have hfirst : before.head? = some slash := by
      rcases slash_cases h hslash with hfirst | ⟨-, htoken⟩
      · exact hfirst
      · rw [hempty] at htoken
        cases htoken
    constructor
    · rintro ⟨⟨q, hq, -⟩, -⟩
      rw [updateSuggestions_crash commands names h hslash hwords hempty] at hq
      cases hq
    · rintro ⟨hcond, -⟩
      exact absurd hempty (hcond (halone hfirst)).1
  · rcases updateSuggestions_command commands names h hslash hwords hempty with
      ⟨s, hupdate, hs, hoptions⟩
    rw [completes_iff_begins h hs hupdate]
    constructor
    · intro hbegins
      refine ⟨fun _ => ⟨hempty, ?_⟩, fun w hw hstarts => ?_⟩
      · refine or_iff_not_imp_left.2 fun hhead c hc hone => ?_
        refine Bool.eq_false_iff.2 fun hstarts => ?_
        exact not_begins_slash hempty hhead (hbegins _ ((hoptions _).2 ⟨c, hc, hone, hstarts, rfl⟩))
      · cases hw with
        | name hno => exact absurd hline hno
        | command _ _ hc hone =>
          exact hbegins _ ((hoptions _).2 ⟨_, hc, hone, strStartsWith_tail hempty hstarts, rfl⟩)
        | argument _ hw hne => exact absurd (hw.trans hwords) hne
    · rintro ⟨hcond, hbegins⟩ o ho
      rcases (hoptions o).1 ho with ⟨c, hc, hone, hstarts, rfl⟩
      by_cases hhead : token.head? = some slash
      · rcases cons_of_head hhead with ⟨rest, rfl⟩
        refine hbegins _ (.command hline hwords hc hone) ?_
        rw [strStartsWith_slash]
        exact hstarts
      · rcases slash_cases h hslash with hfirst | ⟨-, htoken⟩
        · rcases (hcond (halone hfirst)).2 with htoken | hnone
          · exact absurd htoken hhead
          · exact absurd hstarts (by rw [hnone c hc hone]; decide)
        · exact absurd htoken hhead

/-- Completion keeps its promise unless a slash stands alone before a token that is not a command with its
slash, or a word agrees with the token only once its characters are cut to bytes. -/
theorem completes_iff (p : ChatPrompt) (commands : List CommandInfo) (names : List WString)
    (before token after : WString) (h : TokenAt p.getLineRef p.cursor before token after) :
    Completes p commands names before token after ↔
      (SlashAlone before → token ≠ [] ∧ (token.head? = some slash ∨
        ∀ c ∈ commands, c.oneWord = true → strStartsWith c.name token.tail = false)) ∧
      ∀ w, Compared commands names before token after w → strStartsWith w token = true →
        Begins w token := by
  have hhead : (before ++ token ++ after).head? = p.getLineRef.head? := by rw [h.line_eq]
  by_cases hslash : p.getLineRef.head? = some slash
  · by_cases hwords : splitWords before.tail = []
    · exact completes_iff_command h hslash hwords
    · have halone : ¬ SlashAlone before := fun hs => hwords (splitWords_eq_nil.2 hs.2)
      rcases updateSuggestions_argument commands names h hslash hwords with ⟨s, hupdate, hs, hoptions⟩
      rw [completes_iff_begins h hs hupdate]
      constructor
      · intro hbegins
        exact ⟨fun hs => absurd hs halone, fun w hw hstarts => hbegins w ((hoptions w).2 ⟨hw, hstarts⟩)⟩
      · rintro ⟨-, hbegins⟩ o ho
        rcases (hoptions o).1 ho with ⟨hw, hstarts⟩
        exact hbegins o hw hstarts
  · have halone : ¬ SlashAlone before := by
      rintro ⟨hfirst, -⟩
      rcases cons_of_head hfirst with ⟨rest, rfl⟩
      exact hslash (by rw [← hhead]; rfl)
    rcases updateSuggestions_name commands names h hslash with
      ⟨s, hupdate, hs, hoptions⟩
    rw [completes_iff_begins h hs hupdate]
    constructor
    · intro hbegins
      refine ⟨fun hs => absurd hs halone, fun w hw hstarts => ?_⟩
      by_cases hempty : token = []
      · rw [hempty]
        exact begins_nil w
      · cases hw with
        | name _ hname => exact hbegins w ((hoptions w).2 ⟨hempty, hname, hstarts⟩)
        | command hyes => exact absurd (hhead ▸ hyes) hslash
        | argument hyes => exact absurd (hhead ▸ hyes) hslash
    · rintro ⟨-, hbegins⟩ o ho
      rcases (hoptions o).1 ho with ⟨-, hname, hstarts⟩
      exact hbegins o (.name (fun hyes => hslash (hhead ▸ hyes)) hname) hstarts

def typedLine (line : String) (cursor : ℕ) : ChatPrompt where
  line := text line
  history := []
  historyIndex := 0
  cols := 80
  view := 0
  suggestions := {}
  cursor := cursor
  cursorLen := 0

def teleport : CommandInfo where
  name := text "teleport"
  params := text "<player>"
  description := []

theorem tokenAt_te : TokenAt (text "/te") 3 [] (text "/te") [] where
  line_eq := rfl
  noSpace := by decide
  behind := by decide
  ahead := by decide
  left := .inl rfl
  right := .inl rfl

theorem compared_te {w : WString} (hw : Compared [teleport] [] [] (text "/te") [] w) :
    w = text "/teleport" := by
  cases hw with
  | name hno => exact absurd rfl hno
  | command _ _ hc => rw [List.mem_singleton.1 hc]; rfl
  | argument _ hw hne => exact absurd hw hne

theorem completes_iff_te :
    TokenAt (typedLine "/te" 3).getLineRef (typedLine "/te" 3).cursor [] (text "/te") [] ∧
      Completes (typedLine "/te" 3) [teleport] [] [] (text "/te") [] := by
  refine ⟨tokenAt_te, (completes_iff (typedLine "/te" 3) [teleport] [] [] _ [] tokenAt_te).2 ⟨?_, ?_⟩⟩
  · rintro ⟨hfirst, -⟩
    cases hfirst
  · intro w hw _
    rw [compared_te hw]
    exact ⟨text "leport", by decide⟩

/-- A slash, a space and the cursor behind them. -/
theorem slash_alone_crashes :
    ¬ ∀ (p : ChatPrompt) (commands : List CommandInfo) (names : List WString) (before token after : WString),
      TokenAt p.getLineRef p.cursor before token after → Completes p commands names before token after := by
  intro hall
  have htoken : TokenAt (typedLine "/ " 2).getLineRef (typedLine "/ " 2).cursor (text "/ ") [] [] :=
    { line_eq := rfl
      noSpace := List.not_mem_nil
      behind := by decide
      ahead := by decide
      left := .inr rfl
      right := .inl rfl }
  rcases hall (typedLine "/ " 2) [] [] _ _ _ htoken with ⟨⟨q, hq, -⟩, -⟩
  have hnone : (typedLine "/ " 2).updateSuggestions [] [] = none :=
    updateSuggestions_crash [] [] htoken rfl rfl rfl
  rw [hnone] at hq
  cases hq

end Chat
end AxisEngine
