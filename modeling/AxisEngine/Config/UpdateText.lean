import AxisEngine.Config.Parsed
import AxisEngine.Config.RoundTrip
import AxisEngine.Config.UpdateObject

/-!
# UpdateText — what a file holds after it was brought up to date

The writer takes a group of the file for single lines when the object has a value of that name.  It
is then less deep in the file than the reader, and never deeper.

* `Covers` — the entries of the names that are in the file so far;
* `remarks` — comments and lines that are not recognised, outside of all groups;
* `updateConfigObject_spec` — both, for every file that can be read.
-/

namespace AxisEngine
namespace Config

open Lib

/-- `t` has the entries of these names, as far as they are wanted. -/
def Covers (s : Settings) (f : Bytes → Bool) (presentEntries : List Bytes) (t : Settings) : Prop :=
  ∀ name, (t.lookup name).map SettingsEntry.node =
    if name ∈ presentEntries then (s.wanted f name).map SettingsEntry.node else none

section

variable {order : HashOrder} {endTag name value line : Bytes} {s t u : Settings}
variable {f : Bytes → Bool} {tabDepth : Nat} {presentEntries is is' body rest copy : List Bytes}
variable {modified : Bool} {entry entry' : SettingsEntry} {V : Bytes → Prop}

/-! ## The lines of a run -/

theorem ReadValue.subset (h : ReadValue endTag is name value copy is') (hline : line ∈ is') :
    line ∈ is := by
  cases h with
  | line line name value is hevent => exact List.mem_cons_of_mem _ hline
  | multiline line name is hevent => exact List.mem_cons_of_mem _ (mem_of_mem_getMultiline hline)

theorem UpdateRun.subset (h : UpdateRun endTag s f tabDepth presentEntries is body modified rest) :
    ∀ line ∈ rest, line ∈ is := by
  induction h with
  | eof blank hblank => exact fun line hline => hline
  | lastLine => exact fun line hline => List.mem_cons_of_mem _ hline
  | endTag blank hblank hevent => exact fun line hline => List.mem_cons_of_mem _ hline
  | remark hevent hrest ih => exact fun line hline => List.mem_cons_of_mem _ (ih line hline)
  | kept hread hwanted hrest ih => exact fun line hline => hread.subset (ih line hline)
  | changed hread hwanted hrest ih => exact fun line hline => hread.subset (ih line hline)
  | dropped hread hwanted hrest ih => exact fun line hline => hread.subset (ih line hline)
  | group hevent hwanted hgroup hrest ihgroup ih =>
    exact fun line hline => List.mem_cons_of_mem _ (ihgroup line (ih line hline))
  | droppedGroup hevent hwanted hgroup hrest ihgroup ih =>
    exact fun line hline => List.mem_cons_of_mem _ (ihgroup line (ih line hline))
  | flattened hevent hwanted hrest ih =>
    exact fun line hline => List.mem_cons_of_mem _ (ih line hline)

theorem newline_not_mem_lines (hs : s.Conforms NameOk V) (tabDepth : Nat) :
    ∀ line ∈ s.lines tabDepth, (10 : UInt8) ∉ line := by
  intro line hline
  have hlines := readLines_writeEntries hs tabDepth []
  refine newline_not_mem_readLines (writeEntries s tabDepth ++ []) line ?_
  rw [hlines]
  exact List.mem_append_left _ hline

theorem conforms_single (hs : s.Conforms NameOk V) (hlookup : s.lookup name = some entry) :
    (Settings.cons name entry .nil).Conforms NameOk V := by
  have hentry := hs.lookup hlookup
  refine Settings.conforms_cons.2 ⟨?_, hentry.1, hentry.2, Settings.conforms_nil⟩
  rw [Settings.names_nil]
  exact List.not_mem_nil

theorem ReadValue.newline_not_mem (h : ReadValue endTag is name value copy is')
    (his : ∀ line ∈ is, (10 : UInt8) ∉ line) : ∀ line ∈ copy, (10 : UInt8) ∉ line := by
  intro line hline
  cases h with
  | line line' name value is hevent =>
    rw [List.mem_singleton.1 hline]
    exact his line' List.mem_cons_self
  | multiline line' name is hevent =>
    rcases List.mem_cons.1 hline with rfl | hline
    · exact his line List.mem_cons_self
    · rcases List.mem_append.1 hline with hline | hline
      · exact newline_not_mem_readLines _ line hline
      · rw [List.mem_singleton.1 hline]
        decide

/-- Lines that are written are lines. -/
theorem UpdateRun.newline_not_mem
    (h : UpdateRun endTag s f tabDepth presentEntries is body modified rest)
    (hs : s.Conforms NameOk V) (his : ∀ line ∈ is, (10 : UInt8) ∉ line) :
    ∀ line ∈ body, (10 : UInt8) ∉ line := by
  have hempty : ∀ {blank : List Bytes}, (∀ line ∈ blank, line = []) →
      ∀ line ∈ blank, (10 : UInt8) ∉ line := by
    intro blank hblank line hline
    rw [hblank line hline]
    exact List.not_mem_nil
  induction h with
  | eof blank hblank =>
    exact List.forall_mem_append.2 ⟨hempty hblank, newline_not_mem_lines hs.filter_names _⟩
  | lastLine => exact newline_not_mem_lines hs.filter_names _
  | endTag blank hblank hevent =>
    exact List.forall_mem_append.2 ⟨hempty hblank, newline_not_mem_lines hs.filter_names _⟩
  | remark hevent hrest ih =>
    rcases List.forall_mem_cons.1 his with ⟨hline, his⟩
    exact List.forall_mem_cons.2 ⟨hline, ih hs his⟩
  | kept hread hwanted hrest ih =>
    have hnext := ih hs fun line hline => his line (hread.subset hline)
    exact List.forall_mem_append.2 ⟨hread.newline_not_mem his, hnext⟩
  | changed hread hwanted hrest ih =>
    have hnext := ih hs fun line hline => his line (hread.subset hline)
    have hentry := conforms_single hs (Settings.lookup_of_wanted hwanted)
    exact List.forall_mem_append.2 ⟨newline_not_mem_lines hentry _, hnext⟩
  | dropped hread hwanted hrest ih => exact ih hs fun line hline => his line (hread.subset hline)
  | group hevent hwanted hgroup hrest ihgroup ih =>
    rcases List.forall_mem_cons.1 his with ⟨hline, his⟩
    have hentry := (hs.lookup (Settings.lookup_of_wanted hwanted)).2
    have hinner := ihgroup (Settings.conforms_group.1 hentry) his
    have hnext := ih hs fun line hline => his line (hgroup.subset line hline)
    refine List.forall_mem_cons.2 ⟨hline, List.forall_mem_append.2 ⟨hinner, ?_⟩⟩
    exact List.forall_mem_cons.2 ⟨by decide, hnext⟩
  | droppedGroup hevent hwanted hgroup hrest ihgroup ih =>
    rcases List.forall_mem_cons.1 his with ⟨-, his⟩
    exact ih hs fun line hline => his line (hgroup.subset line hline)
  | flattened hevent hwanted hrest ih =>
    rcases List.forall_mem_cons.1 his with ⟨-, his⟩
    have hentry := conforms_single hs (Settings.lookup_of_wanted hwanted)
    exact List.forall_mem_append.2 ⟨newline_not_mem_lines hentry _, ih hs his⟩

/-! ## What is read from them -/

theorem parse_blank {blank : List Bytes} (hblank : ∀ line ∈ blank, line = []) :
    parseConfigLines order endTag (blank ++ is) t = parseConfigLines order endTag is t := by
  induction blank with
  | nil => rfl
  | cons line blank ih =>
    rcases List.forall_mem_cons.1 hblank with ⟨rfl, hrest⟩
    have hevent : parseConfigObject endTag [] = .none := rfl
    rw [List.cons_append, parseConfigLines_cons, hevent]
    exact ih hrest

theorem parse_remark (hevent : (parseConfigObject endTag line).IsRemark) :
    parseConfigLines order endTag (line :: is) t = parseConfigLines order endTag is t := by
  rw [parseConfigLines_cons]
  rcases hevent with hevent | hevent | hevent
  · rw [hevent]
  · rw [hevent]
  · rw [hevent]

/-- A value that is left as it is. -/
theorem ReadValue.parse (h : ReadValue endTag is name value copy is')
    (his : ∀ line ∈ is, (10 : UInt8) ∉ line) (more : List Bytes) :
    parseConfigLines order endTag (copy ++ more) t =
      parseConfigLines order endTag more (t.put order name (.value value)) := by
  cases h with
  | line line name value is hevent =>
    rw [List.singleton_append, parseConfigLines_cons, hevent]
  | multiline line name is hevent =>
    have hvalue := valueOk_getMultiline fun line hline => his line (List.mem_cons_of_mem _ hline)
    have htail : readLines (getMultiline is).1 ++ [quotes] ++ more =
        readLines (getMultiline is).1 ++ quotes :: more := by simp
    rw [List.cons_append, parseConfigLines_cons, hevent, htail]
    simp only [getMultiline_readLines hvalue]

section

variable (h : Covers s f presentEntries t)

include h

theorem Covers.put (order : HashOrder) (hwanted : s.wanted f name = some entry)
    (hentry : entry'.node = entry.node) :
    Covers s f (name :: presentEntries) (t.put order name entry') := by
  intro name'
  by_cases hname : name = name'
  · subst hname
    rw [Settings.lookup_put_self, if_pos List.mem_cons_self, hwanted]
    simp [hentry]
  · have hiff : name' ∈ name :: presentEntries ↔ name' ∈ presentEntries := by
      simp [Ne.symm hname]
    rw [Settings.lookup_put_of_ne hname, h name', if_congr hiff rfl rfl]

/-- One entry more was written. -/
theorem Covers.overlaid (hwanted : s.wanted f name = some entry)
    (hover : Settings.Overlaid t (.cons name entry .nil) u) : Covers s f (name :: presentEntries) u := by
  intro name'
  rw [hover name', Settings.lookup_cons, Settings.lookup_nil]
  by_cases hname : name = name'
  · subst hname
    rw [if_pos rfl, if_pos List.mem_cons_self, hwanted]
    rfl
  · have hiff : name' ∈ name :: presentEntries ↔ name' ∈ presentEntries := by
      simp [Ne.symm hname]
    rw [if_neg hname, if_congr hiff rfl rfl, ← h name', Option.none_or]

/-- With the missing entries the object is complete. -/
theorem Covers.same (hover : Settings.Overlaid t (missingEntries s f presentEntries) u) :
    u.Same (s.filter f) := by
  refine Settings.same_iff.2 fun name => ?_
  rw [hover name, missingEntries, Settings.lookup_filter, Settings.lookup_filter]
  have hcovers := h name
  rw [Settings.wanted] at hcovers
  by_cases hpresent : name ∈ presentEntries
  · rw [if_pos hpresent] at hcovers
    simp [hpresent, hcovers]
  · rw [if_neg hpresent] at hcovers
    have hnone : t.lookup name = none := by simpa using hcovers
    simp [hpresent, hnone]

end

theorem covers_nil : Covers s f [] .nil := by
  intro name
  rw [Settings.lookup_nil, if_neg List.not_mem_nil]
  rfl

theorem Settings.filter_noFilter : s.filter noFilter = s := by
  induction s using Settings.listInduct with
  | nil => rfl
  | cons name entry rest ih =>
    rw [Settings.filter, ih]
    rfl

/-- The lines that a run writes are read as the object, whatever was read before of it. -/
theorem UpdateRun.parse (h : UpdateRun endTag s f tabDepth presentEntries is body modified rest)
    (hend : EndTagOk endTag) (hs : s.Conforms NameOk Storable)
    (his : ∀ line ∈ is, (10 : UInt8) ∉ line) (order : HashOrder) (t : Settings)
    (ht : Covers s f presentEntries t) (more : List Bytes) :
    ∃ u, parseConfigLines order endTag (body ++ more) t = parseConfigLines order endTag more u ∧
      u.Same (s.filter f) := by
  -- what comes at the end
  have hmissing : ∀ {endTag : Bytes} {s t : Settings} {f : Bytes → Bool} {tabDepth : Nat}
      {presentEntries blank : List Bytes} (more : List Bytes), EndTagOk endTag →
      s.Conforms NameOk Storable → Covers s f presentEntries t → (∀ line ∈ blank, line = []) →
      ∃ u, parseConfigLines order endTag
          (blank ++ (missingEntries s f presentEntries).lines tabDepth ++ more) t =
        parseConfigLines order endTag more u ∧ u.Same (s.filter f) := by
    intro endTag s t f tabDepth presentEntries blank more hend hs ht hblank
    rcases @parse_lines order _ _ hs.filter_names hend tabDepth more t with ⟨u, hparse, hover⟩
    refine ⟨u, ?_, ht.same hover⟩
    rw [List.append_assoc, parse_blank hblank]
    exact hparse
  induction h generalizing t more with
  | eof blank hblank => exact hmissing more hend hs ht hblank
  | lastLine => exact @hmissing _ _ _ _ _ _ [] more hend hs ht fun line hline => by cases hline
  | endTag blank hblank hevent => exact hmissing more hend hs ht hblank
  | remark hevent hrest ih =>
    rcases ih hend hs (fun line hline => his line (List.mem_cons_of_mem _ hline)) t ht more with
      ⟨u, hparse, hu⟩
    refine ⟨u, ?_, hu⟩
    rw [List.cons_append, parse_remark hevent, hparse]
  | kept hread hwanted hrest ih =>
    rcases ih hend hs (fun line hline => his line (hread.subset hline)) _ (ht.put order hwanted rfl) more
      with ⟨u, hparse, hu⟩
    refine ⟨u, ?_, hu⟩
    rw [List.append_assoc, hread.parse his, hparse]
  | @changed _ s _ tabDepth _ _ name _ _ _ entry _ _ _ hread hwanted hrest ih =>
    have hentry := conforms_single hs (Settings.lookup_of_wanted hwanted)
    rcases @parse_lines order _ _ hentry hend tabDepth _ t with ⟨w, hparse, hover⟩
    rcases ih hend hs (fun line hline => his line (hread.subset hline)) w
      (ht.overlaid hwanted hover) more with ⟨u, hparse', hu⟩
    refine ⟨u, ?_, hu⟩
    rw [List.append_assoc]
    exact hparse.trans hparse'
  | dropped hread hwanted hrest ih =>
    exact ih hend hs (fun line hline => his line (hread.subset hline)) t ht more
  | @group _ _ _ _ _ _ _ name group inner _ is' body _ _ hevent hwanted hgroup hrest ihgroup ih =>
    rcases List.forall_mem_cons.1 his with ⟨-, his⟩
    have hentry := (hs.lookup (Settings.lookup_of_wanted hwanted)).2
    have hclose : parseConfigObject (ascii "\x7d") (ascii "\x7d") = .endTag := rfl
    rcases ihgroup endTagOk_group (Settings.conforms_group.1 hentry) his .nil covers_nil
      (ascii "\x7d" :: (body ++ more)) with ⟨w, hinner, hw⟩
    rw [Settings.filter_noFilter] at hw
    rw [parseConfigLines_cons, hclose] at hinner
    rcases ih hend hs (fun line hline => his line (hgroup.subset line hline)) _
      (ht.put order hwanted hw) more with ⟨u, hparse, hu⟩
    refine ⟨u, ?_, hu⟩
    rw [List.cons_append, List.append_assoc, List.cons_append, parseConfigLines_cons, hevent]
    simp only [hinner]
    exact hparse
  | droppedGroup hevent hwanted hgroup hrest ihgroup ih =>
    rcases List.forall_mem_cons.1 his with ⟨-, his⟩
    exact ih hend hs (fun line hline => his line (hgroup.subset line hline)) t ht more
  | @flattened _ s _ tabDepth _ _ _ name _ _ _ _ hevent hwanted hrest ih =>
    rcases List.forall_mem_cons.1 his with ⟨-, his⟩
    have hentry := conforms_single hs (Settings.lookup_of_wanted hwanted)
    rcases @parse_lines order _ _ hentry hend tabDepth _ t with ⟨w, hparse, hover⟩
    rcases ih hend hs his w (ht.overlaid hwanted hover) more with ⟨u, hparse', hu⟩
    refine ⟨u, ?_, hu⟩
    rw [List.append_assoc]
    exact hparse.trans hparse'

/-! ### When nothing was modified -/

theorem ReadValue.parse_input (h : ReadValue endTag is name value copy is') :
    parseConfigLines order endTag is t =
      parseConfigLines order endTag is' (t.put order name (.value value)) := by
  cases h with
  | line line name value is hevent => rw [parseConfigLines_cons, hevent]
  | multiline line name is hevent => rw [parseConfigLines_cons, hevent]

/-- A file in which nothing is new is read as the object already. -/
theorem UpdateRun.parse_unmodified
    (h : UpdateRun endTag s f tabDepth presentEntries is body modified rest)
    (hmodified : modified = false) (order : HashOrder) (t : Settings)
    (ht : Covers s f presentEntries t) :
    ∃ u, parseConfigLines order endTag is t = (true, u, rest) ∧ u.Same (s.filter f) := by
  -- nothing is missing
  have hcomplete : ∀ {s t : Settings} {f : Bytes → Bool} {presentEntries : List Bytes},
      missingEntries s f presentEntries = .nil → Covers s f presentEntries t →
      t.Same (s.filter f) := by
    intro s t f presentEntries hmissing ht
    refine ht.same ?_
    rw [hmissing]
    exact .refl t
  induction h generalizing t with
  | eof blank hblank =>
    rcases Bool.or_eq_false_iff.1 hmodified with ⟨hmissing, hend⟩
    have hmissing := not_not.1 (of_decide_eq_false hmissing)
    have hend := not_not.1 (of_decide_eq_false hend)
    subst hend
    exact ⟨t, rfl, hcomplete hmissing ht⟩
  | lastLine =>
    rcases Bool.or_eq_false_iff.1 hmodified with ⟨hmissing, hend⟩
    have hmissing := not_not.1 (of_decide_eq_false hmissing)
    have hend := not_not.1 (of_decide_eq_false hend)
    subst hend
    exact ⟨t, rfl, hcomplete hmissing ht⟩
  | endTag blank hblank hevent =>
    have hmissing := not_not.1 (of_decide_eq_false hmodified)
    refine ⟨t, ?_, hcomplete hmissing ht⟩
    rw [parseConfigLines_cons, hevent]
  | remark hevent hrest ih =>
    rw [parse_remark hevent]
    exact ih hmodified t ht
  | kept hread hwanted hrest ih =>
    rw [hread.parse_input]
    exact ih hmodified _ (ht.put order hwanted rfl)
  | changed hread hwanted hrest ih => cases hmodified
  | dropped hread hwanted hrest ih => cases hmodified
  | group hevent hwanted hgroup hrest ihgroup ih =>
    rcases Bool.or_eq_false_iff.1 hmodified with ⟨hinner, houter⟩
    rcases ihgroup hinner .nil covers_nil with ⟨g, hparse, hg⟩
    rw [Settings.filter_noFilter] at hg
    rw [parseConfigLines_cons, hevent]
    simp only [hparse]
    exact ih houter _ (ht.put order hwanted hg)
  | droppedGroup hevent hwanted hgroup hrest ihgroup ih => cases hmodified
  | flattened hevent hwanted hrest ih => cases hmodified

end

/-! ## Comments and lines that are not recognised -/

def tagAt (depth : Nat) : Bytes :=
  if depth = 0 then [] else ascii "\x7d"

/-- The comments and the lines that are not recognised, outside of all groups, when so many groups
are open and a value of several lines may be; `none` when a group is open in the end. -/
def remarks : Nat → Bool → List Bytes → Option (List Bytes)
  | depth, _, [] => if depth = 0 then some [] else none
  | depth, true, line :: is => remarks depth (decide (line ≠ quotes)) is
  | depth, false, line :: is =>
    match parseConfigObject (tagAt depth) line with
    | .invalid | .comment =>
      if depth = 0 then (remarks depth false is).map fun lines => line :: lines
      else remarks depth false is
    | .none | .kvPair _ _ => remarks depth false is
    | .endTag => remarks (depth - 1) false is
    | .group _ => remarks (depth + 1) false is
    | .multiline _ => remarks depth true is

section

variable {order : HashOrder} {endTag name value line : Bytes} {s t : Settings} {f : Bytes → Bool}
variable {tabDepth depth : Nat} {presentEntries is is' body rest copy lines : List Bytes}
variable {modified : Bool} {V : Bytes → Prop}

theorem remarks_getMultiline (depth : Nat) (is : List Bytes) :
    remarks depth true is = remarks depth false (getMultiline is).2 := by
  rw [getMultiline_eq]
  induction is with
  | nil => rw [remarks]; rfl
  | cons line is ih =>
    rw [remarks]
    by_cases hline : line = quotes
    · simp [hline]
    · simp only [ne_eq, hline, not_false_eq_true, decide_true]
      rw [ih]
      simp [hline]

theorem remarks_blank {blank : List Bytes} (hblank : ∀ line ∈ blank, line = []) (depth : Nat)
    (more : List Bytes) : remarks depth false (blank ++ more) = remarks depth false more := by
  induction blank with
  | nil => rfl
  | cons line blank ih =>
    rcases List.forall_mem_cons.1 hblank with ⟨rfl, hrest⟩
    have hevent : parseConfigObject (tagAt depth) [] = .none := rfl
    rw [List.cons_append, remarks, hevent]
    exact ih hrest

/-- A blank line at the end of a text does not matter. -/
theorem remarks_append_blank (depth : Nat) (inValue : Bool) (is : List Bytes) :
    remarks depth inValue (is ++ [[]]) = remarks depth inValue is := by
  induction is generalizing depth inValue with
  | nil =>
    cases inValue with
    | true => rfl
    | false => rfl
  | cons line is ih =>
    cases inValue with
    | true =>
      rw [List.cons_append, remarks, ih, ← remarks]
    | false =>
      rw [List.cons_append, remarks, remarks]
      simp only [ih]

theorem endTagOk_tagAt (depth : Nat) : EndTagOk (tagAt depth) := by
  rw [tagAt]
  split
  · exact endTagOk_nil
  · exact endTagOk_group

/-- The entries of an object are none of these lines. -/
theorem remarks_lines (hs : s.Conforms NameOk Storable) (tabDepth depth : Nat) (more : List Bytes) :
    remarks depth false (s.lines tabDepth ++ more) = remarks depth false more := by
  induction s using Settings.treeInduct generalizing tabDepth depth more with
  | nil => rfl
  | value name value rest ih =>
    rcases Settings.conforms_cons.1 hs with ⟨-, hname, hvalue, hrest⟩
    rw [Settings.conforms_value] at hvalue
    rw [lines_value, List.append_assoc, Block.lines]
    by_cases hlines : (10 : UInt8) ∈ value
    · have htail : readLines value ++ [quotes] ++ (rest.lines tabDepth ++ more) =
          readLines value ++ quotes :: (rest.lines tabDepth ++ more) := by simp
      rw [if_pos hlines, List.cons_append, remarks,
        parseConfigObject_assign (endTagOk_tagAt depth) hname, if_neg (by decide),
        if_pos (by decide), htail]
      dsimp only
      rw [remarks_getMultiline, getMultiline_readLines hvalue.1]
      exact ih hrest tabDepth depth more
    · rcases hvalue.2 with hmem | ⟨htrim, hgroup⟩
      · exact absurd hmem hlines
      · rw [if_neg hlines, List.singleton_append, remarks,
          parseConfigObject_assign (endTagOk_tagAt depth) hname, htrim, if_neg hgroup,
          if_neg hvalue.1.ne_quotes]
        exact ih hrest tabDepth depth more
  | group name group rest ihgroup ihrest =>
    rcases Settings.conforms_cons.1 hs with ⟨-, hname, hgroup, hrest⟩
    rw [Settings.conforms_group] at hgroup
    have htext : (Settings.cons name (.group group) rest).lines tabDepth ++ more =
        (lead tabDepth name ++ ascii "\x7b") :: (group.lines (tabDepth + 1) ++
          (tabs (tabDepth + 1) ++ ascii "\x7d") :: (rest.lines tabDepth ++ more)) := by
      rw [lines_group]
      simp [Block.lines]
    rw [htext, remarks, parseConfigObject_assign (endTagOk_tagAt depth) hname, if_pos (by decide)]
    dsimp only
    rw [ihgroup hgroup, remarks, parseConfigObject_closing, tagAt, if_neg (Nat.succ_ne_zero depth),
      if_pos rfl]
    exact ihrest hrest tabDepth depth more

theorem remarks_missing (hs : s.Conforms NameOk Storable) {blank : List Bytes}
    (hblank : ∀ line ∈ blank, line = []) (depth : Nat) (more : List Bytes) :
    remarks depth false (blank ++ ((missingEntries s f presentEntries).lines tabDepth ++ more)) =
      remarks depth false more := by
  rw [remarks_blank hblank]
  exact remarks_lines hs.filter_names tabDepth depth more

/-- What is an entry outside of all groups is one inside of them, too. -/
theorem parseConfigObject_tagAt {event : SettingsParseEvent} (h : parseConfigObject [] line = event)
    (hinvalid : event ≠ .invalid) (depth : Nat) : parseConfigObject (tagAt depth) line = event := by
  rw [tagAt]
  split
  · exact h
  · rw [← h, parseConfigObject, parseConfigObject]
    by_cases hempty : trim line = []
    · simp [hempty]
    · by_cases hclose : trim line = ascii "\x7d"
      · have hevent : parseConfigObject [] line = .invalid := by
          rw [parseConfigObject, hclose]
          rfl
        exact absurd (h.symm.trans hevent) hinvalid
      · simp [hempty, hclose]

theorem parseConfigObject_nil_ne_endTag : parseConfigObject [] line ≠ .endTag := by
  intro h
  rw [parseConfigObject] at h
  by_cases hempty : trim line = []
  · simp [hempty] at h
  · simp only [hempty, if_false] at h
    split at h
    · cases h
    · split at h
      · cases h
      · split at h
        · cases h
        · split at h
          · cases h
          · cases h

/-- A blank line is passed over, another one is taken. -/
theorem remarks_remark (hevent : (parseConfigObject [] line).IsRemark) :
    remarks 0 false (line :: is) = (remarks 0 false is).map fun lines =>
      if parseConfigObject [] line = .none then lines else line :: lines := by
  rw [remarks, tagAt, if_pos rfl]
  rcases hevent with hevent | hevent | hevent
  · simp [hevent]
  · simp [hevent]
  · simp [hevent]

/-- In a group such a line is passed over, or ends the group. -/
theorem remarks_remark_inside (hevent : (parseConfigObject [] line).IsRemark) (depth : Nat)
    (is : List Bytes) :
    ∃ depth', remarks (depth + 1) false (line :: is) = remarks depth' false is := by
  by_cases hinvalid : parseConfigObject [] line = .invalid
  · have htag : parseConfigObject (ascii "\x7d") line = .invalid ∨
        parseConfigObject (ascii "\x7d") line = .endTag := by
      rw [parseConfigObject] at hinvalid ⊢
      by_cases hempty : trim line = []
      · simp [hempty] at hinvalid
      · by_cases hclose : trim line = ascii "\x7d"
        · rw [hclose]
          exact Or.inr rfl
        · simp only [hempty, hclose, if_false] at hinvalid ⊢
          exact Or.inl hinvalid
    rw [remarks, tagAt, if_neg (Nat.succ_ne_zero depth)]
    rcases htag with htag | htag
    · exact ⟨depth + 1, by simp [htag]⟩
    · exact ⟨depth, by simp [htag]⟩
  · refine ⟨depth + 1, ?_⟩
    rw [remarks, parseConfigObject_tagAt rfl hinvalid (depth + 1)]
    rcases hevent with hevent | hevent | hevent
    · simp [hevent]
    · exact absurd hevent hinvalid
    · simp [hevent]

theorem ReadValue.remarks (h : ReadValue (tagAt depth) is name value copy is') :
    remarks depth false is = remarks depth false is' := by
  cases h with
  | line line name value is hevent => rw [Config.remarks, hevent]
  | multiline line name is hevent =>
    rw [Config.remarks, hevent]
    exact remarks_getMultiline depth _

theorem ReadValue.remarks_copy (h : ReadValue (tagAt depth) is name value copy is')
    (his : ∀ line ∈ is, (10 : UInt8) ∉ line) (more : List Bytes) :
    Config.remarks depth false (copy ++ more) = Config.remarks depth false more := by
  cases h with
  | line line name value is hevent => rw [List.singleton_append, Config.remarks, hevent]
  | multiline line name is hevent =>
    have hvalue := valueOk_getMultiline fun line hline => his line (List.mem_cons_of_mem _ hline)
    have htail : readLines (getMultiline is).1 ++ [quotes] ++ more =
        readLines (getMultiline is).1 ++ quotes :: more := by simp
    rw [List.cons_append, Config.remarks, hevent, htail]
    dsimp only
    rw [remarks_getMultiline, getMultiline_readLines hvalue]

/-- Outside of all groups a value is read as inside of them. -/
theorem ReadValue.tagAt (h : ReadValue [] is name value copy is') (depth : Nat) :
    ReadValue (tagAt depth) is name value copy is' := by
  cases h with
  | line line name value is hevent =>
    refine .line line name value _ (parseConfigObject_tagAt hevent ?_ depth)
    intro hcontra
    cases hcontra
  | multiline line name is hevent =>
    refine .multiline line name is (parseConfigObject_tagAt hevent ?_ depth)
    intro hcontra
    cases hcontra

/-! ### Groups -/

theorem ReadValue.remarks_group (h : ReadValue (ascii "\x7d") is name value copy is') (depth : Nat) :
    Config.remarks (depth + 1) false is = Config.remarks (depth + 1) false is' := by
  have hinside : ReadValue (Config.tagAt (depth + 1)) is name value copy is' := h
  exact hinside.remarks

theorem remarks_remark_group (hevent : (parseConfigObject (ascii "\x7d") line).IsRemark)
    (depth : Nat) (is : List Bytes) :
    remarks (depth + 1) false (line :: is) = remarks (depth + 1) false is := by
  rw [remarks, tagAt, if_neg (Nat.succ_ne_zero depth)]
  rcases hevent with hevent | hevent | hevent
  · rw [hevent]
  · rw [hevent]
    rfl
  · rw [hevent]
    rfl

section

variable (h : UpdateRun (ascii "\x7d") s f tabDepth presentEntries is body modified rest)

include h

/-- The writer is never deeper in the file than the reader. -/
theorem UpdateRun.remarks_rest (hlines : remarks (depth + 1) false is = some lines) :
    ∃ more, remarks (depth + more) false rest = some lines := by
  generalize hend : ascii "\x7d" = endTag at h
  have htag : ∀ depth, Config.tagAt (depth + 1) = ascii "\x7d" := fun depth => rfl
  -- the reader may be deeper after the inner group already
  have hafter : ∀ {depth : Nat} {rest rest' : List Bytes},
      (∃ more, remarks (depth + 1 + more) false rest = some lines) →
      (∀ {depth}, remarks (depth + 1) false rest = some lines →
        ∃ more, remarks (depth + more) false rest' = some lines) →
      ∃ more, remarks (depth + more) false rest' = some lines := by
    rintro depth rest rest' ⟨more, hinner⟩ hrest
    rw [Nat.add_right_comm] at hinner
    rcases hrest hinner with ⟨more', hrest⟩
    exact ⟨more + more', by rw [← Nat.add_assoc]; exact hrest⟩
  induction h generalizing depth with
  | eof blank hblank => cases hlines
  | lastLine => cases hlines
  | endTag blank hblank hevent =>
    subst hend
    rw [remarks, htag, hevent] at hlines
    exact ⟨0, hlines⟩
  | remark hevent hrest ih =>
    subst hend
    rw [remarks_remark_group hevent] at hlines
    exact ih hlines rfl
  | kept hread hwanted hrest ih =>
    subst hend
    exact ih ((hread.remarks_group depth).symm.trans hlines) rfl
  | changed hread hwanted hrest ih =>
    subst hend
    exact ih ((hread.remarks_group depth).symm.trans hlines) rfl
  | dropped hread hwanted hrest ih =>
    subst hend
    exact ih ((hread.remarks_group depth).symm.trans hlines) rfl
  | group hevent hwanted hgroup hrest ihgroup ih =>
    subst hend
    rw [remarks, htag, hevent] at hlines
    exact hafter (ihgroup hlines rfl) fun hinner => ih hinner rfl
  | droppedGroup hevent hwanted hgroup hrest ihgroup ih =>
    subst hend
    rw [remarks, htag, hevent] at hlines
    exact hafter (ihgroup hlines rfl) fun hinner => ih hinner rfl
  | flattened hevent hwanted hrest ih =>
    subst hend
    rw [remarks, htag, hevent] at hlines
    rcases ih hlines rfl with ⟨more, hrest⟩
    exact ⟨more + 1, by rw [← hrest, Nat.add_right_comm, Nat.add_assoc]⟩

/-- In a group all lines that are written belong to the group. -/
theorem UpdateRun.remarks_body (hs : s.Conforms NameOk Storable) (his : ∀ line ∈ is, (10 : UInt8) ∉ line)
    (depth : Nat) (more : List Bytes) :
    remarks (depth + 1) false (body ++ more) = remarks (depth + 1) false more := by
  generalize hend : ascii "\x7d" = endTag at h
  have htag : ∀ depth, Config.tagAt (depth + 1) = ascii "\x7d" := fun depth => rfl
  induction h generalizing depth more with
  | eof blank hblank =>
    rw [List.append_assoc]
    exact remarks_missing hs hblank (depth + 1) more
  | lastLine => exact remarks_lines hs.filter_names _ (depth + 1) more
  | endTag blank hblank hevent =>
    rw [List.append_assoc]
    exact remarks_missing hs hblank (depth + 1) more
  | remark hevent hrest ih =>
    subst hend
    rcases List.forall_mem_cons.1 his with ⟨-, his⟩
    rw [List.cons_append, remarks_remark_group hevent]
    exact ih hs his depth more rfl
  | kept hread hwanted hrest ih =>
    subst hend
    have hcopy := @ReadValue.remarks_copy _ _ (depth + 1) _ _ _ hread his
    rw [List.append_assoc, hcopy]
    exact ih hs (fun line hline => his line (hread.subset hline)) depth more rfl
  | changed hread hwanted hrest ih =>
    subst hend
    have hentry := conforms_single hs (Settings.lookup_of_wanted hwanted)
    rw [List.append_assoc, remarks_lines hentry]
    exact ih hs (fun line hline => his line (hread.subset hline)) depth more rfl
  | dropped hread hwanted hrest ih =>
    exact ih hs (fun line hline => his line (hread.subset hline)) depth more hend
  | group hevent hwanted hgroup hrest ihgroup ih =>
    subst hend
    rcases List.forall_mem_cons.1 his with ⟨-, his⟩
    have hentry := (hs.lookup (Settings.lookup_of_wanted hwanted)).2
    have hclose : parseConfigObject (ascii "\x7d") (ascii "\x7d") = .endTag := rfl
    rw [List.cons_append, remarks, htag, hevent, List.append_assoc]
    dsimp only
    rw [ihgroup (Settings.conforms_group.1 hentry) his (depth + 1) _ rfl, List.cons_append,
      remarks, htag, hclose]
    exact ih hs (fun line hline => his line (hgroup.subset line hline)) depth more rfl
  | droppedGroup hevent hwanted hgroup hrest ihgroup ih =>
    rcases List.forall_mem_cons.1 his with ⟨-, his⟩
    exact ih hs (fun line hline => his line (hgroup.subset line hline)) depth more hend
  | flattened hevent hwanted hrest ih =>
    subst hend
    rcases List.forall_mem_cons.1 his with ⟨-, his⟩
    have hentry := conforms_single hs (Settings.lookup_of_wanted hwanted)
    rw [List.append_assoc, remarks_lines hentry]
    exact ih hs his depth more rfl

end

/-- Outside of all groups, where the reader may still be in some, comments and lines that are not
recognised are kept. -/
theorem UpdateRun.remarks_sublist
    (h : UpdateRun [] s f tabDepth presentEntries is body modified rest)
    (hs : s.Conforms NameOk Storable) (his : ∀ line ∈ is, (10 : UInt8) ∉ line)
    (hlines : remarks depth false is = some lines) :
    ∃ lines', remarks 0 false body = some lines' ∧ lines.Sublist lines' := by
  generalize hend : ([] : Bytes) = endTag at h
  have hclosed : ∀ {depth : Nat} {lines : List Bytes}, remarks depth false [] = some lines →
      lines = [] := by
    intro depth lines h
    rw [remarks] at h
    split at h
    · exact (Option.some.inj h).symm
    · cases h
  induction h generalizing depth lines with
  | eof blank hblank =>
    rw [hclosed hlines, ← List.append_nil (_ ++ _), List.append_assoc]
    exact ⟨[], remarks_missing hs hblank 0 [], .refl []⟩
  | lastLine =>
    have hevent : parseConfigObject (tagAt depth) [] = .none := rfl
    rw [remarks, hevent] at hlines
    rw [hclosed hlines, ← List.append_nil (Settings.lines _ _)]
    exact ⟨[], remarks_lines hs.filter_names _ 0 [], .refl []⟩
  | endTag blank hblank hevent =>
    subst hend
    exact absurd hevent parseConfigObject_nil_ne_endTag
  | @remark _ _ _ _ _ line is body _ _ hevent hrest ih =>
    subst hend
    rcases List.forall_mem_cons.1 his with ⟨-, his⟩
    cases depth with
    | zero =>
      rw [remarks_remark hevent, Option.map_eq_some_iff] at hlines
      rcases hlines with ⟨lines, hnext, rfl⟩
      rcases ih hs his hnext rfl with ⟨lines', hbody, hsub⟩
      refine ⟨_, by rw [remarks_remark hevent, hbody]; rfl, ?_⟩
      split
      · exact hsub
      · exact hsub.cons_cons line
    | succ depth =>
      -- the line is kept, whatever it is to the reader
      rcases remarks_remark_inside hevent depth is with ⟨depth', hskip⟩
      rw [hskip] at hlines
      rcases ih hs his hlines rfl with ⟨lines', hbody, hsub⟩
      refine ⟨_, by rw [remarks_remark hevent, hbody]; rfl, ?_⟩
      split
      · exact hsub
      · exact hsub.cons line
  | kept hread hwanted hrest ih =>
    subst hend
    have hnext := (hread.tagAt depth).remarks.symm.trans hlines
    rcases ih hs (fun line hline => his line (hread.subset hline)) hnext rfl with
      ⟨lines', hbody, hsub⟩
    refine ⟨lines', ?_, hsub⟩
    rw [@ReadValue.remarks_copy _ _ 0 _ _ _ hread his]
    exact hbody
  | changed hread hwanted hrest ih =>
    subst hend
    have hnext := (hread.tagAt depth).remarks.symm.trans hlines
    have hentry := conforms_single hs (Settings.lookup_of_wanted hwanted)
    rcases ih hs (fun line hline => his line (hread.subset hline)) hnext rfl with
      ⟨lines', hbody, hsub⟩
    refine ⟨lines', ?_, hsub⟩
    rw [remarks_lines hentry]
    exact hbody
  | dropped hread hwanted hrest ih =>
    subst hend
    have hnext := (hread.tagAt depth).remarks.symm.trans hlines
    exact ih hs (fun line hline => his line (hread.subset hline)) hnext rfl
  | group hevent hwanted hgroup hrest ihgroup ih =>
    subst hend
    rcases List.forall_mem_cons.1 his with ⟨-, his⟩
    have hentry := (hs.lookup (Settings.lookup_of_wanted hwanted)).2
    have hclose : parseConfigObject (ascii "\x7d") (ascii "\x7d") = .endTag := rfl
    rw [remarks, parseConfigObject_tagAt hevent (by intro h; cases h)] at hlines
    rcases hgroup.remarks_rest hlines with ⟨more, hnext⟩
    rcases ih hs (fun line hline => his line (hgroup.subset line hline)) hnext rfl with
      ⟨lines', hbody, hsub⟩
    refine ⟨lines', ?_, hsub⟩
    rw [remarks, tagAt, if_pos rfl, hevent]
    dsimp only
    rw [hgroup.remarks_body (Settings.conforms_group.1 hentry) his, remarks, tagAt,
      if_neg (Nat.succ_ne_zero 0), hclose]
    exact hbody
  | droppedGroup hevent hwanted hgroup hrest ihgroup ih =>
    subst hend
    rcases List.forall_mem_cons.1 his with ⟨-, his⟩
    rw [remarks, parseConfigObject_tagAt hevent (by intro h; cases h)] at hlines
    rcases hgroup.remarks_rest hlines with ⟨more, hnext⟩
    exact ih hs (fun line hline => his line (hgroup.subset line hline)) hnext rfl
  | flattened hevent hwanted hrest ih =>
    subst hend
    rcases List.forall_mem_cons.1 his with ⟨-, his⟩
    have hentry := conforms_single hs (Settings.lookup_of_wanted hwanted)
    rw [remarks, parseConfigObject_tagAt hevent (by intro h; cases h)] at hlines
    rcases ih hs his hlines rfl with ⟨lines', hbody, hsub⟩
    refine ⟨lines', ?_, hsub⟩
    rw [remarks_lines hentry]
    exact hbody

/-! ### What can be read -/

/-- A group that is opened is complete when what it lies in is. -/
theorem exists_group (hevent : parseConfigObject endTag line = .group name)
    (h : (parseConfigLines order endTag (line :: is) s).1 = true) :
    ∃ inner is', parseConfigLines order (ascii "\x7d") is .nil = (true, inner, is') ∧
      is'.length ≤ is.length ∧
      parseConfigLines order endTag (line :: is) s =
        parseConfigLines order endTag is' (s.put order name (.group inner)) := by
  have hle := length_parseConfigLines order (ascii "\x7d") is .nil
  rw [parseConfigLines_cons, hevent] at h ⊢
  dsimp only at h ⊢
  cases hinner : parseConfigLines order (ascii "\x7d") is .nil with
  | mk complete result =>
    rw [hinner] at h hle
    cases complete with
    | false => cases h
    | true => exact ⟨result.1, result.2, rfl, hle, rfl⟩

/-- A group that is complete is read over. -/
theorem remarks_of_group {group : Settings} {is' : List Bytes}
    (h : parseConfigLines order (ascii "\x7d") is s = (true, group, is')) (depth : Nat) :
    remarks (depth + 1) false is = remarks depth false is' := by
  induction hn : is.length using Nat.strong_induction_on generalizing is s group is' depth with
  | _ n ih =>
    cases is with
    | nil => cases h
    | cons line is =>
      rw [List.length_cons] at hn
      rw [parseConfigLines_cons] at h
      rw [remarks, tagAt, if_neg (Nat.succ_ne_zero depth)]
      cases hevent : parseConfigObject (ascii "\x7d") line with
      | endTag =>
        rw [hevent] at h
        cases h
        rfl
      | multiline name =>
        rw [hevent] at h
        have hle := length_getMultiline is
        dsimp only
        rw [remarks_getMultiline]
        exact ih _ (by omega) h depth rfl
      | group name =>
        rw [← parseConfigLines_cons] at h
        rcases exists_group hevent (congrArg Prod.fst h) with ⟨inner, is'', hinner, hle, hrest⟩
        dsimp only
        rw [ih _ (by omega) hinner (depth + 1) rfl]
        exact ih _ (by omega) (hrest.symm.trans h) depth rfl
      | _ =>
        all_goals
          rw [hevent] at h
          exact ih _ (by omega) h depth rfl

/-- When a file can be read no group is open in the end. -/
theorem exists_remarks (h : (parseConfigLines order [] is s).1 = true) :
    ∃ lines, remarks 0 false is = some lines := by
  induction hn : is.length using Nat.strong_induction_on generalizing is s with
  | _ n ih =>
    cases is with
    | nil => exact ⟨[], rfl⟩
    | cons line is =>
      rw [List.length_cons] at hn
      rw [parseConfigLines_cons] at h
      rw [remarks, tagAt, if_pos rfl]
      cases hevent : parseConfigObject [] line with
      | endTag => exact absurd hevent parseConfigObject_nil_ne_endTag
      | multiline name =>
        rw [hevent] at h
        have hle := length_getMultiline is
        dsimp only
        rw [remarks_getMultiline]
        exact ih _ (by omega) h rfl
      | group name =>
        rw [← parseConfigLines_cons] at h
        rcases exists_group hevent h with ⟨inner, is'', hinner, hle, hrest⟩
        dsimp only
        rw [remarks_of_group hinner 0]
        exact ih _ (by omega) (hrest ▸ h) rfl
      | none =>
        rw [hevent] at h
        exact ih _ (by omega) h rfl
      | kvPair name value =>
        rw [hevent] at h
        exact ih _ (by omega) h rfl
      | _ =>
        all_goals
          rw [hevent] at h
          rcases ih _ (by omega) h rfl with ⟨lines, hlines⟩
          exact ⟨line :: lines, by simp [hlines]⟩

/-- The text that a run writes when the object has no end tag. -/
theorem exists_update (hs : s.Conforms NameOk V) (f : Bytes → Bool) (tabDepth : Nat)
    (text : Bytes) :
    ∃ body modified rest, UpdateRun [] s f tabDepth [] (readLines text) body modified rest ∧
      (updateConfigObject [] s f tabDepth (readLines text)).1 = modified ∧
      readLines (updateConfigObject [] s f tabDepth (readLines text)).2.2 = body ++ [[]] := by
  have hruns : MakesRun [] s f tabDepth (readLines text) {} _ :=
    makesRun_updateLoop hs (Nat.lt_succ_self (readLines text).length)
  rcases hruns with ⟨body, modified, rest, hrun, heq, -⟩
  refine ⟨body, modified, rest, hrun, ?_, ?_⟩
  · rw [updateConfigObject, heq, Bool.false_or]
  · have hbody := hrun.newline_not_mem hs (newline_not_mem_readLines text)
    rw [updateConfigObject, heq, closingText, if_pos rfl, List.append_nil, List.nil_append]
    clear hrun heq
    induction body with
    | nil => rfl
    | cons line body ih =>
      rcases List.forall_mem_cons.1 hbody with ⟨hline, hbody⟩
      have htext : linesText (line :: body) = line ++ 10 :: linesText body := by
        simp [linesText, ascii]
      rw [htext, readLines_cons hline, ih hbody]
      rfl

/-- What was written is read as the entries that the filter accepts, whatever was in the file. -/
theorem parse_updateConfigObject (order : HashOrder) (hs : s.Conforms NameOk Storable)
    (f : Bytes → Bool) (tabDepth : Nat) (text : Bytes) :
    ∃ t rest, parseConfigLines order []
        (readLines (updateConfigObject [] s f tabDepth (readLines text)).2.2) .nil = (true, t, rest) ∧
      t.Same (s.filter f) := by
  rcases exists_update hs f tabDepth text with ⟨body, modified, rest, hrun, -, htext⟩
  rcases hrun.parse endTagOk_nil hs (newline_not_mem_readLines text) order .nil covers_nil [[]] with
    ⟨t, hread, ht⟩
  rw [htext]
  exact ⟨t, [], hread.trans rfl, ht⟩

theorem parse_unmodified (order : HashOrder) (hs : s.Conforms NameOk V) (f : Bytes → Bool)
    (tabDepth : Nat) (text : Bytes)
    (h : (updateConfigObject [] s f tabDepth (readLines text)).1 = false) :
    ∃ t rest, parseConfigLines order [] (readLines text) .nil = (true, t, rest) ∧
      t.Same (s.filter f) := by
  rcases exists_update hs f tabDepth text with ⟨body, modified, rest, hrun, hmodified, -⟩
  rcases hrun.parse_unmodified (hmodified.symm.trans h) order .nil covers_nil with ⟨t, hparse, ht⟩
  exact ⟨t, rest, hparse, ht⟩

end

/-- When a file that can be read is brought up to date, the entries of the object that the filter
accepts are what is read from it, and its comments and lines that are not recognised are kept in
their order. -/
theorem updateConfigObject_spec (order : HashOrder) (s : Settings) (f : Bytes → Bool)
    (tabDepth : Nat) (text : Bytes) (hs : s.Conforms NameOk Storable)
    (hparse : (parseConfigLines order [] (readLines text) .nil).1 = true) :
    (∃ t rest, parseConfigLines order []
        (readLines (updateConfigObject [] s f tabDepth (readLines text)).2.2) .nil = (true, t, rest) ∧
      t.Same (s.filter f)) ∧
    ∃ lines lines', remarks 0 false (readLines text) = some lines ∧
      remarks 0 false (readLines (updateConfigObject [] s f tabDepth (readLines text)).2.2) =
        some lines' ∧ lines.Sublist lines' := by
  refine ⟨parse_updateConfigObject order hs f tabDepth text, ?_⟩
  rcases exists_update hs f tabDepth text with ⟨body, modified, rest, hrun, -, htext⟩
  rw [htext]
  rcases exists_remarks hparse with ⟨lines, hlines⟩
  rcases hrun.remarks_sublist hs (newline_not_mem_readLines text) hlines with ⟨lines', hbody, hsub⟩
  exact ⟨lines, lines', hlines, (remarks_append_blank 0 false body).trans hbody, hsub⟩

/-- A value and a group. -/
def house : Settings :=
  .cons (ascii "door") (.value (ascii "open"))
    (.cons (ascii "roof") (.group (.cons (ascii "colour") (.value (ascii "red")) .nil)) .nil)

/-- What is a group in the object is a value here, and the other way round. -/
def houseText : Bytes :=
  ascii "# house\ndoor = \x7b\n  roof = 1\n\x7d\nroof = flat\nno setting"

theorem updateConfigObject_spec_house :
    (∃ t rest, parseConfigLines appendOrder []
        (readLines (updateConfigObject [] house noFilter 0 (readLines houseText)).2.2) .nil =
          (true, t, rest) ∧ t.Same (house.filter noFilter)) ∧
    ∃ lines lines', remarks 0 false (readLines houseText) = some lines ∧
      remarks 0 false (readLines (updateConfigObject [] house noFilter 0 (readLines houseText)).2.2) =
        some lines' ∧ lines.Sublist lines' := by
  refine updateConfigObject_spec appendOrder house noFilter 0 houseText ?_ (by decide +kernel)
  simp only [house, Settings.conforms_cons, Settings.conforms_value, Settings.conforms_group,
    Settings.conforms_nil, NameOk, Storable, ValueOk, Plain]
  decide +kernel

end Config
end AxisEngine
