import AxisEngine.Client.Rejoin
import AxisEngine.Lib.Transition

/-!
# WorldMeaning — a new session renumbers the world by name

The numbers of node types mean something within one session only.  When the definitions of a new
session take effect, each node of a map that is kept gets the number its old name has now.

* `Received` — what the definitions say after a table was read;
* `Renamed`, `KeepsMeaning` — a node, and a map, under new definitions;
* `Meaningful` — what each step does to the meaning of the map;
* `world_keepsMeaning` — all steps of all runs are so.
-/

namespace AxisEngine
namespace Rejoin

open Lib Map

/-- The names of a table, with those of the engine. -/
def NodeDefs.Has (defs : NodeDefs) (name : Bytes) : Prop :=
  name ∈ [ascii "unknown", ascii "air", ascii "ignore"] ∨
    name ≠ [] ∧ ∃ i, isBuiltin i = false ∧ (i, name) ∈ defs.entries

/-- A node under new definitions. -/
structure Renamed (defs : NodeDefs) (old new : Definitions) (n n' : MapNode) : Prop where
  param1 : n'.param1 = n.param1
  param2 : n'.param2 = n.param2
  kept : defs.Has (old.get n.getContent) → new.get n'.getContent = old.get n.getContent
  lost : ¬ defs.Has (old.get n.getContent) → n'.getContent = contentUnknown

/-- The same blocks are loaded, and nothing but the numbers in them is different. -/
def KeepsMeaning (defs : NodeDefs) (s t : Client) : Prop :=
  ∀ p, (s.blocks p = none → t.blocks p = none) ∧ ∀ b, s.blocks p = some b →
    ∃ b', t.blocks p = some b' ∧ b' = { b with data := b'.data } ∧
      ∀ i, Renamed defs s.nodedef t.nodedef (b.get i) (b'.get i)

/-- The first definitions of all are no replacement. -/
def Meaningful (s : Client) (e : Event) (t : Client) : Prop :=
  match e with
  | .applyPendingContent =>
    (s.pendingNodedef = none → t = s) ∧
    ∀ defs, s.pendingNodedef = some defs → t.nodedef = .deSerialize defs ∧
      (t.mapSurvivedSession = true → KeepsMeaning defs s t) ∧
      (t.mapSurvivedSession = false → ∀ p, t.blocks p = none)
  | .nodeDef _ => s.linkState = .rejoining → t.blocks = s.blocks ∧ t.nodedef = s.nodedef
  | .afterContentReceived _ => t.blocks = s.blocks ∧ ∀ c, t.nodedef.get c = s.nodedef.get c
  | .mapChanged _ => True
  | _ => t.blocks = s.blocks ∧ t.nodedef = s.nodedef

/-! ## Reading a table -/

namespace Definitions

/-- What holds of all definitions that a client has. -/
structure Sound (d : Definitions) : Prop where
  unknown : d.manager.names contentUnknown = ascii "unknown"
  lt_size : ∀ i, d.manager.names i ≠ [] → i.toNat < d.size

/-- What was read of a table: there are no aliases yet. -/
structure Received (entries : List (UInt16 × Bytes)) (d : Definitions) : Prop extends d.Sound where
  getId_iff : ∀ n i, d.getId n = some i ↔ n ≠ [] ∧ d.manager.names i = n
  plain : ∀ n, d.manager.nameIdMapping.getId n = d.getId n
  has : ∀ n, (∃ i, d.getId n = some i) ↔ n ∈ [ascii "unknown", ascii "air", ascii "ignore"] ∨
    n ≠ [] ∧ ∃ i, isBuiltin i = false ∧ (i, n) ∈ entries
  unassigned : ∀ i, isBuiltin i = false → i ∉ entries.map Prod.fst → d.manager.names i = []

section

variable {d : Definitions} {i j : UInt16} {n name : Bytes} {entries : List (UInt16 × Bytes)}
  {entry : UInt16 × Bytes}

theorem getId_addNameIdMapping {m : NodeDefManager} (hnone : m.getId name = none) :
    (m.addNameIdMapping i name).getId n = if n = name then some i else m.getId n := by
  have hnew : name ∉ m.nameIdMappingWithAliases := Finmap.lookup_eq_none.1 hnone
  change Finmap.lookup n (if name ∈ m.nameIdMappingWithAliases then m.nameIdMappingWithAliases
    else m.nameIdMappingWithAliases.insert name i) = _
  rw [if_neg hnew]
  split
  · rename_i heq
    rw [heq, Finmap.lookup_insert]
  · rename_i hne
    exact Finmap.lookup_insert_of_ne _ hne

theorem getId_add (hnone : d.getId name = none) :
    (d.add i name).getId n = if n = name then some i else d.getId n :=
  getId_addNameIdMapping hnone

theorem plain_add (i : UInt16) (name : Bytes)
    (hplain : ∀ n, d.manager.nameIdMapping.getId n = d.getId n)
    (hnone : d.getId name = none) (n : Bytes) :
    (d.add i name).manager.nameIdMapping.getId n = (d.add i name).getId n := by
  rw [getId_add hnone, ← hplain]
  exact NameIdMapping.getId_insert

theorem names_add : (d.add i name).manager.names j = if j = i then name else d.manager.names j :=
  Function.update_apply _ _ _ _

theorem Sound.add (h : d.Sound) (hi : isBuiltin i = false) : (d.add i name).Sound where
  unknown := by
    rw [names_add, if_neg, h.unknown]
    rintro rfl
    cases hi
  lt_size j hj := by
    rw [names_add] at hj
    split at hj
    · rename_i heq
      rw [heq]
      exact lt_of_lt_of_le (Nat.lt_succ_self _) (le_max_right _ _)
    · exact lt_of_lt_of_le (h.lt_size j hj) (le_max_left _ _)

/-- Definitions under a number and a name that are both new. -/
theorem Received.add (h : d.Received entries) (hi : isBuiltin i = false)
    (hfree : i ∉ entries.map Prod.fst) (hname : name ≠ []) (hnone : d.getId name = none) :
    (d.add i name).Received (entries ++ [(i, name)]) where
  toSound := h.toSound.add hi
  plain := plain_add i name h.plain hnone
  getId_iff n j := by
    have hempty := h.unassigned i hi hfree
    rw [getId_add hnone, names_add]
    by_cases hn : n = name
    · subst hn
      rw [if_pos rfl]
      constructor
      · intro heq
        cases heq
        exact ⟨hname, if_pos rfl⟩
      · rintro ⟨-, heq⟩
        by_cases hj : j = i
        · rw [hj]
        · rw [if_neg hj] at heq
          have hsome := (h.getId_iff n j).2 ⟨hname, heq⟩
          rw [hnone] at hsome
          cases hsome
    · rw [if_neg hn, h.getId_iff]
      refine and_congr_right fun hne => ?_
      by_cases hj : j = i
      · subst hj
        rw [if_pos rfl, hempty]
        exact ⟨fun heq => absurd heq.symm hne, fun heq => absurd heq.symm hn⟩
      · rw [if_neg hj]
  has n := by
    rw [getId_add hnone]
    by_cases hn : n = name
    · subst hn
      rw [if_pos rfl]
      exact iff_of_true ⟨i, rfl⟩ (.inr ⟨hname, i, hi, List.mem_append_right _ (List.mem_singleton_self _)⟩)
    · rw [if_neg hn, h.has]
      refine or_congr_right (and_congr_right fun _ => exists_congr fun j => and_congr_right fun _ => ?_)
      rw [List.mem_append, List.mem_singleton, or_iff_left]
      intro heq
      cases heq
      exact hn rfl
  unassigned j hj hnot := by
    rw [List.map_append, List.mem_append, not_or] at hnot
    rw [names_add, if_neg, h.unassigned j hj hnot.1]
    rintro rfl
    exact hnot.2 (List.mem_singleton_self _)

/-- An entry that is skipped has nothing that is not there. -/
theorem Received.skip (h : d.Received entries)
    (hskip : entry.2 ≠ [] → isBuiltin entry.1 = false → ∃ i, d.getId entry.2 = some i) :
    d.Received (entries ++ [entry]) where
  toSound := h.toSound
  plain := h.plain
  getId_iff := h.getId_iff
  has n := by
    rw [h.has]
    constructor
    · rintro (hengine | ⟨hne, i, hi, hmem⟩)
      · exact .inl hengine
      · exact .inr ⟨hne, i, hi, List.mem_append_left _ hmem⟩
    · rintro (hengine | ⟨hne, i, hi, hmem⟩)
      · exact .inl hengine
      · rcases List.mem_append.1 hmem with hold | hnew
        · exact .inr ⟨hne, i, hi, hold⟩
        · cases List.mem_singleton.1 hnew
          exact (h.has n).1 (hskip hne hi)
  unassigned i hi hnot := by
    rw [List.map_append, List.mem_append, not_or] at hnot
    exact h.unassigned i hi hnot.1

theorem Received.receive (h : d.Received entries) (hfree : entry.1 ∉ entries.map Prod.fst) :
    (d.receive entry).Received (entries ++ [entry]) := by
  rw [Definitions.receive]
  by_cases hbuiltin : isBuiltin entry.1 = true
  · rw [if_pos hbuiltin]
    exact h.skip fun _ hnot => absurd (hbuiltin.symm.trans hnot) (by decide)
  have hi : isBuiltin entry.1 = false := Bool.eq_false_iff.2 hbuiltin
  rw [if_neg hbuiltin]
  by_cases hname : entry.2 = []
  · rw [if_pos hname]
    exact h.skip fun hne _ => absurd hname hne
  rw [if_neg hname, h.plain]
  cases hknown : d.getId entry.2 with
  | none => exact h.add hi hfree hname hknown
  | some existing =>
    have hskip : d.Received (entries ++ [entry]) := h.skip fun _ _ => ⟨existing, hknown⟩
    have hnames := ((h.getId_iff _ _).1 hknown).2
    -- the number is new, so it is not the one that has the name
    have hne : entry.1 ≠ existing := by
      rintro rfl
      exact hname (hnames.symm.trans (h.unassigned _ hi hfree))
    dsimp only
    rw [if_pos hne]
    exact hskip

theorem plain_builtin (n : Bytes) :
    builtin.manager.nameIdMapping.getId n = builtin.getId n := by
  have hblank : ∀ n, ({ manager := .blank, size := 0 } : Definitions).manager.nameIdMapping.getId n =
      ({ manager := .blank, size := 0 } : Definitions).getId n := fun _ => rfl
  have hunknown := plain_add contentUnknown (ascii "unknown") hblank rfl
  have hair := plain_add contentAir (ascii "air") hunknown rfl
  exact plain_add contentIgnore (ascii "ignore") hair rfl n

theorem hasId_builtin (n : Bytes) (i : UInt16) :
    builtin.manager.nameIdMapping.getId n = some i ↔
      n = ascii "unknown" ∧ i = contentUnknown ∨ n = ascii "air" ∧ i = contentAir ∨
        n = ascii "ignore" ∧ i = contentIgnore := by
  change NodeDefManager.builtin.nameIdMapping.getId n = _ ↔ _
  rw [NodeDefManager.getId_builtin]
  constructor
  · intro h
    split at h
    · rename_i hn
      exact .inr (.inr ⟨hn, (Option.some.inj h).symm⟩)
    · split at h
      · rename_i hn
        exact .inr (.inl ⟨hn, (Option.some.inj h).symm⟩)
      · split at h
        · rename_i hn
          exact .inl ⟨hn, (Option.some.inj h).symm⟩
        · cases h
  · rintro (⟨rfl, rfl⟩ | ⟨rfl, rfl⟩ | ⟨rfl, rfl⟩)
    · rfl
    · rfl
    · rfl

theorem received_builtin : builtin.Received [] where
  unknown := rfl
  lt_size i hi := by
    have hid := (NodeDefManager.valid_builtin.getId_iff _ i).2 ⟨hi, rfl⟩
    rcases (hasId_builtin _ i).1 hid with ⟨-, rfl⟩ | ⟨-, rfl⟩ | ⟨-, rfl⟩
    · decide
    · decide
    · decide
  plain := plain_builtin
  getId_iff n i := by
    rw [← plain_builtin]
    exact NodeDefManager.valid_builtin.getId_iff n i
  has n := by
    rw [List.mem_cons, List.mem_cons, List.mem_singleton]
    constructor
    · rintro ⟨i, hi⟩
      rw [← plain_builtin] at hi
      rcases (hasId_builtin n i).1 hi with ⟨hn, -⟩ | ⟨hn, -⟩ | ⟨hn, -⟩
      · exact .inl (.inl hn)
      · exact .inl (.inr (.inl hn))
      · exact .inl (.inr (.inr hn))
    · rintro ((rfl | rfl | rfl) | ⟨-, i, -, hi⟩)
      · exact ⟨contentUnknown, rfl⟩
      · exact ⟨contentAir, rfl⟩
      · exact ⟨contentIgnore, rfl⟩
      · cases hi
  unassigned i hi _ := by
    by_contra hne
    have hid := (NodeDefManager.valid_builtin.getId_iff _ i).2 ⟨hne, rfl⟩
    rcases (hasId_builtin _ i).1 hid with ⟨-, rfl⟩ | ⟨-, rfl⟩ | ⟨-, rfl⟩
    · cases hi
    · cases hi
    · cases hi

theorem received_deSerialize (defs : NodeDefs) : (deSerialize defs).Received defs.entries := by
  rcases defs with ⟨entries, hnodup⟩
  change (entries.foldl receive builtin).Received entries
  induction entries using List.reverseRecOn with
  | nil => exact received_builtin
  | append_singleton entries entry ih =>
    rw [List.map_append] at hnodup
    rcases List.nodup_append.1 hnodup with ⟨hold, -, hdisjoint⟩
    rw [List.foldl_append]
    refine (ih hold).receive fun hmem => ?_
    exact hdisjoint _ hmem _ (List.mem_singleton_self _) rfl

theorem has_iff {defs : NodeDefs} : defs.Has n ↔ ∃ i, (deSerialize defs).getId n = some i :=
  ((received_deSerialize defs).has n).symm

theorem get_of_getId {defs : NodeDefs} (h : (deSerialize defs).getId n = some i) :
    (deSerialize defs).get i = n := by
  rcases ((received_deSerialize defs).getId_iff n i).1 h with ⟨hne, hname⟩
  rw [Definitions.get, NodeDefManager.get, hname, if_neg hne]

/-- What is behind the end is unknown. -/
theorem Sound.get_of_size_le (h : d.Sound) (hi : d.size ≤ i.toNat) :
    d.get i = ascii "unknown" := by
  have hempty : d.manager.names i = [] := by
    by_contra hne
    exact Nat.not_lt.2 hi (h.lt_size i hne)
  rw [Definitions.get, NodeDefManager.get, if_pos hempty, h.unknown]

theorem Sound.updateAliases (h : d.Sound) (items : List (Bytes × Bytes)) :
    (d.updateAliases items).Sound where
  unknown := h.unknown
  lt_size := h.lt_size

theorem nodeNames_eq_some {names : List Bytes} (h : d.nodeNames = some names) :
    names = (List.range d.size).map fun i => d.get (UInt16.ofNat i) := by
  unfold nodeNames at h
  split at h
  · cases h
  · exact (Option.some.inj h).symm

end

end Definitions

/-! ## Renumbering a block -/

section

variable {old : Definitions} {defs : NodeDefs} {mapping : List UInt16} {names : List Bytes}
  {s t u : Client} {e : Event}

theorem get_remapContentIds (b : MapBlock) (i : Fin nodecount) :
    (remapContentIds mapping b).get i = remapNode mapping (b.get i) := by
  unfold remapContentIds MapBlock.get
  cases b.data with
  | mono n => rfl
  | full nodes =>
    change List.get (nodes.list.map (remapNode mapping)) _ = _
    rw [List.get_eq_getElem, List.getElem_map]
    rfl

theorem remapContentIds_data (b : MapBlock) :
    remapContentIds mapping b = { b with data := (remapContentIds mapping b).data } := by
  unfold remapContentIds
  cases b.data with
  | mono n => rfl
  | full nodes => rfl

/-- The number for `c` is the one of its old name. -/
theorem getD_mapping (hnames : old.nodeNames = some names) (f : Bytes → UInt16) (c : UInt16) :
    (names.map f).getD c.toNat contentUnknown =
      if c.toNat < old.size then f (old.get c) else contentUnknown := by
  rw [Definitions.nodeNames_eq_some hnames, List.getD_eq_getElem?_getD, List.map_map,
    List.getElem?_map]
  split
  · rename_i hlt
    rw [List.getElem?_range hlt, Option.map_some, Option.getD_some]
    change f (old.get (UInt16.ofNat c.toNat)) = _
    rw [UInt16.ofNat_toNat]
  · rename_i hge
    rw [List.getElem?_eq_none (by rwa [List.length_range, ← Nat.not_lt])]
    rfl

theorem renamed_remapNode (hold : old.Sound) (hnames : old.nodeNames = some names) (n : MapNode) :
    Renamed defs old (.deSerialize defs) n
      (remapNode (names.map fun name => ((Definitions.deSerialize defs).getId name).getD
        contentUnknown) n) := by
  have hcontent : (remapNode (names.map fun name => ((Definitions.deSerialize defs).getId name).getD
      contentUnknown) n).getContent = if n.getContent.toNat < old.size then
        ((Definitions.deSerialize defs).getId (old.get n.getContent)).getD contentUnknown
      else contentUnknown :=
    getD_mapping hnames _ n.getContent
  refine ⟨rfl, rfl, fun hhas => ?_, fun hlost => ?_⟩
  · rw [hcontent]
    split
    · rcases Definitions.has_iff.1 hhas with ⟨i, hi⟩
      rw [hi]
      exact Definitions.get_of_getId hi
    · rename_i hge
      rw [hold.get_of_size_le (Nat.not_lt.1 hge)]
      refine Definitions.get_of_getId ?_
      rw [(Definitions.received_deSerialize defs).getId_iff]
      exact ⟨by decide, (Definitions.received_deSerialize defs).unknown⟩
  · rw [hcontent]
    split
    · cases hid : (Definitions.deSerialize defs).getId (old.get n.getContent) with
      | none => rfl
      | some i => exact absurd (Definitions.has_iff.2 ⟨i, hid⟩) hlost
    · rfl

/-! ## Steps -/

/-- What is held back replaces the definitions of a world that is still there. -/
structure Inv (c : Client) : Prop where
  sound : c.nodedef.Sound
  held : c.pendingNodedef.isSome = true → c.worldOfPreviousSession = true

theorem inv_initial : Inv {} where
  sound := Definitions.received_builtin.toSound
  held h := by cases h

theorem sound_deSerialize (defs : NodeDefs) : (Definitions.deSerialize defs).Sound :=
  (Definitions.received_deSerialize defs).toSound

/-- The definitions are held back, or they are the first ones. -/
theorem handleCommandNodeDef_cases {received : Option NodeDefs}
    (h : s.handleCommandNodeDef received = some t) :
    (s.linkState = .rejoining ∧ ∃ names, t = { s with
      previousNodeNames := names, pendingNodedef := received, nodedefReceived := true }) ∨
    (s.linkState ≠ .rejoining ∧ ∃ names defs, t = { s with
      previousNodeNames := names, nodedef := .deSerialize defs, nodedefReceived := true }) := by
  unfold Client.handleCommandNodeDef at h
  rcases Option.bind_eq_some_iff.1 h with ⟨names, -, h⟩
  dsimp only at h
  split at h
  · cases h
  · split at h
    · rename_i hrejoining
      exact .inl ⟨hrejoining, names, (Option.some.inj h).symm⟩
    · rename_i hlive
      rcases Option.map_eq_some_iff.1 h with ⟨defs, -, rfl⟩
      exact .inr ⟨hlive, names, defs, rfl⟩

theorem applyPendingContent_cases (hinv : Inv s) (h : s.applyPendingContent = some t) :
    (s.pendingNodedef = none ∧ t = s) ∨
    ∃ defs names, s.pendingNodedef = some defs ∧ s.nodedef.nodeNames = some names ∧
      t.nodedef = .deSerialize defs ∧ t.pendingNodedef = none ∧
      ∀ p, t.blocks p = if t.mapSurvivedSession = true then
        (s.blocks p).map (remapContentIds (names.map fun name =>
          ((Definitions.deSerialize defs).getId name).getD contentUnknown)) else none := by
  unfold Client.applyPendingContent at h
  cases hpending : s.pendingNodedef with
  | none =>
    rw [hpending] at h
    exact .inl ⟨rfl, (Option.some.inj h).symm⟩
  | some defs =>
    rw [hpending] at h
    rcases Option.map_eq_some_iff.1 h with ⟨names, hnames, rfl⟩
    have hworld : s.worldOfPreviousSession = true := hinv.held (by rw [hpending]; rfl)
    refine .inr ⟨defs, names, rfl, hnames, ?_⟩
    unfold Client.takeOverWorldOfPreviousSession
    rw [if_pos hworld]
    exact ⟨rfl, rfl, fun p => rfl⟩

theorem inv_step (hinv : Inv s) (h : Client.Step s e t) : Inv t := by
  rcases h with ⟨hpossible, h⟩
  cases e with
  | loseLink =>
    cases h
    unfold Client.loseLink
    split
    · exact hinv
    · exact ⟨hinv.sound, fun _ => rfl⟩
  | beginRejoin =>
    cases h
    exact ⟨hinv.sound, fun hsome => by cases hsome⟩
  | nodeDef received =>
    rcases handleCommandNodeDef_cases h with ⟨hrejoining, names, rfl⟩ | ⟨hlive, names, defs, rfl⟩
    · rcases hpossible with ⟨-, hworld⟩ | ⟨hlive, -⟩
      · exact ⟨hinv.sound, fun _ => hworld⟩
      · rw [hrejoining] at hlive
        cases hlive
    · exact ⟨sound_deSerialize defs, hinv.held⟩
  | applyPendingContent =>
    rcases applyPendingContent_cases hinv h with ⟨-, rfl⟩ | ⟨defs, names, -, -, hdefs, hnone, -⟩
    · exact hinv
    · refine ⟨?_, fun hsome => ?_⟩
      · rw [hdefs]
        exact sound_deSerialize defs
      · rw [hnone] at hsome
        cases hsome
  | linkRestored =>
    cases h
    refine ⟨hinv.sound, fun hsome => ?_⟩
    have hnone := Option.isNone_iff_eq_none.1 hpossible.2.2
    rw [Client.linkRestored, hnone] at hsome
    cases hsome
  | afterContentReceived items =>
    cases h
    exact ⟨hinv.sound.updateAliases items, hinv.held⟩
  | mapChanged blocks =>
    cases h
    exact ⟨hinv.sound, hinv.held⟩

theorem meaningful_step (hinv : Inv s) (h : Client.Step s e t) : Meaningful s e t := by
  rcases h with ⟨-, h⟩
  cases e with
  | loseLink =>
    cases h
    change s.loseLink.blocks = s.blocks ∧ s.loseLink.nodedef = s.nodedef
    unfold Client.loseLink
    split
    · exact ⟨rfl, rfl⟩
    · exact ⟨rfl, rfl⟩
  | beginRejoin =>
    cases h
    exact ⟨rfl, rfl⟩
  | nodeDef received =>
    intro hrejoining
    rcases handleCommandNodeDef_cases h with ⟨-, names, rfl⟩ | ⟨hlive, -⟩
    · exact ⟨rfl, rfl⟩
    · exact absurd hrejoining hlive
  | applyPendingContent =>
    rcases applyPendingContent_cases hinv h with
      ⟨hnone, rfl⟩ | ⟨defs, names, hsome, hnames, hdefs, -, hblocks⟩
    · refine ⟨fun _ => rfl, fun defs hsome => ?_⟩
      rw [hnone] at hsome
      cases hsome
    · refine ⟨fun hnone => ?_, fun defs' hsome' => ?_⟩
      · rw [hsome] at hnone
        cases hnone
      cases hsome.symm.trans hsome'
      refine ⟨hdefs, fun hsurvived p => ?_, fun hdropped p => ?_⟩
      · have hp := hblocks p
        rw [if_pos hsurvived] at hp
        refine ⟨fun hunloaded => ?_, fun b hb => ?_⟩
        · rw [hp, hunloaded]
          rfl
        · rw [hb] at hp
          refine ⟨_, hp, remapContentIds_data b, fun i => ?_⟩
          rw [hdefs, get_remapContentIds]
          exact renamed_remapNode hinv.sound hnames (b.get i)
      · rw [hblocks p, if_neg (Bool.eq_false_iff.1 hdropped)]
  | linkRestored =>
    cases h
    exact ⟨rfl, rfl⟩
  | afterContentReceived items =>
    cases h
    exact ⟨rfl, fun _ => rfl⟩
  | mapChanged blocks => trivial

/-- Over every sequence of sessions, each step keeps the meaning of the map. -/
theorem world_keepsMeaning {es : List Event} (hrun : Run Client.Step {} es s)
    (h : Client.Step s e t) : Meaningful s e t :=
  meaningful_step (hrun.invariant (fun _ _ _ hinv hstep => inv_step hinv hstep) inv_initial) h

end

/-! ## A restarted server -/

def firstDefs : NodeDefs where
  entries := [(0, ascii "stone"), (2, ascii "dirt")]
  nodup := by decide

/-- Stone is gone. -/
def laterDefs : NodeDefs where
  entries := [(5, ascii "dirt"), (7, ascii "sand")]
  nodup := by decide

def someBlocks (p : V3s16) : Option MapBlock :=
  if p = ⟨0, 0, 0⟩ then some { data := .mono { param0 := 2, param1 := 15 } } else none

theorem restarted_keepsMeaning : ∃ s t, s.pendingNodedef = some laterDefs ∧ s.blocks = someBlocks ∧
    Client.Step s .applyPendingContent t ∧ Meaningful s .applyPendingContent t := by
  have hrun : ∃ s, Run Client.Step {} [.nodeDef (some firstDefs), .mapChanged someBlocks, .loseLink,
      .beginRejoin, .nodeDef (some laterDefs)] s ∧ s.pendingNodedef = some laterDefs ∧
      s.blocks = someBlocks ∧ ∃ t, Client.Step s .applyPendingContent t :=
    ⟨_, .cons (.apply (.inr ⟨rfl, rfl⟩) rfl) <| .cons (.apply trivial rfl) <|
      .cons (.apply trivial rfl) <|
      .cons (.apply rfl rfl) <|
      .cons (.apply (.inl ⟨rfl, rfl⟩) rfl) <| .nil _, rfl, rfl, _, .apply ⟨rfl, rfl⟩ rfl⟩
  rcases hrun with ⟨s, hrun, hpending, hblocks, t, hstep⟩
  exact ⟨s, t, hpending, hblocks, hstep, world_keepsMeaning hrun hstep⟩

end Rejoin
end AxisEngine
