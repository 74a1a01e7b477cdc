import AxisEngine.Client.WorldMeaning
import Mathlib.Data.List.Basic

/-!
# WorldSurvival — whether enough nodes are left to keep the world

The client keeps the map of the session before when most of its nodes are in the new definitions.
The nodes are counted over the whole of `m_content_features`.  A slot that has no node reads as the
unknown node, and that one is always there.

* `Definitions.read` — definitions from any table;
* `kept`, `gone`, `gaps` — the slots of the old definitions;
* `changeDefinitions` — the new definitions take effect;
* `decidesByNodes_iff` — when it is the nodes that decide.
-/

namespace AxisEngine
namespace Rejoin

open Lib Map

namespace Definitions

/-- `clear` and the loop of `deSerialize`, for whatever arrives. -/
def read (entries : List (UInt16 × Bytes)) : Definitions :=
  entries.foldl receive builtin

def slots (d : Definitions) : List UInt16 :=
  (List.range d.size).map UInt16.ofNat

/-- The nodes that are registered under a name. -/
def registered (d : Definitions) : List UInt16 :=
  d.slots.filter fun i => d.manager.names i ≠ []

def gaps (d : Definitions) : List UInt16 :=
  d.slots.filter fun i => d.manager.names i = []

variable (old new : Definitions)

/-- The nodes of `old` that exist by name in `new`. -/
def kept : List UInt16 :=
  old.registered.filter fun i => new.getId (old.manager.names i) ≠ none

def gone : List UInt16 :=
  old.registered.filter fun i => new.getId (old.manager.names i) = none

/-- At least half of the nodes are still there. -/
def MostKept : Prop :=
  old.registered.length ≤ (kept old new).length * 2

/-- The nodes that are gone are no more than those that are kept, or they are more than those and
the gaps together. -/
def GapsDoNotMatter : Prop :=
  (gone old new).length ≤ (kept old new).length ∨
    (kept old new).length + old.gaps.length < (gone old new).length

end Definitions

namespace Client

/-- `applyPendingContent`, when there are definitions. -/
def changeDefinitions (c : Client) (entries : List (UInt16 × Bytes)) : Option Client :=
  c.nodedef.nodeNames.map fun names =>
    takeOverWorldOfPreviousSession { c with
      previousNodeNames := names
      nodedef := .read entries
      pendingNodedef := none }

/-- The map stays, with all its blocks. -/
def KeepsWorld (c t : Client) : Prop :=
  t.mapSurvivedSession = true ∧ ∀ p, (t.blocks p).isSome = (c.blocks p).isSome

def DropsWorld (t : Client) : Prop :=
  t.mapSurvivedSession = false ∧ ∀ p, t.blocks p = none

/-- The world is kept when at least half of the nodes are still there, and only then. -/
def DecidesByNodes (c : Client) (old new : List (UInt16 × Bytes)) : Prop :=
  ∃ t, c.changeDefinitions new = some t ∧
    (Definitions.MostKept (.read old) (.read new) → c.KeepsWorld t) ∧
    (¬ Definitions.MostKept (.read old) (.read new) → t.DropsWorld)

end Client

/-! ## What is in a table -/

namespace Definitions

/-- The engine's names are in every table, and the last slot is used. -/
structure Built (d : Definitions) : Prop extends d.Sound where
  getId_unknown : d.getId (ascii "unknown") = some contentUnknown
  size_pos : 0 < d.size
  size_le : d.size ≤ 65536
  last : d.manager.names (UInt16.ofNat (d.size - 1)) ≠ []

section

variable {d old new : Definitions} {i : UInt16} {name n : Bytes} {entry : UInt16 × Bytes}

theorem getId_add_of_some {j : UInt16} (h : d.getId n = some j) :
    (d.add i name).getId n = some j := by
  by_cases hnone : d.getId name = none
  · have hne : n ≠ name := by
      rintro rfl
      rw [hnone] at h
      cases h
    rw [getId_add hnone, if_neg hne, h]
  · have hmem : name ∈ d.manager.nameIdMappingWithAliases :=
      Finmap.mem_iff.2 (Option.ne_none_iff_exists'.1 hnone)
    change Finmap.lookup n (if name ∈ d.manager.nameIdMappingWithAliases then
      d.manager.nameIdMappingWithAliases else d.manager.nameIdMappingWithAliases.insert name i) = _
    rw [if_pos hmem]
    exact h

theorem Built.add (h : d.Built) (hi : isBuiltin i = false) (hname : name ≠ []) :
    (d.add i name).Built where
  toSound := h.toSound.add hi
  getId_unknown := getId_add_of_some h.getId_unknown
  size_pos := lt_of_lt_of_le h.size_pos (le_max_left _ _)
  size_le := max_le h.size_le i.toNat_lt
  last := by
    rw [names_add]
    split
    · exact hname
    · rename_i hne
      -- a slot before the end was written, so the end is where it was
      have hsize : (d.add i name).size = d.size := by
        refine max_eq_left (Nat.not_lt.1 fun hlt => hne ?_)
        have hmax : (d.add i name).size = i.toNat + 1 := max_eq_right (Nat.le_of_lt hlt)
        rw [hmax, Nat.add_sub_cancel, UInt16.ofNat_toNat]
      rw [hsize]
      exact h.last

theorem Built.receive (h : d.Built) : (d.receive entry).Built := by
  rw [Definitions.receive]
  by_cases hbuiltin : isBuiltin entry.1 = true
  · rw [if_pos hbuiltin]
    exact h
  rw [if_neg hbuiltin]
  by_cases hname : entry.2 = []
  · rw [if_pos hname]
    exact h
  rw [if_neg hname]
  have hadd : (d.add entry.1 entry.2).Built := h.add (Bool.eq_false_iff.2 hbuiltin) hname
  cases d.manager.nameIdMapping.getId entry.2 with
  | none => exact hadd
  | some existing =>
    dsimp only
    split
    · exact h
    · exact hadd

theorem built_builtin : builtin.Built where
  toSound := received_builtin.toSound
  getId_unknown := rfl
  size_pos := by decide
  size_le := by decide
  last := by decide

theorem built_read (entries : List (UInt16 × Bytes)) : (read entries).Built :=
  List.foldlRecOn entries receive built_builtin fun _ h _ _ => h.receive

/-- Only a node with the last of all numbers makes the table as long as it can be. -/
theorem Built.size_le_iff (h : d.Built) :
    d.size ≤ 65535 ↔ d.manager.names contentMax = [] := by
  constructor
  · intro hsize
    by_contra hne
    exact Nat.not_lt.2 hsize (h.lt_size contentMax hne)
  · intro hempty
    by_contra hlong
    have hsize : d.size = 65536 := by
      have hle := h.size_le
      omega
    have hlast := h.last
    rw [hsize] at hlast
    exact hlast hempty

/-! ## Counting -/

theorem length_slots (d : Definitions) : d.slots.length = d.size := by
  rw [slots, List.length_map, List.length_range]

theorem length_filter_not_add (p : UInt16 → Prop) [DecidablePred p] (l : List UInt16) :
    (l.filter fun i => ¬ p i).length + (l.filter fun i => p i).length = l.length := by
  rw [List.length_eq_length_filter_add (l := l) fun i => p i, add_comm]
  congr 2
  exact List.filter_congr fun i _ => decide_not

theorem length_registered_add_gaps (d : Definitions) :
    d.registered.length + d.gaps.length = d.size := by
  rw [← length_slots]
  exact length_filter_not_add (fun i => d.manager.names i = []) d.slots

theorem length_kept_add_gone (old new : Definitions) :
    (kept old new).length + (gone old new).length = old.registered.length :=
  length_filter_not_add (fun i => new.getId (old.manager.names i) = none) old.registered

/-- What reads as the unknown node is not lost. -/
theorem getId_get_eq_none_iff (hold : old.Built) (hnew : new.Built) :
    new.getId (old.get i) = none ↔
      old.manager.names i ≠ [] ∧ new.getId (old.manager.names i) = none := by
  rw [Definitions.get, NodeDefManager.get]
  split
  · rename_i hempty
    rw [hold.unknown, hnew.getId_unknown]
    exact iff_of_false (fun h => by cases h) fun h => h.1 hempty
  · rename_i hname
    exact (and_iff_right hname).symm

/-- What `takeOverWorldOfPreviousSession` counts. -/
theorem countP_lost (hold : old.Built) (hnew : new.Built) :
    (old.slots.map old.get).countP (fun name => new.getId name = none) = (gone old new).length := by
  rw [List.countP_map, List.countP_eq_length_filter, gone, registered, List.filter_filter]
  congr 1
  refine List.filter_congr fun i _ => ?_
  rw [← Bool.decide_and]
  refine decide_eq_decide.2 ((getId_get_eq_none_iff hold hnew).trans and_comm)

theorem survives_iff (hold : old.Built) (hnew : new.Built) :
    Client.survives (old.slots.map old.get) new = true ↔ (gone old new).length * 2 ≤ old.size := by
  have hlength : (old.slots.map old.get).length = old.size := by
    rw [List.length_map, length_slots]
  have hne : old.slots.map old.get ≠ [] := by
    refine List.ne_nil_of_length_pos ?_
    rw [hlength]
    exact hold.size_pos
  have hparts := length_kept_add_gone old new
  have hslots := length_registered_add_gaps old
  unfold Client.survives
  dsimp only
  rw [countP_lost hold hnew, hlength, decide_eq_true hne, Bool.true_and, decide_eq_true_iff]
  omega

end

end Definitions

/-! ## The decision -/

namespace Client

section

variable {c t : Client} {old new : List (UInt16 × Bytes)}

theorem nodeNames_eq (d : Definitions) :
    d.nodeNames = if 65535 < d.size then none else some (d.slots.map d.get) := by
  rw [Definitions.nodeNames, Definitions.slots, List.map_map]
  rfl

/-- The new definitions take effect, unless the counter cannot reach the end of the old ones. -/
theorem changeDefinitions_eq_some (hworld : c.worldOfPreviousSession = true) :
    c.changeDefinitions new = some t → c.nodedef.size ≤ 65535 ∧
      t.mapSurvivedSession = survives (c.nodedef.slots.map c.nodedef.get) (.read new) ∧
      ∀ p, (t.blocks p).isSome = (t.mapSurvivedSession && (c.blocks p).isSome) := by
  intro h
  rcases Option.map_eq_some_iff.1 h with ⟨names, hnames, rfl⟩
  rw [nodeNames_eq] at hnames
  split at hnames
  · cases hnames
  rename_i hsize
  cases hnames
  unfold takeOverWorldOfPreviousSession
  rw [if_pos hworld]
  refine ⟨Nat.not_lt.1 hsize, rfl, fun p => ?_⟩
  dsimp only
  cases survives (c.nodedef.slots.map c.nodedef.get) (.read new) with
  | false => rfl
  | true => exact Option.isSome_map

theorem exists_changeDefinitions (new : List (UInt16 × Bytes)) (hsize : c.nodedef.size ≤ 65535) :
    ∃ t, c.changeDefinitions new = some t := by
  rw [changeDefinitions, nodeNames_eq, if_neg (Nat.not_lt.2 hsize)]
  exact ⟨_, rfl⟩

/-- The flag says what became of the blocks. -/
theorem keepsWorld_or_dropsWorld
    (h : ∀ p, (t.blocks p).isSome = (t.mapSurvivedSession && (c.blocks p).isSome)) :
    (t.mapSurvivedSession = true → c.KeepsWorld t) ∧
      (t.mapSurvivedSession = false → t.DropsWorld) := by
  constructor
  · intro hkept
    refine ⟨hkept, fun p => ?_⟩
    rw [h p, hkept, Bool.true_and]
  · intro hdropped
    refine ⟨hdropped, fun p => ?_⟩
    have hp := h p
    rw [hdropped, Bool.false_and] at hp
    exact Option.isSome_eq_false_iff.1 hp |> Option.isNone_iff_eq_none.1

/-- A gap counts as a node that is there. -/
theorem decidesByNodes_iff (hworld : c.worldOfPreviousSession = true)
    (hold : c.nodedef = .read old) :
    c.DecidesByNodes old new ↔ (Definitions.read old).manager.names contentMax = [] ∧
      Definitions.GapsDoNotMatter (.read old) (.read new) := by
  have hbuilt := Definitions.built_read old
  have hparts := Definitions.length_kept_add_gone (.read old) (.read new)
  have hslots := Definitions.length_registered_add_gaps (.read old)
  have hsurvives := Definitions.survives_iff hbuilt (Definitions.built_read new)
  rw [← hbuilt.size_le_iff]
  unfold DecidesByNodes Definitions.MostKept Definitions.GapsDoNotMatter
  constructor
  · rintro ⟨t, ht, -, hdrops⟩
    rcases changeDefinitions_eq_some hworld ht with ⟨hsize, hflag, -⟩
    rw [hold] at hsize hflag
    refine ⟨hsize, ?_⟩
    by_contra hgaps
    have hsurvived := hsurvives.2 (by omega)
    have hdropped := (hdrops (by omega)).1
    rw [hflag, hsurvived] at hdropped
    cases hdropped
  · rintro ⟨hsize, hgaps⟩
    rw [← hold] at hsize
    rcases exists_changeDefinitions new hsize with ⟨t, ht⟩
    rcases changeDefinitions_eq_some hworld ht with ⟨-, hflag, hblocks⟩
    rcases keepsWorld_or_dropsWorld hblocks with ⟨hkeeps, hdrops⟩
    rw [hold] at hflag
    refine ⟨t, ht, fun hmost => hkeeps ?_, fun hfew => hdrops ?_⟩
    · rw [hflag]
      exact hsurvives.2 (by omega)
    · rw [hflag, Bool.eq_false_iff]
      intro hsurvived
      have hhalf := hsurvives.1 hsurvived
      omega

end

end Client

/-! ## Another game -/

def smallGame : List (UInt16 × Bytes) :=
  [(0, ascii "stone"), (1, ascii "dirt"), (2, ascii "sand"), (3, ascii "water")]

def otherGame : List (UInt16 × Bytes) :=
  [(0, ascii "brick"), (1, ascii "glass")]

def smallGameClient : Client where
  linkState := .rejoining
  worldOfPreviousSession := true
  nodedef := .read smallGame
  blocks := someBlocks

theorem smallGame_decidesByNodes_iff :
    smallGameClient.DecidesByNodes smallGame otherGame ↔
      (Definitions.read smallGame).manager.names contentMax = [] ∧
        Definitions.GapsDoNotMatter (.read smallGame) (.read otherGame) :=
  Client.decidesByNodes_iff rfl rfl

/-- Every node of the game is gone, and its world stays. -/
theorem otherGame_keepsWorld : ¬ smallGameClient.DecidesByNodes smallGame otherGame ∧
    ∃ t, smallGameClient.changeDefinitions otherGame = some t ∧ smallGameClient.KeepsWorld t := by
  have hsurvives : Client.survives (smallGameClient.nodedef.slots.map smallGameClient.nodedef.get)
      (.read otherGame) = true := by decide +kernel
  have hfew : ¬ Definitions.MostKept (.read smallGame) (.read otherGame) := by
    unfold Definitions.MostKept
    decide +kernel
  have hsize : smallGameClient.nodedef.size ≤ 65535 := by decide +kernel
  rcases Client.exists_changeDefinitions otherGame hsize with ⟨t, ht⟩
  rcases Client.changeDefinitions_eq_some rfl ht with ⟨-, hflag, hblocks⟩
  rw [hsurvives] at hflag
  refine ⟨?_, t, ht, (Client.keepsWorld_or_dropsWorld hblocks).1 hflag⟩
  rintro ⟨u, hu, -, hdrops⟩
  cases ht.symm.trans hu
  have hdropped := (hdrops hfew).1
  rw [hflag] at hdropped
  cases hdropped

end Rejoin
end AxisEngine
