import AxisEngine.Map.MapNode
import AxisEngine.Map.NodeDefManager
import AxisEngine.Util.StringFields
import Mathlib.Data.Finset.Image

/-!
# BlockNodeIds — the contents of a block by name

On the disk the contents of a block are numbered from 0 on, with a table of their names.  Writing a
block gives each content its number; reading it looks each name up in the registered types, and a name
that is not there becomes a new type.  Both directions keep an `IdIdMapping` of what was already
done, in which `0xFFFF` stands for nothing.

* `getBlockNodeIdMapping`, `correctBlockNodeIds` — the two loops;
* `getBlockNodeIdMapping_spec` — each number has the name of the content it replaces;
* `correctBlockNodeIds_spec` — each content has the name of the number it replaces.
-/

namespace AxisEngine
namespace Map

open Lib Util

abbrev IdIdMapping := UInt16 → UInt16

def IdIdMapping.cleared : IdIdMapping := fun _ => 0xffff

/-- The loop of `getBlockNodeIdMapping`, with `id_counter`. -/
def renumber (nodedef : NodeDefManager) :
    List MapNode → IdIdMapping → UInt16 → NameIdMapping →
      Except String (NameIdMapping × List MapNode)
  | [], _, _, nimap => return (nimap, [])
  | n :: nodes, mapping, counter, nimap =>
    let found := mapping n.getContent
    if found ≠ 0xffff then do
      let rest ← renumber nodedef nodes mapping counter nimap
      return (rest.1, n.setContent found :: rest.2)
    else do
      let nimap ← nimap.set counter (nodedef.get n.getContent)
      let rest ← renumber nodedef nodes (Function.update mapping n.getContent counter)
        (counter + 1) nimap
      return (rest.1, n.setContent counter :: rest.2)

def getBlockNodeIdMapping (nodedef : NodeDefManager) (nodes : List MapNode) :
    Except String (NameIdMapping × List MapNode) :=
  renumber nodedef nodes .cleared 0 {}

/-- The registered number of a name; a name that is unknown gets one. -/
def globalId (nodedef : NodeDefManager) (name : Bytes) :
    Except String (UInt16 × NodeDefManager) :=
  match nodedef.getId name with
  | some id => return (id, nodedef)
  | none =>
    let new := nodedef.allocateDummy name
    if new.1 = contentIgnore then
      throw ("MapBlock::correctBlockNodeIds(): Could not allocate global id for node name \"" ++
        textOf name ++ "\"")
    else return new

/-- The loop of `correctBlockNodeIds`. -/
def correctIds (nimap : NameIdMapping) :
    List MapNode → IdIdMapping → NodeDefManager → Except String (NodeDefManager × List MapNode)
  | [], _, nodedef => return (nodedef, [])
  | n :: nodes, cache, nodedef =>
    let found := cache n.getContent
    if found ≠ 0xffff then do
      let rest ← correctIds nimap nodes cache nodedef
      return (rest.1, n.setContent found :: rest.2)
    else
      match nimap.getName n.getContent with
      | none =>
        throw ("MapBlock::correctBlockNodeIds(): Block contains id " ++
          toString n.getContent.toNat ++ " with no name mapping")
      | some name => do
          let new ← globalId nodedef name
          let rest ← correctIds nimap nodes (Function.update cache n.getContent new.1) new.2
          return (rest.1, n.setContent new.1 :: rest.2)

def correctBlockNodeIds (nimap : NameIdMapping) (nodes : List MapNode)
    (nodedef : NodeDefManager) : Except String (NodeDefManager × List MapNode) :=
  correctIds nimap nodes .cleared nodedef

section

variable {nodedef nodedef' : NodeDefManager} {nodes nodes' : List MapNode}
variable {mapping cache : IdIdMapping} {counter id : UInt16} {nimap nimap' : NameIdMapping}
variable {name : Bytes} {names : Finset Bytes}

/-! ## Writing -/

theorem getName_insert {i : UInt16} : (nimap.insert id name).getName i =
    if i = id then some name else nimap.getName i := by
  change (nimap.idToName.insert id name).lookup i = _
  split
  · rename_i heq
    rw [heq, Finmap.lookup_insert]
  · rename_i hne
    exact Finmap.lookup_insert_of_ne _ hne

/-- What was done so far: the numbers below `counter` are taken, and each has its name. -/
structure Numbered (nodedef : NodeDefManager) (mapping : IdIdMapping) (counter : UInt16)
    (nimap : NameIdMapping) : Prop where
  done : ∀ c, mapping c ≠ 0xffff → nimap.getName (mapping c) = some (nodedef.get c)
  below : ∀ i name, nimap.getName i = some name → i.toNat < counter.toNat ∧ name ≠ []

theorem Numbered.cleared (nodedef : NodeDefManager) : Numbered nodedef .cleared 0 {} where
  done c hc := absurd rfl hc
  below i name h := by cases h

theorem Numbered.next (h : Numbered nodedef mapping counter nimap) {c : UInt16}
    (hnext : counter.toNat < 65535) (hname : nodedef.get c ≠ []) :
    Numbered nodedef (Function.update mapping c counter) (counter + 1)
      (nimap.insert counter (nodedef.get c)) := by
  have hsucc : (counter + 1).toNat = counter.toNat + 1 := by
    rw [UInt16.toNat_add]
    exact Nat.mod_eq_of_lt (by
      have hone : (1 : UInt16).toNat = 1 := rfl
      omega)
  refine ⟨fun d hd => ?_, fun i name hi => ?_⟩
  · rw [Function.update_apply] at hd ⊢
    split at hd
    · rename_i heq
      rw [if_pos heq, getName_insert, if_pos rfl, heq]
    · rename_i hne
      have hold := h.done d hd
      rw [if_neg hne, getName_insert, if_neg, hold]
      intro heq
      rw [heq] at hold
      exact absurd (h.below counter _ hold).1 (lt_irrefl _)
  · rw [getName_insert] at hi
    rw [hsucc]
    split at hi
    · rename_i heq
      cases hi
      rw [heq]
      exact ⟨Nat.lt_succ_self _, hname⟩
    · rcases h.below i name hi with ⟨hlt, hne⟩
      exact ⟨Nat.lt_succ_of_lt hlt, hne⟩

/-- The node that stands for `n`: its number has the name of the content of `n`. -/
def Stands (nodedef : NodeDefManager) (nimap : NameIdMapping) (n n' : MapNode) : Prop :=
  nimap.getName n'.param0 = some (nodedef.get n.param0) ∧ n'.param1 = n.param1 ∧
    n'.param2 = n.param2

/-- What the loop gives: names that were there stay, the others are names of contents. -/
structure Renumbered (nodedef : NodeDefManager) (nodes : List MapNode) (counter : UInt16)
    (nimap nimap' : NameIdMapping) (nodes' : List MapNode) : Prop where
  stands : List.Forall₂ (Stands nodedef nimap') nodes nodes'
  keeps : ∀ i name, nimap.getName i = some name → nimap'.getName i = some name
  bound : ∀ i name, nimap'.getName i = some name → i.toNat < counter.toNat + nodes.length
  names : ∀ i name, nimap'.getName i = some name →
    nimap.getName i = some name ∨ ∃ n ∈ nodes, name = nodedef.get n.param0

theorem renumber_spec (h : Numbered nodedef mapping counter nimap)
    (hcounter : counter.toNat + nodes.length ≤ 65535)
    (hnames : ∀ n ∈ nodes, nodedef.get n.param0 ≠ []) :
    ∃ nimap' nodes', renumber nodedef nodes mapping counter nimap = .ok (nimap', nodes') ∧
      Renumbered nodedef nodes counter nimap nimap' nodes' := by
  induction nodes generalizing mapping counter nimap with
  | nil =>
    refine ⟨nimap, [], rfl, .nil, fun _ _ hi => hi, fun i name hi => (h.below i name hi).1,
      fun _ _ hi => .inl hi⟩
  | cons n nodes ih =>
    rw [List.length_cons] at hcounter
    rw [List.forall_mem_cons] at hnames
    rw [renumber]
    split
    · -- the content has a number already
      rename_i hfound
      rcases ih h (by omega) hnames.2 with ⟨nimap', nodes', hrest, hspec⟩
      refine ⟨nimap', n.setContent (mapping n.getContent) :: nodes', ?_, ?_⟩
      · rw [hrest]
        rfl
      · refine ⟨.cons ⟨?_, rfl, rfl⟩ hspec.stands, hspec.keeps, fun i name hi => ?_,
          fun i name hi => ?_⟩
        · exact hspec.keeps _ _ (h.done _ hfound)
        · have hlt := hspec.bound i name hi
          rw [List.length_cons]
          omega
        · rcases hspec.names i name hi with hold | ⟨n', hn', hname⟩
          · exact .inl hold
          · exact .inr ⟨n', List.mem_cons_of_mem _ hn', hname⟩
    · -- it gets the next one
      have hsucc : (counter + 1).toNat = counter.toNat + 1 := by
        rw [UInt16.toNat_add]
        exact Nat.mod_eq_of_lt (by
          have hone : (1 : UInt16).toNat = 1 := rfl
          omega)
      have hset : nimap.set counter (nodedef.get n.getContent) =
          .ok (nimap.insert counter (nodedef.get n.getContent)) := if_neg hnames.1
      rcases ih (h.next (by omega) hnames.1) (by omega) hnames.2 with
        ⟨nimap', nodes', hrest, hspec⟩
      refine ⟨nimap', n.setContent counter :: nodes', ?_, ?_⟩
      · rw [hset]
        change (renumber nodedef nodes (Function.update mapping n.param0 counter)
          (counter + 1) (nimap.insert counter (nodedef.get n.param0)) >>= _) = _
        rw [hrest]
        rfl
      · refine ⟨.cons ⟨?_, rfl, rfl⟩ hspec.stands, fun i name hi => ?_, fun i name hi => ?_,
          fun i name hi => ?_⟩
        · refine hspec.keeps _ _ ?_
          rw [getName_insert]
          exact if_pos rfl
        · refine hspec.keeps _ _ ?_
          rw [getName_insert, if_neg, hi]
          rintro rfl
          exact absurd (h.below _ _ hi).1 (lt_irrefl _)
        · have hlt := hspec.bound i name hi
          rw [List.length_cons]
          omega
        · rcases hspec.names i name hi with hold | ⟨n', hn', hname⟩
          · rw [getName_insert] at hold
            split at hold
            · cases hold
              exact .inr ⟨n, List.mem_cons_self, rfl⟩
            · exact .inl hold
          · exact .inr ⟨n', List.mem_cons_of_mem _ hn', hname⟩

theorem getBlockNodeIdMapping_spec (hlength : nodes.length ≤ 4096)
    (hnames : ∀ n ∈ nodes, nodedef.get n.param0 ≠ []) :
    ∃ nimap' nodes', getBlockNodeIdMapping nodedef nodes = .ok (nimap', nodes') ∧
      Renumbered nodedef nodes 0 {} nimap' nodes' := by
  refine renumber_spec (Numbered.cleared nodedef) ?_ hnames
  have hzero : (0 : UInt16).toNat = 0 := rfl
  omega

/-! ## Reading -/

/-- What the registered types must be like so that every name of `names` gets its number. -/
structure Readable (nodedef : NodeDefManager) (names : Finset Bytes) : Prop where
  valid : nodedef.Valid
  ne_nil : ∀ name ∈ names, name ≠ []
  noAlias : ∀ name ∈ names, nodedef.NoAlias name
  room : (names.filter nodedef.Lacks).card ≤ nodedef.free.card

/-- A name gets a number, and what is registered stays. -/
theorem globalId_spec (h : Readable nodedef names) (hname : name ∈ names) :
    ∃ id nodedef', globalId nodedef name = .ok (id, nodedef') ∧ nodedef'.names id = name ∧
      Readable nodedef' names ∧ nodedef.Extends nodedef' := by
  rw [globalId]
  cases hid : nodedef.getId name with
  | some id => exact ⟨id, nodedef, rfl, h.noAlias name hname id hid, h, .refl _⟩
  | none =>
    cases hknown : nodedef.nameIdMapping.getId name with
    | some id =>
      rcases NodeDefManager.allocateDummy_known h.valid hknown with ⟨hnew, hsame⟩
      have hne : id ≠ contentIgnore := by
        rintro rfl
        have hignore := h.valid.getId_ignore
        rw [hsame, hid] at hignore
        cases hignore
      refine ⟨id, nodedef, ?_, hsame, h, .refl _⟩
      dsimp only
      rw [hnew]
      exact if_neg hne
    | none =>
      have hmem : name ∈ names.filter nodedef.Lacks := Finset.mem_filter.2 ⟨hname, hknown⟩
      have hfree : nodedef.free.Nonempty := by
        rw [← Finset.card_pos]
        exact (Finset.card_pos.2 ⟨name, hmem⟩).trans_le h.room
      have hnil := h.ne_nil name hname
      rcases NodeDefManager.allocateDummy_lacks h.valid hknown hfree with
        ⟨id, hnew, hne, hempty, hle, hbefore⟩
      refine ⟨id, nodedef.withNew id name, ?_, ?_, ⟨?_, h.ne_nil, ?_, ?_⟩, ?_⟩
      · dsimp only
        rw [hnew]
        exact if_neg hne
      · rw [NodeDefManager.names_withNew]
        exact if_pos rfl
      · exact h.valid.withNew hnil hknown hempty
      · exact fun n hn => (h.noAlias n hn).withNew (h.ne_nil n hn) hempty hid
      · -- one name less is lacking, and one number less is free
        have hlacks : names.filter (nodedef.withNew id name).Lacks =
            (names.filter nodedef.Lacks).erase name := by
          ext n
          rw [Finset.mem_filter, NodeDefManager.lacks_withNew, Finset.mem_erase, Finset.mem_filter]
          exact and_left_comm
        have hidmem : id.toNat ∈ nodedef.free := by
          refine Finset.mem_filter.2 ⟨Finset.mem_Ico.2 ⟨hle, id.toNat_lt⟩, ?_⟩
          rw [UInt16.ofNat_toNat]
          exact hempty
        have hroom := h.room
        rw [hlacks, NodeDefManager.free_withNew hnil hempty hle hbefore,
          Finset.card_erase_of_mem hmem, Finset.card_erase_of_mem hidmem]
        omega
      · exact NodeDefManager.extends_withNew hempty

/-- The node that replaces `n`: the name of its content is the name of the number in `n`. -/
def Replaces (nodedef : NodeDefManager) (nimap : NameIdMapping) (n n' : MapNode) : Prop :=
  nimap.getName n.param0 = some (nodedef.names n'.param0) ∧ n'.param1 = n.param1 ∧
    n'.param2 = n.param2

theorem Replaces.extend {n n' : MapNode} (h : Replaces nodedef nimap n n')
    (hnil : ∀ i name, nimap.getName i = some name → name ≠ [])
    (hextends : nodedef.Extends nodedef') : Replaces nodedef' nimap n n' := by
  refine ⟨?_, h.2⟩
  rw [hextends _ (hnil _ _ h.1)]
  exact h.1

/-- What is cached is right. -/
def Cached (nodedef : NodeDefManager) (nimap : NameIdMapping) (cache : IdIdMapping) : Prop :=
  ∀ l, cache l ≠ 0xffff → nimap.getName l = some (nodedef.names (cache l))

section

variable (hnimap : ∀ i name, nimap.getName i = some name → name ∈ names) (h : Readable nodedef names)

include hnimap h

theorem correctIds_spec (hcache : Cached nodedef nimap cache)
    (hnodes : ∀ n ∈ nodes, ∃ name, nimap.getName n.param0 = some name) :
    ∃ nodedef' nodes', correctIds nimap nodes cache nodedef = .ok (nodedef', nodes') ∧
      nodedef'.Valid ∧ nodedef.Extends nodedef' ∧
      List.Forall₂ (Replaces nodedef' nimap) nodes nodes' := by
  have hnil : ∀ i name, nimap.getName i = some name → name ≠ [] := fun i name hi =>
    h.ne_nil name (hnimap i name hi)
  induction nodes generalizing cache nodedef with
  | nil => exact ⟨nodedef, [], rfl, h.valid, .refl _, .nil⟩
  | cons n nodes ih =>
    rw [List.forall_mem_cons] at hnodes
    rw [correctIds]
    split
    · rename_i hfound
      rcases ih h hcache hnodes.2 with ⟨nodedef', nodes', hrest, hvalid, hextends, hspec⟩
      refine ⟨nodedef', n.setContent (cache n.getContent) :: nodes', ?_, hvalid, hextends, ?_⟩
      · rw [hrest]
        rfl
      · have hreplaces : Replaces nodedef nimap n (n.setContent (cache n.getContent)) :=
          ⟨hcache _ hfound, rfl, rfl⟩
        exact .cons (hreplaces.extend hnil hextends) hspec
    · rcases hnodes.1 with ⟨name, hname⟩
      have hlookup : nimap.getName n.getContent = some name := hname
      rcases globalId_spec h (hnimap _ _ hname) with ⟨id, nodedef₁, hid, hsame, h₁, hextends₁⟩
      have hcache₁ : Cached nodedef₁ nimap (Function.update cache n.getContent id) := by
        intro l hl
        rw [Function.update_apply] at hl ⊢
        split at hl
        · rename_i heq
          rw [if_pos heq, heq, hlookup, hsame]
        · rename_i hne
          have hold := hcache l hl
          rw [if_neg hne, hextends₁ _ (hnil _ _ hold)]
          exact hold
      rcases ih h₁ hcache₁ hnodes.2 with ⟨nodedef', nodes', hrest, hvalid, hextends, hspec⟩
      refine ⟨nodedef', n.setContent id :: nodes', ?_, hvalid, hextends₁.trans hextends, ?_⟩
      · rw [hlookup]
        change (globalId nodedef name >>= _) = _
        rw [hid]
        change (correctIds nimap nodes (Function.update cache n.getContent id) nodedef₁ >>= _) = _
        rw [hrest]
        rfl
      · have hreplaces : Replaces nodedef₁ nimap n (n.setContent id) := by
          refine ⟨?_, rfl, rfl⟩
          rw [MapNode.setContent, hsame]
          exact hname
        exact .cons (hreplaces.extend hnil hextends) hspec

theorem correctBlockNodeIds_spec (hnodes : ∀ n ∈ nodes, ∃ name, nimap.getName n.param0 = some name) :
    ∃ nodedef' nodes', correctBlockNodeIds nimap nodes nodedef = .ok (nodedef', nodes') ∧
      nodedef'.Valid ∧ nodedef.Extends nodedef' ∧
      List.Forall₂ (Replaces nodedef' nimap) nodes nodes' :=
  correctIds_spec hnimap h (fun _ hl => absurd rfl hl) hnodes

end

theorem length_correctIds (h : correctIds nimap nodes cache nodedef = .ok (nodedef', nodes')) :
    nodes'.length = nodes.length := by
  induction nodes generalizing cache nodedef nodes' with
  | nil =>
    cases h
    rfl
  | cons n nodes ih =>
    rw [correctIds] at h
    split at h
    · cases hrest : correctIds nimap nodes cache nodedef with
      | error e =>
        rw [hrest] at h
        cases h
      | ok rest =>
        rw [hrest] at h
        cases h
        exact congrArg (· + 1) (ih hrest)
    · cases hname : nimap.getName n.getContent with
      | none =>
        rw [hname] at h
        cases h
      | some name =>
        rw [hname] at h
        dsimp only at h
        cases hid : globalId nodedef name with
        | error e =>
          rw [hid] at h
          cases h
        | ok new =>
          rw [hid] at h
          change (correctIds nimap nodes (Function.update cache n.getContent new.1) new.2 >>=
            _) = _ at h
          cases hrest : correctIds nimap nodes (Function.update cache n.getContent new.1)
              new.2 with
          | error e =>
            rw [hrest] at h
            cases h
          | ok rest =>
            rw [hrest] at h
            cases h
            exact congrArg (· + 1) (ih hrest)

end

end Map
end AxisEngine
