import AxisEngine.Lib.Transition
import AxisEngine.Media.Protocol
import Mathlib.Data.List.Perm.Basic
import Mathlib.Logic.Function.Basic

/-!
# MediaHttpServer — the media bundle and who builds it

The part of `server/mediahttp.cpp` that packs the media into bundles.  `setMedia` replaces the table
of files; a connection that is asked for the bundle builds it first when it is stale.  The table is
copied under the lock, the files are read and packed without it, and the result is stored under the
lock again.

* `packFiles` — the bundle of a table;
* `System`, `Step` — the shared fields, the threads of the connections, and their critical sections;
* `bundle_fresh` — the bundle that is not stale is the one of the table.
-/

namespace AxisEngine
namespace Media

open Lib

/-- The hash of a file, in hexadecimal, and its path. -/
abbrev Table := List (Bytes × Bytes)

/-! ## Packing -/

/-- The variables of `buildBundles` that its loop works on. -/
structure Packing where
  raw : Bytes
  count : UInt32
  packed : List Bytes
  total : UInt32

/-- The header of a part, with the number of files left open. -/
def beginPart : Bytes :=
  writeU32 bundleSignature ++ writeU16 bundleVersion ++ [0, 0, 0, 0]

section

variable (readFile : Bytes → Option Bytes) (compressZstd : Bytes → Bytes)

def finishPart (p : Packing) : Packing :=
  if p.count = 0 then p
  else
    { raw := beginPart
      count := 0
      packed := p.packed ++ [compressZstd (putU32 p.raw 6 p.count)]
      total := p.total + p.count }

/-- One round of the loop.  A file that cannot be read is left out. -/
def packFile (p : Packing) (file : Bytes × Bytes) : Packing :=
  match readFile file.2 with
  | none => p
  | some data =>
    let len := writeU32 (UInt32.ofNat data.length)
    let p := { p with raw := p.raw ++ file.1 ++ len ++ data, count := p.count + 1 }
    if p.raw.length ≥ bundlePartSize then finishPart compressZstd p else p

/-- `packed` and `total` of `buildBundles`, for a table that is gone through in this order. -/
def packFiles (files : Table) : List Bytes × UInt32 :=
  let p := files.foldl (packFile readFile compressZstd)
    { raw := beginPart, count := 0, packed := [], total := 0 }
  let p := finishPart compressZstd p
  (p.packed, p.total)

/-- What may stand in `m_bundles` for a table, whose order is not fixed. -/
def IsBundle (files : Table) (bundles : List Bytes) : Prop :=
  ∃ order, order.Perm files ∧ bundles = (packFiles readFile compressZstd order).1

end

/-! ## The server -/

def nibble (c : UInt8) : Option UInt8 :=
  if 48 ≤ c ∧ c ≤ 57 then some (c - 48)
  else if 97 ≤ c ∧ c ≤ 102 then some (c - 97 + 10)
  else none

def hexDecodePairs : Bytes → Option Bytes
  | hi :: lo :: hex => do
      let hi ← nibble hi
      let lo ← nibble lo
      let out ← hexDecodePairs hex
      return (hi * 16 + lo) :: out
  | _ => some []

/-- `hexDecode`, which gives nothing for what is not hexadecimal. -/
def hexDecode (hex : Bytes) : Bytes :=
  if hex.length % 2 ≠ 0 then [] else (hexDecodePairs hex).getD []

/-- `m_index`: the hashes one behind the other. -/
def buildIndex (byHash : Table) : Bytes :=
  writeU32 hashSetSignature ++ writeU16 1 ++ byHash.flatMap fun file =>
    let raw := hexDecode file.1
    if raw.length = 20 then raw else []

/-- The fields behind `m_media_mutex`. -/
structure MediaHttpServer where
  byHash : Table
  index : Bytes
  bundles : List Bytes
  bundledFiles : UInt32
  bundleStale : Bool

namespace MediaHttpServer

def initial : MediaHttpServer :=
  { byHash := [], index := [], bundles := [], bundledFiles := 0, bundleStale := true }

variable (server : MediaHttpServer)

def setMedia (byHash : Table) : MediaHttpServer :=
  { server with byHash := byHash, index := buildIndex byHash, bundles := [], bundleStale := true }

/-- The end of `buildBundles`. -/
def publish (packed : List Bytes) (total : UInt32) : MediaHttpServer :=
  { server with bundles := packed, bundledFiles := total, bundleStale := false }

/-- What `bundleIndex` answers once the bundle is built. -/
def bundleIndex : Bytes :=
  writeU32 bundleSignature ++ writeU16 bundleVersion ++
    writeU32 (UInt32.ofNat server.bundles.length) ++ writeU32 server.bundledFiles

def bundlePart (number : Nat) : Bytes :=
  server.bundles.getD number []

/-! ## Threads -/

/-- Where the thread of a connection is. -/
inductive Phase
  | idle
  /-- In `buildBundles`, between the two critical sections, with the copy of the table. -/
  | building (snapshot : Table)
  /-- Behind `buildBundles`. -/
  | answering

structure System (ι : Type*) where
  server : MediaHttpServer
  phase : ι → Phase

inductive Action (ι : Type*)
  | setMedia (byHash : Table)
  | snapshot (thread : ι)
  | publish (thread : ι)
  | bundleIndex (thread : ι)
  | bundlePart (thread : ι) (number : Nat)

section

variable {ι : Type*} [DecidableEq ι]
variable (readFile : Bytes → Option Bytes) (compressZstd : Bytes → Bytes)

def System.setPhase (s : System ι) (thread : ι) (phase : Phase) : System ι :=
  { s with phase := Function.update s.phase thread phase }

def System.initial : System ι :=
  { server := .initial, phase := fun _ => .idle }

/-- One critical section. -/
inductive Step : System ι → Action ι → System ι → Prop
  | setMedia (s : System ι) (byHash : Table) :
      Step s (.setMedia byHash) { s with server := s.server.setMedia byHash }
  /-- `buildBundles` returns at once when the bundle is not stale. -/
  | fresh (s : System ι) (thread : ι) : s.phase thread = .idle → s.server.bundleStale = false →
      Step s (.snapshot thread) (s.setPhase thread .answering)
  /-- The copy of the table need not have its order. -/
  | snapshot (s : System ι) (thread : ι) (snapshot : Table) : s.phase thread = .idle →
      s.server.bundleStale = true → snapshot.Perm s.server.byHash →
      Step s (.snapshot thread) (s.setPhase thread (.building snapshot))
  | publish (s : System ι) (thread : ι) (snapshot : Table) : s.phase thread = .building snapshot →
      Step s (.publish thread) (System.setPhase { s with
        server := s.server.publish (packFiles readFile compressZstd snapshot).1
          (packFiles readFile compressZstd snapshot).2 } thread .answering)
  | bundleIndex (s : System ι) (thread : ι) : s.phase thread = .answering →
      Step s (.bundleIndex thread) (s.setPhase thread .idle)
  | bundlePart (s : System ι) (thread : ι) (number : Nat) : s.phase thread = .answering →
      Step s (.bundlePart thread number) (s.setPhase thread .idle)

/-- A thread that stores a bundle has packed the table that is there now. -/
def UpToDate (s : System ι) : Action ι → Prop
  | .publish thread => ∀ snapshot, s.phase thread = .building snapshot →
      snapshot.Perm s.server.byHash
  | _ => True

def Fresh (s : System ι) : Prop :=
  s.server.bundleStale = false → IsBundle readFile compressZstd s.server.byHash s.server.bundles

variable {readFile compressZstd} {s t : System ι} {a : Action ι}

theorem Step.fresh_of_upToDate (hs : Fresh readFile compressZstd s)
    (hguard : UpToDate s a) (hstep : Step readFile compressZstd s a t) :
    Fresh readFile compressZstd t := by
  cases hstep with
  | setMedia byHash =>
    intro hstale
    cases hstale
  | publish thread snapshot hphase =>
    intro _
    exact ⟨snapshot, hguard snapshot hphase, rfl⟩
  | fresh | snapshot | bundleIndex | bundlePart => exact hs

/-- As long as every bundle that is stored is the one of the table that is there, the bundle that is
not stale is the one of the table. -/
theorem bundle_fresh (readFile : Bytes → Option Bytes) (compressZstd : Bytes → Bytes)
    (as : List (Action ι)) (t : System ι)
    (h : Run.Guarded UpToDate (Step readFile compressZstd) .initial as t) :
    Fresh readFile compressZstd t := by
  have hinitial : Fresh readFile compressZstd (System.initial : System ι) := by
    intro hstale
    cases hstale
  exact Run.guarded_invariant (fun s a t => Step.fresh_of_upToDate) h hinitial

end

/-! ## A table that changes while it is packed -/

/-- A table of one file; below its path is its content. -/
def oneFile (c : UInt8) : Table :=
  [(List.replicate 40 c, [c])]

/-- Two requests and a table that is replaced while the first one is packing. -/
def overtaken : System Nat :=
  { server := { byHash := oneFile 98, index := buildIndex (oneFile 98),
                bundles := (packFiles some id (oneFile 97)).1, bundledFiles := 1,
                bundleStale := false }
    phase := Function.update (Function.update (fun _ => .idle) 0 (.building (oneFile 97))) 0
      .answering }

theorem bundle_fresh_one : Fresh some id
    ({ server := { byHash := oneFile 97, index := buildIndex (oneFile 97),
                   bundles := (packFiles some id (oneFile 97)).1, bundledFiles := 1,
                   bundleStale := false }
       phase := Function.update (Function.update (fun _ => .idle) 0 (.building (oneFile 97))) 0
        .answering } : System Nat) := by
  refine bundle_fresh some id [.setMedia (oneFile 97), .snapshot 0, .publish 0] _ ?_
  refine .cons ⟨trivial, .setMedia _ _⟩ (.cons ⟨trivial, .snapshot _ _ (oneFile 97) rfl rfl
    (List.Perm.refl _)⟩ (.cons ⟨?_, .publish _ _ (oneFile 97) rfl⟩ (.nil _)))
  rintro snapshot hphase
  cases hphase
  exact List.Perm.refl _

/-- `setMedia` between the two critical sections of `buildBundles`: the old bundle is taken for the
new one. -/
theorem overtaken_not_fresh :
    Run (Step some id) System.initial
      [.setMedia (oneFile 97), .snapshot 0, .setMedia (oneFile 98), .publish 0] overtaken ∧
    ¬ Fresh some id overtaken := by
  refine ⟨.cons (.setMedia _ _) (.cons (.snapshot _ _ (oneFile 97) rfl rfl (List.Perm.refl _))
    (.cons (.setMedia _ _) (.cons (.publish _ _ (oneFile 97) rfl) (.nil _)))), fun h => ?_⟩
  rcases h rfl with ⟨order, hperm, hbundles⟩
  have horder : order = oneFile 98 := List.perm_singleton.1 hperm
  have hdiffers : (packFiles some id (oneFile 97)).1 ≠ (packFiles some id (oneFile 98)).1 := by
    decide
  rw [horder] at hbundles
  exact hdiffers hbundles

end MediaHttpServer

end Media
end AxisEngine
