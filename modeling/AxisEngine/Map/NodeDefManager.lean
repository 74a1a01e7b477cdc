import AxisEngine.Util.V3s16
import Mathlib.Data.Finmap
import Mathlib.Data.Finset.Card
import Mathlib.Order.Interval.Finset.Nat

/-!
# NodeDefManager — the numbers and names of node types

`nodedef.cpp` numbers the registered node types, and `nameidmapping.h` keeps both directions.  A name
that a stored block uses and that is not registered gets the next free number.

* `NameIdMapping` — numbers and names;
* `NodeDefManager` — `get`, `getId`, `allocateDummy`;
* `Valid` — every registered name has its number;
* `allocateDummy_spec` — what an allocation does.
-/

namespace AxisEngine
namespace Map

open Lib

def contentUnknown : UInt16 := 125
def contentAir : UInt16 := 126
def contentIgnore : UInt16 := 127

/-- `CONTENT_MAX`. -/
def contentMax : UInt16 := 0xffff

structure NameIdMapping where
  idToName : Finmap fun _ : UInt16 => Bytes := ∅
  nameToId : Finmap fun _ : Bytes => UInt16 := ∅

namespace NameIdMapping

variable (m : NameIdMapping)

def insert (id : UInt16) (name : Bytes) : NameIdMapping where
  idToName := m.idToName.insert id name
  nameToId := m.nameToId.insert name id

/-- The name must not be empty. -/
def set (id : UInt16) (name : Bytes) : Except String NameIdMapping :=
  if name = [] then throw "!name.empty()" else return m.insert id name

def getName (id : UInt16) : Option Bytes := m.idToName.lookup id

def getId (name : Bytes) : Option UInt16 := m.nameToId.lookup name

/-- The size as a `u16`. -/
def size : UInt16 := UInt16.ofNat m.idToName.keys.card

theorem getId_insert {m : NameIdMapping} {id : UInt16} {name n : Bytes} :
    (m.insert id name).getId n = if n = name then some id else m.getId n := by
  change (m.nameToId.insert name id).lookup n = _
  split
  · rename_i heq
    rw [heq, Finmap.lookup_insert]
  · rename_i hne
    exact Finmap.lookup_insert_of_ne _ hne

end NameIdMapping

/-- `names` is the name of each entry of `m_content_features`, which is empty for a number that is not
assigned. -/
structure NodeDefManager where
  names : UInt16 → Bytes
  nameIdMapping : NameIdMapping
  nameIdMappingWithAliases : Finmap fun _ : Bytes => UInt16
  nextId : UInt16

namespace NodeDefManager

variable (m : NodeDefManager)

/-- The name of `get(c)`; what is not registered is the unknown node. -/
def get (c : UInt16) : Bytes :=
  if m.names c = [] then m.names contentUnknown else m.names c

def getId (name : Bytes) : Option UInt16 :=
  m.nameIdMappingWithAliases.lookup name

/-- The aliases are emplaced: what is there stays. -/
def addNameIdMapping (i : UInt16) (name : Bytes) : NodeDefManager :=
  { m with
    nameIdMapping := m.nameIdMapping.insert i name
    nameIdMappingWithAliases :=
      if name ∈ m.nameIdMappingWithAliases then m.nameIdMappingWithAliases
      else m.nameIdMappingWithAliases.insert name i }

def setName (i : UInt16) (name : Bytes) : NodeDefManager :=
  { m with names := Function.update m.names i name }

/-- The loop of `allocateId`: the first number from `id` on that is not assigned. -/
def firstFree (names : UInt16 → Bytes) : Nat → UInt16 → Option UInt16
  | 0, _ => none
  | fuel + 1, id => if names id = [] then some id else firstFree names fuel (id + 1)

/-- `CONTENT_IGNORE` when there is no free number. -/
def allocateId : UInt16 × NodeDefManager :=
  match firstFree m.names (65536 - m.nextId.toNat) m.nextId with
  | none => (contentIgnore, m)
  | some id => (id, { m with nextId := if id < contentMax then id + 1 else contentMax })

/-- A definition that has only its name. -/
def set (name : Bytes) : UInt16 × NodeDefManager :=
  match m.nameIdMapping.getId name with
  | some id => (id, m.setName id name)
  | none =>
    let (id, m) := m.allocateId
    if id = contentIgnore then (contentIgnore, m)
    else (id, (m.addNameIdMapping id name).setName id name)

def allocateDummy (name : Bytes) : UInt16 × NodeDefManager :=
  m.set name

def blank : NodeDefManager where
  names _ := []
  nameIdMapping := {}
  nameIdMappingWithAliases := ∅
  nextId := 0

/-- `clear`: only the three types of the engine are registered. -/
def builtin : NodeDefManager :=
  let m := (blank.setName contentUnknown (ascii "unknown")).addNameIdMapping contentUnknown
    (ascii "unknown")
  let m := (m.setName contentAir (ascii "air")).addNameIdMapping contentAir (ascii "air")
  (m.setName contentIgnore (ascii "ignore")).addNameIdMapping contentIgnore (ascii "ignore")

/-! ## What is registered -/

/-- Every name that a number has leads back to the number. -/
structure Valid (m : NodeDefManager) : Prop where
  getId_iff : ∀ n i, m.nameIdMapping.getId n = some i ↔ n ≠ [] ∧ m.names i = n
  air : m.names contentAir = ascii "air"
  ignore : m.names contentIgnore ≠ []
  getId_ignore : m.getId (m.names contentIgnore) = some contentIgnore

/-- The name is not an alias of another one. -/
def NoAlias (name : Bytes) : Prop :=
  ∀ i, m.getId name = some i → m.names i = name

/-- What is assigned in `m` is assigned alike in `m'`. -/
def Extends (m m' : NodeDefManager) : Prop :=
  ∀ i, m.names i ≠ [] → m'.names i = m.names i

/-- The numbers that `allocateId` can still give. -/
def free : Finset Nat :=
  (Finset.Ico m.nextId.toNat 65536).filter fun i => m.names (UInt16.ofNat i) = []

/-- No number has the name. -/
def Lacks (name : Bytes) : Prop :=
  m.nameIdMapping.getId name = none

instance (m : NodeDefManager) : DecidablePred m.Lacks := fun _ => inferInstanceAs (Decidable (_ = _))

section

variable {m m' m'' : NodeDefManager} {name n : Bytes} {id i : UInt16} {fuel : Nat}

theorem Extends.refl (m : NodeDefManager) : m.Extends m := fun _ _ => rfl

theorem Extends.trans (h : m.Extends m') (h' : m'.Extends m'') : m.Extends m'' := by
  intro i hi
  have hsame := h i hi
  rw [h' i (by rw [hsame]; exact hi), hsame]

theorem Valid.names_injective (h : m.Valid) (hi : m.names id ≠ []) (heq : m.names id = m.names i) :
    id = i := by
  have hid := (h.getId_iff (m.names id) id).2 ⟨hi, rfl⟩
  have hother := (h.getId_iff (m.names id) i).2 ⟨hi, heq.symm⟩
  exact Option.some_injective _ (hid.symm.trans hother)

theorem Valid.names_ne (h : m.Valid) (hname : name ≠ []) (hlacks : m.Lacks name) :
    m.names i ≠ name := by
  intro heq
  have hid := (h.getId_iff name i).2 ⟨hname, heq⟩
  rw [hlacks] at hid
  cases hid

/-- What the loop finds is free, and everything before it is not. -/
theorem firstFree_spec {names : UInt16 → Bytes} (hfuel : id.toNat + fuel = 65536) :
    (∀ j, firstFree names fuel id = some j → names j = [] ∧ id.toNat ≤ j.toNat ∧
      ∀ k, id.toNat ≤ k → k < j.toNat → names (UInt16.ofNat k) ≠ []) ∧
      (firstFree names fuel id = none →
        ∀ k, id.toNat ≤ k → k < 65536 → names (UInt16.ofNat k) ≠ []) := by
  induction fuel generalizing id with
  | zero =>
    have hlt := id.toNat_lt
    omega
  | succ fuel ih =>
    rw [firstFree]
    split
    · rename_i hfree
      refine ⟨fun j hj => ?_, fun h => by cases h⟩
      cases hj
      exact ⟨hfree, le_rfl, fun k hle hlt => absurd hlt (Nat.not_lt.2 hle)⟩
    · rename_i hused
      have hself : ∀ k, id.toNat ≤ k → ¬ id.toNat + 1 ≤ k → names (UInt16.ofNat k) ≠ [] := by
        intro k hle hlt
        have hk : k = id.toNat := by omega
        rw [hk, UInt16.ofNat_toNat]
        exact hused
      cases fuel with
      | zero =>
        refine ⟨fun j hj => (by cases hj), fun _ k hle hlt => hself k hle (by omega)⟩
      | succ fuel =>
        have hnext : (id + 1).toNat = id.toNat + 1 := by
          rw [UInt16.toNat_add]
          exact Nat.mod_eq_of_lt (by
            have hone : (1 : UInt16).toNat = 1 := rfl
            omega)
        rcases @ih (id + 1) (by omega) with ⟨hsome, hnone⟩
        rw [hnext] at hsome hnone
        refine ⟨fun j hj => ?_, fun h k hle hlt => ?_⟩
        · rcases hsome j hj with ⟨hfree, hle, hbefore⟩
          refine ⟨hfree, by omega, fun k hk hlt => ?_⟩
          by_cases hnextk : id.toNat + 1 ≤ k
          · exact hbefore k hnextk hlt
          · exact hself k hk hnextk
        · by_cases hnextk : id.toNat + 1 ≤ k
          · exact hnone h k hnextk hlt
          · exact hself k hle hnextk

theorem toNat_sub_add (id : UInt16) : id.toNat + (65536 - id.toNat) = 65536 := by
  have hlt := id.toNat_lt
  omega

/-- A number is found as long as there is one. -/
theorem exists_firstFree (h : m.free.Nonempty) :
    ∃ id, firstFree m.names (65536 - m.nextId.toNat) m.nextId = some id := by
  cases hfind : firstFree m.names (65536 - m.nextId.toNat) m.nextId with
  | some id => exact ⟨id, rfl⟩
  | none =>
    rcases h with ⟨k, hk⟩
    rcases Finset.mem_filter.1 hk with ⟨hrange, hfree⟩
    rcases Finset.mem_Ico.1 hrange with ⟨hle, hlt⟩
    exact absurd hfree ((firstFree_spec (toNat_sub_add m.nextId)).2 hfind k hle hlt)

/-- The manager after a new name got the number `id`. -/
def withNew (m : NodeDefManager) (id : UInt16) (name : Bytes) : NodeDefManager :=
  ({ m with nextId := if id < contentMax then id + 1 else contentMax }.addNameIdMapping id
    name).setName id name

theorem allocateDummy_lacks (hvalid : m.Valid) (hlacks : m.Lacks name)
    (hfree : m.free.Nonempty) : ∃ id, m.allocateDummy name = (id, m.withNew id name) ∧
      id ≠ contentIgnore ∧ m.names id = [] ∧ m.nextId.toNat ≤ id.toNat ∧
      ∀ k, m.nextId.toNat ≤ k → k < id.toNat → m.names (UInt16.ofNat k) ≠ [] := by
  rcases exists_firstFree hfree with ⟨id, hid⟩
  rcases (firstFree_spec (toNat_sub_add m.nextId)).1 id hid with ⟨hnone, hle, hbefore⟩
  have hne : id ≠ contentIgnore := by
    rintro rfl
    exact hvalid.ignore hnone
  refine ⟨id, ?_, hne, hnone, hle, hbefore⟩
  rw [allocateDummy, set, hlacks, allocateId, hid]
  exact if_neg hne

theorem names_withNew : (m.withNew id name).names i = if i = id then name else m.names i := by
  rw [withNew, setName]
  exact Function.update_apply _ _ _ _

theorem getId_withNew : (m.withNew id name).nameIdMapping.getId n =
    if n = name then some id else m.nameIdMapping.getId n :=
  NameIdMapping.getId_insert

theorem lookup_withNew (hne : n ≠ name) : (m.withNew id name).getId n = m.getId n := by
  change Finmap.lookup n (if name ∈ m.nameIdMappingWithAliases then m.nameIdMappingWithAliases
    else m.nameIdMappingWithAliases.insert name id) = _
  split
  · rfl
  · exact Finmap.lookup_insert_of_ne _ hne

theorem lookup_withNew_self (hnone : m.getId name = none) :
    (m.withNew id name).getId name = some id := by
  have hnew : name ∉ m.nameIdMappingWithAliases := Finmap.lookup_eq_none.1 hnone
  change Finmap.lookup name (if name ∈ m.nameIdMappingWithAliases then m.nameIdMappingWithAliases
    else m.nameIdMappingWithAliases.insert name id) = _
  rw [if_neg hnew, Finmap.lookup_insert]

theorem Valid.withNew (h : m.Valid) (hname : name ≠ []) (hlacks : m.Lacks name)
    (hid : m.names id = []) : (m.withNew id name).Valid where
  getId_iff n i := by
    rw [getId_withNew, names_withNew]
    split
    · rename_i hn
      subst hn
      constructor
      · intro heq
        cases heq
        exact ⟨hname, if_pos rfl⟩
      · rintro ⟨-, heq⟩
        split at heq
        · rename_i hi
          rw [hi]
        · exact absurd heq (h.names_ne hname hlacks)
    · rename_i hn
      rw [h.getId_iff]
      refine and_congr_right fun hne => ?_
      split
      · rename_i hi
        subst hi
        rw [hid]
        exact ⟨fun heq => absurd heq.symm hne, fun heq => absurd heq.symm hn⟩
      · exact Iff.rfl
  air := by
    rw [names_withNew, if_neg, h.air]
    rintro rfl
    rw [h.air] at hid
    exact absurd hid (by decide)
  ignore := by
    rw [names_withNew, if_neg]
    · exact h.ignore
    · rintro rfl
      exact h.ignore hid
  getId_ignore := by
    have hne : contentIgnore ≠ id := by
      rintro rfl
      exact h.ignore hid
    rw [names_withNew, if_neg hne, lookup_withNew (h.names_ne hname hlacks)]
    exact h.getId_ignore

/-- No name becomes an alias. -/
theorem NoAlias.withNew (h : m.NoAlias n) (hn : n ≠ []) (hid : m.names id = [])
    (hnone : m.getId name = none) : (m.withNew id name).NoAlias n := by
  intro i hi
  rw [names_withNew]
  by_cases heq : n = name
  · subst heq
    rw [lookup_withNew_self hnone] at hi
    cases hi
    exact if_pos rfl
  · rw [lookup_withNew heq] at hi
    have hname := h i hi
    rw [if_neg, hname]
    rintro rfl
    exact hn (hname.symm.trans hid)

theorem lacks_withNew : (m.withNew id name).Lacks n ↔ n ≠ name ∧ m.Lacks n := by
  rw [Lacks, getId_withNew, Lacks]
  split
  · rename_i heq
    exact ⟨fun h => (by cases h), fun h => absurd heq h.1⟩
  · rename_i hne
    exact ⟨fun h => ⟨hne, h⟩, fun h => h.2⟩

theorem extends_withNew (hid : m.names id = []) : m.Extends (m.withNew id name) := by
  intro i hi
  rw [names_withNew, if_neg]
  rintro rfl
  exact hi hid

theorem free_withNew (hname : name ≠ []) (hid : m.names id = []) (hle : m.nextId.toNat ≤ id.toNat)
    (hbefore : ∀ k, m.nextId.toNat ≤ k → k < id.toNat → m.names (UInt16.ofNat k) ≠ []) :
    (m.withNew id name).free = m.free.erase id.toNat := by
  have hidlt := id.toNat_lt
  have hmax : contentMax.toNat = 65535 := rfl
  have hnext : (m.withNew id name).nextId.toNat = min (id.toNat + 1) 65535 := by
    change (if id < contentMax then id + 1 else contentMax).toNat = _
    split
    · rename_i hlt
      have hlt' := UInt16.lt_iff_toNat_lt.1 hlt
      rw [UInt16.toNat_add]
      have hone : (1 : UInt16).toNat = 1 := rfl
      omega
    · rename_i hge
      have hge' : ¬ id.toNat < contentMax.toNat := fun h => hge (UInt16.lt_iff_toNat_lt.2 h)
      omega
  ext k
  rw [free, Finset.mem_filter, Finset.mem_Ico, hnext, names_withNew, Finset.mem_erase, free,
    Finset.mem_filter, Finset.mem_Ico]
  have hsame : k < 65536 → (UInt16.ofNat k = id ↔ k = id.toNat) := by
    intro hk
    constructor
    · rintro rfl
      exact (UInt16.toNat_ofNat_of_lt' hk).symm
    · rintro rfl
      exact UInt16.ofNat_toNat
  constructor
  · rintro ⟨⟨hge, hlt⟩, hempty⟩
    have hne : ¬ UInt16.ofNat k = id := by
      intro heq
      rw [if_pos heq] at hempty
      exact hname hempty
    have hne' : k ≠ id.toNat := fun heq => hne ((hsame hlt).2 heq)
    rw [if_neg hne] at hempty
    exact ⟨hne', ⟨by omega, hlt⟩, hempty⟩
  · rintro ⟨hne, ⟨hge, hlt⟩, hempty⟩
    have hne' : ¬ UInt16.ofNat k = id := fun heq => hne ((hsame hlt).1 heq)
    have hafter : id.toNat < k := by
      by_contra hnot
      exact hbefore k hge (by omega) hempty
    refine ⟨⟨by omega, hlt⟩, ?_⟩
    rw [if_neg hne']
    exact hempty

/-- A name that a number has keeps it. -/
theorem allocateDummy_known (hvalid : m.Valid) (hid : m.nameIdMapping.getId name = some id) :
    m.allocateDummy name = (id, m) ∧ m.names id = name := by
  have hname := ((hvalid.getId_iff name id).1 hid).2
  refine ⟨?_, hname⟩
  rw [allocateDummy, set, hid]
  have hsame : Function.update m.names id name = m.names := by
    rw [← hname]
    exact Function.update_eq_self id m.names
  dsimp only
  rw [setName, hsame]

end

theorem getId_builtin {n : Bytes} : builtin.nameIdMapping.getId n =
    if n = ascii "ignore" then some contentIgnore else if n = ascii "air" then some contentAir
    else if n = ascii "unknown" then some contentUnknown else none := by
  change (((({} : NameIdMapping).insert contentUnknown (ascii "unknown")).insert contentAir
    (ascii "air")).insert contentIgnore (ascii "ignore")).getId n = _
  rw [NameIdMapping.getId_insert, NameIdMapping.getId_insert, NameIdMapping.getId_insert]
  rfl

theorem valid_builtin : builtin.Valid where
  getId_iff n i := by
    have hnames : builtin.names i = if i = contentIgnore then ascii "ignore" else
        if i = contentAir then ascii "air" else if i = contentUnknown then ascii "unknown" else [] := by
      change Function.update (Function.update (Function.update (fun _ => []) contentUnknown
        (ascii "unknown")) contentAir (ascii "air")) contentIgnore (ascii "ignore") i = _
      rw [Function.update_apply, Function.update_apply, Function.update_apply]
    rw [hnames, getId_builtin]
    constructor
    · intro h
      split at h
      · cases h
        subst n
        exact ⟨by decide, rfl⟩
      · split at h
        · cases h
          subst n
          exact ⟨by decide, rfl⟩
        · split at h
          · cases h
            subst n
            exact ⟨by decide, rfl⟩
          · cases h
    · rintro ⟨hne, rfl⟩
      by_cases hignore : i = contentIgnore
      · subst hignore
        rfl
      · rw [if_neg hignore] at hne ⊢
        by_cases hair : i = contentAir
        · subst hair
          rfl
        · rw [if_neg hair] at hne ⊢
          by_cases hunknown : i = contentUnknown
          · subst hunknown
            rfl
          · rw [if_neg hunknown] at hne
            exact absurd rfl hne
  air := rfl
  ignore := by decide
  getId_ignore := rfl

end NodeDefManager

end Map
end AxisEngine
