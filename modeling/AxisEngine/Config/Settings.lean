import AxisEngine.Lib.Trim
import Mathlib.Data.List.Infix
import Mathlib.Data.List.Perm.Basic

/-!
# Settings — named values and groups of them

A `Settings` object maps names to values and to groups, which are `Settings` objects themselves
(`settings.h`, `settings.cpp`).  The map is an `unordered_map`: a new name may change the order in
which the map is gone through in any way.

* `Settings` — the entries in the order in which the map is gone through;
* `Settings.put`, `Settings.erase`, `Settings.lookup` — the operations of the map;
* `Settings.set`, `Settings.setGroup`, `Settings.remove` — those of the object;
* `SettingsEntry.node`, `Settings.Same` — what lies at a path of names.
-/

namespace AxisEngine
namespace Config

open Lib

mutual

inductive SettingsEntry
  | value (value : Bytes)
  | group (group : Settings)
  deriving DecidableEq

/-- The entries, in the order in which the map is gone through. -/
inductive Settings
  | nil
  | cons (name : Bytes) (entry : SettingsEntry) (rest : Settings)
  deriving DecidableEq

end

/-- The order in which an `unordered_map` is gone through once a new name is in it. -/
structure HashOrder where
  arrange : List Bytes → Bytes → List Bytes
  perm : ∀ names name, name ∉ names → (arrange names name).Perm (name :: names)

namespace Settings

/-- One entry after the other, and the groups inside. -/
theorem treeInduct {P : Settings → Prop} (nil : P .nil)
    (value : ∀ name value rest, P rest → P (.cons name (.value value) rest))
    (group : ∀ name group rest, P group → P rest → P (.cons name (.group group) rest)) :
    ∀ s, P s
  | .nil => nil
  | .cons name (.value v) rest => value name v rest (treeInduct nil value group rest)
  | .cons name (.group g) rest =>
    group name g rest (treeInduct nil value group g) (treeInduct nil value group rest)

theorem listInduct {P : Settings → Prop} (nil : P .nil)
    (cons : ∀ name entry rest, P rest → P (.cons name entry rest)) : ∀ s, P s
  | .nil => nil
  | .cons name entry rest => cons name entry rest (listInduct nil cons rest)

/-! ## The map -/

def names : Settings → List Bytes
  | .nil => []
  | .cons name _ rest => name :: rest.names

def lookup : Settings → Bytes → Option SettingsEntry
  | .nil, _ => none
  | .cons name' entry rest, name => if name' = name then some entry else rest.lookup name

/-- The entry of a name that is there gets a new content. -/
def replace : Settings → Bytes → SettingsEntry → Settings
  | .nil, _, _ => .nil
  | .cons name' entry' rest, name, entry =>
    if name' = name then .cons name' entry rest else .cons name' entry' (rest.replace name entry)

/-- The entries of these names. -/
def select (s : Settings) : List Bytes → Settings
  | [] => .nil
  | name :: names =>
    match s.lookup name with
    | some entry => .cons name entry (s.select names)
    | none => s.select names

/-- `m_settings[name] = entry`. -/
def put (order : HashOrder) (s : Settings) (name : Bytes) (entry : SettingsEntry) : Settings :=
  if name ∈ s.names then s.replace name entry
  else (Settings.cons name entry s).select (order.arrange s.names name)

/-- `m_settings.erase`. -/
def erase : Settings → Bytes → Settings
  | .nil, _ => .nil
  | .cons name' entry rest, name =>
    if name' = name then rest else .cons name' entry (rest.erase name)

section

variable {order : HashOrder} {s t : Settings} {name name' : Bytes} {entry entry' : SettingsEntry}

@[simp] theorem names_nil : Settings.nil.names = [] := by rw [Settings.names]

@[simp] theorem names_cons : (cons name entry s).names = name :: s.names := by
  rw [Settings.names]

@[simp] theorem lookup_nil : lookup .nil name = none := by rw [lookup]

theorem lookup_cons : (cons name' entry s).lookup name =
    if name' = name then some entry else s.lookup name := by rw [lookup]

@[simp] theorem lookup_cons_self : (cons name entry s).lookup name = some entry := by
  rw [lookup, if_pos rfl]

theorem lookup_cons_of_ne (h : name' ≠ name) :
    (cons name' entry s).lookup name = s.lookup name := by
  rw [lookup, if_neg h]

theorem lookup_eq_none_iff : s.lookup name = none ↔ name ∉ s.names := by
  induction s using listInduct with
  | nil => simp
  | cons name' entry rest ih =>
    rw [lookup_cons, names_cons, List.mem_cons, not_or, ← ih]
    by_cases h : name' = name
    · simp [h]
    · simp [h, Ne.symm h]

theorem mem_names_of_lookup (h : s.lookup name = some entry) : name ∈ s.names := by
  by_contra hmem
  rw [lookup_eq_none_iff.2 hmem] at h
  cases h

theorem exists_lookup (h : name ∈ s.names) : ∃ entry, s.lookup name = some entry :=
  Option.ne_none_iff_exists'.1 fun hnone => lookup_eq_none_iff.1 hnone h

/-! ### Selecting -/

theorem lookup_select (names : List Bytes) (name : Bytes) :
    (s.select names).lookup name = if name ∈ names then s.lookup name else none := by
  induction names with
  | nil => simp [select]
  | cons name' names ih =>
    rw [select]
    cases hlookup : s.lookup name' with
    | none =>
      simp only [ih, List.mem_cons]
      by_cases h : name = name'
      · subst h
        simp [hlookup]
      · simp [h]
    | some entry =>
      simp only [lookup_cons, ih, List.mem_cons]
      by_cases h : name' = name
      · subst h
        simp [hlookup]
      · simp [h, Ne.symm h]

theorem names_select (names : List Bytes) :
    (s.select names).names = names.filter fun name => name ∈ s.names := by
  induction names with
  | nil => simp [select]
  | cons name names ih =>
    rw [select]
    cases hlookup : s.lookup name with
    | none =>
      have hmem := lookup_eq_none_iff.1 hlookup
      simp only [ih, List.filter_cons, decide_eq_true_eq, if_neg hmem]
    | some entry =>
      have hmem := mem_names_of_lookup hlookup
      simp only [names_cons, ih, List.filter_cons, decide_eq_true_eq, if_pos hmem]

/-! ### Replacing -/

@[simp] theorem names_replace : (s.replace name entry).names = s.names := by
  induction s using listInduct with
  | nil => simp [replace]
  | cons name' entry' rest ih =>
    rw [replace]
    split
    · simp
    · simp [ih]

theorem lookup_replace (h : name ∈ s.names) : (s.replace name entry).lookup name' =
    if name = name' then some entry else s.lookup name' := by
  induction s using listInduct with
  | nil => simp at h
  | cons name₁ entry₁ rest ih =>
    rw [replace]
    by_cases hname : name₁ = name
    · subst hname
      rw [if_pos rfl, lookup_cons, lookup_cons]
      split
      · rfl
      · rfl
    · rw [if_neg hname, lookup_cons, lookup_cons]
      rw [names_cons, List.mem_cons] at h
      rw [ih (h.resolve_left (Ne.symm hname))]
      by_cases h₁ : name₁ = name'
      · have hne : name ≠ name' := fun heq => hname (h₁.trans heq.symm)
        rw [if_pos h₁, if_neg hne, if_pos h₁]
      · rw [if_neg h₁, if_neg h₁]

/-! ### Putting -/

theorem lookup_put : (s.put order name entry).lookup name' =
    if name = name' then some entry else s.lookup name' := by
  rw [put]
  by_cases h : name ∈ s.names
  · rw [if_pos h, lookup_replace h]
  · rw [if_neg h, lookup_select, lookup_cons]
    by_cases hmem : name' ∈ order.arrange s.names name
    · rw [if_pos hmem]
    · rw [if_neg hmem]
      have hmem' := mt (order.perm s.names name h).mem_iff.2 hmem
      rw [List.mem_cons, not_or] at hmem'
      rw [if_neg (Ne.symm hmem'.1), lookup_eq_none_iff.2 hmem'.2]

@[simp] theorem lookup_put_self : (s.put order name entry).lookup name = some entry := by
  rw [lookup_put, if_pos rfl]

theorem lookup_put_of_ne (h : name ≠ name') :
    (s.put order name entry).lookup name' = s.lookup name' := by
  rw [lookup_put, if_neg h]

theorem names_put_of_mem (h : name ∈ s.names) : (s.put order name entry).names = s.names := by
  rw [put, if_pos h, names_replace]

theorem names_put_of_not_mem (h : name ∉ s.names) :
    (s.put order name entry).names = order.arrange s.names name := by
  have hperm := order.perm s.names name h
  rw [put, if_neg h, names_select]
  refine List.filter_eq_self.2 fun name' hname' => decide_eq_true ?_
  rw [names_cons]
  exact hperm.mem_iff.1 hname'

theorem mem_names_put : name' ∈ (s.put order name entry).names ↔ name' = name ∨ name' ∈ s.names := by
  by_cases h : name ∈ s.names
  · rw [names_put_of_mem h]
    constructor
    · exact .inr
    · rintro (rfl | hmem)
      · exact h
      · exact hmem
  · rw [names_put_of_not_mem h, (order.perm s.names name h).mem_iff, List.mem_cons]

theorem nodup_put (h : s.names.Nodup) : (s.put order name entry).names.Nodup := by
  by_cases hmem : name ∈ s.names
  · rwa [names_put_of_mem hmem]
  · rw [names_put_of_not_mem hmem, (order.perm s.names name hmem).nodup_iff]
    exact List.nodup_cons.2 ⟨hmem, h⟩

/-! ### Erasing -/

theorem names_erase : (s.erase name).names = s.names.erase name := by
  induction s using listInduct with
  | nil => simp [erase]
  | cons name' entry rest ih =>
    rw [erase, names_cons, List.erase_cons]
    by_cases h : name' = name
    · simp [h]
    · simp [h, ih]

theorem lookup_erase (hnodup : s.names.Nodup) : (s.erase name).lookup name' =
    if name = name' then none else s.lookup name' := by
  induction s using listInduct with
  | nil => simp [erase]
  | cons name₁ entry rest ih =>
    rw [names_cons, List.nodup_cons] at hnodup
    rw [erase]
    by_cases h : name₁ = name
    · subst h
      rw [if_pos rfl, lookup_cons]
      split
      · rename_i heq
        exact lookup_eq_none_iff.2 (heq ▸ hnodup.1)
      · rfl
    · rw [if_neg h, lookup_cons, lookup_cons, ih hnodup.2]
      by_cases h₁ : name₁ = name'
      · have hne : name ≠ name' := fun heq => h (h₁.trans heq.symm)
        rw [if_pos h₁, if_neg hne, if_pos h₁]
      · rw [if_neg h₁, if_neg h₁]

theorem lookup_erase_of_ne (h : name ≠ name') : (s.erase name).lookup name' = s.lookup name' := by
  induction s using listInduct with
  | nil => simp [erase]
  | cons name₁ entry rest ih =>
    rw [erase]
    by_cases heq : name₁ = name
    · rw [if_pos heq, lookup_cons_of_ne (heq ▸ h)]
    · rw [if_neg heq, lookup_cons, lookup_cons, ih]

theorem nodup_erase (h : s.names.Nodup) : (s.erase name).names.Nodup := by
  rw [names_erase]
  exact h.erase name

end

end Settings

/-! ## The object -/

def checkNameValid (name : Bytes) : Bool :=
  -- one of ="{}#, or white space
  name.all fun b => !(ascii "=\"\x7b\x7d#").contains b && !isSpace b

/-- The line that ends a value of several lines. -/
def quotes : Bytes :=
  ascii "\"\"\""

def checkValueValid (value : Bytes) : Bool :=
  !quotes.isPrefixOf value && !decide (10 :: quotes <:+: value)

namespace Settings

/-- `set`, and whether the name and the value are accepted. -/
def set (order : HashOrder) (s : Settings) (name value : Bytes) : Settings × Bool :=
  if checkNameValid name && checkValueValid value then (s.put order name (.value value), true)
  else (s, false)

/-- `setGroup`, and whether the name is accepted. -/
def setGroup (order : HashOrder) (s : Settings) (name : Bytes) (group : Settings) :
    Settings × Bool :=
  if checkNameValid name then (s.put order name (.group group), true) else (s, false)

/-- `remove`, and whether there was anything to remove. -/
def remove (s : Settings) (name : Bytes) : Settings × Bool :=
  match s.lookup name with
  | some _ => (s.erase name, true)
  | none => (s, false)

end Settings

/-! ## Objects that are well formed -/

mutual

/-- At every depth the names are distinct and satisfy `N`, and the values satisfy `V`. -/
def SettingsEntry.Conforms (N V : Bytes → Prop) : SettingsEntry → Prop
  | .value v => V v
  | .group g => g.Conforms N V

def Settings.Conforms (N V : Bytes → Prop) : Settings → Prop
  | .nil => True
  | .cons name entry rest =>
    name ∉ rest.names ∧ N name ∧ entry.Conforms N V ∧ rest.Conforms N V

end

/-- What `set` and `setGroup` make out of an empty object.  At each call the map may come into any
order. -/
inductive Built : Settings → Prop
  | empty : Built .nil
  | set {s : Settings} (order : HashOrder) (name value : Bytes) :
      Built s → Built (s.set order name value).1
  | setGroup {s group : Settings} (order : HashOrder) (name : Bytes) :
      Built s → Built group → Built (s.setGroup order name group).1

section

variable {order : HashOrder} {N N' V V' : Bytes → Prop} {s t : Settings} {name : Bytes}
variable {entry : SettingsEntry}

namespace Settings

@[simp] theorem conforms_nil : Settings.nil.Conforms N V := by
  rw [Conforms]
  trivial

theorem conforms_cons : (cons name entry s).Conforms N V ↔
    name ∉ s.names ∧ N name ∧ entry.Conforms N V ∧ s.Conforms N V := by
  rw [Conforms]

@[simp] theorem conforms_value {value : Bytes} :
    (SettingsEntry.value value).Conforms N V ↔ V value := by
  rw [SettingsEntry.Conforms]

@[simp] theorem conforms_group : (SettingsEntry.group s).Conforms N V ↔ s.Conforms N V := by
  rw [SettingsEntry.Conforms]

theorem conforms_iff : s.Conforms N V ↔ s.names.Nodup ∧
    ∀ name entry, s.lookup name = some entry → N name ∧ entry.Conforms N V := by
  induction s using listInduct with
  | nil => simp
  | cons name' entry' rest ih =>
    rw [conforms_cons, ih, names_cons, List.nodup_cons]
    constructor
    · rintro ⟨hnew, hname, hentry, hnodup, hrest⟩
      refine ⟨⟨hnew, hnodup⟩, fun name entry hlookup => ?_⟩
      rw [lookup_cons] at hlookup
      split at hlookup
      · rename_i heq
        cases hlookup
        exact ⟨heq ▸ hname, hentry⟩
      · exact hrest name entry hlookup
    · rintro ⟨⟨hnew, hnodup⟩, hall⟩
      rcases hall name' entry' lookup_cons_self with ⟨hname, hentry⟩
      refine ⟨hnew, hname, hentry, hnodup, fun name entry hlookup => ?_⟩
      refine hall name entry ?_
      rw [lookup_cons_of_ne, hlookup]
      rintro rfl
      exact hnew (mem_names_of_lookup hlookup)

section

variable (h : s.Conforms N V)

include h

theorem Conforms.nodup : s.names.Nodup :=
  (conforms_iff.1 h).1

theorem Conforms.lookup (hlookup : s.lookup name = some entry) :
    N name ∧ entry.Conforms N V :=
  (conforms_iff.1 h).2 name entry hlookup

theorem Conforms.put (hname : N name) (hentry : entry.Conforms N V) :
    (s.put order name entry).Conforms N V := by
  refine conforms_iff.2 ⟨nodup_put h.nodup, fun name' entry' hlookup => ?_⟩
  rw [lookup_put] at hlookup
  split at hlookup
  · rename_i heq
    cases hlookup
    exact ⟨heq ▸ hname, hentry⟩
  · exact h.lookup hlookup

theorem Conforms.erase : (s.erase name).Conforms N V := by
  refine conforms_iff.2 ⟨nodup_erase h.nodup, fun name' entry' hlookup => ?_⟩
  rw [lookup_erase h.nodup] at hlookup
  split at hlookup
  · cases hlookup
  · exact h.lookup hlookup

theorem Conforms.mono (hN : ∀ name, N name → N' name) (hV : ∀ value, V value → V' value) :
    s.Conforms N' V' := by
  induction s using treeInduct with
  | nil => simp
  | value name value rest ih =>
    rw [conforms_cons, conforms_value] at h ⊢
    exact ⟨h.1, hN _ h.2.1, hV _ h.2.2.1, ih h.2.2.2⟩
  | group name group rest ihgroup ihrest =>
    rw [conforms_cons, conforms_group] at h ⊢
    exact ⟨h.1, hN _ h.2.1, ihgroup h.2.2.1, ihrest h.2.2.2⟩

end

end Settings

/-- `set` and `setGroup` let only what they accept into an object. -/
theorem Built.conforms (h : Built s) : s.Conforms (fun name => checkNameValid name = true)
    fun value => checkValueValid value = true := by
  induction h with
  | empty => exact Settings.conforms_nil
  | set order name value _ ih =>
    rw [Settings.set]
    split
    · rename_i hvalid
      rw [Bool.and_eq_true] at hvalid
      exact ih.put hvalid.1 (Settings.conforms_value.2 hvalid.2)
    · exact ih
  | setGroup order name _ _ ih ihgroup =>
    rw [Settings.setGroup]
    split
    · rename_i hvalid
      exact ih.put hvalid (Settings.conforms_group.2 ihgroup)
    · exact ih

end

/-- An entry, when everything that a group holds is settled. -/
theorem SettingsEntry.lookupInduct {P : SettingsEntry → Prop} (value : ∀ v, P (.value v))
    (group : ∀ g : Settings, (∀ name entry, g.lookup name = some entry → P entry) → P (.group g))
    (entry : SettingsEntry) : P entry := by
  have hall : ∀ (s : Settings) name entry, s.lookup name = some entry → P entry := by
    intro s
    induction s using Settings.treeInduct with
    | nil => simp
    | value name' v rest ih =>
      intro name entry h
      rw [Settings.lookup_cons] at h
      split at h
      · cases h
        exact value v
      · exact ih name entry h
    | group name' g rest ihgroup ihrest =>
      intro name entry h
      rw [Settings.lookup_cons] at h
      split at h
      · cases h
        exact group g ihgroup
      · exact ihrest name entry h
  exact hall (.cons [] entry .nil) [] entry Settings.lookup_cons_self

/-! ## What lies at a path -/

/-- What is found at a path of names. -/
inductive Node
  | value (value : Bytes)
  | group
  deriving DecidableEq

def SettingsEntry.node : SettingsEntry → List Bytes → Option Node
  | .value v, [] => some (.value v)
  | .value _, _ :: _ => none
  | .group _, [] => some .group
  | .group g, name :: path => (g.lookup name).bind fun entry => entry.node path

namespace Settings

def node (s : Settings) (path : List Bytes) : Option Node :=
  (SettingsEntry.group s).node path

/-- The same values and groups lie at the same paths. -/
def Same (s t : Settings) : Prop :=
  s.node = t.node

section

variable {s t : Settings}

theorem node_cons (name : Bytes) (path : List Bytes) :
    s.node (name :: path) = (s.lookup name).bind fun entry => entry.node path := by
  rw [node, SettingsEntry.node]

/-- Two entries are told apart by what lies at the paths, or by one not being there. -/
theorem map_node_congr {o o' : Option SettingsEntry}
    (h : ∀ path, (o.bind fun entry => entry.node path) = o'.bind fun entry => entry.node path) :
    o.map SettingsEntry.node = o'.map SettingsEntry.node := by
  have hroot : ∀ entry : SettingsEntry, entry.node [] ≠ none := by
    intro entry
    cases entry <;> simp [SettingsEntry.node]
  cases o with
  | none =>
    cases o' with
    | none => rfl
    | some entry => exact absurd (h []).symm (hroot entry)
  | some entry =>
    cases o' with
    | none => exact absurd (h []) (hroot entry)
    | some entry' => exact congrArg some (funext h)

theorem same_iff : s.Same t ↔ ∀ name,
    (s.lookup name).map SettingsEntry.node = (t.lookup name).map SettingsEntry.node := by
  constructor
  · intro h name
    refine map_node_congr fun path => ?_
    rw [← node_cons, ← node_cons, h]
  · intro h
    refine funext fun path => ?_
    cases path with
    | nil => simp [node, SettingsEntry.node]
    | cons name path =>
      rw [node_cons, node_cons]
      have hmap := congrArg (fun o => o.bind fun f : List Bytes → Option Node => f path) (h name)
      simpa [Option.bind_map, Function.comp_def] using hmap

end

end Settings

section

variable {N N' V V' : Bytes → Prop} {s t : Settings} {entry entry' : SettingsEntry}

/-- What conforms is told by what lies at the paths. -/
theorem SettingsEntry.Conforms.congr (h : entry.Conforms N V) (h' : entry'.Conforms N' V')
    (hsame : entry.node = entry'.node) : entry.Conforms N' V' := by
  induction entry using SettingsEntry.lookupInduct generalizing entry' with
  | value v =>
    have hroot := congrFun hsame []
    cases entry' with
    | value v' =>
      simp only [SettingsEntry.node, Option.some.injEq, Node.value.injEq] at hroot
      exact hroot ▸ h'
    | group g' => simp [SettingsEntry.node] at hroot
  | group g ih =>
    have hroot := congrFun hsame []
    cases entry' with
    | value v' => simp [SettingsEntry.node] at hroot
    | group g' =>
      rw [Settings.conforms_group] at h h' ⊢
      refine Settings.conforms_iff.2 ⟨h.nodup, fun name entry hlookup => ?_⟩
      have hmap := Settings.same_iff.1 hsame name
      rw [hlookup] at hmap
      rcases Option.map_eq_some_iff.1 hmap.symm with ⟨entry', hlookup', hnode⟩
      rcases h'.lookup hlookup' with ⟨hname, hentry⟩
      exact ⟨hname, ih name entry hlookup (h.lookup hlookup).2 hentry hnode.symm⟩

/-! ## Depth -/

mutual

/-- The length of the longest path. -/
def SettingsEntry.depth : SettingsEntry → Nat
  | .value _ => 0
  | .group g => g.depth

def Settings.depth : Settings → Nat
  | .nil => 0
  | .cons _ entry rest => max (entry.depth + 1) rest.depth

end

namespace Settings

theorem depth_of_lookup {name : Bytes} (h : s.lookup name = some entry) : entry.depth < s.depth := by
  induction s using listInduct with
  | nil => simp at h
  | cons name' entry' rest ih =>
    rw [lookup_cons] at h
    rw [depth]
    split at h
    · cases h
      exact (Nat.lt_succ_self _).trans_le (Nat.le_max_left _ _)
    · exact (ih h).trans_le (Nat.le_max_right _ _)

end Settings

namespace Settings

end Settings

end

end Config
end AxisEngine
