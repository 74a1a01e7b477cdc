import AxisEngine.Inventory.ItemStack
import AxisEngine.Util.JsonString

/-!
# ItemMetadata — the strings of a stack, and their text

`ItemStackMetadata` (`itemstackmetadata.cpp`) over `SimpleMetadata` (`metadata.cpp`).  Two strings
are also parsed as JSON when the metadata is read, and reading fails when the parser throws; which
texts it accepts is a parameter.

* `Metadata.setString` — the only way scripts change the strings;
* `Metadata.serialize`, `Metadata.deSerialize` — the text;
* `Metadata.Sanitized` — what `setString` leaves.
-/

namespace AxisEngine
namespace Inventory

open Lib Util

/-- What reading depends on besides the text: which texts `ToolCapabilities::deserializeJson` and
`WearBarParams::deserializeJson` accept, and what is in a variable that was never written. -/
structure Reader where
  toolCapabilities : Bytes → Bool
  wearBarParams : Bytes → Bool
  uninitialized : UInt32

/-- The order in which an `unordered_map` is gone through. -/
structure MapOrder where
  list : Metadata → List (Sigma fun _ : Bytes => Bytes)
  list_eq : ∀ m, (list m : Multiset (Sigma fun _ : Bytes => Bytes)) = m.entries

/-! ## Splitting strings -/

/-- `Strfnd::next`: what stands before the separator, and what follows it. -/
def Strfnd.next (sep : UInt8) (s : Bytes) : Bytes × Bytes :=
  (s.takeWhile fun b => b ≠ sep, (s.dropWhile fun b => b ≠ sep).drop 1)

/-- `Strfnd::skip_over`; a string of nothing else stays. -/
def Strfnd.skipOver (c : UInt8) (s : Bytes) : Bytes :=
  match s.dropWhile fun b => b = c with
  | [] => s
  | rest => rest

theorem Strfnd.length_next_lt {sep : UInt8} {s : Bytes} (hs : s ≠ []) :
    (next sep s).2.length < s.length := by
  have hle := (List.dropWhile_sublist (l := s) fun b => decide (b ≠ sep)).length_le
  have hpos := List.length_pos_iff.2 hs
  rw [next, List.length_drop]
  omega

theorem Strfnd.length_next_le (sep : UInt8) (s : Bytes) : (next sep s).2.length ≤ s.length := by
  by_cases hs : s = []
  · rw [hs]
    rfl
  · exact (length_next_lt hs).le

theorem Strfnd.next_append {sep : UInt8} {s : Bytes} (hs : sep ∉ s) (rest : Bytes) :
    next sep (s ++ sep :: rest) = (s, rest) := by
  rcases IStream.takeWhile_ne_append hs rest with ⟨htake, hdrop⟩
  rw [next, htake, hdrop]
  rfl

namespace Metadata

/-! ## Strings -/

def toolcapKey : Bytes := ascii "tool_capabilities"

def wearBarKey : Bytes := ascii "wear_color"

/-- `sanitize_string`: the three delimiters are taken out. -/
def sanitizeString (s : Bytes) : Bytes :=
  s.filter fun b => b ≠ 1 && b ≠ 2 && b ≠ 3

/-- The strings after `setString`; an empty value removes its key. -/
def setString (m : Metadata) (name var : Bytes) : Metadata :=
  let name := sanitizeString name
  let var := sanitizeString var
  if var = [] then m.erase name else m.insert name var

/-- `getString`; a value of the form `${name}` stands for another value, two times in a row. -/
def getString (m : Metadata) : Nat → Bytes → Bytes
  | recursion, name =>
    match m.lookup name with
    | none => []
    | some raw =>
      match recursion with
      | 0 => raw
      | recursion + 1 =>
        if (ascii "$\x7b").isPrefixOf raw && raw.getLast? = some 125 then
          getString m recursion ((raw.drop 2).take (raw.length - 3))
        else raw

/-- `updateToolCapabilities` and `updateWearBarParams` do not throw. -/
def readable (r : Reader) (m : Metadata) : Bool :=
  (decide (toolcapKey ∉ m) || r.toolCapabilities (getString m 2 toolcapKey)) &&
    (decide (wearBarKey ∉ m) || r.wearBarParams (getString m 2 wearBarKey))

/-! ## Text -/

def writePairs (pairs : List (Sigma fun _ : Bytes => Bytes)) : Bytes :=
  pairs.flatMap fun e => if e.1 = [] ∧ e.2 = [] then [] else e.1 ++ 2 :: (e.2 ++ [3])

def serialize (order : MapOrder) (m : Metadata) : Bytes :=
  serializeJsonStringIfNeeded (1 :: writePairs (order.list m))

def readPairs (s : Bytes) (m : Metadata) : Metadata :=
  if hs : s = [] then m
  else
    let name := Strfnd.next 2 s
    let var := Strfnd.next 3 name.2
    have : var.2.length < s.length :=
      (Strfnd.length_next_le 3 name.2).trans_lt (Strfnd.length_next_lt hs)
    readPairs var.2 (m.insert name.1 var.1)
termination_by s.length

def deSerialize (r : Reader) (is : IStream) : Except Exception (Metadata × IStream) := do
  let (text, is) ← deSerializeJsonStringIfNeeded is
  let m :=
    match text with
    | [] => ∅
    | 1 :: text => readPairs text ∅
    -- "BACKWARDS COMPATIBILITY"
    | _ => Finmap.singleton [] text
  if readable r m then .ok (m, is) else .error .jsonError

/-! ## The round trip -/

/-- No delimiter stands in a key or a value, and no entry is empty. -/
def Sanitized (m : Metadata) : Prop :=
  ∀ k v, m.lookup k = some v → (∀ b ∈ k ++ v, b ≠ 1 ∧ b ≠ 2 ∧ b ≠ 3) ∧ ¬ (k = [] ∧ v = [])

theorem sanitized_empty : Sanitized ∅ := by
  intro k v h
  rw [Finmap.lookup_empty] at h
  cases h

theorem sanitized_setString {m : Metadata} (hm : Sanitized m) (name var : Bytes) :
    Sanitized (m.setString name var) := by
  have hclean : ∀ s : Bytes, ∀ b ∈ sanitizeString s, b ≠ 1 ∧ b ≠ 2 ∧ b ≠ 3 := by
    intro s b hb
    have hkept := (List.mem_filter.1 hb).2
    simpa [and_assoc] using hkept
  intro k v h
  rw [setString] at h
  split at h
  · by_cases hk : k = sanitizeString name
    · rw [hk, Finmap.lookup_erase] at h
      cases h
    · rw [Finmap.lookup_erase_ne hk] at h
      exact hm k v h
  · rename_i hvar
    by_cases hk : k = sanitizeString name
    · rw [hk, Finmap.lookup_insert] at h
      cases h
      refine ⟨?_, fun hempty => hvar hempty.2⟩
      intro b hb
      rcases List.mem_append.1 hb with hb | hb
      · exact hclean name b (hk ▸ hb)
      · exact hclean var b hb
    · rw [Finmap.lookup_insert_of_ne _ hk] at h
      exact hm k v h

section

variable {m m₀ : Metadata} {pairs : List (Sigma fun _ : Bytes => Bytes)} {k : Bytes}

/-- What the assignments of `deSerialize` make of a map. -/
def insertAll (pairs : List (Sigma fun _ : Bytes => Bytes)) (m : Metadata) : Metadata :=
  pairs.foldl (fun m e => m.insert e.1 e.2) m

theorem lookup_insertAll (hnodup : pairs.NodupKeys) :
    (insertAll pairs m₀).lookup k = (pairs.dlookup k).or (m₀.lookup k) := by
  induction pairs generalizing m₀ with
  | nil => rfl
  | cons e pairs ih =>
    rcases List.nodupKeys_cons.1 hnodup with ⟨hnew, hrest⟩
    have hstep : insertAll (e :: pairs) m₀ = insertAll pairs (m₀.insert e.1 e.2) := rfl
    rw [hstep, ih hrest]
    by_cases hk : k = e.1
    · subst hk
      have hnone : pairs.dlookup e.1 = none := List.dlookup_eq_none.2 hnew
      rw [hnone, List.dlookup_cons_eq, Finmap.lookup_insert]
      rfl
    · rw [List.dlookup_cons_ne _ _ hk, Finmap.lookup_insert_of_ne _ hk]

/-- The entries of a map, assigned in any order, give the map. -/
theorem insertAll_entries (h : (pairs : Multiset (Sigma fun _ : Bytes => Bytes)) = m.entries) :
    insertAll pairs ∅ = m := by
  have hnodup : pairs.NodupKeys := by
    have hkeys := m.nodupKeys
    rw [← h] at hkeys
    exact Multiset.coe_nodupKeys.1 hkeys
  have hmap : m = Finmap.mk pairs (Multiset.coe_nodupKeys.2 hnodup) := Finmap.ext h.symm
  apply Finmap.ext_lookup
  intro k
  rw [lookup_insertAll hnodup, Finmap.lookup_empty, Option.or_none, hmap]
  rfl

/-- The writer's pairs are read back one by one. -/
theorem readPairs_writePairs
    (h : ∀ e ∈ pairs, (2 : UInt8) ∉ e.1 ∧ (3 : UInt8) ∉ e.2 ∧ ¬ (e.1 = [] ∧ e.2 = [])) :
    readPairs (writePairs pairs) m₀ = insertAll pairs m₀ := by
  induction pairs generalizing m₀ with
  | nil =>
    have hnone : writePairs [] = [] := rfl
    rw [readPairs, dif_pos hnone]
    rfl
  | cons e pairs ih =>
    rcases h e (List.mem_cons_self ..) with ⟨hkey, hvalue, hsome⟩
    have htext : writePairs (e :: pairs) = e.1 ++ 2 :: (e.2 ++ 3 :: writePairs pairs) := by
      rw [writePairs, List.flatMap_cons, if_neg hsome]
      simp [writePairs]
    have hne : e.1 ++ 2 :: (e.2 ++ 3 :: writePairs pairs) ≠ [] := by simp
    rw [htext, readPairs, dif_neg hne]
    simp only [Strfnd.next_append hkey, Strfnd.next_append hvalue]
    exact ih fun e' he' => h e' (List.mem_cons_of_mem e he')

/-- Metadata is read back, or reading throws because of the strings that are parsed. -/
theorem deSerialize_serialize (r : Reader) (order : MapOrder) (hm : Sanitized m) :
    ∃ eof, deSerialize r { rest := serialize order m } =
      if readable r m then .ok (m, { rest := [], eof := eof }) else .error .jsonError := by
  have hpairs : ∀ e ∈ order.list m,
      (2 : UInt8) ∉ e.1 ∧ (3 : UInt8) ∉ e.2 ∧ ¬ (e.1 = [] ∧ e.2 = []) := by
    intro e he
    have hentry : e ∈ m.entries := by
      rw [← order.list_eq m]
      exact he
    rcases hm e.1 e.2 (Finmap.mem_lookup_iff.2 hentry) with ⟨hbytes, hsome⟩
    refine ⟨fun hmem => ?_, fun hmem => ?_, hsome⟩
    · exact (hbytes 2 (List.mem_append_left _ hmem)).2.1 rfl
    · exact (hbytes 3 (List.mem_append_right _ hmem)).2.2 rfl
  rcases deSerialize_ifNeeded_end (s := 1 :: writePairs (order.list m)) (by simp) with ⟨eof, hread⟩
  refine ⟨eof, ?_⟩
  have hmap : readPairs (writePairs (order.list m)) ∅ = m := by
    rw [readPairs_writePairs hpairs, insertAll_entries (order.list_eq m)]
  rw [deSerialize, serialize, hread]
  simp only [ok_bind, hmap]

theorem newline_not_mem_serialize (order : MapOrder) (m : Metadata) :
    (10 : UInt8) ∉ serialize order m :=
  Util.newline_not_mem_serialize _

end

end Metadata

end Inventory
end AxisEngine
