import AxisEngine.Inventory.ItemMetadata
import AxisEngine.Lib.Trim

/-!
# ItemText — the text of a stack

`ItemStack::serialize` and `ItemStack::deSerialize` (`inventory.cpp`), with the obsolete forms that
are still read.

* `ItemStack.serialize`, `ItemStack.deSerialize` — the text of one stack;
* `ItemStack.Plain` — the stacks that the text can tell;
* `deSerialize_serialize` — the round trip.
-/

namespace AxisEngine
namespace Inventory

open Lib Util

/-! ## Obsolete content types -/

/-- `trans_table_19`: old content types, as current and old number. -/
def transTable19 : List (Nat × Nat) :=
  [(0x800, 1), (0x801, 4), (0x802, 5), (0x803, 6), (0x804, 7), (0x805, 8), (0x806, 10),
    (0x807, 11), (0x808, 12), (0x809, 13), (0x80a, 18), (0x80b, 19), (0x80c, 20), (0x80d, 22),
    (0x80e, 23), (0x80f, 24), (0x810, 25), (0x811, 26), (0x812, 27), (0x813, 28), (0x814, 29)]

def contentTranslateFrom19ToInternal (c : Nat) : Nat :=
  match transTable19.find? fun tt => tt.2 = c with
  | some tt => tt.1
  | none => c

/-- `content_mapnode_get_name_id_mapping`. -/
def legacyNames : List (Nat × String) :=
  [(0, "default:stone"), (2, "default:water_flowing"), (3, "default:torch"),
    (9, "default:water_source"), (14, "default:sign_wall"), (15, "default:chest"),
    (16, "default:furnace"), (17, "default:chest_locked"), (21, "default:fence_wood"),
    (30, "default:rail"), (31, "default:ladder"), (32, "default:lava_flowing"),
    (33, "default:lava_source"), (0x800, "default:dirt_with_grass"), (0x801, "default:tree"),
    (0x802, "default:leaves"), (0x803, "default:dirt_with_grass_footsteps"),
    (0x804, "default:mese"), (0x805, "default:dirt"), (0x806, "default:cloud"),
    (0x807, "default:coalstone"), (0x808, "default:wood"), (0x809, "default:sand"),
    (0x80a, "default:cobble"), (0x80b, "default:steelblock"), (0x80c, "default:glass"),
    (0x80d, "default:mossycobble"), (0x80e, "default:gravel"), (0x80f, "default:sandstone"),
    (0x810, "default:cactus"), (0x811, "default:brick"), (0x812, "default:clay"),
    (0x813, "default:papyrus"), (0x814, "default:bookshelf"), (0x815, "default:jungletree"),
    (0x816, "default:junglegrass"), (0x817, "default:nyancat"),
    (0x818, "default:nyancat_rainbow"), (0x819, "default:apple"), (0x820, "default:sapling"),
    (127, "ignore"), (126, "air")]

namespace ItemStack

/-! ## Writing -/

/-- "Check how many parts of the itemstring are needed". -/
def parts (s : ItemStack) : Nat :=
  if s.metadata ≠ ∅ then 4
  else if s.wear ≠ 0 then 3
  else if s.count ≠ 1 then 2
  else 1

/-- The text with metadata. -/
def serialize (order : MapOrder) (s : ItemStack) : Bytes :=
  if s.isEmpty then []
  else
    serializeJsonStringIfNeeded s.name ++
      ((if 2 ≤ s.parts then 32 :: decimal s.count.toNat else []) ++
        ((if 3 ≤ s.parts then 32 :: decimal s.wear.toNat else []) ++
          (if 4 ≤ s.parts then 32 :: Metadata.serialize order s.metadata else [])))

/-! ## Reading -/

variable (itemdef : Option ItemDefManager)

def applyAlias (name : Bytes) : Bytes :=
  match itemdef with
  | some defs => defs.getAlias name
  | none => name

/-- `stoi`, assigned to a `u16`. -/
def stoiU16 (s : Bytes) : UInt16 :=
  UInt16.ofInt (atoi s).toInt

/-- `is >> x` for an `u16`, which may leave `x` without a value. -/
def readU16 (r : Reader) (is : IStream) : Nat × IStream :=
  let (value, is) := is.extract 65535
  (value.getD (r.uninitialized.toNat % 65536), is)

variable (r : Reader) (itemdef : Option ItemDefManager)

/-- "Obsoleted on 2011-07-30" and "Obsoleted on 2011-11-16": a content type and a count. -/
def readMaterial (translate : Bool) (name : Bytes) (is : IStream) : Except Exception ItemStack :=
  let (material, is) := readU16 r is
  let (materialcount, _) := readU16 r is
  let material :=
    if translate && decide (material ≤ 0xff) then contentTranslateFrom19ToInternal material
    else material
  if 0xfff < material then .error (.serializationError (ascii "Too large material number"))
  else
    let name :=
      match legacyNames.find? fun e => e.1 = material with
      | some e => ascii e.2
      -- an unknown number leaves the keyword as the name
      | none => name
    let name := if name = [] then ascii "unknown_block" else name
    .ok { cleared with name := applyAlias itemdef name, count := UInt16.ofNat materialcount }

/-- "First attempt to read inside \"\"", and "No luck, just read a word then": the name, and what
follows it. -/
def readQuotedName (all : Bytes) : Bytes × Bytes :=
  let inside := (Strfnd.next 34 all).2
  let (name, rest) := if inside ≠ [] then Strfnd.next 34 inside else Strfnd.next 32 all
  (name, Strfnd.skipOver 32 rest)

/-- "Obsoleted on 2012-01-07": a node or a craft item. -/
def readOldItem (is : IStream) : ItemStack :=
  let (all, _) := is.getline 10
  let (name, rest) := readQuotedName all
  let count := stoiU16 (trim rest)
  { cleared with name := applyAlias itemdef name, count := if count = 0 then 1 else count }

/-- "Obsoleted on 2012-01-07": a tool. -/
def readOldTool (is : IStream) : ItemStack :=
  let (all, _) := is.getline 10
  let (name, rest) := readQuotedName all
  { cleared with name := applyAlias itemdef name, count := 1, wear := stoiU16 (trim rest) }

/-- "The real thing": the count, the wear and the metadata, as far as they are there. -/
def readFields (name : Bytes) (is : IStream) : Except Exception ItemStack :=
  let s := { cleared with name := applyAlias itemdef name }
  let (countStr, is) := is.getline 32
  if countStr = [] then .ok { s with count := 1 }
  else
    let s := { s with count := stoiU16 countStr }
    let (wearStr, is) := is.getline 32
    if wearStr = [] then .ok s
    else do
      let (metadata, _) ← Metadata.deSerialize r is
      .ok { s with wear := stoiU16 wearStr, metadata := metadata }

/-- The end of `deSerialize`. -/
def finish (s : ItemStack) : ItemStack :=
  if s.name = [] ∨ s.count = 0 then .cleared
  else
    match itemdef with
    | some defs => if (defs.get s.name).type = .tool then { s with count := 1 } else s
    | none => s

/-- The keywords of the obsolete forms for nodes and craft items. -/
def oldItemKeywords : List Bytes :=
  [ascii "node", ascii "NodeItem", ascii "MaterialItem3", ascii "craft", ascii "CraftItem"]

def oldToolKeywords : List Bytes :=
  [ascii "tool", ascii "ToolItem"]

/-- What follows the stack in the stream is of no interest to any caller. -/
def deSerialize (is : IStream) : Except Exception ItemStack := do
  let (name, is) ← deSerializeJsonStringIfNeeded is
  -- "Skip space"
  let (tmp, is) := is.getline 32
  if tmp ≠ [] then .error (.serializationError (ascii "Unexpected text after item name"))
  else
    let s ←
      if name = ascii "MaterialItem" then readMaterial r itemdef true name is
      else if name = ascii "MaterialItem2" then readMaterial r itemdef false name is
      else if name ∈ oldItemKeywords then .ok (readOldItem itemdef is)
      else if name = ascii "MBOItem" then
        .error (.serializationError (ascii "MBOItem not supported anymore"))
      else if name ∈ oldToolKeywords then .ok (readOldTool itemdef is)
      else readFields r itemdef name is
    .ok (finish itemdef s)

/-! ## The round trip -/

def keywords : List Bytes :=
  [ascii "MaterialItem", ascii "MaterialItem2", ascii "MBOItem"] ++ oldItemKeywords ++
    oldToolKeywords

/-- What the text of a stack can tell: a name that is no alias and no keyword, one item of a tool,
and strings without delimiters. -/
structure Plain (itemdef : Option ItemDefManager) (s : ItemStack) : Prop where
  name_ne : s.name ≠ []
  alias_eq : applyAlias itemdef s.name = s.name
  not_keyword : s.name ∉ keywords
  tool_count : ∀ defs, itemdef = some defs → (defs.get s.name).type = .tool → s.count = 1
  sanitized : s.metadata.Sanitized

section

variable {r : Reader} {order : MapOrder} {itemdef : Option ItemDefManager} {s : ItemStack}
variable {name rest : Bytes} {n : UInt16}

theorem stoiU16_decimal (n : UInt16) : stoiU16 (decimal n.toNat) = n := by
  have hn := n.toNat_lt
  rw [stoiU16, atoi_decimal (by omega)]
  apply UInt16.toNat_inj.1
  rw [UInt16.ofInt, UInt16.toNat_ofNat']
  omega

theorem blank_not_mem_decimal (n : Nat) : (32 : UInt8) ∉ decimal n := fun hmem =>
  absurd (isDigit_of_mem_decimal hmem) (by decide)

theorem getline_field (n : Nat) (rest : Bytes) :
    ({ rest := decimal n ++ 32 :: rest } : IStream).getline 32 = (decimal n, { rest := rest }) :=
  IStream.getline_cons (blank_not_mem_decimal n) rest

theorem getline_last_field (n : Nat) :
    ({ rest := decimal n } : IStream).getline 32 =
      (decimal n, { rest := [], eof := true, fail := false }) := by
  rw [IStream.getline_end (blank_not_mem_decimal n), List.isEmpty_eq_false_iff.2 (decimal_ne_nil n)]

theorem getline_nothing (eof fail : Bool) :
    (({ rest := [], eof := eof, fail := fail } : IStream).getline 32).1 = [] := by
  cases eof <;> cases fail <;> rfl

theorem finish_plain (h : Plain itemdef s) (hs : s.count ≠ 0) : finish itemdef s = s := by
  rw [finish.eq_def, if_neg (not_or.2 ⟨h.name_ne, hs⟩)]
  cases hdefs : itemdef with
  | none => rfl
  | some defs =>
    simp only
    split
    · rename_i htool
      rw [← h.tool_count defs hdefs htool]
    · rfl

/-- The fields that are left out are the default ones. -/
theorem parts_cases (s : ItemStack) :
    (s.parts = 1 ∧ s.metadata = ∅ ∧ s.wear = 0 ∧ s.count = 1) ∨
      (s.parts = 2 ∧ s.metadata = ∅ ∧ s.wear = 0) ∨ (s.parts = 3 ∧ s.metadata = ∅) ∨
        s.parts = 4 := by
  rw [parts]
  by_cases hmeta : s.metadata = ∅
  · by_cases hwear : s.wear = 0
    · by_cases hcount : s.count = 1
      · simp [hmeta, hwear, hcount]
      · simp [hmeta, hwear, hcount]
    · simp [hmeta, hwear]
  · simp [hmeta]

theorem readFields_one (h : Plain itemdef s)
    (hs : s.metadata = ∅ ∧ s.wear = 0 ∧ s.count = 1) (eof fail : Bool) :
    readFields r itemdef s.name { rest := [], eof := eof, fail := fail } = .ok s := by
  have hline := getline_nothing eof fail
  rw [readFields]
  generalize ({ rest := [], eof := eof, fail := fail } : IStream).getline 32 = line at hline
  rcases line with ⟨countStr, is⟩
  simp only at hline ⊢
  rw [if_pos hline, h.alias_eq]
  rcases hs with ⟨hmeta, hwear, hcount⟩
  cases s
  simp only [cleared] at hmeta hwear hcount ⊢
  rw [hmeta, hwear, hcount]

theorem readFields_two (h : Plain itemdef s) (hs : s.metadata = ∅ ∧ s.wear = 0) :
    readFields r itemdef s.name { rest := decimal s.count.toNat } = .ok s := by
  rw [readFields, getline_last_field]
  simp only [if_neg (decimal_ne_nil _), stoiU16_decimal, h.alias_eq]
  have hline := getline_nothing true false
  rw [if_pos hline]
  rcases hs with ⟨hmeta, hwear⟩
  cases s
  simp only [cleared] at hmeta hwear ⊢
  rw [hmeta, hwear]

theorem readFields_three (h : Plain itemdef s) (hmeta : s.metadata = ∅) :
    readFields r itemdef s.name
      { rest := decimal s.count.toNat ++ 32 :: decimal s.wear.toNat } = .ok s := by
  rw [readFields, getline_field]
  simp only [if_neg (decimal_ne_nil _), getline_last_field, stoiU16_decimal, h.alias_eq]
  have hnothing : Metadata.deSerialize r { rest := [], eof := true, fail := false } =
      .ok (∅, { rest := [], eof := true, fail := true }) := rfl
  rw [hnothing]
  cases s
  simp only at hmeta ⊢
  rw [hmeta]
  rfl

theorem readFields_four (h : Plain itemdef s) :
    readFields r itemdef s.name
        { rest := decimal s.count.toNat ++ 32 :: (decimal s.wear.toNat ++
          32 :: Metadata.serialize order s.metadata) } =
      if s.metadata.readable r then .ok s else .error .jsonError := by
  rcases Metadata.deSerialize_serialize r order h.sanitized with ⟨eof, hread⟩
  rw [readFields, getline_field]
  simp only [if_neg (decimal_ne_nil _), getline_field, stoiU16_decimal, h.alias_eq, hread]
  split
  · cases s
    rfl
  · rfl

/-- A name that is no keyword leads to the fields. -/
theorem deSerialize_of_name {is is' : IStream} (hkeyword : name ∉ keywords)
    (hname : deSerializeJsonStringIfNeeded is = .ok (name, is'))
    (hblank : (is'.getline 32).1 = []) :
    deSerialize r itemdef is =
      (readFields r itemdef name (is'.getline 32).2).map (finish itemdef) := by
  simp only [keywords, List.cons_append, List.nil_append, List.mem_cons, List.mem_append,
    not_or] at hkeyword
  rcases hkeyword with ⟨hmaterial, hmaterial2, hmbo, hitem, htool⟩
  rw [deSerialize, hname]
  simp only [ok_bind]
  rw [if_neg (not_not.2 hblank), if_neg hmaterial, if_neg hmaterial2, if_neg hitem, if_neg hmbo,
    if_neg htool]
  rfl

/-- A stack is read back, or reading throws because of its metadata. -/
theorem deSerialize_serialize (r : Reader) (order : MapOrder) (h : Plain itemdef s)
    (hs : s.count ≠ 0) :
    deSerialize r itemdef { rest := serialize order s } =
      if s.metadata.readable r then .ok s else .error .jsonError := by
  have hnonempty : ¬ s.isEmpty = true := by
    rw [isEmpty, decide_eq_true_eq]
    exact hs
  have hdone : (Except.ok s : Except Exception ItemStack).map (finish itemdef) = .ok s :=
    congrArg Except.ok (finish_plain h hs)
  -- reading metadata that is not there cannot fail
  have hreadable : s.metadata = ∅ → s.metadata.readable r = true := by
    intro hmeta
    rw [hmeta]
    rfl
  -- a blank after the name, and then the fields
  have hfields : ∀ fields, deSerialize r itemdef
      { rest := serializeJsonStringIfNeeded s.name ++ 32 :: fields } =
        (readFields r itemdef s.name { rest := fields }).map (finish itemdef) := by
    intro fields
    have hblank : ({ rest := 32 :: fields } : IStream).getline 32 = ([], { rest := fields }) :=
      IStream.getline_cons List.not_mem_nil fields
    have hread : deSerialize r itemdef _ = _ := deSerialize_of_name h.not_keyword
      (deSerialize_ifNeeded_space s.name fields) (by rw [hblank])
    rw [hread, hblank]
  rw [serialize, if_neg hnonempty]
  rcases parts_cases s with ⟨hparts, hone⟩ | ⟨hparts, htwo⟩ | ⟨hparts, hthree⟩ | hparts
  · -- the name is all there is
    rcases deSerialize_ifNeeded_end h.name_ne with ⟨eof, hname⟩
    have hread : deSerialize r itemdef _ = _ := deSerialize_of_name h.not_keyword hname
      (getline_nothing eof false)
    have hend : (({ rest := [], eof := eof } : IStream).getline 32).2 =
        { rest := [], eof := true, fail := true } := by
      cases eof <;> rfl
    simp only [hparts, Nat.reduceLeDiff, if_false, List.append_nil]
    rw [hread, hend, readFields_one h hone, hdone, if_pos (hreadable hone.1)]
  · simp only [hparts, Nat.reduceLeDiff, if_false, if_true, List.append_nil]
    rw [hfields, readFields_two h htwo, hdone, if_pos (hreadable htwo.1)]
  · simp only [hparts, Nat.reduceLeDiff, if_false, if_true, List.append_nil]
    rw [List.cons_append, hfields, readFields_three h hthree, hdone, if_pos (hreadable hthree)]
  · simp only [hparts, Nat.reduceLeDiff, if_true]
    rw [List.cons_append, List.cons_append, hfields, readFields_four h]
    split
    · exact hdone
    · rfl

theorem newline_not_mem_decimal (n : Nat) : (10 : UInt8) ∉ decimal n := fun hmem =>
  absurd (isDigit_of_mem_decimal hmem) (by decide)

/-- The text of a stack stays on one line. -/
theorem newline_not_mem_serialize (order : MapOrder) (s : ItemStack) :
    (10 : UInt8) ∉ serialize order s := by
  have hfield : ∀ (p : Prop) [Decidable p] (text : Bytes), (10 : UInt8) ∉ text →
      (10 : UInt8) ∉ if p then 32 :: text else [] := by
    intro p _ text htext
    split
    · rw [List.mem_cons, not_or]
      exact ⟨by decide, htext⟩
    · exact List.not_mem_nil
  rw [serialize]
  split
  · exact List.not_mem_nil
  · rw [List.mem_append, List.mem_append, List.mem_append, not_or, not_or, not_or]
    exact ⟨Util.newline_not_mem_serialize s.name,
      hfield _ _ (newline_not_mem_decimal _), hfield _ _ (newline_not_mem_decimal _),
      hfield _ _ (Metadata.newline_not_mem_serialize order s.metadata)⟩

end

end ItemStack

end Inventory
end AxisEngine
