import AxisEngine.Util.Hex
import AxisEngine.Util.Strings
import Mathlib.Data.Option.Basic

/-!
# Crosshair — the code that players share

`CrosshairStyle` (`crosshair.h`) and the string it is passed on as.

* `toCode`, `fromCode` — the string, such as `AXCH1-cross-6-2-3-0-1-ffffffff-a0000000-ffff5050`;
* `InRange` — the styles a code may describe;
* `fromCode_toCode` — what is written is read back, and what is refused changes nothing.
-/

namespace AxisEngine
namespace Client

open Lib Util

inductive Shape
  | cross
  | x
  | dot
  | circle
  | square
  | brackets
  | none
  | count
  deriving DecidableEq

namespace CrosshairStyle

def maxSize : Int32 := 32
def maxThickness : Int32 := 8
def maxGap : Int32 := 24
def maxDot : Int32 := 8
def maxOutline : Int32 := 3

end CrosshairStyle

/-- The colours are `SColor`s: alpha, red, green and blue in one number. -/
structure CrosshairStyle where
  shape : Shape := .cross
  size : Int32 := 6
  thickness : Int32 := 2
  gap : Int32 := 3
  dot : Int32 := 0
  outline : Int32 := 1
  color : UInt32 := 0xffffffff
  outlineColor : UInt32 := 0xa0000000
  objectColor : UInt32 := 0xffff5050
  deriving DecidableEq

/-- `SHAPE_NAMES`, with the shapes in the order of the enumeration. -/
def shapeNames : List (Shape × Bytes) :=
  [(.cross, ascii "cross"), (.x, ascii "x"), (.dot, ascii "dot"), (.circle, ascii "circle"),
    (.square, ascii "square"), (.brackets, ascii "brackets"), (.none, ascii "none")]

/-- Whatever has no name is called a cross. -/
def shapeName (shape : Shape) : Bytes :=
  (shapeNames.lookup shape).getD (ascii "cross")

def shapeByName (name : Bytes) : Shape :=
  match shapeNames.find? fun p => p.2 = name with
  | some (shape, _) => shape
  | none => .count

/-- `%08x`. -/
def hexColor (color : UInt32) : Bytes :=
  (List.range 8).map fun i => hexChar (color.toNat / 16 ^ (7 - i) % 16)

def parseHexColor (text : Bytes) : Option UInt32 :=
  if text.length ≠ 8 then none
  else if text.any fun c => (hexDigitDecode c).isNone then none
  else some (UInt32.ofNat (ofHex text))

namespace CrosshairStyle

def toCode (style : CrosshairStyle) : Bytes :=
  ascii "AXCH1-" ++ shapeName style.shape ++
    ascii "-" ++ itos style.size ++
    ascii "-" ++ itos style.thickness ++
    ascii "-" ++ itos style.gap ++
    ascii "-" ++ itos style.dot ++
    ascii "-" ++ itos style.outline ++
    ascii "-" ++ hexColor style.color ++
    ascii "-" ++ hexColor style.outlineColor ++
    ascii "-" ++ hexColor style.objectColor

/-- One of the five numbers: digits as the number itself is written. -/
def parseNumber (text : Bytes) (max : Int32) : Option Int32 :=
  if text.isEmpty || !isNumber text then none
  else
    let value := mystoi text 0 max
    -- beyond the bounds it is written otherwise
    if itos value ≠ text then none else some value

/-- The style that ten parts describe. -/
def parseParts (parts : List Bytes) : Option CrosshairStyle := do
  let part (i : Nat) := parts.getD i []
  let shape := shapeByName (part 1)
  guard (shape ≠ .count)
  let size ← parseNumber (part 2) maxSize
  let thickness ← parseNumber (part 3) maxThickness
  let gap ← parseNumber (part 4) maxGap
  let dot ← parseNumber (part 5) maxDot
  let outline ← parseNumber (part 6) maxOutline
  guard (¬ thickness < 1)
  let color ← parseHexColor (part 7)
  let outlineColor ← parseHexColor (part 8)
  let objectColor ← parseHexColor (part 9)
  return { shape, size, thickness, gap, dot, outline, color, outlineColor, objectColor }

/-- Whether the code is accepted, and what `out` is then. -/
def fromCode (code : Bytes) (out : CrosshairStyle) : Bool × CrosshairStyle :=
  let trimmed := trim code
  let parts := strSplit trimmed 45
  if parts.length ≠ 10 ∨ parts.getD 0 [] ≠ ascii "AXCH1" then (false, out)
  else
    match parseParts parts with
    | some style => (true, style)
    | none => (false, out)

/-- The ranges that are declared.  A line has at least one pixel. -/
def InRange (style : CrosshairStyle) : Prop :=
  style.shape ≠ .count ∧ (0 ≤ style.size ∧ style.size ≤ maxSize) ∧
    (1 ≤ style.thickness ∧ style.thickness ≤ maxThickness) ∧
    (0 ≤ style.gap ∧ style.gap ≤ maxGap) ∧
    (0 ≤ style.dot ∧ style.dot ≤ maxDot) ∧
    (0 ≤ style.outline ∧ style.outline ≤ maxOutline)

section

variable {style : CrosshairStyle} {color : UInt32} {i max : Int32} {c : UInt8}

/-! ## The fields of a code -/

theorem shapeByName_shapeName {shape : Shape} (h : shape ≠ .count) :
    shapeByName (shapeName shape) = shape := by
  cases shape with
  | count => exact absurd rfl h
  | cross | x | dot | circle | square | brackets | none => decide

theorem parseNumber_itos (h : 0 ≤ i) (hmax : i ≤ max) : parseNumber (itos i) max = some i := by
  have hne : (itos i).isEmpty = false := by
    rw [itos_of_nonneg h, List.isEmpty_eq_false_iff]
    exact decimal_ne_nil _
  rw [parseNumber, hne, isNumber_itos h, mystoi_itos h hmax]
  simp

theorem parseNumber_mem {text : Bytes} (hmax : 0 ≤ max) (h : parseNumber text max = some i) :
    0 ≤ i ∧ i ≤ max := by
  rw [parseNumber] at h
  split at h
  · cases h
  · dsimp only at h
    split at h
    · cases h
    · cases h
      exact mystoi_mem text hmax

theorem ofHex_hexColor (color : UInt32) : ofHex (hexColor color) = color.toNat := by
  have hlt := color.toNat_lt
  have hdigit : ∀ n, hexValue (hexChar (n % 16)) = n % 16 := fun n =>
    hexValue_hexChar _ (Nat.mod_lt n (by decide))
  simp only [hexColor, ofHex, List.range, List.range.loop, List.map_cons, List.map_nil,
    List.foldl_cons, List.foldl_nil, hdigit]
  omega

theorem length_hexColor (color : UInt32) : (hexColor color).length = 8 := by
  rw [hexColor, List.length_map, List.length_range]

theorem parseHexColor_hexColor (color : UInt32) : parseHexColor (hexColor color) = some color := by
  have hdigits : (hexColor color).any (fun c => (hexDigitDecode c).isNone) = false := by
    rw [List.any_eq_false]
    intro c hc
    rcases List.mem_map.1 hc with ⟨i, -, rfl⟩
    rw [Option.isNone_iff_eq_none, ← Option.not_isSome_iff_eq_none, not_not]
    exact isSome_hexChar _ (Nat.mod_lt _ (by decide))
  rw [parseHexColor, if_neg (not_not.2 (length_hexColor color)), hdigits, ofHex_hexColor, UInt32.ofNat_toNat]
  rfl

/-! ## The code and its parts -/

def codeParts (style : CrosshairStyle) : List Bytes :=
  [ascii "AXCH1", shapeName style.shape, itos style.size, itos style.thickness, itos style.gap,
    itos style.dot, itos style.outline, hexColor style.color, hexColor style.outlineColor,
    hexColor style.objectColor]

theorem toCode_eq (style : CrosshairStyle) : style.toCode = [45].intercalate style.codeParts := by
  have hversion : ascii "AXCH1-" = ascii "AXCH1" ++ [45] := rfl
  have hdelimiter : ascii "-" = [45] := rfl
  simp only [toCode, codeParts, hversion, hdelimiter, List.intercalate_cons_cons,
    List.intercalate_singleton, List.append_assoc]

theorem mem_itos (h : 0 ≤ i) (hc : c ∈ itos i) : c ≠ 45 ∧ isSpace c = false := by
  rw [itos_of_nonneg h] at hc
  have hdigit := isDigit_iff.1 (isDigit_of_mem_decimal hc)
  have hc45 : c ≠ 45 := by
    rintro rfl
    exact absurd hdigit.1 (by decide)
  refine ⟨hc45, ?_⟩
  have hspace : (32 : UInt8).toNat = 32 := rfl
  have hreturn : (13 : UInt8).toNat = 13 := rfl
  simp only [isSpace, Bool.or_eq_false_iff, Bool.and_eq_false_iff, decide_eq_false_iff_not,
    UInt8.le_iff_toNat_le, ← UInt8.toNat_inj, hspace, hreturn]
  omega

theorem mem_hexColor (hc : c ∈ hexColor color) : c ≠ 45 ∧ isSpace c = false := by
  have hall : ∀ n, n < 16 → hexChar n ≠ 45 ∧ isSpace (hexChar n) = false := by decide
  rcases List.mem_map.1 hc with ⟨i, -, rfl⟩
  exact hall _ (Nat.mod_lt _ (by decide))

/-- A name of a shape is in small letters. -/
theorem shapeName_lower {shape : Shape} (hc : c ∈ shapeName shape) :
    97 ≤ c.toNat ∧ c.toNat ≤ 122 := by
  have hnames : ∀ p ∈ shapeNames, ∀ c ∈ p.2, 97 ≤ c.toNat ∧ c.toNat ≤ 122 := by
    simp only [shapeNames, List.forall_mem_cons, List.not_mem_nil, false_implies, implies_true,
      and_true]
    and_intros
    all_goals exact forall_mem_ascii rfl
  rw [shapeName] at hc
  cases hlookup : shapeNames.lookup shape with
  | none =>
    rw [hlookup] at hc
    exact hnames (.cross, ascii "cross") List.mem_cons_self c hc
  | some name =>
    rw [hlookup] at hc
    rcases List.lookup_eq_some_iff.1 hlookup with ⟨l, r, hl, -⟩
    refine hnames (shape, name) ?_ c hc
    rw [hl]
    exact List.mem_append_right _ List.mem_cons_self

theorem mem_shapeName {shape : Shape} (hc : c ∈ shapeName shape) : c ≠ 45 ∧ isSpace c = false := by
  have hlower := shapeName_lower hc
  have hc45 : c ≠ 45 := by
    rintro rfl
    exact absurd hlower.1 (by decide)
  refine ⟨hc45, ?_⟩
  have hspace : (32 : UInt8).toNat = 32 := rfl
  have hreturn : (13 : UInt8).toNat = 13 := rfl
  simp only [isSpace, Bool.or_eq_false_iff, Bool.and_eq_false_iff, decide_eq_false_iff_not,
    UInt8.le_iff_toNat_le, ← UInt8.toNat_inj, hspace, hreturn]
  omega

theorem mem_codeParts (h : style.InRange) : ∀ part ∈ style.codeParts, ∀ c ∈ part,
    c ≠ 45 ∧ isSpace c = false := by
  rcases h with ⟨-, hsize, hthickness, hgap, hdot, houtline⟩
  have hversion : ∀ c ∈ ascii "AXCH1", c ≠ 45 ∧ isSpace c = false :=
    forall_mem_ascii rfl
  simp only [codeParts, List.forall_mem_cons]
  exact ⟨hversion, fun c => mem_shapeName, fun c => mem_itos hsize.1,
    fun c => mem_itos (Int32.le_trans (by decide) hthickness.1), fun c => mem_itos hgap.1,
    fun c => mem_itos hdot.1, fun c => mem_itos houtline.1, fun c => mem_hexColor,
    fun c => mem_hexColor, fun c => mem_hexColor, fun part hpart => absurd hpart List.not_mem_nil⟩

theorem strSplit_toCode (h : style.InRange) : strSplit (trim style.toCode) 45 = style.codeParts := by
  have hparts := mem_codeParts h
  have htrim : trim style.toCode = style.toCode := by
    refine trim_eq_self_of_no_space fun c hc => ?_
    rw [toCode_eq] at hc
    rcases mem_intercalate hc with rfl | ⟨part, hpart, hc⟩
    · rfl
    · exact (hparts part hpart c hc).2
  rw [htrim, toCode_eq]
  refine strSplit_intercalate (fun part hpart hmem => (hparts part hpart 45 hmem).1 rfl)
    (List.cons_ne_nil _ _) ?_
  intro hlast
  have hcolor : hexColor style.objectColor = [] := Option.some.inj hlast
  have hlength := congrArg List.length hcolor
  rw [length_hexColor] at hlength
  cases hlength

theorem parseParts_codeParts (h : style.InRange) : parseParts style.codeParts = some style := by
  rcases h with ⟨hshape, hsize, hthickness, hgap, hdot, houtline⟩
  have hone : (guard (¬ style.thickness < 1) : Option Unit) = some () :=
    if_pos (Int32.not_lt.2 hthickness.1)
  have hnamed : (guard (style.shape ≠ .count) : Option Unit) = some () := if_pos hshape
  have hpos : 0 ≤ style.thickness := Int32.le_trans (by decide) hthickness.1
  simp only [parseParts, codeParts, List.getD_cons_succ, List.getD_cons_zero,
    shapeByName_shapeName hshape, parseNumber_itos hsize.1 hsize.2,
    parseNumber_itos hpos hthickness.2, parseNumber_itos hgap.1 hgap.2,
    parseNumber_itos hdot.1 hdot.2, parseNumber_itos houtline.1 houtline.2,
    parseHexColor_hexColor, hnamed, hone,
    Option.bind_eq_bind, Option.bind_some]
  rfl

theorem parseParts_inRange {parts : List Bytes} (h : parseParts parts = some style) :
    style.InRange := by
  simp only [parseParts, Option.bind_eq_bind, Option.bind_eq_some_iff, Option.guard_eq_some',
    Option.pure_def, Option.some.injEq] at h
  rcases h with ⟨-, hshape, size, hsize, thickness, hthickness, gap, hgap, dot, hdot, outline,
    houtline, -, hone, color, -, outlineColor, -, objectColor, -, rfl⟩
  exact ⟨hshape, parseNumber_mem (by decide) hsize,
    ⟨Int32.not_lt.1 hone, (parseNumber_mem (by decide) hthickness).2⟩,
    parseNumber_mem (by decide) hgap, parseNumber_mem (by decide) hdot,
    parseNumber_mem (by decide) houtline⟩

/-- A code that is accepted describes a style in range. -/
theorem fromCode_inRange {code : Bytes} {out : CrosshairStyle}
    (h : (fromCode code out).1 = true) : (fromCode code out).2.InRange := by
  rw [fromCode] at h ⊢
  split at h
  · cases h
  · rename_i hparts
    rw [if_neg hparts]
    cases hparse : parseParts (strSplit (trim code) 45) with
    | none =>
      simp only [hparse] at h
      cases h
    | some style => exact parseParts_inRange hparse

/-- The code of a style in range is accepted and gives this style, and what is not accepted leaves
the style as it was. -/
theorem fromCode_toCode :
    (∀ style out : CrosshairStyle, style.InRange → fromCode style.toCode out = (true, style)) ∧
      ∀ (code : Bytes) (out : CrosshairStyle), (fromCode code out).1 = false →
        (fromCode code out).2 = out := by
  refine ⟨fun style out h => ?_, fun code out h => ?_⟩
  · have hlength : ¬ (style.codeParts.length ≠ 10 ∨
        style.codeParts.getD 0 [] ≠ ascii "AXCH1") := by
      simp [codeParts]
    rw [fromCode]
    simp only [strSplit_toCode h, if_neg hlength, parseParts_codeParts h]
  · rw [fromCode] at h ⊢
    split at h
    · rename_i hrefused
      rw [if_pos hrefused]
    · rename_i hparts
      rw [if_neg hparts]
      cases hparse : parseParts (strSplit (trim code) 45) with
      | none => rfl
      | some style =>
        simp only [hparse] at h
        cases h

theorem fromCode_toCode_default :
    fromCode (toCode { }) { dot := 4 } = (true, { }) ∧
      (fromCode (ascii "AXCH1-cross") { dot := 4 }).2 = { dot := 4 } :=
  ⟨fromCode_toCode.1 { } { dot := 4 } (by unfold InRange; decide),
    fromCode_toCode.2 (ascii "AXCH1-cross") { dot := 4 } (by decide)⟩

end

end CrosshairStyle

end Client
end AxisEngine
