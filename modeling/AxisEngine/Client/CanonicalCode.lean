import AxisEngine.Client.Crosshair

/-!
# CanonicalCode — the spellings of a crosshair code

`fromCode` asks that all but the white space around a code matches to the letter.  It lets two
deviations pass: `getline` gives no part behind a delimiter at the very end, and a colour may have
its digits in capitals.

* `Canonical` — a code without these two;
* `hexColor_parseHexColor`, `itos_parseNumber`, `shapeName_shapeByName` — the fields that are read;
* `toCode_fromCode_iff` — what is read is written again as it was, for these codes only.
-/

namespace AxisEngine
namespace Client

open Lib Util

/-- `A` to `F`. -/
def CapitalHex (c : UInt8) : Prop :=
  65 ≤ c ∧ c ≤ 70

namespace CrosshairStyle

/-- There is no delimiter at the end and, behind the version, no digit in capitals. -/
def Canonical (trimmed : Bytes) : Prop :=
  trimmed.getLast? ≠ some 45 ∧ ∀ c ∈ trimmed.drop 5, ¬ CapitalHex c

section

variable {style : CrosshairStyle} {text code trimmed : Bytes} {c : UInt8} {i max : Int32}

/-! ## The fields that are read -/

theorem shapeName_shapeByName {name : Bytes} (h : shapeByName name ≠ .count) :
    shapeName (shapeByName name) = name := by
  rw [shapeByName] at h ⊢
  cases hfind : shapeNames.find? fun p => p.2 = name with
  | none =>
    simp only [hfind] at h
    exact absurd rfl h
  | some p =>
    have hname : p.2 = name := by simpa using List.find?_some hfind
    have hall : ∀ p ∈ shapeNames, shapeName p.1 = p.2 := by
      simp only [shapeNames, List.forall_mem_cons, List.not_mem_nil, false_implies, implies_true,
        and_true]
      and_intros
      all_goals rfl
    exact (hall p (List.mem_of_find?_eq_some hfind)).trans hname

theorem itos_parseNumber (h : parseNumber text max = some i) : itos i = text := by
  rw [parseNumber] at h
  split at h
  · cases h
  · dsimp only at h
    split at h
    · cases h
    · rename_i hsame
      cases h
      exact not_not.1 hsame

theorem hexChar_hexValue (hdigit : (hexDigitDecode c).isSome = true) (hsmall : ¬ CapitalHex c) :
    hexChar (hexValue c) = c ∧ hexValue c < 16 := by
  have hall : ∀ n, n < 256 → (hexDigitDecode (UInt8.ofNat n)).isSome = true →
      ¬ (65 ≤ UInt8.ofNat n ∧ UInt8.ofNat n ≤ 70) →
        hexChar (hexValue (UInt8.ofNat n)) = UInt8.ofNat n ∧ hexValue (UInt8.ofNat n) < 16 := by
    decide +kernel
  have hc := hall c.toNat c.toNat_lt
  rw [UInt8.ofNat_toNat] at hc
  exact hc hdigit hsmall

theorem ofHex_concat (digits : Bytes) (c : UInt8) :
    ofHex (digits ++ [c]) = 16 * ofHex digits + hexValue c := by
  rw [ofHex, List.foldl_append]
  rfl

/-- The digits of the number that digits stand for. -/
theorem map_hexChar_ofHex (h : ∀ c ∈ text, hexChar (hexValue c) = c ∧ hexValue c < 16) :
    ofHex text < 16 ^ text.length ∧ ((List.range text.length).map fun i =>
      hexChar (ofHex text / 16 ^ (text.length - 1 - i) % 16)) = text := by
  induction text using List.reverseRecOn with
  | nil => exact ⟨Nat.one_pos, rfl⟩
  | append_singleton digits c ih =>
    rcases ih fun b hb => h b (List.mem_append_left _ hb) with ⟨hlt, hmap⟩
    rcases h c (List.mem_append_right _ (List.mem_singleton_self c)) with ⟨hchar, hvalue⟩
    rw [List.length_append, List.length_singleton, ofHex_concat]
    refine ⟨by rw [pow_succ]; omega, ?_⟩
    have hfront : ∀ i ∈ List.range digits.length,
        hexChar ((16 * ofHex digits + hexValue c) / 16 ^ (digits.length + 1 - 1 - i) % 16) =
          hexChar (ofHex digits / 16 ^ (digits.length - 1 - i) % 16) := by
      intro i hi
      have hexp : digits.length + 1 - 1 - i = 1 + (digits.length - 1 - i) := by
        have hlen := List.mem_range.1 hi
        omega
      have hdigits : (16 * ofHex digits + hexValue c) / 16 ^ 1 = ofHex digits := by omega
      rw [hexp, pow_add, ← Nat.div_div_eq_div_mul, hdigits]
    have hlast : (16 * ofHex digits + hexValue c) /
        16 ^ (digits.length + 1 - 1 - digits.length) % 16 = hexValue c := by
      rw [Nat.add_sub_cancel, Nat.sub_self, pow_zero, Nat.div_one]
      omega
    rw [List.range_succ, List.map_append, List.map_congr_left hfront, hmap, List.map_singleton,
      hlast, hchar]

/-- Eight digits in small letters are the ones that the colour is written with. -/
theorem hexColor_parseHexColor {color : UInt32} (h : parseHexColor text = some color)
    (hsmall : ∀ c ∈ text, ¬ CapitalHex c) : hexColor color = text := by
  rw [parseHexColor] at h
  split at h
  · cases h
  · rename_i hlength
    split at h
    · cases h
    · rename_i hdigits
      cases h
      rw [not_not] at hlength
      have hvalue : ∀ c ∈ text, hexChar (hexValue c) = c ∧ hexValue c < 16 := by
        intro c hc
        refine hexChar_hexValue ?_ (hsmall c hc)
        rw [List.any_eq_true] at hdigits
        push Not at hdigits
        exact Option.isSome_iff_ne_none.2 (by simpa using hdigits c hc)
      rcases map_hexChar_ofHex hvalue with ⟨hlt, hmap⟩
      rw [hlength] at hlt hmap
      rw [hexColor, UInt32.toNat_ofNat_of_lt' hlt]
      exact hmap

/-! ## The parts of a code -/

/-- Without a delimiter at the end the parts are all there is. -/
theorem intercalate_strSplit (h : trimmed.getLast? ≠ some 45) :
    [45].intercalate (strSplit trimmed 45) = trimmed := by
  have hall : [45].intercalate (trimmed.splitOn 45) = trimmed := List.intercalate_splitOn 45
  rw [strSplit]
  split
  · rename_i hlast
    have hparts := List.dropLast_append_getLast? [] hlast
    by_cases hfront : (trimmed.splitOn 45).dropLast = []
    · rw [hfront, List.nil_append] at hparts
      rw [hfront]
      rwa [← hparts] at hall
    · rw [← hparts, intercalate_concat_nil hfront] at hall
      rw [← hall, List.getLast?_append_of_ne_nil _ (List.cons_ne_nil _ _)] at h
      exact absurd rfl h
  · exact hall

theorem not_capitalHex_itos (h : 0 ≤ i) (hc : c ∈ itos i) : ¬ CapitalHex c := by
  rw [itos_of_nonneg h] at hc
  have hdigit := isDigit_iff.1 (isDigit_of_mem_decimal hc)
  rintro ⟨hlow, -⟩
  rw [UInt8.le_iff_toNat_le] at hlow
  have hA : (65 : UInt8).toNat = 65 := rfl
  omega

theorem not_capitalHex_hexColor {color : UInt32} (hc : c ∈ hexColor color) : ¬ CapitalHex c := by
  have hall : ∀ n, n < 16 → ¬ (65 ≤ hexChar n ∧ hexChar n ≤ 70) := by decide
  rcases List.mem_map.1 hc with ⟨i, -, rfl⟩
  exact hall _ (Nat.mod_lt _ (by decide))

theorem not_capitalHex_shapeName {shape : Shape} (hc : c ∈ shapeName shape) : ¬ CapitalHex c := by
  have hlower := shapeName_lower hc
  rintro ⟨-, hhigh⟩
  rw [UInt8.le_iff_toNat_le] at hhigh
  have hF : (70 : UInt8).toNat = 70 := rfl
  omega

/-- A code that is written has neither of the two deviations. -/
theorem canonical_toCode (h : style.InRange) : Canonical style.toCode := by
  have hpos : 0 ≤ style.thickness := Int32.le_trans (by decide) h.2.2.1.1
  have hparts : ∀ part ∈ style.codeParts.tail, ∀ c ∈ part, ¬ CapitalHex c := by
    simp only [codeParts, List.tail_cons, List.forall_mem_cons]
    exact ⟨fun c => not_capitalHex_shapeName, fun c => not_capitalHex_itos h.2.1.1,
      fun c => not_capitalHex_itos hpos, fun c => not_capitalHex_itos h.2.2.2.1.1,
      fun c => not_capitalHex_itos h.2.2.2.2.1.1, fun c => not_capitalHex_itos h.2.2.2.2.2.1,
      fun c => not_capitalHex_hexColor, fun c => not_capitalHex_hexColor,
      fun c => not_capitalHex_hexColor, fun part hpart => absurd hpart List.not_mem_nil⟩
  have hversion : style.toCode = ascii "AXCH1" ++ ([45] ++ [45].intercalate style.codeParts.tail) := by
    rw [toCode_eq, codeParts, List.intercalate_cons_cons, List.append_assoc]
    rfl
  refine ⟨fun hlast => ?_, fun c hc => ?_⟩
  · -- the last byte is a digit of the last colour
    have hne : hexColor style.objectColor ≠ [] := by
      rw [← List.length_pos_iff, length_hexColor]
      decide
    rw [toCode, List.getLast?_append_of_ne_nil _ hne] at hlast
    exact (mem_hexColor (List.mem_of_getLast? hlast)).1 rfl
  · have hlength : (ascii "AXCH1").length = 5 := rfl
    rw [hversion, ← hlength, List.drop_left] at hc
    rcases List.mem_append.1 hc with hc | hc
    · rw [List.mem_singleton.1 hc]
      unfold CapitalHex
      decide
    · rcases mem_intercalate hc with rfl | ⟨part, hpart, hc⟩
      · unfold CapitalHex
        decide
      · exact hparts part hpart c hc

/-! ## Reading and writing again -/

/-- What is written for a style that was read from parts in small letters are these parts. -/
theorem codeParts_parseParts {parts : List Bytes} (hlength : parts.length = 10)
    (hversion : parts.getD 0 [] = ascii "AXCH1") (h : parseParts parts = some style)
    (hsmall : ∀ part ∈ parts.tail, ∀ c ∈ part, ¬ CapitalHex c) : style.codeParts = parts := by
  simp only [parseParts, Option.bind_eq_bind, Option.bind_eq_some_iff, Option.guard_eq_some',
    Option.pure_def, Option.some.injEq] at h
  rcases h with ⟨-, hshape, size, hsize, thickness, hthickness, gap, hgap, dot, hdot, outline,
    houtline, -, -, color, hcolor, outlineColor, houtlineColor, objectColor, hobjectColor, rfl⟩
  have hpart : ∀ i, i + 1 < 10 → ∀ c ∈ parts.getD (i + 1) [], ¬ CapitalHex c := by
    intro i hi
    refine hsmall _ ?_
    rw [List.getD_eq_getElem _ _ (hlength ▸ hi), ← List.getElem_tail (by simp [hlength]; omega)]
    exact List.getElem_mem _
  have hcolors : hexColor color = _ := hexColor_parseHexColor hcolor (hpart 6 (by decide))
  have houtlines : hexColor outlineColor = _ :=
    hexColor_parseHexColor houtlineColor (hpart 7 (by decide))
  have hobjects : hexColor objectColor = _ :=
    hexColor_parseHexColor hobjectColor (hpart 8 (by decide))
  rw [codeParts, shapeName_shapeByName hshape, itos_parseNumber hsize, itos_parseNumber hthickness,
    itos_parseNumber hgap, itos_parseNumber hdot, itos_parseNumber houtline, hcolors, houtlines,
    hobjects, ← hversion]
  calc
    _ = (List.range 10).map fun i => parts.getD i [] := rfl
    _ = parts := by
        refine List.ext_getElem (by rw [List.length_map, List.length_range, hlength]) ?_
        intro i hi hi'
        rw [List.getElem_map, List.getElem_range, List.getD_eq_getElem _ _ hi']

theorem fromCode_eq_true {out : CrosshairStyle} (h : (fromCode code out).1 = true) :
    (strSplit (trim code) 45).length = 10 ∧
      (strSplit (trim code) 45).getD 0 [] = ascii "AXCH1" ∧
      parseParts (strSplit (trim code) 45) = some (fromCode code out).2 := by
  rw [fromCode] at h ⊢
  split at h
  · cases h
  · rename_i hparts
    rw [if_neg hparts]
    rw [not_or, not_not, not_not] at hparts
    cases hparse : parseParts (strSplit (trim code) 45) with
    | none =>
      simp only [hparse] at h
      cases h
    | some style => exact ⟨hparts.1, hparts.2, rfl⟩

theorem toCode_of_canonical {out : CrosshairStyle} (h : (fromCode code out).1 = true)
    (hcode : Canonical (trim code)) : (fromCode code out).2.toCode = trim code := by
  rcases fromCode_eq_true h with ⟨hlength, hversion, hparse⟩
  have hsplit := intercalate_strSplit hcode.1
  have hlengthVersion : (ascii "AXCH1").length = 5 := rfl
  have hsmall : ∀ part ∈ (strSplit (trim code) 45).tail, ∀ c ∈ part, ¬ CapitalHex c := by
    intro part hpart c hc
    refine hcode.2 c ?_
    cases hparts : strSplit (trim code) 45 with
    | nil =>
      rw [hparts] at hpart
      cases hpart
    | cons first parts =>
      rw [hparts] at hversion hpart hsplit
      have hfirst : first = ascii "AXCH1" := hversion
      cases parts with
      | nil => cases hpart
      | cons second parts =>
        rw [List.intercalate_cons_cons, hfirst, List.append_assoc] at hsplit
        rw [← hsplit, ← hlengthVersion, List.drop_left]
        exact List.mem_append_right _ (mem_intercalate_of_mem hpart hc)
  rw [toCode_eq, codeParts_parseParts hlength hversion hparse hsmall, hsplit]

end

/-- A code that is accepted is written again as it was, but for the white space around it, if and
only if it has no delimiter at the end and no digit in capitals; and of these codes no two describe
the same style. -/
theorem toCode_fromCode_iff (out : CrosshairStyle) :
    (∀ code : Bytes, (fromCode code out).1 = true →
      ((fromCode code out).2.toCode = trim code ↔ Canonical (trim code))) ∧
    ∀ code code' : Bytes, (fromCode code out).1 = true → (fromCode code' out).1 = true →
      Canonical (trim code) → Canonical (trim code') →
        (fromCode code out).2 = (fromCode code' out).2 → trim code = trim code' := by
  refine ⟨fun code h => ⟨fun heq => ?_, toCode_of_canonical h⟩,
    fun code code' h h' hcode hcode' hsame => ?_⟩
  · rw [← heq]
    exact canonical_toCode (fromCode_inRange h)
  · rw [← toCode_of_canonical h hcode, ← toCode_of_canonical h' hcode', hsame]

def defaultCode : Bytes :=
  ascii "AXCH1-cross-6-2-3-0-1-ffffffff-a0000000-ffff5050"

theorem toCode_fromCode_default :
    ((fromCode (ascii " " ++ defaultCode) { }).2.toCode = defaultCode) ∧
      trim (ascii " " ++ defaultCode) = trim defaultCode := by
  have hcode : defaultCode = _ := ascii_ofList _
  rw [hcode]
  exact ⟨((toCode_fromCode_iff { }).1 _ (by decide +kernel)).2
      (by unfold Canonical CapitalHex; decide +kernel),
    (toCode_fromCode_iff { }).2 _ _ (by decide +kernel) (by decide +kernel)
      (by unfold Canonical CapitalHex; decide +kernel)
      (by unfold Canonical CapitalHex; decide +kernel) (by decide +kernel)⟩

/-- A delimiter at the end and a colour in capitals are both let through. -/
theorem fromCode_deviations :
    (fromCode (defaultCode ++ ascii "-") { dot := 4 } = (true, { }) ∧
      toCode { } ≠ trim (defaultCode ++ ascii "-")) ∧
    fromCode (ascii "AXCH1-cross-6-2-3-0-1-FFFFFFFF-a0000000-ffff5050") { dot := 4 } = (true, { }) ∧
      toCode { } ≠ trim (ascii "AXCH1-cross-6-2-3-0-1-FFFFFFFF-a0000000-ffff5050") := by
  have hcode : defaultCode = _ := ascii_ofList _
  have hcapital : ascii "AXCH1-cross-6-2-3-0-1-FFFFFFFF-a0000000-ffff5050" = _ := ascii_ofList _
  rw [hcode, hcapital]
  decide +kernel

end CrosshairStyle

end Client
end AxisEngine
