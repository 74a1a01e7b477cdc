import AxisEngine.Lib.IStream
import AxisEngine.Lib.Returns
import AxisEngine.Util.Hex

/-!
# JsonString — JSON-like strings

`serializeJsonString` and its inverse (`util/serialize.cpp`), which item names and item metadata
are written with.

* `serializeJsonString`, `deSerializeJsonString` — the quoted form;
* `serializeJsonStringIfNeeded`, `deSerializeJsonStringIfNeeded` — quotes only where a byte asks
  for them;
* `deSerialize_ifNeeded_space`, `deSerialize_ifNeeded_end` — the round trips.
-/

namespace AxisEngine
namespace Util

open Lib

/-- What the readers of text throw. -/
inductive Exception
  | serializationError (what : Bytes)
  /-- Thrown by the JSON library. -/
  | jsonError
  deriving DecidableEq

theorem mem_of_mapM {α β : Type} {f : α → Except Exception β} {l : List α} {l' : List β} {b : β}
    (h : l.mapM f = .ok l') (hb : b ∈ l') : ∃ a ∈ l, f a = .ok b := by
  have hall := mapM_eq_ok.1 h
  clear h
  induction hall with
  | nil => exact (List.not_mem_nil hb).elim
  | cons hfirst _ ih =>
    rcases List.mem_cons.1 hb with rfl | hb
    · exact ⟨_, List.mem_cons_self .., hfirst⟩
    · rcases ih hb with ⟨a, ha, hab⟩
      exact ⟨a, List.mem_cons_of_mem _ ha, hab⟩

/-! ## Writing -/

def escapeByte (c : UInt8) : Bytes :=
  if c = 34 then [92, 34]
  else if c = 92 then [92, 92]
  else if c = 8 then ascii "\\b"
  else if c = 12 then ascii "\\f"
  else if c = 10 then ascii "\\n"
  else if c = 13 then ascii "\\r"
  else if c = 9 then ascii "\\t"
  else if c < 32 ∨ c = 127 then
    ascii "\\u00" ++ [hexChar (c.toNat / 16), hexChar (c.toNat % 16)]
  else [c]

def serializeJsonString (plain : Bytes) : Bytes :=
  34 :: (plain.flatMap escapeByte ++ [34])

/-- `char` may be signed: bytes from 128 on are below 0x1f or above 0x7f. -/
def needsQuotes (c : UInt8) : Bool :=
  c ≤ 0x1f || 0x7f ≤ c || c = 32 || c = 34

def serializeJsonStringIfNeeded (s : Bytes) : Bytes :=
  if s.any needsQuotes then serializeJsonString s else s

/-! ## Reading -/

def endedPrematurely : Exception :=
  .serializationError (ascii "JSON string ended prematurely")

/-- The part of `deSerializeJsonString` that resolves escapes, between the quotes. -/
def unescape : Bytes → Except Exception Bytes
  | [] => .ok []
  | 92 :: [] => .error endedPrematurely
  | 92 :: 98 :: rest => (unescape rest).map fun s => 8 :: s
  | 92 :: 102 :: rest => (unescape rest).map fun s => 12 :: s
  | 92 :: 110 :: rest => (unescape rest).map fun s => 10 :: s
  | 92 :: 114 :: rest => (unescape rest).map fun s => 13 :: s
  | 92 :: 116 :: rest => (unescape rest).map fun s => 9 :: s
  | 92 :: 117 :: a :: b :: c :: d :: rest =>
    -- only the lower byte of the number is kept
    (unescape rest).map fun s =>
      UInt8.ofNat (4096 * hexValue a + 256 * hexValue b + 16 * hexValue c + hexValue d) :: s
  | 92 :: 117 :: _ => .error endedPrematurely
  | 92 :: c :: rest => (unescape rest).map fun s => c :: s
  | c :: rest => (unescape rest).map fun s => c :: s

/-- "Grab the entire json string": what stands before the closing quote, and what follows it. -/
def grabString (wasBackslash : Bool) : Bytes → Option (Bytes × Bytes)
  | [] => none
  | c :: rest =>
    if !wasBackslash && c = 34 then some ([], rest)
    else (grabString (!wasBackslash && c = 92) rest).map fun r => (c :: r.1, r.2)

def deSerializeJsonString (is : IStream) : Except Exception (Bytes × IStream) :=
  match is.get with
  | (some 34, is) =>
    match grabString false is.rest with
    | none => .error endedPrematurely
    | some (body, rest) => (unescape body).map fun s => (s, { is with rest := rest })
  | _ => .error (.serializationError (ascii "JSON string must start with doublequote"))

def deSerializeJsonStringIfNeeded (is : IStream) : Except Exception (Bytes × IStream) :=
  let (c, is) := is.peek
  if is.eof then .ok ([], is)
  else if c = some 34 then deSerializeJsonString is
  else
    let (tmp, is) := is.getline 32
    -- "we hit a space, put it back"
    .ok (tmp, if is.eof then is else is.unget 32)

/-! ## What is written is read back -/

section

variable {c : UInt8} {s rest : Bytes}

theorem unescape_of_ne (hc : c ≠ 92) (rest : Bytes) :
    unescape (c :: rest) = (unescape rest).map fun s => c :: s := by
  rw [unescape.eq_def]
  split
  all_goals first | rfl | simp_all

/-- A number of four digits, of which the first two are zero. -/
theorem unescape_control (hc : c.toNat < 256) (rest : Bytes) :
    unescape (ascii "\\u00" ++ [hexChar (c.toNat / 16), hexChar (c.toNat % 16)] ++ rest) =
      (unescape rest).map fun s => c :: s := by
  have hstep : unescape (ascii "\\u00" ++ [hexChar (c.toNat / 16), hexChar (c.toNat % 16)] ++ rest) =
      (unescape rest).map fun s =>
        UInt8.ofNat (4096 * hexValue 48 + 256 * hexValue 48 + 16 * hexValue (hexChar (c.toNat / 16)) +
          hexValue (hexChar (c.toNat % 16))) :: s := rfl
  have hzero : hexValue 48 = 0 := by decide
  have hbyte : UInt8.ofNat (4096 * 0 + 256 * 0 + 16 * (c.toNat / 16) + c.toNat % 16) = c := by
    apply UInt8.toNat_inj.1
    rw [UInt8.toNat_ofNat']
    omega
  rw [hstep, hzero, hexValue_hexChar _ (by omega), hexValue_hexChar _ (by omega), hbyte]

theorem unescape_escapeByte (c : UInt8) (rest : Bytes) :
    unescape (escapeByte c ++ rest) = (unescape rest).map fun s => c :: s := by
  rw [escapeByte]
  split_ifs with hquote hbackslash hb hf hn hr ht hcontrol
  · rw [hquote]
    rfl
  · rw [hbackslash]
    rfl
  · rw [hb]
    rfl
  · rw [hf]
    rfl
  · rw [hn]
    rfl
  · rw [hr]
    rfl
  · rw [ht]
    rfl
  · exact unescape_control c.toNat_lt rest
  · exact unescape_of_ne hbackslash rest

theorem unescape_flatMap (plain : Bytes) : unescape (plain.flatMap escapeByte) = .ok plain := by
  induction plain with
  | nil => rfl
  | cons c plain ih =>
    rw [List.flatMap_cons, unescape_escapeByte, ih]
    rfl

theorem grabString_backslash (c : UInt8) (rest : Bytes) :
    grabString false (92 :: c :: rest) =
      (grabString false rest).map fun r => (92 :: c :: r.1, r.2) := by
  have hfirst : grabString false (92 :: c :: rest) =
      (grabString true (c :: rest)).map fun r => (92 :: r.1, r.2) := rfl
  rw [hfirst, grabString]
  simp [Function.comp_def]

theorem grabString_of_ne (hquote : c ≠ 34) (hbackslash : c ≠ 92) (rest : Bytes) :
    grabString false (c :: rest) = (grabString false rest).map fun r => (c :: r.1, r.2) := by
  rw [grabString]
  simp [hquote, hbackslash]

/-- No closing quote is found inside an escaped byte. -/
theorem grabString_escapeByte (c : UInt8) (rest : Bytes) :
    grabString false (escapeByte c ++ rest) =
      (grabString false rest).map fun r => (escapeByte c ++ r.1, r.2) := by
  rw [escapeByte]
  split_ifs with hquote hbackslash hb hf hn hr ht hcontrol
  · exact grabString_backslash 34 rest
  · exact grabString_backslash 92 rest
  · exact grabString_backslash 98 rest
  · exact grabString_backslash 102 rest
  · exact grabString_backslash 110 rest
  · exact grabString_backslash 114 rest
  · exact grabString_backslash 116 rest
  · have hlt := c.toNat_lt
    rcases hexChar_ne (c.toNat / 16) (by omega) with ⟨hhigh, hhigh'⟩
    rcases hexChar_ne (c.toNat % 16) (by omega) with ⟨hlow, hlow'⟩
    have hzero : (48 : UInt8) ≠ 34 ∧ (48 : UInt8) ≠ 92 := by decide
    have htext : ascii "\\u00" ++ [hexChar (c.toNat / 16), hexChar (c.toNat % 16)] ++ rest =
        92 :: 117 :: 48 :: 48 :: hexChar (c.toNat / 16) :: hexChar (c.toNat % 16) :: rest := rfl
    rw [htext, grabString_backslash, grabString_of_ne hzero.1 hzero.2,
      grabString_of_ne hzero.1 hzero.2, grabString_of_ne hhigh hhigh', grabString_of_ne hlow hlow']
    simp only [Option.map_map]
    rfl
  · exact grabString_of_ne hquote hbackslash rest

theorem grabString_flatMap (plain rest : Bytes) :
    grabString false (plain.flatMap escapeByte ++ 34 :: rest) =
      some (plain.flatMap escapeByte, rest) := by
  induction plain with
  | nil => rfl
  | cons c plain ih =>
    rw [List.flatMap_cons, List.append_assoc, grabString_escapeByte, ih]
    rfl

theorem deSerializeJsonString_serialize (plain rest : Bytes) :
    deSerializeJsonString { rest := serializeJsonString plain ++ rest } =
      .ok (plain, { rest := rest }) := by
  have hget : ({ rest := serializeJsonString plain ++ rest } : IStream).get =
      (some 34, { rest := plain.flatMap escapeByte ++ 34 :: rest }) := by
    have htext : serializeJsonString plain ++ rest =
        34 :: (plain.flatMap escapeByte ++ 34 :: rest) := by
      rw [serializeJsonString, List.cons_append, List.append_assoc]
      rfl
    rw [htext]
    rfl
  rw [deSerializeJsonString, hget]
  simp only [grabString_flatMap, unescape_flatMap]
  rfl

/-- A string that is not quoted has no blank and does not begin with a quote. -/
theorem plain_of_not_needsQuotes (h : ¬ s.any needsQuotes = true) :
    (32 : UInt8) ∉ s ∧ s.head? ≠ some 34 := by
  have hnone : ∀ c ∈ s, needsQuotes c = false := by
    intro c hc
    rw [← Bool.not_eq_true]
    exact fun hneeds => h (List.any_eq_true.2 ⟨c, hc, hneeds⟩)
  refine ⟨fun hmem => absurd (hnone 32 hmem) (by decide), ?_⟩
  intro hhead
  exact absurd (hnone 34 (List.mem_of_mem_head? hhead)) (by decide)

theorem peek_of_head {is : IStream} (hgood : is.good = true) (hrest : is.rest ≠ []) :
    is.peek = (is.rest.head?, is) := by
  rw [IStream.peek, if_pos hgood]
  cases hr : is.rest with
  | nil => exact absurd hr hrest
  | cons c rest => rfl

theorem deSerialize_ifNeeded_space (s rest : Bytes) :
    deSerializeJsonStringIfNeeded { rest := serializeJsonStringIfNeeded s ++ 32 :: rest } =
      .ok (s, { rest := 32 :: rest }) := by
  rw [deSerializeJsonStringIfNeeded, peek_of_head rfl (by simp)]
  by_cases hquotes : s.any needsQuotes = true
  · rw [serializeJsonStringIfNeeded, if_pos hquotes]
    exact deSerializeJsonString_serialize s (32 :: rest)
  · rcases plain_of_not_needsQuotes hquotes with ⟨hblank, hquote⟩
    rw [serializeJsonStringIfNeeded, if_neg hquotes]
    have hhead : (s ++ 32 :: rest).head? ≠ some 34 := by
      cases s with
      | nil => simp
      | cons c s => simpa using hquote
    simp only [Bool.false_eq_true, if_false, if_neg hhead, IStream.getline_cons hblank]
    rfl

/-- A string at the end; the stream may notice the end. -/
theorem deSerialize_ifNeeded_end (hs : s ≠ []) :
    ∃ eof, deSerializeJsonStringIfNeeded { rest := serializeJsonStringIfNeeded s } =
      .ok (s, { rest := [], eof := eof }) := by
  by_cases hquotes : s.any needsQuotes = true
  · refine ⟨false, ?_⟩
    have hread := deSerializeJsonString_serialize s []
    rw [List.append_nil] at hread
    rw [serializeJsonStringIfNeeded, if_pos hquotes, deSerializeJsonStringIfNeeded,
      peek_of_head rfl (by simp [serializeJsonString])]
    exact hread
  · refine ⟨true, ?_⟩
    rcases plain_of_not_needsQuotes hquotes with ⟨hblank, hquote⟩
    rw [serializeJsonStringIfNeeded, if_neg hquotes, deSerializeJsonStringIfNeeded,
      peek_of_head rfl hs]
    have hnonempty : s.isEmpty = false := List.isEmpty_eq_false_iff.2 hs
    simp only [Bool.false_eq_true, if_false, if_neg hquote, IStream.getline_end hblank, if_true,
      hnonempty]

/-- A string before a blank, or at the end of the stream, which the reader may have noticed.  The
quoted form may stand before anything. -/
theorem readJsonString_written (s rest following : Bytes) (hrest : ∀ c ∈ rest.head?, c = 32) :
    (∃ eof, deSerializeJsonStringIfNeeded { rest := serializeJsonStringIfNeeded s ++ rest } =
        .ok (s, { rest := rest, eof := eof }) ∧ (rest ≠ [] → eof = false)) ∧
      deSerializeJsonString { rest := serializeJsonString s ++ following } =
        .ok (s, { rest := following }) := by
  refine ⟨?_, deSerializeJsonString_serialize s following⟩
  cases rest with
  | cons c rest =>
    rw [hrest c rfl]
    exact ⟨false, deSerialize_ifNeeded_space s rest, fun _ => rfl⟩
  | nil =>
    rw [List.append_nil]
    cases s with
    | nil => exact ⟨true, rfl, fun hne => (hne rfl).elim⟩
    | cons c s =>
      rcases deSerialize_ifNeeded_end (List.cons_ne_nil c s) with ⟨eof, hread⟩
      exact ⟨eof, hread, fun hne => (hne rfl).elim⟩

theorem readJsonString_written_quoted :
    (∃ eof, deSerializeJsonStringIfNeeded
        { rest := serializeJsonStringIfNeeded [34, 32] ++ [32, 49] } =
        .ok ([34, 32], { rest := [32, 49], eof := eof }) ∧
          (([32, 49] : Bytes) ≠ [] → eof = false)) ∧
      deSerializeJsonString { rest := serializeJsonString [34, 32] ++ [34] } =
        .ok ([34, 32], { rest := [34] }) :=
  readJsonString_written [34, 32] [32, 49] [34] fun _ hc => (Option.some.inj hc).symm

theorem newline_not_mem_escapeByte (c : UInt8) : (10 : UInt8) ∉ escapeByte c := by
  have hhex : ∀ n, n < 16 → hexChar n ≠ 10 := by decide
  have hlt := c.toNat_lt
  rw [escapeByte]
  split_ifs with hquote hbackslash hb hf hn hr ht hcontrol
  · decide
  · decide
  · decide
  · decide
  · decide
  · decide
  · decide
  · rw [List.mem_append, not_or]
    refine ⟨by decide, ?_⟩
    have hhigh := hhex (c.toNat / 16) (by omega)
    have hlow := hhex (c.toNat % 16) (by omega)
    simp [Ne.symm hhigh, Ne.symm hlow]
  · simpa using Ne.symm hn

/-- What is written stays on one line. -/
theorem newline_not_mem_serialize (s : Bytes) : (10 : UInt8) ∉ serializeJsonStringIfNeeded s := by
  rw [serializeJsonStringIfNeeded]
  split
  · rw [serializeJsonString, List.mem_cons, List.mem_append, List.mem_flatMap]
    rintro (hquote | ⟨c, -, hc⟩ | hquote)
    · exact absurd hquote (by decide)
    · exact newline_not_mem_escapeByte c hc
    · exact absurd hquote (by decide)
  · rename_i hplain
    intro hmem
    exact hplain (List.any_eq_true.2 ⟨10, hmem, by decide⟩)

end

end Util
end AxisEngine
