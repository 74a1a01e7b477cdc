import AxisEngine.Config.Settings
import AxisEngine.Util.Strings

/-!
# Getters — reading a setting through the layers

A settings object looks into its own entries and then into those of its parents (`settings.cpp`).
Only `g_settings` looks elsewhere first: into the layer of a crate, and into the entries of that
layer itself.  An object is given here by that layer, if there is one, and by the entries of the
object followed by those of its parents.

* `getEntry`, `getGroup`, `get` — the lookup;
* `getBool`, …, `getV3F` — values read as something else;
* `getFlagStr`, `getNoiseParams`, `isKnown` — what goes from layer to layer itself;
* `FloatText` — reading floating point numbers, of which nothing is assumed.
-/

namespace AxisEngine
namespace Config

open Lib Util

/-! ## Reading texts -/

/-- `lowercase`; what lies beyond ASCII passes unchanged. -/
def lowercase (str : Bytes) : Bytes :=
  str.map fun c => if 65 ≤ c ∧ c ≤ 90 then c + 32 else c

/-- `is_yes`. -/
def isYes (str : Bytes) : Bool :=
  let s2 := lowercase (trim str)
  s2 == ascii "y" || s2 == ascii "yes" || s2 == ascii "true" || atoi s2 != 0

/-- `from_string<u64>`: what does not fit becomes the largest number. -/
def fromStringU64 (str : Bytes) : UInt64 :=
  let (negative, digits, _) := scanInt str
  let value := ofDigits digits
  if 2 ^ 64 ≤ value then -1 else if negative then -UInt64.ofNat value else UInt64.ofNat value

/-- `Strfnd::next` of one byte: what lies before it, and what is left behind it. -/
def next (f : Bytes) (sep : UInt8) : Bytes × Bytes :=
  (f.takeWhile fun b => b ≠ sep, (f.dropWhile fun b => b ≠ sep).tail)

/-- How floating point numbers are read and compared. -/
structure FloatText (F : Type) where
  stof : Bytes → F
  /-- `>>` of a stream: the number and the rest. -/
  extract : Bytes → Option (F × Bytes)
  lt : F → F → Bool

section

variable {F : Type} (text : FloatText F)

def FloatText.rangelim (d min max : F) : F :=
  if text.lt d min then min else if text.lt max d then max else d

def expectDelimiter : Bytes → Option Bytes
  | c :: iss => if c = 32 ∨ c = 44 then some iss else none
  | [] => none

def strToV3f (str : Bytes) : Option (F × F × F) := do
  let str := trim str
  if str = [] then none
  -- parentheses are stripped if they exist
  let str := if str.head? = some 40 ∧ str.getLast? = some 41 then trim str.tail.dropLast else str
  let (x, iss) ← text.extract str
  let iss ← expectDelimiter iss
  let (y, iss) ← text.extract iss
  let iss ← expectDelimiter iss
  let (z, iss) ← text.extract iss
  if iss = [] then some (x, y, z) else none

end

/-! ## Flags -/

structure FlagDesc where
  name : Bytes
  flag : UInt32
  deriving DecidableEq

/-- The tokens of `strtok_r`; there are no empty ones. -/
def tokens (s : Bytes) (delimiter : UInt8) : List Bytes :=
  (s.splitOn delimiter).filter fun token => token ≠ []

/-- One round of `readFlagString`, with the flags that are set and those that are named. -/
def readFlag (flagdesc : List FlagDesc) (flags : UInt32 × UInt32) (token : Bytes) :
    UInt32 × UInt32 :=
  let flagstr := token.dropWhile fun b => b = 32 ∨ b = 9
  let flagset := decide (lowercase (flagstr.take 2) ≠ ascii "no")
  let flagstr := if flagset then flagstr else flagstr.drop 2
  match flagdesc.find? fun desc => lowercase flagstr = lowercase desc.name with
  | some desc =>
    (if flagset then flags.1 ||| desc.flag else flags.1, flags.2 ||| desc.flag)
  | none => flags

/-- The flags that are set and those that are named; the string ends at a zero byte. -/
def readFlagString (str : Bytes) (flagdesc : List FlagDesc) : UInt32 × UInt32 :=
  (tokens (str.takeWhile fun b => b ≠ 0) 44).foldl (readFlag flagdesc) (0, 0)

/-- The user's flags and which flags they decide: all of them when they are a number. -/
def userFlags (value : Bytes) (flagdesc : List FlagDesc) : UInt32 × UInt32 :=
  if (value.head?.map isDigit).getD false then (UInt32.ofInt (atoi value).toInt, -1)
  else readFlagString value flagdesc

/-! ## Looking up -/

/-- The text of a `SettingNotFoundException`. -/
abbrev SettingNotFound := Bytes

def notFound (name : Bytes) (what : String) : SettingNotFound :=
  ascii "Setting [" ++ name ++ ascii "] " ++ ascii what

def getEntry (above : Option Settings) : List Settings → Bytes → Except SettingNotFound SettingsEntry
  | [], name => .error (notFound name "not found.")
  | own :: parents, name =>
    match above.bind fun layer => layer.lookup name with
    | some entry => .ok entry
    | none =>
      match own.lookup name with
      | some entry => .ok entry
      | none => getEntry none parents name

section

variable (above : Option Settings) (objects : List Settings) (name : Bytes)

def getGroup : Except SettingNotFound Settings := do
  match ← getEntry above objects name with
  | .group group => .ok group
  | .value _ => .error (notFound name "is not a group.")

def get : Except SettingNotFound Bytes := do
  match ← getEntry above objects name with
  | .group _ => .error (notFound name "is a group.")
  | .value value => .ok value

/-! ## Values read as something else -/

def getBool : Except SettingNotFound Bool := isYes <$> get above objects name

def getU16 : Except SettingNotFound UInt16 :=
  (fun value => UInt16.ofInt (mystoi value 0 65535).toInt) <$> get above objects name

def getS16 : Except SettingNotFound Int16 :=
  (fun value => (mystoi value (-32768) 32767).toInt16) <$> get above objects name

def getU32 : Except SettingNotFound UInt32 :=
  (fun value => UInt32.ofInt (atoi value).toInt) <$> get above objects name

def getS32 : Except SettingNotFound Int32 := atoi <$> get above objects name

def getU64 : Except SettingNotFound UInt64 := fromStringU64 <$> get above objects name

variable {F : Type} (text : FloatText F)

def getFloat : Except SettingNotFound F := text.stof <$> get above objects name

def getFloatWithin (min max : F) : Except SettingNotFound F :=
  (fun value => text.rangelim (text.stof value) min max) <$> get above objects name

def getV2F : Except SettingNotFound (F × F) :=
  (fun value =>
    let (_, f) := next value 40
    let (x, f) := next f 44
    (text.stof x, text.stof (next f 41).1)) <$> get above objects name

def getV3F : Except SettingNotFound (Option (F × F × F)) :=
  strToV3f text <$> get above objects name

end

/-! ## From layer to layer -/

/-- The flags, and those that were decided by a layer (`flagmask`). -/
def getFlagStr (above : Option Settings) :
    List Settings → Bytes → List FlagDesc → Except SettingNotFound (UInt32 × UInt32)
  | [], _, _ => .ok (0, 0)
  | own :: parents, name, flagdesc => do
      let (flags, flagmask) ← getFlagStr none parents name flagdesc
      -- only the entries of the object itself are asked whether there is anything on top
      if name ∈ own.names then
        let value ← get above (own :: parents) name
        let (flagsUser, maskUser) := userFlags value flagdesc
        .ok ((flags &&& ~~~maskUser) ||| flagsUser, flagmask ||| maskUser)
      else .ok (flags, flagmask)

structure NoiseParams (F : Type) where
  offset : F
  scale : F
  spread : F × F × F
  seed : Int32
  octaves : UInt16
  persist : F
  lacunarity : F
  flags : UInt32

def noiseFlagDefaults : UInt32 := 0x01

def flagdescNoiseparams : List FlagDesc :=
  [⟨ascii "defaults", noiseFlagDefaults⟩, ⟨ascii "eased", 0x02⟩, ⟨ascii "absvalue", 0x04⟩,
    ⟨ascii "pointbuffer", 0x08⟩, ⟨ascii "simplex", 0x10⟩]

section

variable {F : Type} (text : FloatText F)

/-- `f32,f32,(f32,f32,f32),s32,s32,f32[,f32]`. -/
def noiseParamsFromValue (value : Bytes) (np : NoiseParams F) : NoiseParams F :=
  let (offset, f) := next value 44
  let (scale, f) := next f 44
  let (_, f) := next f 40
  let (x, f) := next f 44
  let (y, f) := next f 44
  let (z, f) := next f 41
  let (_, f) := next f 44
  let (seed, f) := next f 44
  let (octaves, f) := next f 44
  let (persist, optionalParams) := next f 44
  { np with
    offset := text.stof offset
    scale := text.stof scale
    spread := (text.stof x, text.stof y, text.stof z)
    seed := atoi seed
    octaves := UInt16.ofInt (atoi octaves).toInt
    persist := text.stof persist
    lacunarity := if optionalParams = [] then np.lacunarity else text.stof optionalParams }

/-- What the getters without exceptions leave in their argument. -/
def orElseOld {α : Type} (r : Except SettingNotFound α) (old : α) : α :=
  match r with
  | .ok a => a
  | .error _ => old

/-- A group has no parents. -/
def noiseParamsFromGroup (group : Settings) (np : NoiseParams F) : NoiseParams F :=
  let float (name : String) := getFloat none [group] (ascii name) text
  { offset := orElseOld (float "offset") np.offset
    scale := orElseOld (float "scale") np.scale
    spread :=
      match getV3F none [group] (ascii "spread") text with
      | .ok (some spread) => spread
      | _ => np.spread
    seed := orElseOld (getS32 none [group] (ascii "seed")) np.seed
    octaves := orElseOld (getU16 none [group] (ascii "octaves")) np.octaves
    persist := orElseOld (float "persistence") np.persist
    lacunarity := orElseOld (float "lacunarity") np.lacunarity
    flags :=
      match getFlagStr none [group] (ascii "flags") flagdescNoiseparams with
      | .ok (flags, _) => flags
      | .error _ => noiseFlagDefaults }

def getNoiseParams (above : Option Settings) :
    List Settings → Bytes → NoiseParams F → Bool × NoiseParams F
  | [], _, np => (false, np)
  | own :: parents, name, np =>
    match getGroup above (own :: parents) name with
    | .ok group => (true, noiseParamsFromGroup text group np)
    | .error _ =>
      match get above (own :: parents) name with
      | .ok value => (true, noiseParamsFromValue text value np)
      | .error _ => getNoiseParams none parents name np

end

/-- `exists`. -/
def isKnown (above : Option Settings) : List Settings → Bytes → Bool
  | [], _ => false
  | own :: parents, name =>
    (above.bind fun layer => layer.lookup name).isSome || decide (name ∈ own.names) ||
      isKnown none parents name

end Config
end AxisEngine
