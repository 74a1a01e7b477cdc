import AxisEngine.Lib.Bytes

/-!
# Protocol — constants of `network/networkprotocol.h`

What server and client have agreed on about media.
-/

namespace AxisEngine
namespace Media

open Lib

def bundleSignature : UInt32 := 0x41584d42

def bundleVersion : UInt16 := 2

def bundlePartSize : Nat := 2 * 1024 * 1024

def bundleFileName : Bytes := ascii "bundle"

def hashSetSignature : UInt32 := 0x4d544853

def hashSetFileName : Bytes := ascii "index.mth"

def mediaFileMaxSize : Nat := 16700000

def mediaMaxFiles : Nat := 32768

def mediaMaxTotalSize : Nat := 512 * 1024 * 1024

def textureNameAllowedChars : Bytes :=
  ascii "abcdefghijklmnopqrstuvwxyzABCDEFGHIJKLMNOPQRSTUVWXYZ0123456789_.-"

def mediaSupportedExt : List Bytes :=
  [ascii ".png", ascii ".jpg", ascii ".tga", ascii ".ogg", ascii ".x", ascii ".b3d", ascii ".obj",
    ascii ".gltf", ascii ".glb", ascii ".geo.json", ascii ".animation.json", ascii ".tr",
    ascii ".po", ascii ".mo", ascii ".ttf", ascii ".woff"]

/-- `string_allowed`. -/
def stringAllowed (str allowedChars : Bytes) : Bool :=
  str.all fun c => allowedChars.contains c

/-- `removeStringEnd`, which gives nothing when no end fits. -/
def removeStringEnd (str : Bytes) (ends : List Bytes) : Bytes :=
  match ends.find? fun suffix => suffix.isSuffixOf str with
  | some suffix => str.take (str.length - suffix.length)
  | none => []

end Media
end AxisEngine
