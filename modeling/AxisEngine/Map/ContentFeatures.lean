import AxisEngine.Map.MapNode
import AxisEngine.Map.NodeDefManager

/-!
# ContentFeatures — what the definition of a node says about liquids and light

The first parameter of a node with light has four bits for the light of the day and four for the light
of the night.

* `ContentFeatures`, `Features` — the definitions by content;
* `getLightRaw`, `getLight`, `setLight` — the light of a node.
-/

namespace AxisEngine
namespace Map

inductive LiquidType where
  | none
  | flowing
  | source
deriving DecidableEq

structure ContentLightingFlags where
  lightSource : UInt8 := 0
  hasLight : Bool := false
  lightPropagates : Bool := false
  sunlightPropagates : Bool := false
deriving DecidableEq

structure ContentFeatures where
  liquidType : LiquidType := .none
  floodable : Bool := false
  floats : Bool := false
  liquidAlternativeFlowingId : UInt16 := contentIgnore
  liquidAlternativeSourceId : UInt16 := contentIgnore
  liquidViscosity : UInt8 := 0
  liquidRange : UInt8 := 8
  liquidRenewable : Bool := true
  lighting : ContentLightingFlags := {}

/-- `m_nodedef->get`; what is not registered has the features of the unknown node.  The definition of
`ignore` cannot be replaced. -/
structure Features where
  get : UInt16 → ContentFeatures
  get_ignore : get contentIgnore = {}

instance : CoeFun Features fun _ => UInt16 → ContentFeatures := ⟨Features.get⟩

inductive LightBank where
  | day
  | night
deriving DecidableEq

namespace MapNode

variable (n : MapNode) (bank : LightBank)

def setLight (light : UInt8) (f : ContentLightingFlags) : MapNode :=
  if f.hasLight then
    match bank with
    | .day => { n with param1 := (n.param1 &&& 0xf0) ||| (light &&& 0x0f) }
    | .night => { n with param1 := (n.param1 &&& 0x0f) ||| ((light &&& 0x0f) <<< (4 : UInt8)) }
  else n

def getLightRaw (f : ContentLightingFlags) : UInt8 :=
  if f.hasLight then
    match bank with
    | .day => n.param1 &&& 0x0f
    | .night => (n.param1 >>> (4 : UInt8)) &&& 0x0f
  else 0

def getLight (f : ContentLightingFlags) : UInt8 :=
  max f.lightSource (n.getLightRaw bank f)

/-- "Ignore light": the light update comes afterwards. -/
def clearLight (n : MapNode) (f : ContentLightingFlags) : MapNode :=
  (n.setLight .day 0 f).setLight .night 0 f

variable (n : MapNode) (bank : LightBank) (light : UInt8) (f : ContentLightingFlags)

@[simp] theorem param0_setLight : (n.setLight bank light f).param0 = n.param0 := by
  cases bank with
  | day =>
    rw [setLight]
    split <;> rfl
  | night =>
    rw [setLight]
    split <;> rfl

@[simp] theorem param2_setLight : (n.setLight bank light f).param2 = n.param2 := by
  cases bank with
  | day =>
    rw [setLight]
    split <;> rfl
  | night =>
    rw [setLight]
    split <;> rfl

@[simp] theorem param0_clearLight : (n.clearLight f).param0 = n.param0 := by
  rw [clearLight, param0_setLight, param0_setLight]

@[simp] theorem param2_clearLight : (n.clearLight f).param2 = n.param2 := by
  rw [clearLight, param2_setLight, param2_setLight]

end MapNode

end Map
end AxisEngine
