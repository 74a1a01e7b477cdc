import AxisEngine.Config.Getters
import AxisEngine.Config.RoundTrip
import AxisEngine.Config.UpdateObject

/-!
# CrateClient — what a crate asks of the client's settings

A server can ask for settings of its own, which lie over those of the player for as long as it wants
(`Settings::setCrateClientOverrides`).  The player's settings can change below them.  A callback is
only told of a name here; what it does is left out.

* `SettingsHierarchy` — the layers, and the callbacks of `g_settings`;
* `SettingsHierarchy.step` — the operations;
* `Query`, `SettingsHierarchy.answer` — what `g_settings` can be asked;
* `overrides_spec` — the layer of a crate acts like entries of `g_settings` and leaves nothing
  behind, `getFlagStr` apart.
-/

namespace AxisEngine
namespace Config

open Lib Util

/-- The layers, and the callbacks that `g_settings` has for each name. -/
structure SettingsHierarchy (κ : Type) where
  defaults : Option Settings
  crate : Option Settings
  /-- `g_settings`. -/
  global : Settings
  crateClient : Option Settings
  callbacks : Bytes → List κ

inductive SettingsOp
  | setCrateClientOverrides (order : HashOrder) (pairs : List (Bytes × Bytes))
  | clearCrateClientOverrides
  | set (order : HashOrder) (name value : Bytes)
  | remove (name : Bytes)

/-- The operation is one on `g_settings`. -/
def SettingsOp.onGlobal : SettingsOp → Bool
  | .set .. | .remove _ => true
  | .setCrateClientOverrides .. | .clearCrateClientOverrides => false

/-- What `g_settings` can be asked. -/
inductive Query (F : Type)
  | get (name : Bytes)
  | getBool (name : Bytes)
  | getU16 (name : Bytes)
  | getS16 (name : Bytes)
  | getU32 (name : Bytes)
  | getS32 (name : Bytes)
  | getU64 (name : Bytes)
  | getFloat (name : Bytes)
  | getFloatWithin (name : Bytes) (min max : F)
  | getV2F (name : Bytes)
  | getV3F (name : Bytes)
  | getGroup (name : Bytes)
  | getFlagStr (name : Bytes) (flagdesc : List FlagDesc)
  | getNoiseParams (name : Bytes) (np : NoiseParams F)
  | isKnown (name : Bytes)

def Query.Answer {F : Type} : Query F → Type
  | .get _ => Except SettingNotFound Bytes
  | .getBool _ => Except SettingNotFound Bool
  | .getU16 _ => Except SettingNotFound UInt16
  | .getS16 _ => Except SettingNotFound Int16
  | .getU32 _ => Except SettingNotFound UInt32
  | .getS32 _ => Except SettingNotFound Int32
  | .getU64 _ => Except SettingNotFound UInt64
  | .getFloat _ | .getFloatWithin .. => Except SettingNotFound F
  | .getV2F _ => Except SettingNotFound (F × F)
  | .getV3F _ => Except SettingNotFound (Option (F × F × F))
  | .getGroup _ => Except SettingNotFound Settings
  | .getFlagStr .. => Except SettingNotFound (UInt32 × UInt32)
  | .getNoiseParams .. => Bool × NoiseParams F
  | .isKnown _ => Bool

/-- An object with the entries of a layer put on top of its own. -/
def Settings.holding (order : HashOrder) (own : Settings) : Settings → Settings
  | .nil => own
  | .cons name entry layer => (own.holding order layer).put order name entry

namespace SettingsHierarchy

variable {κ F : Type}

/-! ## The operations -/

variable (h : SettingsHierarchy κ)

/-- `getParent` of `g_settings`, `getParent` of that, and so on. -/
def parents : List Settings :=
  h.crate.toList ++ h.defaults.toList

/-- `g_settings` and its parents. -/
def objects : List Settings :=
  h.global :: h.parents

/-- `getCrateClientEntry` of `g_settings`. -/
def getCrateClientEntry (name : Bytes) : Option SettingsEntry :=
  h.crateClient.bind fun layer => layer.lookup name

/-- The callbacks that are run, each with the name it is told. -/
def doCallbacks (name : Bytes) : List (Bytes × κ) :=
  (h.callbacks name).map fun callback => (name, callback)

/-- The layer has no callbacks of its own. -/
def setCrateClientOverrides (order : HashOrder)
    (pairs : List (Bytes × Bytes)) : SettingsHierarchy κ × List (Bytes × κ) :=
  let touched := (h.crateClient.map Settings.names).getD []
  let layer := pairs.foldl (fun layer pair => (layer.set order pair.1 pair.2).1) .nil
  let touched := touched ++ pairs.map Prod.fst
  let h := { h with crateClient := some layer }
  (h, touched.flatMap h.doCallbacks)

def clearCrateClientOverrides : SettingsHierarchy κ × List (Bytes × κ) :=
  match h.crateClient with
  | none => (h, [])
  | some layer =>
    let h := { h with crateClient := none }
    (h, layer.names.flatMap h.doCallbacks)

/-- `g_settings->set`. -/
def set (order : HashOrder) (name value : Bytes) : SettingsHierarchy κ × List (Bytes × κ) :=
  match h.global.set order name value with
  | (_, false) => (h, [])
  | (global, true) =>
    let h := { h with global }
    (h, if (h.getCrateClientEntry name).isSome then [] else h.doCallbacks name)

/-- `g_settings->remove`. -/
def remove (name : Bytes) : SettingsHierarchy κ × List (Bytes × κ) :=
  match h.global.remove name with
  | (_, false) => (h, [])
  | (global, true) =>
    let h := { h with global }
    (h, if (h.getCrateClientEntry name).isSome then [] else h.doCallbacks name)

/-- An operation, and the callbacks that it runs. -/
def step : SettingsOp → SettingsHierarchy κ × List (Bytes × κ)
  | .setCrateClientOverrides order pairs => h.setCrateClientOverrides order pairs
  | .clearCrateClientOverrides => h.clearCrateClientOverrides
  | .set order name value => h.set order name value
  | .remove name => h.remove name

def run (ops : List SettingsOp) : SettingsHierarchy κ :=
  ops.foldl (fun h op => (h.step op).1) h

/-! ## Asking -/

def get (name : Bytes) : Except SettingNotFound Bytes :=
  Config.get h.crateClient h.objects name

def answer (text : FloatText F) (h : SettingsHierarchy κ) : (q : Query F) → q.Answer
  | .get name => h.get name
  | .getBool name => getBool h.crateClient h.objects name
  | .getU16 name => getU16 h.crateClient h.objects name
  | .getS16 name => getS16 h.crateClient h.objects name
  | .getU32 name => getU32 h.crateClient h.objects name
  | .getS32 name => getS32 h.crateClient h.objects name
  | .getU64 name => getU64 h.crateClient h.objects name
  | .getFloat name => getFloat h.crateClient h.objects name text
  | .getFloatWithin name min max => getFloatWithin h.crateClient h.objects name text min max
  | .getV2F name => getV2F h.crateClient h.objects name text
  | .getV3F name => getV3F h.crateClient h.objects name text
  | .getGroup name => getGroup h.crateClient h.objects name
  | .getFlagStr name flagdesc => getFlagStr h.crateClient h.objects name flagdesc
  | .getNoiseParams name np => getNoiseParams text h.crateClient h.objects name np
  | .isKnown name => isKnown h.crateClient h.objects name

/-! ## The overrides as entries -/

/-- There are no overrides, and `g_settings` holds them as its own entries. -/
def held (order : HashOrder) (h : SettingsHierarchy κ) : SettingsHierarchy κ :=
  { h with
    global := h.global.holding order (h.crateClient.getD .nil)
    crateClient := none }

/-- The flags of a setting that is overridden while `g_settings` has no entry for it. -/
def Misses : Query F → Prop
  | .getFlagStr name _ => (h.getCrateClientEntry name).isSome = true ∧ name ∉ h.global.names
  | _ => False

section

variable {h : SettingsHierarchy κ} {order : HashOrder} {name : Bytes} {op : SettingsOp}

/-! ### The lookup -/

theorem lookup_holding {own layer : Settings} : (own.holding order layer).lookup name =
    (layer.lookup name).or (own.lookup name) := by
  induction layer using Settings.listInduct with
  | nil => simp [Settings.holding]
  | cons name' entry layer ih =>
    rw [Settings.holding, Settings.lookup_put, Settings.lookup_cons, ih]
    split
    · rfl
    · rfl

theorem lookup_held : (h.held order).global.lookup name =
    (h.getCrateClientEntry name).or (h.global.lookup name) := by
  rw [held, lookup_holding, getCrateClientEntry]
  cases h.crateClient with
  | none => rfl
  | some layer => rfl

theorem mem_names_held : name ∈ (h.held order).global.names ↔
    (h.getCrateClientEntry name).isSome = true ∨ name ∈ h.global.names := by
  rw [← not_iff_not, not_or, ← Settings.lookup_eq_none_iff, ← Settings.lookup_eq_none_iff,
    lookup_held, Option.or_eq_none_iff, Option.not_isSome_iff_eq_none]

theorem getEntry_held : getEntry none (h.held order).objects name =
    getEntry h.crateClient h.objects name := by
  rw [objects, objects, getEntry, getEntry, Option.bind_none]
  dsimp only
  rw [lookup_held, getCrateClientEntry]
  cases h.crateClient.bind fun layer => layer.lookup name with
  | some entry => rfl
  | none =>
    rw [Option.none_or]
    rfl

theorem get_held : Config.get none (h.held order).objects name =
    Config.get h.crateClient h.objects name := by
  rw [Config.get, Config.get, getEntry_held]

theorem getGroup_held : getGroup none (h.held order).objects name =
    getGroup h.crateClient h.objects name := by
  rw [getGroup, getGroup, getEntry_held]

theorem getFlagStr_held (flagdesc : List FlagDesc)
    (hown : (h.getCrateClientEntry name).isSome = true → name ∈ h.global.names) :
    getFlagStr none (h.held order).objects name flagdesc =
      getFlagStr h.crateClient h.objects name flagdesc := by
  have hmem : name ∈ (h.held order).global.names ↔ name ∈ h.global.names := by
    rw [mem_names_held]
    exact or_iff_right_of_imp hown
  have hget : Config.get none (h.held order).objects name = _ := get_held
  rw [objects, objects] at hget ⊢
  rw [getFlagStr, getFlagStr, hget]
  simp only [hmem]
  rfl

theorem getNoiseParams_held (text : FloatText F) (np : NoiseParams F) :
    getNoiseParams text none (h.held order).objects name np =
      getNoiseParams text h.crateClient h.objects name np := by
  have hget : Config.get none (h.held order).objects name = _ := get_held
  have hgroup : getGroup none (h.held order).objects name = _ := getGroup_held
  rw [objects, objects] at hget hgroup ⊢
  rw [getNoiseParams, getNoiseParams, hget, hgroup]
  rfl

theorem isKnown_held : isKnown none (h.held order).objects name =
    isKnown h.crateClient h.objects name := by
  rw [objects, objects, isKnown, isKnown, Option.bind_none]
  simp only [mem_names_held, getCrateClientEntry]
  rw [Bool.decide_or, Bool.decide_eq_true]
  rfl

/-- The overrides act like entries of `g_settings`. -/
theorem answer_held (text : FloatText F) (order : HashOrder) (q : Query F) (hq : ¬ h.Misses q) :
    h.answer text q = (h.held order).answer text q := by
  have hget : ∀ name, Config.get none (h.held order).objects name = _ := fun name => get_held
  cases q with
  | get name => exact (hget name).symm
  | getBool name => exact congrArg (isYes <$> ·) (hget name).symm
  | getU16 name => exact congrArg (_ <$> ·) (hget name).symm
  | getS16 name => exact congrArg (_ <$> ·) (hget name).symm
  | getU32 name => exact congrArg (_ <$> ·) (hget name).symm
  | getS32 name => exact congrArg (atoi <$> ·) (hget name).symm
  | getU64 name => exact congrArg (fromStringU64 <$> ·) (hget name).symm
  | getFloat name => exact congrArg (text.stof <$> ·) (hget name).symm
  | getFloatWithin name min max => exact congrArg (_ <$> ·) (hget name).symm
  | getV2F name => exact congrArg (_ <$> ·) (hget name).symm
  | getV3F name => exact congrArg (strToV3f text <$> ·) (hget name).symm
  | getGroup name => exact getGroup_held.symm
  | getFlagStr name flagdesc =>
    refine (getFlagStr_held flagdesc fun hsome => ?_).symm
    by_contra hmem
    exact hq ⟨hsome, hmem⟩
  | getNoiseParams name np => exact (getNoiseParams_held text np).symm
  | isKnown name => exact isKnown_held.symm

/-! ## What is left of the overrides -/

/-- The layers without the overrides. -/
def below (h : SettingsHierarchy κ) : SettingsHierarchy κ :=
  { h with crateClient := none }

theorem clearCrateClientOverrides_fst (h : SettingsHierarchy κ) :
    h.clearCrateClientOverrides.1 = h.below := by
  rw [clearCrateClientOverrides]
  cases hlayer : h.crateClient with
  | none => exact congrArg (fun above => { h with crateClient := above }) hlayer
  | some layer => rfl

theorem set_below (h : SettingsHierarchy κ) (order : HashOrder) (name value : Bytes) :
    (h.set order name value).1.below = (h.below.set order name value).1 := by
  have hglobal : h.below.global = h.global := rfl
  rw [set, set, hglobal]
  rcases h.global.set order name value with ⟨global, _ | _⟩
  · rfl
  · rfl

theorem remove_below (h : SettingsHierarchy κ) (name : Bytes) :
    (h.remove name).1.below = (h.below.remove name).1 := by
  have hglobal : h.below.global = h.global := rfl
  rw [remove, remove, hglobal]
  rcases h.global.remove name with ⟨global, _ | _⟩
  · rfl
  · rfl

/-- Below the overrides an operation does what it does without any. -/
theorem step_below (h : SettingsHierarchy κ) (op : SettingsOp) :
    (h.step op).1.below = if op.onGlobal then (h.below.step op).1 else h.below := by
  cases op with
  | setCrateClientOverrides order pairs => rfl
  | clearCrateClientOverrides =>
    rw [step, clearCrateClientOverrides_fst]
    rfl
  | set order name value => exact set_below h order name value
  | remove name => exact remove_below h name

theorem run_below (h : SettingsHierarchy κ) (ops : List SettingsOp) :
    (h.run ops).below = h.below.run (ops.filter SettingsOp.onGlobal) := by
  induction ops generalizing h with
  | nil => rfl
  | cons op ops ih =>
    have hstep := step_below h op
    have hrun : h.run (op :: ops) = (h.step op).1.run ops := rfl
    rw [hrun, ih, hstep, List.filter_cons]
    split
    · rfl
    · rfl

/-! ## Callbacks -/

theorem callbacks_step : (h.step op).1.callbacks = h.callbacks := by
  cases op with
  | setCrateClientOverrides order pairs => rfl
  | clearCrateClientOverrides =>
    rw [step, clearCrateClientOverrides_fst]
    rfl
  | set order name value =>
    rw [step, set]
    rcases h.global.set order name value with ⟨global, _ | _⟩
    · rfl
    · rfl
  | remove name =>
    rw [step, remove]
    rcases h.global.remove name with ⟨global, _ | _⟩
    · rfl
    · rfl

theorem callbacks_run (h : SettingsHierarchy κ) (ops : List SettingsOp) :
    (h.run ops).callbacks = h.callbacks := by
  induction ops generalizing h with
  | nil => rfl
  | cons op ops ih => exact (ih _).trans callbacks_step

theorem mem_doCallbacks {callback : κ} (hmem : callback ∈ h.callbacks name) :
    (name, callback) ∈ h.doCallbacks name :=
  List.mem_map_of_mem hmem

/-- What is found under a name is told by the entries of that name in each layer. -/
theorem get_congr {h h' : SettingsHierarchy κ}
    (hover : h.getCrateClientEntry name = h'.getCrateClientEntry name)
    (hown : h.global.lookup name = h'.global.lookup name) (hparents : h.parents = h'.parents) :
    h.get name = h'.get name := by
  rw [getCrateClientEntry, getCrateClientEntry] at hover
  rw [get, get, Config.get, Config.get, objects, objects, getEntry, getEntry, hover, hown, hparents]

/-- Where the overrides have an entry nothing else counts. -/
theorem get_of_override {h h' : SettingsHierarchy κ} {entry : SettingsEntry}
    (hover : h.getCrateClientEntry name = some entry)
    (hover' : h'.getCrateClientEntry name = some entry) : h.get name = h'.get name := by
  rw [getCrateClientEntry] at hover hover'
  rw [get, get, Config.get, Config.get, objects, objects, getEntry, getEntry, hover, hover']

/-- No entry is found in a layer that does not have the name. -/
theorem getCrateClientEntry_of_not_mem
    (hmem : ∀ layer, h.crateClient = some layer → name ∉ layer.names) :
    h.getCrateClientEntry name = none := by
  rw [getCrateClientEntry]
  cases hlayer : h.crateClient with
  | none => rfl
  | some layer => exact Settings.lookup_eq_none_iff.2 (hmem layer hlayer)

/-- The layer has no other names than those it is given. -/
theorem names_layer (order : HashOrder) (pairs : List (Bytes × Bytes)) (layer : Settings)
    (hname : name ∈ (pairs.foldl (fun layer pair => (layer.set order pair.1 pair.2).1) layer).names) :
    name ∈ layer.names ∨ name ∈ pairs.map Prod.fst := by
  induction pairs generalizing layer with
  | nil => exact .inl hname
  | cons pair pairs ih =>
    rw [List.map_cons, List.mem_cons]
    rcases ih _ hname with hmem | hmem
    · dsimp only at hmem
      rw [Settings.set] at hmem
      split at hmem
      · rw [Settings.mem_names_put] at hmem
        rcases hmem with rfl | hmem
        · exact .inr (.inl rfl)
        · exact .inl hmem
      · exact .inl hmem
    · exact .inr (.inr hmem)

theorem setCrateClientOverrides_tells {order : HashOrder} {pairs : List (Bytes × Bytes)}
    {callback : κ} (hmem : callback ∈ h.callbacks name)
    (hchanged : (h.setCrateClientOverrides order pairs).1.get name ≠ h.get name) :
    (name, callback) ∈ (h.setCrateClientOverrides order pairs).2 := by
  refine List.mem_flatMap.2 ⟨name, ?_, mem_doCallbacks hmem⟩
  by_contra hnew
  rw [List.mem_append, not_or] at hnew
  refine hchanged (get_congr ?_ rfl rfl)
  have hbefore : h.getCrateClientEntry name = none := by
    refine getCrateClientEntry_of_not_mem fun layer hlayer => ?_
    rw [hlayer] at hnew
    exact hnew.1
  have hafter : (h.setCrateClientOverrides order pairs).1.getCrateClientEntry name = none := by
    refine Settings.lookup_eq_none_iff.2 fun hname => ?_
    rcases names_layer order pairs .nil hname with hnil | hpair
    · rw [Settings.names_nil] at hnil
      cases hnil
    · exact hnew.2 hpair
  rw [hbefore, hafter]

theorem clearCrateClientOverrides_tells {callback : κ} (hmem : callback ∈ h.callbacks name)
    (hchanged : h.clearCrateClientOverrides.1.get name ≠ h.get name) :
    (name, callback) ∈ h.clearCrateClientOverrides.2 := by
  rw [clearCrateClientOverrides_fst] at hchanged
  have hsome : h.getCrateClientEntry name ≠ none :=
    fun hnone => hchanged (get_congr hnone.symm rfl rfl)
  rw [clearCrateClientOverrides]
  cases hlayer : h.crateClient with
  | none =>
    rw [getCrateClientEntry, hlayer] at hsome
    exact absurd rfl hsome
  | some layer =>
    refine List.mem_flatMap.2 ⟨name, ?_, mem_doCallbacks hmem⟩
    rw [getCrateClientEntry, hlayer] at hsome
    by_contra hnew
    exact hsome (Settings.lookup_eq_none_iff.2 hnew)

/-- An entry of `g_settings` is changed: where it counts, that is told. -/
theorem changed_tells {global : Settings} {name' : Bytes} {callback : κ}
    (hmem : callback ∈ h.callbacks name')
    (hothers : ∀ other, name ≠ other → global.lookup other = h.global.lookup other)
    (hchanged : { h with global }.get name' ≠ h.get name') :
    (name', callback) ∈
      if (h.getCrateClientEntry name).isSome then [] else h.doCallbacks name := by
  have hname : name = name' := by
    by_contra hne
    exact hchanged (get_congr rfl (hothers name' hne) rfl)
  subst hname
  cases hover : h.getCrateClientEntry name with
  | some entry => exact absurd (get_of_override (h := { h with global }) hover hover) hchanged
  | none => exact mem_doCallbacks hmem

theorem set_tells {order : HashOrder} {value : Bytes} {name' : Bytes} {callback : κ}
    (hmem : callback ∈ h.callbacks name')
    (hchanged : (h.set order name value).1.get name' ≠ h.get name') :
    (name', callback) ∈ (h.set order name value).2 := by
  rw [set] at hchanged ⊢
  cases hset : h.global.set order name value with
  | mk global accepted =>
    rw [hset] at hchanged
    cases accepted with
    | false => exact absurd rfl hchanged
    | true =>
      refine changed_tells (h := h) hmem (fun other hne => ?_) hchanged
      rw [Settings.set] at hset
      split at hset
      · cases hset
        exact Settings.lookup_put_of_ne hne
      · cases hset

theorem remove_tells {name' : Bytes} {callback : κ} (hmem : callback ∈ h.callbacks name')
    (hchanged : (h.remove name).1.get name' ≠ h.get name') :
    (name', callback) ∈ (h.remove name).2 := by
  rw [remove] at hchanged ⊢
  cases hremove : h.global.remove name with
  | mk global removed =>
    rw [hremove] at hchanged
    cases removed with
    | false => exact absurd rfl hchanged
    | true =>
      refine changed_tells (h := h) hmem (fun other hne => ?_) hchanged
      rw [Settings.remove] at hremove
      split at hremove
      · cases hremove
        exact Settings.lookup_erase_of_ne hne
      · cases hremove

/-- An operation runs the callbacks of what it changes. -/
theorem step_tells {callback : κ} (hmem : callback ∈ h.callbacks name)
    (hchanged : (h.step op).1.get name ≠ h.get name) : (name, callback) ∈ (h.step op).2 := by
  cases op with
  | setCrateClientOverrides order pairs => exact setCrateClientOverrides_tells hmem hchanged
  | clearCrateClientOverrides => exact clearCrateClientOverrides_tells hmem hchanged
  | set order name' value => exact set_tells hmem hchanged
  | remove name' => exact remove_tells hmem hchanged

end

/-! ## The layer of a crate -/

/-- Whatever is set, removed and overridden: the overrides act like entries of `g_settings` for all
but the flags of a setting that only they have, once they are cleared nothing tells that there were
any, and what changes is told. -/
theorem overrides_spec (text : FloatText F) (h : SettingsHierarchy κ) (ops : List SettingsOp) :
    (∀ order (q : Query F), ¬ (h.run ops).Misses q →
      (h.run ops).answer text q = ((h.run ops).held order).answer text q) ∧
    (∀ q : Query F, (h.run ops).clearCrateClientOverrides.1.answer text q =
      (h.clearCrateClientOverrides.1.run (ops.filter SettingsOp.onGlobal)).answer text q) ∧
    (∀ endTag tabDepth, writeLines endTag (h.run ops).clearCrateClientOverrides.1.global tabDepth =
      writeLines endTag
        (h.clearCrateClientOverrides.1.run (ops.filter SettingsOp.onGlobal)).global tabDepth) ∧
    (∀ endTag filter tabDepth is,
      updateConfigObject endTag (h.run ops).clearCrateClientOverrides.1.global filter tabDepth is =
        updateConfigObject endTag
          (h.clearCrateClientOverrides.1.run (ops.filter SettingsOp.onGlobal)).global filter
          tabDepth is) ∧
    ∀ op name, ((h.run ops).step op).1.get name ≠ (h.run ops).get name →
      ∀ callback ∈ h.callbacks name, (name, callback) ∈ ((h.run ops).step op).2 := by
  have hclear : (h.run ops).clearCrateClientOverrides.1 =
      h.clearCrateClientOverrides.1.run (ops.filter SettingsOp.onGlobal) := by
    rw [clearCrateClientOverrides_fst, clearCrateClientOverrides_fst, run_below]
  refine ⟨fun order q hq => answer_held text order q hq, fun q => ?_, fun endTag tabDepth => ?_,
    fun endTag filter tabDepth is => ?_, fun op name hchanged callback hmem => ?_⟩
  · rw [hclear]
  · rw [hclear]
  · rw [hclear]
  · rw [← callbacks_run h ops] at hmem
    exact step_tells hmem hchanged

/-! ### A setting that only the crate has -/

/-- The caves are on by default. -/
def cavesDefault : SettingsHierarchy Nat :=
  { defaults := some (.cons (ascii "mg_flags") (.value (ascii "caves")) .nil)
    crate := none
    global := .nil
    crateClient := none
    callbacks := fun _ => [] }

def cavesFlags : List FlagDesc := [⟨ascii "caves", 2⟩]

/-- The crate asks for no caves. -/
def cavesOverridden : SettingsHierarchy Nat :=
  cavesDefault.run [.setCrateClientOverrides appendOrder [(ascii "mg_flags", ascii "nocaves")]]

/-- There are still caves, and none if the player asks for the same. -/
theorem getFlagStr_only_crate :
    cavesOverridden.get (ascii "mg_flags") = .ok (ascii "nocaves") ∧
    ∀ text : FloatText Unit,
      cavesOverridden.answer text (.getFlagStr (ascii "mg_flags") cavesFlags) = .ok (2, 2) ∧
      (cavesOverridden.held appendOrder).answer text
        (.getFlagStr (ascii "mg_flags") cavesFlags) = .ok (0, 2) :=
  ⟨by decide +kernel, fun _ => ⟨by rfl, by rfl⟩⟩

end SettingsHierarchy

end Config
end AxisEngine
