import AxisEngine.Config.ConfigManager
import AxisEngine.Config.UpdateText

/-!
# Directory — what loading and saving the configuration does

* `Settings.Lasting` — entries that can be written, read, and put into an object again;
* `fileSettings`, `merged` — what a file holds, and what all files hold together;
* `load_spec` — what is read from files whose entries are such;
* `load_save_spec` — and a fresh load reads them.
-/

namespace AxisEngine
namespace Config

open Lib

/-! ## Entries that last -/

/-- `set` and `setGroup` accept the entry, a file can hold it, and there is no group in it. -/
def SettingsEntry.Lasting : SettingsEntry → Prop
  | .value v => checkValueValid v = true ∧ Plain v
  | .group g => g.holdsGroup = false ∧ g.Conforms NameOk Storable

/-- All entries are such, and have names that are accepted. -/
structure Settings.Lasting (s : Settings) : Prop where
  nodup : s.names.Nodup
  entries : ∀ name entry, s.lookup name = some entry → checkNameValid name = true ∧ entry.Lasting

section

variable {order : HashOrder} {s t : Settings} {name : Bytes} {entry entry' : SettingsEntry}
variable {f : Bytes → Bool} {N V : Bytes → Prop}

namespace Settings

theorem holdsGroup_eq_false_iff :
    s.holdsGroup = false ↔ ∀ name entry, s.lookup name = some entry → entry.isGroup = false := by
  rw [holdsGroup, List.any_eq_false]
  constructor
  · intro h name entry hlookup
    have hnot := h name (mem_names_of_lookup hlookup)
    rw [hlookup] at hnot
    simpa using hnot
  · intro h name _
    cases hlookup : s.lookup name with
    | none => simp
    | some entry => simp [h name entry hlookup]

theorem lasting_nil : Settings.nil.Lasting where
  nodup := by
    rw [names_nil]
    exact List.nodup_nil
  entries name entry h := by
    rw [lookup_nil] at h
    cases h

theorem Lasting.conforms (h : s.Lasting) : s.Conforms NameOk Storable := by
  refine conforms_iff.2 ⟨h.nodup, fun name entry hlookup => ?_⟩
  rcases h.entries name entry hlookup with ⟨hname, hentry⟩
  refine ⟨nameOk_of_check hname, ?_⟩
  cases entry with
  | value value => exact conforms_value.2 ⟨valueOk_of_check hentry.1, hentry.2⟩
  | group group => exact conforms_group.2 hentry.2

theorem Lasting.put (h : s.Lasting) (hname : checkNameValid name = true) (hentry : entry.Lasting) :
    (s.put order name entry).Lasting where
  nodup := nodup_put h.nodup
  entries name' entry' hlookup := by
    rw [lookup_put] at hlookup
    split at hlookup
    · rename_i heq
      cases hlookup
      exact ⟨heq ▸ hname, hentry⟩
    · exact h.entries name' entry' hlookup

theorem Lasting.erase (h : s.Lasting) : (s.erase name).Lasting where
  nodup := nodup_erase h.nodup
  entries name' entry' hlookup := by
    rw [lookup_erase h.nodup] at hlookup
    split at hlookup
    · cases hlookup
    · exact h.entries name' entry' hlookup

theorem Lasting.filter_names (h : s.Lasting) : (s.filter f).Lasting where
  nodup := by
    rw [names_filter]
    exact h.nodup.filter _
  entries name entry hlookup := by
    rw [lookup_filter] at hlookup
    split at hlookup
    · exact h.entries name entry hlookup
    · cases hlookup

/-- An entry of the one object is one of the other. -/
theorem Same.exists_lookup (h : s.Same t) (hlookup : s.lookup name = some entry) :
    ∃ entry', t.lookup name = some entry' ∧ entry.node = entry'.node := by
  have hmap := same_iff.1 h name
  rw [hlookup] at hmap
  rcases Option.map_eq_some_iff.1 hmap.symm with ⟨entry', hlookup', hnode⟩
  exact ⟨entry', hlookup', hnode.symm⟩

end Settings

theorem SettingsEntry.isGroup_congr (h : entry.node = entry'.node) :
    entry.isGroup = entry'.isGroup := by
  have hroot := congrFun h []
  cases entry with
  | value v =>
    cases entry' with
    | value v' => rfl
    | group g' => simp [SettingsEntry.node] at hroot
  | group g =>
    cases entry' with
    | value v' => simp [SettingsEntry.node] at hroot
    | group g' => rfl

/-- What lasts is told by what lies at the paths. -/
theorem Settings.Lasting.congr (h : t.Lasting) (hs : s.Conforms N V) (hsame : s.Same t) :
    s.Lasting where
  nodup := hs.nodup
  entries name entry hlookup := by
    rcases hsame.exists_lookup hlookup with ⟨entry', hlookup', hnode⟩
    rcases h.entries name entry' hlookup' with ⟨hname, hentry⟩
    refine ⟨hname, ?_⟩
    have hroot := congrFun hnode []
    cases entry with
    | value v =>
      cases entry' with
      | value v' =>
        simp only [SettingsEntry.node, Option.some.injEq, Node.value.injEq] at hroot
        subst hroot
        exact hentry
      | group g' => simp [SettingsEntry.node] at hroot
    | group g =>
      cases entry' with
      | value v' => simp [SettingsEntry.node] at hroot
      | group g' =>
        have hconforms := SettingsEntry.Conforms.congr (hs.lookup hlookup).2
          (Settings.conforms_group.2 hentry.2) hnode
        refine ⟨?_, Settings.conforms_group.1 hconforms⟩
        refine Settings.holdsGroup_eq_false_iff.2 fun name entry hinner => ?_
        have hgroups : g.Same g' := hnode
        rcases hgroups.exists_lookup hinner with ⟨entry', hinner', hnode'⟩
        rw [SettingsEntry.isGroup_congr hnode']
        exact Settings.holdsGroup_eq_false_iff.1 hentry.1 name entry' hinner'

/-! ## One file -/

/-- What is read from a file; a file that is not there or cannot be read holds nothing. -/
def fileSettings (order : HashOrder) (files : Files) (domain : ConfigDomain) : Settings :=
  match files domain with
  | none => .nil
  | some text =>
    if (parseConfigLines order [] (readLines text) .nil).1 then
      (parseConfigLines order [] (readLines text) .nil).2.1
    else .nil

/-- A file that is there, can be read, and holds this. -/
def Holds (files : Files) (domain : ConfigDomain) (s : Settings) : Prop :=
  ∃ text, files domain = some text ∧ ∀ order, ∃ t rest,
    parseConfigLines order [] (readLines text) .nil = (true, t, rest) ∧ t.Same s

theorem conforms_fileSettings (order : HashOrder) (files : Files) (domain : ConfigDomain) :
    (fileSettings order files domain).Conforms NameOk ValueOk := by
  rw [fileSettings]
  cases files domain with
  | none => exact Settings.conforms_nil
  | some text =>
    dsimp only
    split
    · exact (parse_conforms (newline_not_mem_readLines text) Settings.conforms_nil).1
    · exact Settings.conforms_nil

theorem Holds.same {files : Files} {domain : ConfigDomain} (h : Holds files domain s)
    (order : HashOrder) : (fileSettings order files domain).Same s := by
  rcases h with ⟨text, htext, hparse⟩
  rcases hparse order with ⟨t, rest, hparse, ht⟩
  rw [fileSettings, htext]
  simp only [hparse, if_true]
  exact ht

/-- A file that was brought up to date can be read as the entries that were accepted. -/
theorem parse_updateConfigFile (hs : s.Conforms NameOk Storable) (f : Bytes → Bool) (text : Bytes)
    (order : HashOrder) :
    ∃ t rest, parseConfigLines order [] (readLines (updateConfigFile s f text)) .nil =
      (true, t, rest) ∧ t.Same (s.filter f) := by
  rw [updateConfigFile]
  cases hmodified : (updateConfigObject [] s f 0 (readLines text)).1 with
  | true =>
    simp only [hmodified, if_true]
    exact parse_updateConfigObject order hs f 0 text
  | false =>
    simp only [hmodified, Bool.false_eq_true, if_false]
    exact parse_unmodified order hs f 0 text hmodified

end

/-! ## Loading -/

/-- What files hold together: an entry comes from the last of them that has the name. -/
def merged (order : HashOrder) (files : Files) :
    List ConfigDomainSpec → Bytes → Option SettingsEntry
  | [], _ => none
  | spec :: specs, name =>
    (merged order files specs name).or ((fileSettings order files spec.domain).lookup name)

section

variable {order : HashOrder} {table : Bytes → ConfigDomain} {files files' : Files}
variable {file : Settings} {domain : ConfigDomain} {m m' : ConfigManager} {name : Bytes}
variable {entry : SettingsEntry} {spec : ConfigDomainSpec} {specs : List ConfigDomainSpec}

namespace ConfigManager

@[simp] theorem remember_settings : (m.remember table domain name).settings = m.settings := by
  rw [remember]
  split <;> rfl

@[simp] theorem remember_side : (m.remember table domain name).side = m.side := by
  rw [remember]
  split <;> rfl

theorem remember_origin {name' : Bytes} {domain' : ConfigDomain}
    (h : (m.remember table domain name).origin name' = some domain') :
    m.origin name' = some domain' ∨ domain' = domain := by
  rw [remember] at h
  split at h
  · dsimp only at h
    by_cases hname : name' = name
    · subst hname
      rw [Function.update_self] at h
      exact Or.inr (Option.some.inj h).symm
    · rw [Function.update_of_ne hname] at h
      exact Or.inl h
  · exact Or.inl h

theorem loadNames_cons (hlookup : file.lookup name = some entry)
    (hname : checkNameValid name = true) (hentry : entry.Lasting) (names : List Bytes) :
    loadNames order table domain file (name :: names) m =
      loadNames order table domain file names
        ({ m with settings := m.settings.put order name entry }.remember table domain name) := by
  rw [loadNames, hlookup]
  cases entry with
  | value v =>
    have hset : (m.settings.set order name v).1 = m.settings.put order name (.value v) := by
      rw [Settings.set, hname, hentry.1]
      rfl
    dsimp only
    rw [hset]
  | group g =>
    have hset : (m.settings.setGroup order name g).1 = m.settings.put order name (.group g) := by
      rw [Settings.setGroup, hname]
      rfl
    dsimp only
    rw [hentry.1, Bool.and_false, if_neg Bool.false_ne_true, hset]

/-- What reading entries makes of a manager. -/
structure Loaded (found : Bytes → Option SettingsEntry) (domains : List ConfigDomain)
    (m m' : ConfigManager) : Prop where
  side : m'.side = m.side
  lookup : ∀ name, m'.settings.lookup name = (found name).or (m.settings.lookup name)
  lasting : m.settings.Lasting → m'.settings.Lasting
  origin : ∀ name domain, m'.origin name = some domain → m.origin name = some domain ∨
    domain ∈ domains

theorem loadNames_spec (hfile : file.Lasting) (names : List Bytes) :
    ∃ m', loadNames order table domain file names m = some m' ∧
      Loaded (fun name => if name ∈ names then file.lookup name else none) [domain] m m' := by
  induction names generalizing m with
  | nil => exact ⟨m, by rw [loadNames], rfl, fun name => by simp, id, fun _ _ h => Or.inl h⟩
  | cons name names ih =>
    cases hlookup : file.lookup name with
    | none =>
      rcases @ih m with ⟨m', hload, hm'⟩
      refine ⟨m', ?_, hm'.side, fun name' => ?_, hm'.lasting, hm'.origin⟩
      · rw [loadNames, hlookup]
        exact hload
      · rw [hm'.lookup name']
        by_cases hname : name' = name
        · subst hname
          simp [hlookup]
        · simp [hname]
    | some entry =>
      rcases hfile.entries name entry hlookup with ⟨hname, hentry⟩
      rw [loadNames_cons hlookup hname hentry]
      rcases @ih ({ m with settings := m.settings.put order name entry }.remember table domain
        name) with ⟨m', hload, hm'⟩
      refine ⟨m', hload, ?_, fun name' => ?_, fun h => ?_, fun name' domain' h => ?_⟩
      · rw [hm'.side, remember_side]
      · rw [hm'.lookup name', remember_settings, Settings.lookup_put]
        by_cases hsame : name = name'
        · subst hsame
          by_cases hmem : name ∈ names
          · simp [hlookup, hmem]
          · simp [hlookup, hmem]
        · simp [hsame, Ne.symm hsame]
      · refine hm'.lasting ?_
        rw [remember_settings]
        exact h.put hname hentry
      · rcases hm'.origin name' domain' h with h | h
        · rcases remember_origin h with h | h
          · exact Or.inl h
          · exact Or.inr (List.mem_singleton.2 h)
        · exact Or.inr h

theorem loadFile_eq (order : HashOrder) (table : Bytes → ConfigDomain) (files : Files)
    (m : ConfigManager) (spec : ConfigDomainSpec) :
    loadFile order table files m spec =
      loadNames order table spec.domain (fileSettings order files spec.domain)
        (fileSettings order files spec.domain).names m := by
  rw [loadFile, fileSettings]
  cases files spec.domain with
  | none => rw [Settings.names_nil, loadNames]
  | some text =>
    dsimp only
    split
    · rfl
    · rw [Settings.names_nil, loadNames]

/-- Files whose entries last are read one over the other. -/
theorem loadFiles_spec (hfiles : ∀ spec ∈ specs, (fileSettings order files spec.domain).Lasting) :
    ∃ m', specs.foldlM (loadFile order table files) m = some m' ∧
      Loaded (merged order files specs) (specs.map ConfigDomainSpec.domain) m m' := by
  induction specs generalizing m with
  | nil => exact ⟨m, rfl, rfl, fun name => by simp [merged], id, fun _ _ h => Or.inl h⟩
  | cons spec specs ih =>
    rcases List.forall_mem_cons.1 hfiles with ⟨hfile, hfiles⟩
    rcases @loadNames_spec order table _ spec.domain m hfile
      (fileSettings order files spec.domain).names with ⟨m₁, hload₁, hm₁⟩
    rcases @ih m₁ hfiles with ⟨m', hload, hm'⟩
    refine ⟨m', ?_, hm'.side.trans hm₁.side, fun name => ?_, hm'.lasting ∘ hm₁.lasting,
      fun name domain h => ?_⟩
    · rw [List.foldlM_cons, loadFile_eq, hload₁]
      exact hload
    · rw [hm'.lookup name, hm₁.lookup name, merged, Option.or_assoc]
      by_cases hmem : name ∈ (fileSettings order files spec.domain).names
      · rw [if_pos hmem]
      · rw [if_neg hmem, Settings.lookup_eq_none_iff.2 hmem]
    · rcases hm'.origin name domain h with h | h
      · rcases hm₁.origin name domain h with h | h
        · exact Or.inl h
        · rw [List.mem_singleton.1 h]
          exact Or.inr List.mem_cons_self
      · exact Or.inr (List.mem_cons_of_mem _ h)

/-! ## Saving -/

theorem createFile_of_ne (h : domain ≠ spec.domain) : createFile files spec domain = files domain := by
  rw [createFile]
  cases files spec.domain with
  | some text => rfl
  | none => exact Function.update_of_ne h _ _

theorem exists_createFile (files : Files) (spec : ConfigDomainSpec) :
    ∃ text, createFile files spec spec.domain = some text := by
  rw [createFile]
  cases htext : files spec.domain with
  | some text => exact ⟨text, htext⟩
  | none => exact ⟨fileHeader spec, Function.update_self ..⟩

theorem writeFile_of_ne (h : domain ≠ spec.domain) :
    writeFile table m files spec domain = files domain := by
  rw [writeFile, Function.update_of_ne h, createFile_of_ne h]

/-- The entries of one domain. -/
def entriesOf (table : Bytes → ConfigDomain) (m : ConfigManager) (domain : ConfigDomain) : Settings :=
  m.settings.filter fun name => decide (m.domainOf table name = domain)

theorem writeFile_holds (hm : m.settings.Lasting) (files : Files) (spec : ConfigDomainSpec) :
    Holds (writeFile table m files spec) spec.domain (m.entriesOf table spec.domain) := by
  rcases exists_createFile files spec with ⟨text, htext⟩
  refine ⟨_, ?_, parse_updateConfigFile hm.conforms _ text⟩
  rw [writeFile, Function.update_self, htext]
  rfl

theorem saveFiles_of_not_mem (h : domain ∉ specs.map ConfigDomainSpec.domain) :
    specs.foldl (writeFile table m) files domain = files domain := by
  induction specs generalizing files with
  | nil => rfl
  | cons spec specs ih =>
    rw [List.map_cons, List.mem_cons, not_or] at h
    rw [List.foldl_cons, ih h.2, writeFile_of_ne h.1]

theorem saveFiles_holds (hm : m.settings.Lasting)
    (hnodup : (specs.map ConfigDomainSpec.domain).Nodup) (files : Files) :
    ∀ spec ∈ specs, Holds (specs.foldl (writeFile table m) files) spec.domain
      (m.entriesOf table spec.domain) := by
  induction specs generalizing files with
  | nil =>
    intro spec hspec
    cases hspec
  | cons spec specs ih =>
    rcases List.nodup_cons.1 hnodup with ⟨hnew, hnodup⟩
    rw [List.foldl_cons]
    refine List.forall_mem_cons.2 ⟨?_, ih hnodup _⟩
    -- the files that follow are other ones
    have hfirst := @writeFile_holds table m hm files spec
    rw [Holds] at hfirst ⊢
    rw [saveFiles_of_not_mem hnew]
    exact hfirst

theorem nodup_handledSpecs (m : ConfigManager) :
    (m.handledSpecs.map ConfigDomainSpec.domain).Nodup := by
  have hall : (getConfigDomainSpecs.map ConfigDomainSpec.domain).Nodup := by decide
  exact hall.sublist (List.filter_sublist.map _)

theorem save_spec (hm : m.settings.Lasting) (files : Files) :
    ∀ spec ∈ m.handledSpecs, Holds (m.save table files) spec.domain (m.entriesOf table spec.domain) :=
  saveFiles_holds hm m.nodup_handledSpecs files

/-- The files hold the entries of their domains, and no others. -/
theorem merged_of_holds (hnodup : (specs.map ConfigDomainSpec.domain).Nodup)
    (hfiles : ∀ spec ∈ specs, Holds files spec.domain (m.entriesOf table spec.domain))
    (order : HashOrder) (name : Bytes) :
    (merged order files specs name).map SettingsEntry.node =
      if m.domainOf table name ∈ specs.map ConfigDomainSpec.domain then
        (m.settings.lookup name).map SettingsEntry.node else none := by
  induction specs with
  | nil => rfl
  | cons spec specs ih =>
    rcases List.nodup_cons.1 hnodup with ⟨hnew, hnodup⟩
    rcases List.forall_mem_cons.1 hfiles with ⟨hfile, hfiles⟩
    have hrest := ih hnodup hfiles
    have hfirst := Settings.same_iff.1 (hfile.same order) name
    rw [entriesOf, Settings.lookup_filter] at hfirst
    rw [merged, Option.map_or, hrest, hfirst, List.map_cons]
    by_cases hspec : m.domainOf table name = spec.domain
    · rw [← hspec] at hnew
      simp [hspec, hspec ▸ hnew]
    · simp [hspec]

/-! ## Loading what was saved -/

theorem handledSpecs_congr (h : m'.side = m.side) : m'.handledSpecs = m.handledSpecs := by
  rw [handledSpecs, handledSpecs]
  refine List.filter_congr fun spec _ => ?_
  rw [handles, handles, h]

theorem load_eq (h : m.handledSpecs.foldlM (loadFile order table files) m = some m') :
    load order table files m = some (m', m'.handledSpecs.foldl createFile files) := by
  rw [load, h]
  rfl

theorem lasting_of_holds {s : Settings} (h : Holds files domain s) (hs : s.Lasting)
    (order : HashOrder) : (fileSettings order files domain).Lasting :=
  hs.congr (conforms_fileSettings order files domain) (h.same order)

/-- A load reads what the files hold together. -/
theorem exists_load (order : HashOrder) (table : Bytes → ConfigDomain) (side : ConfigSection)
    (hfiles : ∀ spec ∈ ({ side := side } : ConfigManager).handledSpecs,
      (fileSettings order files spec.domain).Lasting) :
    ∃ m, load order table files { side := side } = some (m, m.handledSpecs.foldl createFile files) ∧
      m.side = side ∧ m.settings.Lasting ∧
      ∀ name, m.settings.lookup name = merged order files m.handledSpecs name := by
  rcases @loadFiles_spec order table files { side := side } _ hfiles with ⟨m, hload, hm⟩
  have hside : m.side = side := hm.side
  have hspecs : ({ side := side } : ConfigManager).handledSpecs = m.handledSpecs :=
    handledSpecs_congr hside.symm
  refine ⟨m, load_eq hload, hside, hm.lasting Settings.lasting_nil, fun name => ?_⟩
  rw [hm.lookup name, Settings.lookup_nil, Option.or_none, hspecs]

/-- A fresh load after saving reads the settings whose domain has a file. -/
theorem exists_fresh_load (hm : m.settings.Lasting) (order : HashOrder) (files : Files) :
    ∃ m' files', load order table (m.save table files) { side := m.side } = some (m', files') ∧
      ∀ name, (m'.settings.lookup name).map SettingsEntry.node =
        if m.domainOf table name ∈ m.handledSpecs.map ConfigDomainSpec.domain then
          (m.settings.lookup name).map SettingsEntry.node else none := by
  have hspecs : ({ side := m.side } : ConfigManager).handledSpecs = m.handledSpecs :=
    handledSpecs_congr rfl
  have hholds := @save_spec table m hm files
  have hread : ∀ spec ∈ m.handledSpecs,
      (fileSettings order (m.save table files) spec.domain).Lasting := fun spec hspec =>
    lasting_of_holds (hholds spec hspec) hm.filter_names order
  rcases @loadFiles_spec order table _ { side := m.side } m.handledSpecs hread with
    ⟨m', hload, hm'⟩
  rw [← hspecs] at hload
  refine ⟨m', _, load_eq hload, fun name => ?_⟩
  rw [hm'.lookup name, Settings.lookup_nil, Option.or_none,
    merged_of_holds m.nodup_handledSpecs hholds order name]

end ConfigManager

end

/-- Settings that are loaded and saved are read from the files again, each with its value, when its
domain has a file on this side; what has none is dropped. -/
theorem load_save_spec (order order' : HashOrder) (table : Bytes → ConfigDomain)
    (side : ConfigSection) (files : Files)
    (hfiles : ∀ spec ∈ ({ side := side } : ConfigManager).handledSpecs,
      (fileSettings order files spec.domain).Lasting) :
    ∃ m files₁ m' files₂, ConfigManager.load order table files { side := side } = some (m, files₁) ∧
      ConfigManager.load order' table (m.save table files₁) { side := side } = some (m', files₂) ∧
      ∀ name,
        (m'.settings.lookup name).map SettingsEntry.node =
          (if m.domainOf table name ∈ m.handledSpecs.map ConfigDomainSpec.domain then
            (merged order files m.handledSpecs name).map SettingsEntry.node else none) ∧
        (merged order' (m.save table files₁) m.handledSpecs name).map SettingsEntry.node =
          (m'.settings.lookup name).map SettingsEntry.node := by
  rcases ConfigManager.exists_load order table side hfiles with ⟨m, hload, hside, hlasting, hlookup⟩
  rcases @ConfigManager.exists_fresh_load table m hlasting order'
    (m.handledSpecs.foldl ConfigManager.createFile files) with ⟨m', files₂, hfresh, hm'⟩
  rw [hside] at hfresh
  refine ⟨m, _, m', files₂, hload, hfresh, fun name => ⟨?_, ?_⟩⟩
  · rw [hm' name, hlookup name]
  · rw [hm' name, ConfigManager.merged_of_holds m.nodup_handledSpecs
      (ConfigManager.save_spec hlasting _) order' name]

/-- A setting of a mod. -/
def modFiles : Files := fun domain =>
  if domain = .serverCustom then some (ascii "# mods\na_mod_setting = 1\n") else none

variable (order : HashOrder) (domain : ConfigDomain)

theorem fileSettings_modFiles :
    fileSettings order modFiles .serverCustom =
      Settings.nil.put order (ascii "a_mod_setting") (.value (ascii "1")) := by
  have hlines : readLines (ascii "# mods\na_mod_setting = 1\n") =
      [ascii "# mods", ascii "a_mod_setting = 1", []] := by decide +kernel
  rw [fileSettings, modFiles, if_pos rfl]
  dsimp only
  rw [hlines, parseConfigLines_cons]
  rfl

theorem lasting_modFiles : (fileSettings order modFiles domain).Lasting := by
  by_cases hdomain : domain = .serverCustom
  · subst hdomain
    rw [fileSettings_modFiles]
    refine Settings.lasting_nil.put (by decide +kernel) ⟨by decide +kernel, Or.inr ?_⟩
    exact ⟨by decide +kernel, by decide⟩
  · rw [fileSettings, modFiles, if_neg hdomain]
    exact Settings.lasting_nil

theorem load_save_spec_modFiles :
    ∃ m files₁ m' files₂,
      ConfigManager.load appendOrder (fun _ => .count) modFiles { side := .client } =
        some (m, files₁) ∧
      ConfigManager.load appendOrder (fun _ => .count) (m.save (fun _ => .count) files₁)
        { side := .client } = some (m', files₂) ∧
      ∀ name,
        (m'.settings.lookup name).map SettingsEntry.node =
          (if m.domainOf (fun _ => .count) name ∈ m.handledSpecs.map ConfigDomainSpec.domain then
            (merged appendOrder modFiles m.handledSpecs name).map SettingsEntry.node else none) ∧
        (merged appendOrder (m.save (fun _ => .count) files₁) m.handledSpecs name).map
            SettingsEntry.node =
          (m'.settings.lookup name).map SettingsEntry.node :=
  load_save_spec appendOrder appendOrder (fun _ => .count) .client modFiles fun spec _ =>
    lasting_modFiles appendOrder spec.domain

/-- The key of this run is no setting that is saved. -/
def secretTable (name : Bytes) : ConfigDomain :=
  if name = ascii "axis_ticket_key" then .notSaved else .count

/-- A mod's setting, and a key that someone wrote into the file. -/
def secretFiles : Files := fun domain =>
  if domain = .serverCustom then some (ascii "a_mod_setting = 1\naxis_ticket_key = 2\n") else none

theorem lasting_secretFiles : (fileSettings order secretFiles domain).Lasting := by
  by_cases hdomain : domain = .serverCustom
  · subst hdomain
    have hlines : readLines (ascii "a_mod_setting = 1\naxis_ticket_key = 2\n") =
        [ascii "a_mod_setting = 1", ascii "axis_ticket_key = 2", []] := by decide +kernel
    have hsettings : fileSettings order secretFiles .serverCustom =
        (Settings.nil.put order (ascii "a_mod_setting") (.value (ascii "1"))).put order
          (ascii "axis_ticket_key") (.value (ascii "2")) := by
      rw [fileSettings, secretFiles, if_pos rfl]
      dsimp only
      rw [hlines, parseConfigLines_cons]
      rfl
    rw [hsettings]
    have hmod : (Settings.nil.put order (ascii "a_mod_setting") (.value (ascii "1"))).Lasting := by
      refine Settings.lasting_nil.put (by decide +kernel) ⟨by decide +kernel, Or.inr ?_⟩
      exact ⟨by decide +kernel, by decide⟩
    refine hmod.put (by decide +kernel) ⟨by decide +kernel, Or.inr ?_⟩
    exact ⟨by decide +kernel, by decide⟩
  · rw [fileSettings, secretFiles, if_neg hdomain]
    exact Settings.lasting_nil

/-- A setting that belongs to no file is read once, and dropped. -/
theorem load_save_drops_secret :
    (merged appendOrder secretFiles
      ({ side := .client } : ConfigManager).handledSpecs (ascii "axis_ticket_key")) =
        some (.value (ascii "2")) ∧
    ((ConfigManager.load appendOrder secretTable secretFiles { side := .client }).bind fun r =>
      (ConfigManager.load appendOrder secretTable (r.1.save secretTable r.2)
        { side := .client }).map fun r =>
          r.1.settings.lookup (ascii "axis_ticket_key")) = some none := by
  refine ⟨by decide +kernel, ?_⟩
  rcases ConfigManager.exists_load appendOrder secretTable .client fun spec _ =>
    lasting_secretFiles appendOrder spec.domain with ⟨m, hload, hside, hlasting, -⟩
  rcases @ConfigManager.exists_fresh_load secretTable m hlasting appendOrder
    (m.handledSpecs.foldl ConfigManager.createFile secretFiles) with ⟨m', files, hfresh, hlookup⟩
  rw [hside] at hfresh
  have hdomain : m.domainOf secretTable (ascii "axis_ticket_key") = .notSaved := by
    rw [ConfigManager.domainOf, secretTable, if_pos rfl]
    rfl
  have hno : ∀ spec ∈ m.handledSpecs, spec.domain ≠ .notSaved := by
    intro spec hspec
    have hall : ∀ spec ∈ getConfigDomainSpecs, spec.domain ≠ .notSaved := by decide
    exact hall spec (List.mem_of_mem_filter hspec)
  have hnone := hlookup (ascii "axis_ticket_key")
  rw [hdomain, if_neg fun hmem => (List.mem_map.1 hmem).elim fun spec h => hno spec h.1 h.2,
    Option.map_eq_none_iff] at hnone
  rw [hload, Option.bind_some, hfresh, Option.map_some, hnone]

end Config
end AxisEngine
