import AxisEngine.Config.Directory

/-!
# DirectoryRun — loading, changing and saving, any number of times

* `ConfigOp`, `runOps` — what is done with a manager and its directory;
* `DirectoryOk` — what holds all the time: all entries last;
* `Alike` — managers that only differ in the values of settings that are not saved;
* `directory_run_spec` — what is in the files after a run.
-/

namespace AxisEngine
namespace Config

open Lib

/-- An operation on the manager or its settings.  At each the map may come into any order. -/
inductive ConfigOp
  | load (order : HashOrder)
  | set (order : HashOrder) (name value : Bytes)
  | remove (name : Bytes)
  | save

def ConfigOp.step (table : Bytes → ConfigDomain) (op : ConfigOp) (m : ConfigManager)
    (files : Files) : Option (ConfigManager × Files) :=
  match op with
  | .load order => m.load order table files
  | .set order name value =>
    some ({ m with settings := (m.settings.set order name value).1 }, files)
  | .remove name => some ({ m with settings := (m.settings.remove name).1 }, files)
  | .save => some (m, m.save table files)

/-- One operation after the other; `none` when something is done that is not defined. -/
def runOps (table : Bytes → ConfigDomain) (ops : List ConfigOp) (state : ConfigManager × Files) :
    Option (ConfigManager × Files) :=
  ops.foldlM (fun state op => op.step table state.1 state.2) state

/-- A value that `set` accepts is one that a file can hold. -/
def ConfigOp.Ok : ConfigOp → Prop
  | .set _ name value => checkNameValid name = true → checkValueValid value = true → Plain value
  | .load _ | .remove _ | .save => True

/-- The entries of the settings and of all files last, and origins are files of this side. -/
structure DirectoryOk (m : ConfigManager) (files : Files) : Prop where
  settings : m.settings.Lasting
  files : ∀ order, ∀ spec ∈ m.handledSpecs, (fileSettings order files spec.domain).Lasting
  origin : ∀ name domain, m.origin name = some domain →
    domain ∈ m.handledSpecs.map ConfigDomainSpec.domain

section

variable {order : HashOrder} {table : Bytes → ConfigDomain} {files files' : Files}
variable {m m' : ConfigManager} {name value : Bytes} {s s' : Settings}
variable {entry entry' : SettingsEntry} {op : ConfigOp} {f : Bytes → Bool}

/-! ## The header of a new file -/

variable (endTag line : Bytes) {spec : ConfigDomainSpec}

theorem parseConfigObject_comment : parseConfigObject endTag (35 :: line) = .comment := by
  have hblank : isSpace 35 = false := by decide
  have hhead : trim (35 :: line) = 35 :: line.rdropWhile isSpace := trim_append_cons hblank [] line
  rw [parseConfigObject, hhead]
  rfl

theorem newline_not_mem_summary : ∀ spec ∈ getConfigDomainSpecs, (10 : UInt8) ∉ spec.summary := by
  unfold getConfigDomainSpecs
  simp only [List.forall_mem_cons, List.not_mem_nil, false_implies, implies_true, and_true]
  and_intros
  all_goals exact not_mem_ascii rfl

theorem parse_comment (is : List Bytes) (s : Settings) :
    parseConfigLines order endTag ((35 :: line) :: is) s = parseConfigLines order endTag is s := by
  rw [parseConfigLines_cons, parseConfigObject_comment]

theorem parse_fileHeader (hspec : spec ∈ getConfigDomainSpecs) :
    parseConfigLines order [] (readLines (fileHeader spec)) .nil = (true, .nil, []) := by
  have htext : fileHeader spec = (35 :: 32 :: spec.summary) ++ 10 :: (35 :: [] ++ 10 ::
      (35 :: ascii " Settings written here override the built-in defaults. Lines the" ++ 10 ::
        (35 :: ascii " engine does not recognise are kept as they are." ++ 10 :: ([] ++ 10 :: [])))) := by
    have hsecond : ascii "# Settings written here override the built-in defaults. Lines the\n" =
        35 :: ascii " Settings written here override the built-in defaults. Lines the" ++ [10] := by
      have htail : ascii " Settings written here override the built-in defaults. Lines the" = _ :=
        ascii_ofList _
      rw [htail]
      exact (ascii_ofList _).trans rfl
    have hthird : ascii "# engine does not recognise are kept as they are.\n" =
        35 :: ascii " engine does not recognise are kept as they are." ++ [10] := by
      have htail : ascii " engine does not recognise are kept as they are." = _ := ascii_ofList _
      rw [htail]
      exact (ascii_ofList _).trans rfl
    have hrest : ascii "# " = [35, 32] ∧ ascii "#\n" = [35, 10] ∧ ascii "\n" = [10] := by decide
    rw [fileHeader, hsecond, hthird, hrest.1, hrest.2.1, hrest.2.2]
    simp
  have hcons : ∀ line : Bytes, (10 : UInt8) ∉ line → (10 : UInt8) ∉ 35 :: line := by
    intro line hline hmem
    rcases List.mem_cons.1 hmem with hmem | hmem
    · revert hmem
      decide
    · exact hline hmem
  have hfirst : (10 : UInt8) ∉ 32 :: spec.summary := by
    rw [List.mem_cons, not_or]
    exact ⟨by decide, newline_not_mem_summary spec hspec⟩
  rw [htext, readLines_cons (hcons _ hfirst), readLines_cons (hcons _ List.not_mem_nil),
    readLines_cons (hcons _ (not_mem_ascii rfl)),
    readLines_cons (hcons _ (not_mem_ascii rfl)), readLines_cons List.not_mem_nil,
    parse_comment, parse_comment, parse_comment, parse_comment]
  rfl

/-- A file that was just created holds nothing, as one that is not there. -/
theorem fileSettings_createFile (hspec : spec ∈ getConfigDomainSpecs) (order : HashOrder) (files : Files)
    (domain : ConfigDomain) :
    fileSettings order (ConfigManager.createFile files spec) domain =
      fileSettings order files domain := by
  by_cases hdomain : domain = spec.domain
  · subst hdomain
    rw [fileSettings, fileSettings, ConfigManager.createFile]
    cases htext : files spec.domain with
    | some text =>
      dsimp only
      rw [htext]
    | none =>
      dsimp only
      rw [Function.update_self]
      simp only [parse_fileHeader hspec, if_true]
  · rw [fileSettings, fileSettings, ConfigManager.createFile_of_ne hdomain]

theorem fileSettings_createFiles {specs : List ConfigDomainSpec}
    (hspecs : ∀ spec ∈ specs, spec ∈ getConfigDomainSpecs) (order : HashOrder) (files : Files)
    (domain : ConfigDomain) :
    fileSettings order (specs.foldl ConfigManager.createFile files) domain =
      fileSettings order files domain := by
  induction specs generalizing files with
  | nil => rfl
  | cons spec specs ih =>
    rcases List.forall_mem_cons.1 hspecs with ⟨hspec, hspecs⟩
    rw [List.foldl_cons, ih hspecs, fileSettings_createFile hspec]

/-! ## What holds all the time -/

theorem Settings.Lasting.set (h : s.Lasting) (order : HashOrder) (name value : Bytes)
    (hplain : checkNameValid name = true → checkValueValid value = true → Plain value) :
    (s.set order name value).1.Lasting := by
  rw [Settings.set]
  split
  · rename_i hvalid
    rcases Bool.and_eq_true_iff.1 hvalid with ⟨hname, hvalue⟩
    exact h.put hname ⟨hvalue, hplain hname hvalue⟩
  · exact h

theorem Settings.Lasting.remove (h : s.Lasting) (name : Bytes) : (s.remove name).1.Lasting := by
  rw [Settings.remove]
  cases s.lookup name with
  | none => exact h
  | some entry => exact h.erase

theorem mem_specs_of_handled (h : spec ∈ m.handledSpecs) :
    spec ∈ getConfigDomainSpecs :=
  (List.mem_filter.1 h).1

theorem DirectoryOk.step (h : DirectoryOk m files) (hop : op.Ok) :
    ∃ m' files', op.step table m files = some (m', files') ∧ DirectoryOk m' files' ∧
      m'.side = m.side := by
  cases op with
  | load order =>
    rcases @ConfigManager.loadFiles_spec order table files m _ (h.files order) with
      ⟨m', hload, hm'⟩
    have hspecs := ConfigManager.handledSpecs_congr hm'.side
    refine ⟨m', _, ConfigManager.load_eq hload, ⟨hm'.lasting h.settings, ?_, ?_⟩, hm'.side⟩
    · intro order' spec hspec
      rw [fileSettings_createFiles fun spec hspec => mem_specs_of_handled hspec]
      rw [hspecs] at hspec
      exact h.files order' spec hspec
    · intro name domain horigin
      rw [hspecs]
      rcases hm'.origin name domain horigin with horigin | hmem
      · exact h.origin name domain horigin
      · exact hmem
  | set order name value =>
    exact ⟨_, _, rfl, ⟨h.settings.set order name value hop, h.files, h.origin⟩, rfl⟩
  | remove name => exact ⟨_, _, rfl, ⟨h.settings.remove name, h.files, h.origin⟩, rfl⟩
  | save =>
    refine ⟨m, _, rfl, ⟨h.settings, fun order spec hspec => ?_, h.origin⟩, rfl⟩
    exact ConfigManager.lasting_of_holds (ConfigManager.save_spec h.settings files spec hspec)
      h.settings.filter_names order

theorem DirectoryOk.run (h : DirectoryOk m files) {ops : List ConfigOp} (hops : ∀ op ∈ ops, op.Ok) :
    ∃ m' files', runOps table ops (m, files) = some (m', files') ∧ DirectoryOk m' files' ∧
      m'.side = m.side := by
  induction ops generalizing m files with
  | nil => exact ⟨m, files, rfl, h, rfl⟩
  | cons op ops ih =>
    rcases List.forall_mem_cons.1 hops with ⟨hop, hops⟩
    rcases @DirectoryOk.step table files m op h hop with ⟨m₁, files₁, hstep, h₁, hside₁⟩
    rcases ih h₁ hops with ⟨m', files', hrun, h', hside⟩
    refine ⟨m', files', ?_, h', hside.trans hside₁⟩
    rw [runOps, List.foldlM_cons, hstep]
    exact hrun

/-! ## Settings that are not saved -/

namespace Settings

theorem filter_filter (g : Bytes → Bool) :
    (s.filter f).filter g = s.filter fun name => g name && f name := by
  induction s using listInduct with
  | nil => rfl
  | cons name entry rest ih =>
    rw [Settings.filter, Settings.filter]
    by_cases hf : f name = true
    · rw [if_pos hf, Settings.filter, ih, hf, Bool.and_true]
    · rw [if_neg hf, ih]
      simp [hf]

theorem wanted_filter : (s.filter f).wanted noFilter name = s.wanted f name := by
  rw [wanted, noFilter, if_pos rfl, lookup_filter, wanted]

/-- What is accepted of two maps is equal when they have the same names, and the same entries where
these are accepted. -/
theorem filter_congr (hs : s.names.Nodup) (hnames : s.names = s'.names)
    (h : ∀ name, f name = true → s.lookup name = s'.lookup name) : s.filter f = s'.filter f := by
  induction s using listInduct generalizing s' with
  | nil =>
    cases s' with
    | nil => rfl
    | cons name entry rest =>
      rw [names_nil, names_cons] at hnames
      cases hnames
  | cons name entry rest ih =>
    cases s' with
    | nil =>
      rw [names_nil, names_cons] at hnames
      cases hnames
    | cons name' entry' rest' =>
      rw [names_cons, names_cons, List.cons.injEq] at hnames
      rcases hnames with ⟨rfl, hrest⟩
      rw [names_cons, List.nodup_cons] at hs
      rcases hs with ⟨hnew, hnodup⟩
      have hsame : rest.filter f = rest'.filter f := by
        refine ih hnodup hrest fun name' hf => ?_
        have hlookup := h name' hf
        rw [lookup_cons, lookup_cons] at hlookup
        by_cases hname : name = name'
        · subst hname
          rw [lookup_eq_none_iff.2 hnew, lookup_eq_none_iff.2 (hrest ▸ hnew)]
        · rw [if_neg hname, if_neg hname] at hlookup
          exact hlookup
      rw [Settings.filter, Settings.filter, hsame]
      by_cases hf : f name = true
      · have hentry := h name hf
        rw [lookup_cons_self, lookup_cons_self] at hentry
        cases hentry
        rfl
      · rw [if_neg hf, if_neg hf]

end Settings

theorem missingEntries_filter (presentEntries : List Bytes) :
    missingEntries (s.filter f) noFilter presentEntries = missingEntries s f presentEntries := by
  rw [missingEntries, Settings.filter_filter, missingEntries]
  congr 1
  funext name
  rw [noFilter, Bool.and_true]

/-- The update depends on the entries that the filter accepts only. -/
theorem updateLoop_filter (fuel : Nat) (endTag : Bytes) (s : Settings) (f : Bytes → Bool)
    (tabDepth : Nat) (is : List Bytes) (u : Update) :
    updateLoop fuel endTag (s.filter f) noFilter tabDepth is u =
      updateLoop fuel endTag s f tabDepth is u := by
  have hend : ∀ (endFound : Bool) (is : List Bytes) (u : Update),
      updateEnd endTag (s.filter f) noFilter tabDepth endFound is u =
        updateEnd endTag s f tabDepth endFound is u := by
    intro endFound is u
    rw [updateEnd, missingEntries_filter, updateEnd]
  induction fuel generalizing is u with
  | zero => rw [updateLoop, updateLoop, hend]
  | succ fuel ih =>
    cases is with
    | nil => rw [updateLoop, updateLoop, hend]
    | cons line is =>
      rw [updateLoop, updateLoop]
      cases parseConfigObject endTag line with
      | endTag => exact hend _ _ _
      | group name =>
        simp only [Settings.wanted_filter]
        cases s.wanted f name with
        | none => exact ih _ _
        | some entry =>
          cases entry with
          | value value => exact ih _ _
          | group group => exact ih _ _
      | kvPair name value =>
        simp only [Settings.wanted_filter]
        exact ih _ _
      | multiline name =>
        simp only [Settings.wanted_filter]
        exact ih _ _
      | _ => all_goals exact ih _ _

theorem updateConfigFile_congr (h : s.filter f = s'.filter f) (text : Bytes) :
    updateConfigFile s f text = updateConfigFile s' f text := by
  rw [updateConfigFile, updateConfigFile, updateConfigObject, updateConfigObject,
    ← updateLoop_filter, h, updateLoop_filter]

/-- Managers with the same origins, and settings of the same names that are equal where they are
saved. -/
structure Alike (table : Bytes → ConfigDomain) (m m' : ConfigManager) : Prop where
  side : m.side = m'.side
  origin : m.origin = m'.origin
  names : m.settings.names = m'.settings.names
  lookup : ∀ name, table name ≠ .notSaved → m.settings.lookup name = m'.settings.lookup name

/-- The same operation, up to the value of a setting that is not saved. -/
inductive AlikeOp (table : Bytes → ConfigDomain) : ConfigOp → ConfigOp → Prop
  | same (op : ConfigOp) : AlikeOp table op op
  | set (order : HashOrder) (name value value' : Bytes) (hsecret : table name = .notSaved)
      (haccept : checkValueValid value = checkValueValid value') :
      AlikeOp table (.set order name value) (.set order name value')

section

variable (h : Alike table m m')

include h

theorem Alike.put (order : HashOrder) (name : Bytes) (hentry : table name ≠ .notSaved → entry = entry') :
    Alike table { m with settings := m.settings.put order name entry }
      { m' with settings := m'.settings.put order name entry' } where
  side := h.side
  origin := h.origin
  names := by
    dsimp only
    by_cases hmem : name ∈ m.settings.names
    · rw [Settings.names_put_of_mem hmem, Settings.names_put_of_mem (h.names ▸ hmem), h.names]
    · rw [Settings.names_put_of_not_mem hmem, Settings.names_put_of_not_mem (h.names ▸ hmem), h.names]
  lookup name' hsaved := by
    dsimp only
    rw [Settings.lookup_put, Settings.lookup_put, h.lookup name' hsaved]
    by_cases hname : name = name'
    · subst hname
      rw [if_pos rfl, if_pos rfl, hentry hsaved]
    · rw [if_neg hname, if_neg hname]

theorem Alike.remember (domain : ConfigDomain) (name : Bytes) :
    Alike table (m.remember table domain name) (m'.remember table domain name) := by
  rw [ConfigManager.remember, ConfigManager.remember]
  split
  · exact ⟨h.side, by rw [h.origin], h.names, h.lookup⟩
  · exact h

theorem Alike.loadNames {file : Settings} (hfile : file.Lasting) (order : HashOrder)
    (domain : ConfigDomain) (names : List Bytes) :
    ∃ m₁ m₁', ConfigManager.loadNames order table domain file names m = some m₁ ∧
      ConfigManager.loadNames order table domain file names m' = some m₁' ∧ Alike table m₁ m₁' := by
  induction names generalizing m m' with
  | nil => exact ⟨m, m', by rw [ConfigManager.loadNames], by rw [ConfigManager.loadNames], h⟩
  | cons name names ih =>
    cases hlookup : file.lookup name with
    | none =>
      rw [ConfigManager.loadNames, ConfigManager.loadNames, hlookup]
      exact ih h
    | some entry =>
      rcases hfile.entries name entry hlookup with ⟨hname, hentry⟩
      rw [ConfigManager.loadNames_cons hlookup hname hentry,
        ConfigManager.loadNames_cons hlookup hname hentry]
      exact ih ((h.put order name fun _ => rfl).remember domain name)

theorem Alike.loadFiles {specs : List ConfigDomainSpec} (order : HashOrder)
    (hfiles : ∀ spec ∈ specs, (fileSettings order files spec.domain).Lasting) :
    ∃ m₁ m₁', specs.foldlM (ConfigManager.loadFile order table files) m = some m₁ ∧
      specs.foldlM (ConfigManager.loadFile order table files) m' = some m₁' ∧
      Alike table m₁ m₁' := by
  induction specs generalizing m m' with
  | nil => exact ⟨m, m', rfl, rfl, h⟩
  | cons spec specs ih =>
    rcases List.forall_mem_cons.1 hfiles with ⟨hfile, hfiles⟩
    rcases h.loadNames hfile order spec.domain (fileSettings order files spec.domain).names with
      ⟨m₂, m₂', hload, hload', h₂⟩
    rcases ih h₂ hfiles with ⟨m₁, m₁', hrest, hrest', h₁⟩
    refine ⟨m₁, m₁', ?_, ?_, h₁⟩
    · rw [List.foldlM_cons, ConfigManager.loadFile_eq, hload]
      exact hrest
    · rw [List.foldlM_cons, ConfigManager.loadFile_eq, hload']
      exact hrest'

theorem Alike.domainOf (name : Bytes) : m.domainOf table name = m'.domainOf table name := by
  rw [ConfigManager.domainOf, ConfigManager.domainOf, h.side, h.origin]

/-- A file is written without a look at the settings that are not saved. -/
theorem Alike.writeFile (hm : m.settings.names.Nodup) (files : Files) {spec : ConfigDomainSpec}
    (hspec : spec ∈ getConfigDomainSpecs) :
    m.writeFile table files spec = m'.writeFile table files spec := by
  have hdomain : ∀ spec ∈ getConfigDomainSpecs, spec.domain ≠ .notSaved := by decide
  have hupdate : updateConfigFile m.settings
        (fun name => decide (m.domainOf table name = spec.domain)) =
      updateConfigFile m'.settings fun name => decide (m'.domainOf table name = spec.domain) := by
    have hfilter : (fun name => decide (m.domainOf table name = spec.domain)) =
        fun name => decide (m'.domainOf table name = spec.domain) := by
      funext name
      rw [h.domainOf]
    rw [← hfilter]
    funext text
    refine updateConfigFile_congr (Settings.filter_congr hm h.names fun name hname => ?_) text
    refine h.lookup name fun hsecret => hdomain spec hspec ?_
    rw [← of_decide_eq_true hname, ConfigManager.domainOf, hsecret]
    rfl
  rw [ConfigManager.writeFile, ConfigManager.writeFile, hupdate]

theorem Alike.save (hm : m.settings.names.Nodup) (files : Files) :
    m.save table files = m'.save table files := by
  have hfold : ∀ (specs : List ConfigDomainSpec) (files : Files),
      (∀ spec ∈ specs, spec ∈ getConfigDomainSpecs) →
      specs.foldl (m.writeFile table) files = specs.foldl (m'.writeFile table) files := by
    intro specs
    induction specs with
    | nil => exact fun files _ => rfl
    | cons spec specs ih =>
      intro files hspecs
      rcases List.forall_mem_cons.1 hspecs with ⟨hspec, hspecs⟩
      rw [List.foldl_cons, List.foldl_cons, h.writeFile hm files hspec, ih _ hspecs]
  rw [ConfigManager.save, ConfigManager.save, ConfigManager.handledSpecs_congr h.side]
  exact hfold _ files fun spec hspec => mem_specs_of_handled hspec

theorem Alike.remove (hm : m.settings.names.Nodup) (name : Bytes) :
    Alike table { m with settings := (m.settings.remove name).1 }
      { m' with settings := (m'.settings.remove name).1 } := by
  rw [Settings.remove, Settings.remove]
  cases hlookup : m.settings.lookup name with
  | none =>
    have hnew := Settings.lookup_eq_none_iff.1 hlookup
    rw [h.names] at hnew
    rw [Settings.lookup_eq_none_iff.2 hnew]
    exact h
  | some entry =>
    have hmem := Settings.mem_names_of_lookup hlookup
    rw [h.names] at hmem
    rcases Settings.exists_lookup hmem with ⟨entry', hlookup'⟩
    rw [hlookup']
    refine ⟨h.side, h.origin, ?_, fun name' hsaved => ?_⟩
    · dsimp only
      rw [Settings.names_erase, Settings.names_erase, h.names]
    · dsimp only
      rw [Settings.lookup_erase hm, Settings.lookup_erase (h.names ▸ hm), h.lookup name' hsaved]

/-- Alike operations leave alike managers, and the same files. -/
theorem Alike.step (hok : DirectoryOk m files) {op' : ConfigOp} (hop : AlikeOp table op op') :
    ∃ m₁ m₁' files₁, op.step table m files = some (m₁, files₁) ∧
      op'.step table m' files = some (m₁', files₁) ∧ Alike table m₁ m₁' := by
  cases hop with
  | set order name value value' hsecret haccept =>
    refine ⟨_, _, files, rfl, rfl, ?_⟩
    rw [Settings.set, Settings.set, haccept]
    split
    · exact h.put order name fun hsaved => absurd hsecret hsaved
    · exact h
  | same op =>
    cases op with
    | load order =>
      rcases h.loadFiles order (hok.files order) with ⟨m₁, m₁', hload, hload', h₁⟩
      rw [ConfigManager.handledSpecs_congr h.side] at hload'
      have hspecs := ConfigManager.handledSpecs_congr h₁.side
      refine ⟨m₁, m₁', _, ConfigManager.load_eq hload, ?_, h₁⟩
      rw [hspecs]
      exact ConfigManager.load_eq hload'
    | set order name value =>
      refine ⟨_, _, files, rfl, rfl, ?_⟩
      rw [Settings.set, Settings.set]
      split
      · exact h.put order name fun _ => rfl
      · exact h
    | remove name => exact ⟨_, _, files, rfl, rfl, h.remove hok.settings.nodup name⟩
    | save =>
      refine ⟨m, m', m.save table files, rfl, ?_, h⟩
      rw [h.save hok.settings.nodup files]
      rfl

theorem Alike.run (hok : DirectoryOk m files) {ops ops' : List ConfigOp} (hops : ∀ op ∈ ops, op.Ok)
    (halike : List.Forall₂ (AlikeOp table) ops ops') :
    ∃ m₁ m₁' files₁, runOps table ops (m, files) = some (m₁, files₁) ∧
      runOps table ops' (m', files) = some (m₁', files₁) ∧ Alike table m₁ m₁' := by
  induction halike generalizing m m' files with
  | nil => exact ⟨m, m', files, rfl, rfl, h⟩
  | cons hop _ ih =>
    rcases List.forall_mem_cons.1 hops with ⟨hopOk, hops⟩
    rcases h.step hok hop with ⟨m₂, m₂', files₂, hstep, hstep', h₂⟩
    rcases @DirectoryOk.step table files m _ hok hopOk with ⟨m₃, files₃, hstep₃, hok₃, -⟩
    cases hstep.symm.trans hstep₃
    rcases ih h₂ hok₃ hops with ⟨m₁, m₁', files₁, hrun, hrun', h₁⟩
    refine ⟨m₁, m₁', files₁, ?_, ?_, h₁⟩
    · rw [runOps, List.foldlM_cons, hstep]
      exact hrun
    · rw [runOps, List.foldlM_cons, hstep']
      exact hrun'

end

/-- A client reads and writes all files. -/
theorem handledSpecs_client (h : m.side = .client) : m.handledSpecs = getConfigDomainSpecs := by
  refine List.filter_eq_self.2 fun spec _ => ?_
  rw [ConfigManager.handles, h]
  split
  · rfl
  · rfl

/-- Where a setting goes is a file, unless it is not saved. -/
theorem DirectoryOk.domainOf (h : DirectoryOk m files) (hside : m.side = .client) (name : Bytes) :
    m.domainOf table name ∈ m.handledSpecs.map ConfigDomainSpec.domain ↔
      m.domainOf table name ≠ .notSaved := by
  have hall : ∀ domain : ConfigDomain, domain ≠ .count →
      (domain ∈ getConfigDomainSpecs.map ConfigDomainSpec.domain ↔ domain ≠ .notSaved) := by
    intro domain hcount
    cases domain with
    | count => exact absurd rfl hcount
    | notSaved => exact iff_of_false (by decide) (by decide)
    | _ => all_goals exact iff_of_true (by decide) (by decide)
  rw [handledSpecs_client hside]
  refine hall _ ?_
  rw [ConfigManager.domainOf]
  split
  · rename_i hknown
    exact hknown
  · cases horigin : m.origin name with
    | none =>
      dsimp only
      rw [getCustomDomain, hside]
      decide
    | some domain =>
      have hmem := h.origin name domain horigin
      rw [handledSpecs_client hside] at hmem
      dsimp only
      rintro rfl
      exact absurd hmem (by decide)

end

/-- After a save at the end of any run of a client's manager, in which no group holds a group: the
file of each domain holds the settings of this domain and no others, those that are not saved are in
none and do not matter to any file, and a fresh load reads what was saved. -/
theorem directory_run_spec (table : Bytes → ConfigDomain) (m : ConfigManager) (files : Files)
    (ops : List ConfigOp) (hside : m.side = .client) (hok : DirectoryOk m files)
    (hops : ∀ op ∈ ops, op.Ok) :
    ∃ m' files', runOps table ops (m, files) = some (m', files') ∧
      (∀ order, ∀ spec ∈ getConfigDomainSpecs, ∀ name,
        ((fileSettings order (m'.save table files') spec.domain).lookup name).map
            SettingsEntry.node =
          if m'.domainOf table name = spec.domain then
            (m'.settings.lookup name).map SettingsEntry.node else none) ∧
      (∀ m₁ ops', Alike table m m₁ → List.Forall₂ (AlikeOp table) ops ops' →
        ∃ m₁' files₁', runOps table ops' (m₁, files) = some (m₁', files₁') ∧
          m₁'.save table files₁' = m'.save table files') ∧
      ∀ order, ∃ fresh files'',
        ConfigManager.load order table (m'.save table files') { side := .client } =
          some (fresh, files'') ∧
        ∀ name, (fresh.settings.lookup name).map SettingsEntry.node =
          if m'.domainOf table name ≠ .notSaved then
            (m'.settings.lookup name).map SettingsEntry.node else none := by
  rcases @DirectoryOk.run table files m hok ops hops with ⟨m', files', hrun, hok', hside'⟩
  have hclient : m'.side = .client := hside'.trans hside
  refine ⟨m', files', hrun, ?_, ?_, ?_⟩
  · intro order spec hspec name
    rw [← handledSpecs_client hclient] at hspec
    have hholds := @ConfigManager.save_spec table m' hok'.settings files' spec hspec
    rw [Settings.same_iff.1 (hholds.same order) name, ConfigManager.entriesOf,
      Settings.lookup_filter]
    by_cases hdomain : m'.domainOf table name = spec.domain
    · rw [if_pos hdomain, if_pos (decide_eq_true hdomain)]
    · rw [if_neg hdomain, if_neg (by simpa using hdomain)]
      rfl
  · intro m₁ ops' halike hops'
    rcases halike.run hok hops hops' with ⟨m₂, m₂', files₂, hrun₂, hrun₂', h₂⟩
    cases hrun.symm.trans hrun₂
    exact ⟨m₂', files', hrun₂', (h₂.save hok'.settings.nodup files').symm⟩
  · intro order
    rcases @ConfigManager.exists_fresh_load table m' hok'.settings order files' with
      ⟨fresh, files'', hfresh, hlookup⟩
    rw [hclient] at hfresh
    refine ⟨fresh, files'', hfresh, fun name => ?_⟩
    rw [hlookup name]
    by_cases hsaved : m'.domainOf table name = .notSaved
    · rw [if_neg (not_not.2 hsaved), if_neg fun hmem => (hok'.domainOf hclient name).1 hmem hsaved]
    · rw [if_pos hsaved, if_pos ((hok'.domainOf hclient name).2 hsaved)]

theorem directoryOk_modFiles : DirectoryOk { side := .client } modFiles where
  settings := Settings.lasting_nil
  files order spec _ := lasting_modFiles order spec.domain
  origin name domain h := by cases h

/-- A mod's setting is loaded, changed and saved, and then taken away. -/
def modOps : List ConfigOp :=
  [.load appendOrder, .set appendOrder (ascii "a_mod_setting") (ascii "2"), .save,
    .remove (ascii "a_mod_setting")]

theorem ok_modOps : ∀ op ∈ modOps, op.Ok := by
  intro op hop
  rw [modOps] at hop
  simp only [List.mem_cons, List.not_mem_nil, or_false] at hop
  rcases hop with rfl | rfl | rfl | rfl
  · trivial
  · intro _ _
    exact Or.inr ⟨by decide +kernel, by decide⟩
  · trivial
  · trivial

theorem directory_run_spec_modFiles :
    ∃ m' files', runOps (fun _ => .count) modOps ({ side := .client }, modFiles) =
        some (m', files') ∧
      (∀ order, ∀ spec ∈ getConfigDomainSpecs, ∀ name,
        ((fileSettings order (m'.save (fun _ => .count) files') spec.domain).lookup name).map
            SettingsEntry.node =
          if m'.domainOf (fun _ => .count) name = spec.domain then
            (m'.settings.lookup name).map SettingsEntry.node else none) ∧
      (∀ m₁ ops', Alike (fun _ => .count) { side := .client } m₁ →
        List.Forall₂ (AlikeOp fun _ => .count) modOps ops' →
        ∃ m₁' files₁', runOps (fun _ => .count) ops' (m₁, modFiles) = some (m₁', files₁') ∧
          m₁'.save (fun _ => .count) files₁' = m'.save (fun _ => .count) files') ∧
      ∀ order, ∃ fresh files'',
        ConfigManager.load order (fun _ => .count) (m'.save (fun _ => .count) files')
          { side := .client } = some (fresh, files'') ∧
        ∀ name, (fresh.settings.lookup name).map SettingsEntry.node =
          if m'.domainOf (fun _ => .count) name ≠ .notSaved then
            (m'.settings.lookup name).map SettingsEntry.node else none :=
  directory_run_spec (fun _ => .count) { side := .client } modFiles modOps rfl directoryOk_modFiles
    ok_modOps

/-- A group in a group of a mod's settings. -/
def nestedFiles : Files := fun domain =>
  if domain = .serverCustom then
    some (ascii "house = \x7b\nroof = \x7b\ncolour = red\n\x7d\n\x7d\n")
  else none

/-- The settings can be read, but a save after loading them looks at what was deleted. -/
theorem directory_run_nested :
    fileSettings appendOrder nestedFiles .serverCustom =
      .cons (ascii "house") (.group (.cons (ascii "roof") (.group
        (.cons (ascii "colour") (.value (ascii "red")) .nil)) .nil)) .nil ∧
    runOps (fun _ => .count) [.load appendOrder, .save] ({ side := .client }, nestedFiles) =
      none := by
  refine ⟨by decide +kernel, ?_⟩
  have hload : (ConfigManager.load appendOrder (fun _ => .count) nestedFiles
      { side := .client }).isNone = true := by decide +kernel
  rw [runOps, List.foldlM_cons, ConfigOp.step, Option.isNone_iff_eq_none.1 hload]
  rfl

end Config
end AxisEngine
