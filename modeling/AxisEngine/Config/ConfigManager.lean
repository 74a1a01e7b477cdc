import AxisEngine.Config.UpdateObject
import Mathlib.Logic.Function.Basic

/-!
# ConfigManager — the configuration directory

Each file of the directory holds one domain (`config_domains.h`, `config_manager.h`).  The file of a
setting that the engine does not know is the one it was read from.  Files can always be read and
written here, and `save` tells nothing.

* `ConfigDomain`, `getConfigDomainSpecs` — the domains and their files;
* `ConfigManager`, `domainOf` — the manager, and where a setting goes;
* `load`, `save` — reading all files, and bringing all files up to date.

The names that the engine knows are a generated table; what is said here holds for every table.
-/

namespace AxisEngine
namespace Config

open Lib

/-! ## The domains -/

inductive ConfigDomain
  | sharedEngine
  | sharedLogging
  | clientGraphics
  | clientAudio
  | clientInput
  | clientKeybindings
  | clientInterface
  | clientNetwork
  | clientSession
  | clientCustom
  | serverServer
  | serverNetwork
  | serverGameplay
  | serverSecurity
  | serverPerformance
  | serverWorldgen
  | serverCustom
  /-- "Belongs to no file". -/
  | notSaved
  /-- What the table gives for a setting that the engine does not know. -/
  | count
  deriving DecidableEq

/-- Who reads a domain. -/
inductive ConfigSection
  | shared
  | client
  | server
  deriving DecidableEq

structure ConfigDomainSpec where
  domain : ConfigDomain
  configSection : ConfigSection
  path : Bytes
  summary : Bytes

/-- "All domains, in file layout order". -/
def getConfigDomainSpecs : List ConfigDomainSpec :=
  [⟨.sharedEngine, .shared, ascii "shared/engine.conf",
      ascii "Engine behaviour both the client and the server rely on."⟩,
    ⟨.sharedLogging, .shared, ascii "shared/logging.conf",
      ascii "Logging, profiling and developer switches."⟩,
    ⟨.clientGraphics, .client, ascii "client/graphics.conf",
      ascii "Rendering: window, view distance, shaders, effects."⟩,
    ⟨.clientAudio, .client, ascii "client/audio.conf", ascii "Sound output and volumes."⟩,
    ⟨.clientInput, .client, ascii "client/input.conf",
      ascii "Mouse, touchscreen and gamepad behaviour."⟩,
    ⟨.clientKeybindings, .client, ascii "client/keybindings.conf",
      ascii "What every key does. One line per binding."⟩,
    ⟨.clientInterface, .client, ascii "client/interface.conf",
      ascii "Menus, HUD, chat window and fonts."⟩,
    ⟨.clientNetwork, .client, ascii "client/network.conf", ascii "How the client talks to servers."⟩,
    ⟨.clientSession, .client, ascii "client/session.conf",
      ascii "State the client remembers between runs, not settings to edit by hand."⟩,
    ⟨.clientCustom, .client, ascii "client/custom.conf",
      ascii "Client settings of mods and texture packs, unknown to the engine."⟩,
    ⟨.serverServer, .server, ascii "server/server.conf",
      ascii "Identity of the server: name, world, message of the day, admin."⟩,
    ⟨.serverNetwork, .server, ascii "server/network.conf",
      ascii "Ports, addresses and how much the server sends to a client."⟩,
    ⟨.serverGameplay, .server, ascii "server/gameplay.conf",
      ascii "Rules of play: damage, physics, privileges."⟩,
    ⟨.serverSecurity, .server, ascii "server/security.conf",
      ascii "Mod security, anticheat and what clients are allowed to do."⟩,
    ⟨.serverPerformance, .server, ascii "server/performance.conf",
      ascii "Load of the server: block sending, emerge threads, map storage."⟩,
    ⟨.serverWorldgen, .server, ascii "server/worldgen.conf",
      ascii "Map generation. Applied to worlds at creation time."⟩,
    ⟨.serverCustom, .server, ascii "server/custom.conf",
      ascii "Server settings of crates and mods, unknown to the engine."⟩]

/-- "Section a domain belongs to"; a domain without a file is not asked for. -/
def getConfigSection (domain : ConfigDomain) : ConfigSection :=
  match getConfigDomainSpecs.find? fun spec => decide (spec.domain = domain) with
  | some spec => spec.configSection
  | none => .shared

/-- "Fallback domain for settings the engine does not know". -/
def getCustomDomain (configSection : ConfigSection) : ConfigDomain :=
  if configSection = .server then .serverCustom else .clientCustom

/-- The files of the directory, where they are there. -/
abbrev Files := ConfigDomain → Option Bytes

/-- "Header of a file that is created from scratch". -/
def fileHeader (spec : ConfigDomainSpec) : Bytes :=
  ascii "# " ++ spec.summary ++ ascii "\n" ++ ascii "#\n" ++
    ascii "# Settings written here override the built-in defaults. Lines the\n" ++
    ascii "# engine does not recognise are kept as they are.\n" ++ ascii "\n"

/-! ## The settings object -/

def SettingsEntry.isGroup : SettingsEntry → Bool
  | .value _ => false
  | .group _ => true

/-- A group lies right in the object. -/
def Settings.holdsGroup (s : Settings) : Bool :=
  s.names.any fun name => (s.lookup name).any SettingsEntry.isGroup

/-- `updateConfigFile`: what is in the file afterwards.  It is written when something is new. -/
def updateConfigFile (s : Settings) (filter : Bytes → Bool) (text : Bytes) : Bytes :=
  let (wasModified, _, os) := updateConfigObject [] s filter 0 (readLines text)
  if wasModified then os else text

/-! ## The manager -/

/-- The manager of one side, its settings, and the files of the settings it does not know. -/
structure ConfigManager where
  side : ConfigSection
  settings : Settings := .nil
  origin : Bytes → Option ConfigDomain := fun _ => none

section

variable (order : HashOrder) (findSettingDomain : Bytes → ConfigDomain)

namespace ConfigManager

variable (m : ConfigManager)

/-- "True if this side reads and writes the given domain". -/
def handles (domain : ConfigDomain) : Bool :=
  let configSection := getConfigSection domain
  if configSection = .shared then true
  else if m.side = .client then true
  else decide (configSection = .server)

def handledSpecs : List ConfigDomainSpec :=
  getConfigDomainSpecs.filter fun spec => m.handles spec.domain

/-- "File a setting is stored in". -/
def domainOf (name : Bytes) : ConfigDomain :=
  let known := findSettingDomain name
  if known ≠ .count then known
  else
    -- "Not ours: a game or mod setting. Leave it where it was found."
    match m.origin name with
    | some domain => domain
    | none => getCustomDomain m.side

/-- "Remember where settings of games and mods live". -/
def remember (domain : ConfigDomain) (name : Bytes) : ConfigManager :=
  if findSettingDomain name = .count then
    { m with origin := Function.update m.origin name (some domain) }
  else m

/-- The names of a file one after the other.  `none`: the copy of a group shares the groups in it with
the object of the file, which deletes them in the end, and what is done with them then is not
defined. -/
def loadNames (domain : ConfigDomain) (file : Settings) :
    List Bytes → ConfigManager → Option ConfigManager
  | [], m => some m
  | name :: names, m =>
    match file.lookup name with
    | none => loadNames domain file names m
    | some (.group group) =>
      if checkNameValid name && group.holdsGroup then none
      else
        let m := { m with settings := (m.settings.setGroup order name group).1 }
        loadNames domain file names (m.remember findSettingDomain domain name)
    | some (.value value) =>
      let m := { m with settings := (m.settings.set order name value).1 }
      loadNames domain file names (m.remember findSettingDomain domain name)

def loadFile (files : Files) (m : ConfigManager) (spec : ConfigDomainSpec) : Option ConfigManager :=
  match files spec.domain with
  | none => some m
  | some text =>
    let r := parseConfigLines order [] (readLines text) .nil
    if r.1 then loadNames order findSettingDomain spec.domain r.2.1 r.2.1.names m else some m

def createFile (files : Files) (spec : ConfigDomainSpec) : Files :=
  match files spec.domain with
  | some _ => files
  | none => Function.update files spec.domain (some (fileHeader spec))

/-- "Reads every file this side is responsible for", and creates those that are missing. -/
def load (files : Files) (m : ConfigManager) : Option (ConfigManager × Files) :=
  (m.handledSpecs.foldlM (loadFile order findSettingDomain files) m).map fun m =>
    (m, m.handledSpecs.foldl createFile files)

def writeFile (files : Files) (spec : ConfigDomainSpec) : Files :=
  let files := createFile files spec
  let belongsHere := fun name => decide (m.domainOf findSettingDomain name = spec.domain)
  Function.update files spec.domain
    ((files spec.domain).map (updateConfigFile m.settings belongsHere))

/-- "Writes every setting into the file of its domain, creating what is missing". -/
def save (files : Files) : Files :=
  m.handledSpecs.foldl (writeFile findSettingDomain m) files

end ConfigManager

end

end Config
end AxisEngine
