import ModalKeys.Engine
import ModalKeys.Settings.Store
import ModalKeys.Source.Basic

/-!
# Hosts

A host ties a keymap engine, a text source and the settings together. `load` runs one pass: it reads
the directive file, interprets it and applies the requests in order. It fails without a call to the
engine when there is no engine or the file cannot be read. `unload` clears the engine, and `reload`
is `unload` followed by `load`. Changing the settings runs no pass.
-/

namespace ModalKeys

/-- A host whose engine has states `σ`, if it has an engine. -/
structure Host (σ : Type) where
  engine : Option σ
  settings : Settings
  /-- Where changed settings are saved, if not with the user's. -/
  settingsFile : Option String

/-- What a step of a host gave: the host and the source after it, what the log tells, an answer. -/
structure Stepped (σ ρ α : Type) where
  host : Host σ
  source : ρ
  events : List Log.Event
  answer : α

/-- One event for each directive line. -/
def Diagnostic.event (d : Diagnostic) : Log.Event :=
  if d.isProblem then .lineSkipped d else .lineMapped d.line

namespace Host

variable {σ ρ : Type}

/-- What the log tells when a host is set up. -/
def setupEvents (h : Host σ) : List Log.Event :=
  if h.engine.isSome then [] else [.engineMissing]

/-- Runs one pass. -/
def load [Engine σ] [TextSource ρ] (h : Host σ) (source : ρ) :
    Stepped σ ρ (Except PassError Report) :=
  match h.engine with
  | none => ⟨h, source, [], .error .engineMissing⟩
  | some engine =>
    let path := h.settings.directivePath
    let fetched := TextSource.read source path
    match fetched.outcome with
    | .error e =>
      ⟨h, fetched.source, fetched.events ++ [.sourceFailed path e], .error (.sourceFailed e)⟩
    | .ok text =>
      let i := interpret text
      let applied := Engine.applyKeeping engine i.requests
      let report : Report := ⟨path, i.lineCount, applied.answer, i.diagnostics⟩
      ⟨{ h with engine := some applied.engine }, fetched.source,
        fetched.events ++ [.passStarted path i.lineCount] ++ i.diagnostics.map Diagnostic.event ++
          applied.events ++ [.passDone report.applied.length report.skipped],
        .ok report⟩

/-- Clears the engine. -/
def unload [Engine σ] (h : Host σ) : Host σ × List Log.Event :=
  match h.engine with
  | none => (h, [])
  | some engine => ({ h with engine := some (Engine.receive engine .clear) }, [.cleared])

/-- Clears the engine, then runs one pass. -/
def reload [Engine σ] [TextSource ρ] (h : Host σ) (source : ρ) :
    Stepped σ ρ (Except PassError Report) :=
  if h.engine.isNone then ⟨h, source, [], .error .engineMissing⟩
  else
    let (cleared, events) := h.unload
    let loaded := cleared.load source
    { loaded with events := events ++ loaded.events }

/-- Gives the settings a new directive path and saves them. -/
def changeSettings (h : Host σ) (files : FileTree) (env : Environment) (path : String) :
    Host σ × Settings.Saved :=
  match h.settingsFile <|> env.configFile? with
  | none => (h, ⟨files, [], .error .configDirUnknown⟩)
  | some file =>
    let (settings, saved) := h.settings.change files path file
    ({ h with settings := settings }, saved)

end Host

end ModalKeys
