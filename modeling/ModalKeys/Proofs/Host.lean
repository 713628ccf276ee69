import ModalKeys.Host
import ModalKeys.Proofs.Engine

/-!
# Passes of a host

A pass that can read its text passes on everything that the text asks for, and reports it. A pass
that cannot read its text leaves the engine alone, and without an engine no text is read. Reloading
is such a pass of the same host with the engine cleared.
-/

namespace ModalKeys

namespace Folder

variable {f : Folder} {path text : String}

theorem read_of_readText (read : f.files.readText (f.resolve path) = .ok text) :
    (TextSource.read f path).outcome = .ok text := by
  have source : TextSource.read f = f.read := rfl
  rw [source]
  unfold Folder.read
  rw [read]

/-- A text is read where the path leads from the root, and the log tells so. -/
theorem events_read (read : f.files.readText (f.resolve path) = .ok text) :
    (TextSource.read f path).events = [.fileRead (f.resolve path)] := by
  have source : TextSource.read f = f.read := rfl
  rw [source]
  unfold Folder.read
  rw [read]

/-- Why ever there is no text, the failure tells of the path as it was given. -/
theorem read_of_unread {cause : FileError}
    (unread : f.files.readText (f.resolve path) = .error cause) :
    ∃ e : SourceError, (TextSource.read f path).outcome = .error e ∧ e.path = path := by
  have source : TextSource.read f = f.read := rfl
  rw [source]
  unfold Folder.read
  rw [unread]
  cases cause <;> exact ⟨_, rfl, rfl⟩

end Folder

namespace Host

/-- A new directive path is taken without the blanks around it, saved or not; it is refused when it
is blank, or when the host has no place to keep its settings. -/
theorem changeSettings_host {σ : Type} (h : Host σ) (files : FileTree) (env : Environment)
    (new : String) :
    (h.changeSettings files env new).1 =
      if (h.settingsFile <|> env.configFile?).isNone || blank new then h
      else { h with settings := ⟨trimmed new⟩ } := by
  unfold changeSettings
  cases h.settingsFile <|> env.configFile? with
  | none => rfl
  | some file =>
    unfold Settings.change
    cases blank new <;> rfl

variable {σ ρ : Type} [Engine σ] [TextSource ρ]

theorem load_of_read {h : Host σ} {engine : σ} {text : String} (source : ρ)
    (present : h.engine = some engine)
    (read : (TextSource.read source h.settings.directivePath).outcome = .ok text) :
    let i := interpret text
    (h.load source).host = { h with engine := some (Engine.applyAll engine i.requests).engine } ∧
    (h.load source).answer =
      .ok ⟨h.settings.directivePath, i.lineCount, i.requests, i.diagnostics⟩ := by
  intro i
  have state : (Engine.applyKeeping engine i.requests).engine =
      (Engine.applyAll engine i.requests).engine :=
    Engine.engine_applyKeeping engine i.requests
  have answer : (Engine.applyKeeping engine i.requests).answer = i.requests :=
    Engine.answer_applyKeeping_interpret engine text
  constructor
  · simp only [load, present, read]
    rw [state]
  · simp only [load, present, read]
    rw [answer]

/-- With an engine or without one, a pass asks for what the text says. -/
theorem host_load_of_read {h : Host σ} {text : String} (source : ρ)
    (read : (TextSource.read source h.settings.directivePath).outcome = .ok text) :
    (h.load source).host =
      { h with engine := h.engine.map fun engine =>
        (Engine.applyAll engine (interpret text).requests).engine } := by
  obtain ⟨engine?, settings, file⟩ := h
  cases engine? with
  | some engine => exact (load_of_read source rfl read).1
  | none => rfl

theorem load_of_unread {h : Host σ} {engine : σ} {e : SourceError} (source : ρ)
    (present : h.engine = some engine)
    (unread : (TextSource.read source h.settings.directivePath).outcome = .error e) :
    (h.load source).host = h ∧ (h.load source).answer = .error (.sourceFailed e) := by
  constructor <;> simp only [load, present, unread]

/-- What the source tells while it is read is in the log of the pass. -/
theorem mem_events_load {h : Host σ} {engine : σ} {told : Log.Event} (source : ρ)
    (present : h.engine = some engine)
    (member : told ∈ (TextSource.read source h.settings.directivePath).events) :
    told ∈ (h.load source).events := by
  simp only [load, present]
  split <;> simp [member]

/-- A pass reads once, whether or not there is a text. -/
theorem source_load {h : Host σ} {engine : σ} (source : ρ) (present : h.engine = some engine) :
    (h.load source).source = (TextSource.read source h.settings.directivePath).source := by
  simp only [load, present]
  split <;> rfl

theorem reload_of_present {h : Host σ} {engine : σ} (source : ρ)
    (present : h.engine = some engine) :
    let loaded := load { h with engine := some (Engine.receive engine .clear) } source
    (h.reload source).host = loaded.host ∧ (h.reload source).source = loaded.source ∧
    (h.reload source).answer = loaded.answer := by
  simp [reload, unload, present]

end Host

end ModalKeys
