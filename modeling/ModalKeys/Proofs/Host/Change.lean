import ModalKeys.Proofs.Host
import ModalKeys.Proofs.Settings.Store

/-!
# A change of the settings that fails

A change is refused before anything is done when the new path is blank or the host has no place to
keep its settings. When it is the saving that fails, the host goes on with the new path, and what it
reads next is not what a new host would read (`failed_change_redirects_load`). The settings file
holds what it held, but for one case: the write was begun and broke off. Then it holds a beginning
of the new text, which may be nothing at all.
-/

namespace ModalKeys.Host

variable {σ : Type} {h : Host σ} {files : FileTree} {env : Environment} {new file : String}
  {e : SettingsError}

theorem changeSettings_of_file (place : (h.settingsFile <|> env.configFile?) = some file) :
    h.changeSettings files env new =
      ({ h with settings := (h.settings.change files new file).1 },
        (h.settings.change files new file).2) := by
  unfold changeSettings
  rw [place]

theorem changeSettings_of_no_file (homeless : (h.settingsFile <|> env.configFile?) = none) :
    h.changeSettings files env new = (h, ⟨files, [], .error .configDirUnknown⟩) := by
  unfold changeSettings
  rw [homeless]

/-- The change is refused before anything is done. -/
def Refused (h : Host σ) (env : Environment) (new : String) : Prop :=
  (h.settingsFile <|> env.configFile?) = none ∨ blank new

theorem changeSettings_of_refused (refused : h.Refused env new) :
    (h.changeSettings files env new).1 = h ∧ (h.changeSettings files env new).2.files = files := by
  cases place : h.settingsFile <|> env.configFile? with
  | none => simp [changeSettings_of_no_file place]
  | some file =>
    have empty : blank new := refused.resolve_left (by simp [place])
    simp [changeSettings_of_file place, Settings.change_of_blank empty]

theorem refused_iff_of_error (failed : (h.changeSettings files env new).2.outcome = .error e) :
    h.Refused env new ↔ e = .blankPath ∨ e = .configDirUnknown := by
  unfold Refused
  cases place : h.settingsFile <|> env.configFile? with
  | none =>
    rw [changeSettings_of_no_file place] at failed
    cases failed
    simp
  | some file =>
    rw [changeSettings_of_file place] at failed
    by_cases empty : blank new
    · rw [Settings.change_of_blank empty] at failed
      cases failed
      simp [empty]
    · -- from here on the errors are those of saving
      rw [Settings.change_of_not_blank empty] at failed
      rcases Settings.save_cases ⟨trimmed new⟩ files file with
        ⟨cause, -, saved⟩ | ⟨cause, saved⟩ | ⟨spot, -, ⟨n, reason, saved⟩ | ⟨-, saved⟩⟩
      all_goals
        rw [saved] at failed
        cases failed
      · simp [empty]
      · simp [empty]
      · simp [empty]

/-- **A change that fails leaves the settings file as it was or with a beginning of the new text,
and not always the settings**: they are as they were if the path was blank or there was no place to
keep them, and otherwise they have the path that could not be saved. Where the file is as it was, a
new host that finds it has the settings that it would have had before. -/
theorem changeSettings_of_error (failed : (h.changeSettings files env new).2.outcome = .error e) :
    let changed := h.changeSettings files env new
    let text : Contents := .text (Settings.toYaml ⟨trimmed new⟩)
    (∀ file, (h.settingsFile <|> env.configFile?) = some file →
      match e.torn? text with
      | none => changed.2.files.fileAt? (files.goal file) = files.fileAt? (files.goal file) ∧
        (files.Finds file →
          (Settings.load changed.2.files file).1 = (Settings.load files file).1)
      | some c => changed.2.files.held? file = some c ∧ ∃ n < text.bytes.length, c = text.cut n) ∧
    (h.Refused env new ↔ e = .blankPath ∨ e = .configDirUnknown) ∧
    (h.Refused env new → changed.1 = h ∧ changed.2.files = files) ∧
    (¬h.Refused env new → changed.1 = { h with settings := ⟨trimmed new⟩ }) := by
  intro changed text
  refine ⟨fun file place => ?_, refused_iff_of_error failed, changeSettings_of_refused,
    fun taken => ?_⟩
  · simp only [changed, changeSettings_of_file place] at failed ⊢
    cases torn : e.torn? text with
    | none =>
      refine ⟨?_, fun finds => ?_⟩
      · rw [Settings.fileAt?_change_of_error failed, torn, Option.none_or]
      · rw [Settings.load_eq_ofHeld, Settings.load_eq_ofHeld,
          Settings.held?_change_of_error finds failed torn]
    | some c => exact Settings.held?_change_of_torn failed torn
  · rw [changeSettings_host, if_neg (by simpa [Refused] using taken)]

theorem changeSettings_of_error_full_or_locked :
    let files (device : Device) : FileTree :=
      { entries := [(["config.yaml"], .file (.text "vimrc_path: old\n"))], here := [],
        device := device }
    let host : Host Keymap := ⟨some (.empty Keymap.standardModes), ⟨"old"⟩, some "config.yaml"⟩
    let changed (device : Device) :=
      host.changeSettings (files device) ⟨none, none, none⟩ "new"
    (changed .full).2.files.held? "config.yaml" = some (.text "") ∧
    (changed .full).1 = { host with settings := ⟨"new"⟩ } ∧
    (changed .locked).2.files.fileAt? ["config.yaml"] = some (.text "vimrc_path: old\n") ∧
    (changed .locked).1 = { host with settings := ⟨"new"⟩ } := by
  intro files host changed
  let full : SettingsError :=
    .brokenOff "config.yaml" 0 "No space left on device (os error 28)"
  let locked : SettingsError :=
    .notOpened "config.yaml" (.refused "Read-only file system (os error 30)")
  have noRoom : (changed .full).2.outcome = .error full := by decide +kernel
  have noLeave : (changed .locked).2.outcome = .error locked := by decide +kernel
  obtain ⟨left, refused, -, taken⟩ := changeSettings_of_error noRoom
  obtain ⟨kept, refused', -, taken'⟩ := changeSettings_of_error noLeave
  refine ⟨(left "config.yaml" rfl).1, taken ?_, (kept "config.yaml" rfl).1, taken' ?_⟩
  · rw [refused]
    simp [full]
  · rw [refused']
    simp [locked]

/-- Files among which `blocker` is not a directory. -/
def blockedFiles : FileTree :=
  ⟨[(["blocker"], .file (.text ""))], []⟩

def blockedHost : Host Keymap :=
  ⟨some (.empty Keymap.standardModes), .standard, some "blocker/config.yaml"⟩

/-- The change fails, and yet the next pass of the host reads another file than before. -/
theorem failed_change_redirects_load :
    let shelf : Shelf := ⟨[(".vimrc", .ok "nmap a b\n"), ("new", .ok "nmap c d\n")], 0⟩
    let changed := blockedHost.changeSettings blockedFiles ⟨none, none, none⟩ "new"
    changed.2.outcome = .error (.parentNotMade .alreadyExists) ∧
    (blockedHost.load shelf).answer.toOption.map Report.path = some ".vimrc" ∧
    (changed.1.load shelf).answer.toOption.map Report.path = some "new" :=
  ⟨rfl, by decide, by decide⟩

end ModalKeys.Host
