import ModalKeys.Proofs.FileTree.Directories
import ModalKeys.Proofs.Text.Lines
import ModalKeys.Settings.Store

/-!
# What the settings file holds

Loading depends on nothing but what the settings file holds. Saving puts the settings there or
leaves what is there as it is, but for a write that breaks off: this one leaves a beginning of the
text and nothing of what was there before (`SettingsError.torn?`).

It is the same for a change of the directive path. The settings in memory take every path that is
not blank, whether or not it could be saved.
-/

namespace ModalKeys

namespace FileTree

/-- What the file at a path holds, if it can be read. -/
def held? (t : FileTree) (path : String) : Option Contents :=
  (t.contents path).toOption

variable {t t' : FileTree} {path : String} {c : Contents}

theorem held?_eq_some_iff : t.held? path = some c ↔ t.contents path = .ok c := by
  unfold held?
  cases t.contents path <;> simp [Except.toOption]

theorem held?_eq_none_iff : t.held? path = none ↔ ∀ c, t.contents path ≠ .ok c := by
  simp [Option.eq_none_iff_forall_ne_some, held?_eq_some_iff]

theorem fileAt?_of_held? (held : t.held? path = some c) : t.fileAt? (t.goal path) = some c :=
  fileAt?_eq_some_iff.mpr (contents_eq_ok_iff.mp (held?_eq_some_iff.mp held)).2.2

/-- Whatever file is where the path leads to, the path finds it. There may be no way to it, as when
the path goes through a directory that is missing and out of it again. -/
def Finds (t : FileTree) (path : String) : Prop :=
  t.held? path = t.fileAt? (t.goal path)

instance : Decidable (t.Finds path) :=
  inferInstanceAs (Decidable (_ = _))

/-- A path that finds its file finds it still when nothing has happened to the file. -/
theorem Finds.held?_eq (finds : t.Finds path) (ext : t.Extends t')
    (same : t'.fileAt? (t.goal path) = t.fileAt? (t.goal path)) : t'.held? path = t.held? path := by
  cases held : t.held? path with
  | some c => exact held?_eq_some_iff.mpr (ext.contents (held?_eq_some_iff.mp held))
  | none =>
    -- were there anything now, it would have been at the same place before
    refine Option.eq_none_iff_forall_ne_some.mpr fun c held' => ?_
    have now := fileAt?_of_held? held'
    rw [ext.keeps.goal, same, ← finds, held] at now
    cases now

theorem Finds.extends (finds : t.Finds path) (ext : t.Extends t')
    (same : t'.fileAt? (t.goal path) = t.fileAt? (t.goal path)) : t'.Finds path := by
  rw [Finds, finds.held?_eq ext same, ext.keeps.goal, same]
  exact finds

theorem pathExists_of_contents (read : t.contents path = .ok c) : t.pathExists path := by
  obtain ⟨place, found, inside⟩ := bind_eq_ok_iff.mp read
  unfold pathExists
  rw [found]
  cases entry : t.entry? place <;> simp_all

end FileTree

/-- What is left of a text when saving it has ended so: a beginning of it, if the write broke off,
and else the file was not written. -/
def SettingsError.torn? (text : Contents) : SettingsError → Option Contents
  | .brokenOff _ written _ => some (text.cut written)
  | .blankPath | .configDirUnknown | .parentNotMade _ | .notOpened _ _ => none

namespace Settings

variable {files : FileTree} {path new : String} {s : Settings} {e : SettingsError}

/-- The settings that a file gives, or the lack of one. -/
def ofHeld : Option Contents → Settings
  | some (.text text) => (ofYaml text).toOption.elim standard normalized
  | _ => standard

theorem load_eq_ofHeld (files : FileTree) (path : String) :
    (load files path).1 = ofHeld (files.held? path) := by
  cases read : files.contents path with
  | error e =>
    have unread : files.held? path = none := FileTree.held?_eq_none_iff.mpr (by simp [read])
    have cause : files.readText path = .error e := by
      simp [FileTree.readText, read, bind, Except.bind]
    -- whether nothing is there or it cannot be read, the default comes back
    rw [load, unread, cause]
    split <;> rfl
  | ok c =>
    have present : files.pathExists path := FileTree.pathExists_of_contents read
    rw [load, FileTree.held?_eq_some_iff.mpr read, if_neg (by simp [present])]
    cases c with
    | text text =>
      have taken : files.readText path = .ok text := by
        simp [FileTree.readText, read, bind, Except.bind]
      rw [taken, ofHeld]
      dsimp only
      cases ofYaml text <;> rfl
    | binary bytes =>
      have cause : files.readText path = .error .notText := by
        simp [FileTree.readText, read, bind, Except.bind]
      rw [cause]
      rfl

/-- Settings that can be read back are those that their file gives: a path that is not blank is not
replaced by the default. -/
theorem ofHeld_toYaml {path : String} (filled : ¬blank path)
    (readable : ofYaml (toYaml ⟨path⟩) = .ok ⟨path⟩) :
    ofHeld (some (.text (toYaml ⟨path⟩))) = ⟨path⟩ := by
  simp [ofHeld, readable, Except.toOption, normalized, filled]

/-! ### Saving -/

/-- A save ends where the directories are made, where the file is opened, where the write breaks
off, or when all is written. -/
theorem save_cases (s : Settings) (files : FileTree) (path : String) :
    let around := (files.createParents path).1
    let text : Contents := .text s.toYaml
    (∃ e, (files.createParents path).2 = .error e ∧
      s.save files path = ⟨around, [], .error (.parentNotMade e)⟩) ∨
    (∃ e, s.save files path = ⟨around, [], .error (.notOpened path e)⟩) ∨
    ∃ place, around.Opens path place ∧
      ((∃ (n : Fin text.bytes.length) (reason : String), s.save files path =
          ⟨around.set place (.file (text.cut n)), [], .error (.brokenOff path n reason)⟩) ∨
        (around.device.breakOff? place text.bytes = none ∧
          s.save files path = ⟨around.set place (.file text), [.configSaved path], .ok ()⟩)) := by
  unfold save
  rcases files.createParents path with ⟨around, e | ⟨⟩⟩
  · exact .inl ⟨e, rfl, rfl⟩
  · dsimp only
    rcases around.writeFile_cases path (.text s.toYaml) with
      ⟨e, written⟩ | ⟨place, opens, ⟨n, reason, written⟩ | ⟨whole, written⟩⟩
    · exact .inr (.inl ⟨e, by rw [written]⟩)
    · exact .inr (.inr ⟨place, opens, .inl ⟨n, reason, by rw [written]⟩⟩)
    · exact .inr (.inr ⟨place, opens, .inr ⟨whole, by rw [written]⟩⟩)

theorem save_of_opens {place : Place} (made : (files.createParents path).2 = .ok ())
    (opens : (files.createParents path).1.Opens path place)
    (whole : (files.createParents path).1.device.breakOff? place
      (Contents.text s.toYaml).bytes = none) :
    (s.save files path).outcome = .ok () := by
  have written := FileTree.writeFile_of_opens opens whole
  revert made written
  unfold save
  rcases files.createParents path with ⟨around, result⟩
  rintro rfl written
  dsimp only at written ⊢
  rw [written]

theorem save_of_ok (done : (s.save files path).outcome = .ok ()) :
    let around := (files.createParents path).1
    let text : Contents := .text s.toYaml
    ∃ place, around.Opens path place ∧ around.device.breakOff? place text.bytes = none ∧
      (s.save files path).files = around.set place (.file text) := by
  intro around text
  rcases s.save_cases files path with
    ⟨e, -, saved⟩ | ⟨e, saved⟩ | ⟨place, opens, ⟨n, reason, saved⟩ | ⟨whole, saved⟩⟩
  · simp [saved] at done
  · simp [saved] at done
  · simp [saved] at done
  · exact ⟨place, opens, whole, by rw [saved]⟩

/-- A save that fails has come no further than to the directories around the file, or its write
broke off, and then a beginning of the text is in the place of what the file held. -/
theorem save_of_error (failed : (s.save files path).outcome = .error e) :
    let around := (files.createParents path).1
    let text : Contents := .text s.toYaml
    (e.torn? text = none ∧ (s.save files path).files = around) ∨
    ∃ place, around.Opens path place ∧ ∃ n < text.bytes.length,
      e.torn? text = some (text.cut n) ∧
      (s.save files path).files = around.set place (.file (text.cut n)) := by
  intro around text
  rcases s.save_cases files path with
    ⟨e, -, saved⟩ | ⟨e, saved⟩ | ⟨place, opens, ⟨n, reason, saved⟩ | ⟨-, saved⟩⟩
  all_goals
    rw [saved] at failed ⊢
    cases failed
  · exact .inl ⟨rfl, rfl⟩
  · exact .inl ⟨rfl, rfl⟩
  · exact .inr ⟨place, opens, n, n.isLt, rfl, rfl⟩

/-- However a save ends, it has made directories and has put at most one file among them. -/
theorem files_save (s : Settings) (files : FileTree) (path : String) :
    let around := (files.createParents path).1
    (s.save files path).files = around ∨
    ∃ place c, around.Opens path place ∧ (s.save files path).files = around.set place (.file c) := by
  intro around
  cases result : (s.save files path).outcome with
  | ok =>
    obtain ⟨place, opens, -, saved⟩ := save_of_ok result
    exact .inr ⟨place, _, opens, saved⟩
  | error e =>
    rcases save_of_error result with ⟨-, saved⟩ | ⟨place, opens, n, -, -, saved⟩
    · exact .inl saved
    · exact .inr ⟨place, _, opens, saved⟩

theorem wellFormed_save (wf : files.WellFormed) (s : Settings) (path : String) :
    (s.save files path).files.WellFormed := by
  have around := FileTree.wellFormed_createParents wf path
  rcases s.files_save files path with saved | ⟨place, c, opens, saved⟩
  · rwa [saved]
  · rw [saved]
    exact opens.wellFormed_set around c

/-- The directories that are made around a file do not lead its path elsewhere. -/
theorem goal_save (s : Settings) (files : FileTree) (path : String) :
    (s.save files path).files.goal path = files.goal path := by
  have around := (files.extends_createParents path).keeps
  rcases s.files_save files path with saved | ⟨place, c, opens, saved⟩
  · rw [saved, around.goal]
  · rw [saved, (FileTree.keeps_set opens.free _).goal, around.goal]

theorem held?_save_of_ok (done : (s.save files path).outcome = .ok ()) :
    (s.save files path).files.held? path = some (.text s.toYaml) := by
  obtain ⟨place, opens, -, saved⟩ := save_of_ok done
  rw [saved]
  exact FileTree.held?_eq_some_iff.mpr (opens.contents_set _)

/-- What was just saved can be saved again: nothing is to be made around the file, it is opened at
the same place, and the device takes the same bytes. -/
theorem outcome_save_again (wf : files.WellFormed)
    (done : (s.save files path).outcome = .ok ()) :
    (s.save (s.save files path).files path).outcome = .ok () := by
  obtain ⟨place, opens, whole, saved⟩ := save_of_ok done
  have wf' := wellFormed_save wf s path
  rw [saved] at wf' ⊢
  have ext := FileTree.extends_createParents
    ((files.createParents path).1.set place (.file (.text s.toYaml))) path
  have read := ext.contents (opens.contents_set _)
  refine save_of_opens (FileTree.createParents_of_contents wf' read) (opens.again ext) ?_
  rw [ext.device]
  exact whole

theorem fileAt?_save_of_ok (done : (s.save files path).outcome = .ok ()) :
    (s.save files path).files.fileAt? (files.goal path) = some (.text s.toYaml) := by
  rw [← goal_save]
  exact FileTree.fileAt?_of_held? (held?_save_of_ok done)

/-- A save that fails has written nothing over the file, or what its write had done by then. -/
theorem fileAt?_save_of_error (failed : (s.save files path).outcome = .error e) :
    (s.save files path).files.fileAt? (files.goal path) =
      (e.torn? (.text s.toYaml)).or (files.fileAt? (files.goal path)) := by
  have around : (files.createParents path).1.goal path = files.goal path :=
    (files.extends_createParents path).keeps.goal path
  rcases save_of_error failed with ⟨whole, saved⟩ | ⟨place, opens, n, -, torn, saved⟩
  · rw [saved, whole]
    exact files.fileAt?_createParents path _
  · rw [saved, torn, ← around, opens.goal]
    exact opens.fileAt?_set _

/-- A write that broke off has left a beginning of the text, and not all of it. -/
theorem held?_save_of_torn {c : Contents} (failed : (s.save files path).outcome = .error e)
    (torn : e.torn? (.text s.toYaml) = some c) :
    (s.save files path).files.held? path = some c ∧
    ∃ n < (Contents.text s.toYaml).bytes.length, c = (Contents.text s.toYaml).cut n := by
  rcases save_of_error failed with ⟨whole, -⟩ | ⟨place, opens, n, short, left, saved⟩
  · rw [whole] at torn
    cases torn
  · obtain rfl : (Contents.text s.toYaml).cut n = c := Option.some.inj (left.symm.trans torn)
    rw [saved]
    exact ⟨FileTree.held?_eq_some_iff.mpr (opens.contents_set _), n, short, rfl⟩

/-- A save that has not come to writing leaves what there is to load. -/
theorem held?_save_of_error (finds : files.Finds path)
    (failed : (s.save files path).outcome = .error e) (whole : e.torn? (.text s.toYaml) = none) :
    (s.save files path).files.held? path = files.held? path := by
  refine finds.held?_eq ?_ (by rw [fileAt?_save_of_error failed, whole]; rfl)
  rcases save_of_error failed with ⟨-, saved⟩ | ⟨place, -, n, -, torn, -⟩
  · rw [saved]
    exact files.extends_createParents path
  · simp [torn] at whole

/-! ### Changing the directive path -/

theorem change_of_blank (refused : blank new) :
    s.change files new path = (s, ⟨files, [], .error .blankPath⟩) := by
  simp [change, refused]

theorem change_of_not_blank (given : ¬blank new) :
    s.change files new path = (⟨trimmed new⟩, (⟨trimmed new⟩ : Settings).save files path) := by
  simp [change, given]

theorem fileAt?_change_of_ok (done : (s.change files new path).2.outcome = .ok ()) :
    (s.change files new path).2.files.fileAt? (files.goal path) =
      some (.text (toYaml ⟨trimmed new⟩)) := by
  by_cases refused : blank new
  · simp [change_of_blank refused] at done
  · rw [change_of_not_blank refused] at done ⊢
    exact fileAt?_save_of_ok done

/-- What is saved is what the settings are. -/
theorem change_of_ok (done : (s.change files new path).2.outcome = .ok ()) :
    ¬blank new ∧ (s.change files new path).1 = ⟨trimmed new⟩ ∧
    (s.change files new path).2.files.held? path =
      some (.text (⟨trimmed new⟩ : Settings).toYaml) := by
  by_cases refused : blank new
  · simp [change_of_blank refused] at done
  · rw [change_of_not_blank refused] at done ⊢
    exact ⟨refused, rfl, held?_save_of_ok done⟩

/-- A change that fails has written over the file what its write had done by then, if anything. -/
theorem fileAt?_change_of_error (failed : (s.change files new path).2.outcome = .error e) :
    (s.change files new path).2.files.fileAt? (files.goal path) =
      (e.torn? (.text (toYaml ⟨trimmed new⟩))).or (files.fileAt? (files.goal path)) := by
  by_cases refused : blank new
  · rw [change_of_blank refused] at failed ⊢
    cases failed
    rfl
  · rw [change_of_not_blank refused] at failed ⊢
    exact fileAt?_save_of_error failed

theorem held?_change_of_torn {c : Contents}
    (failed : (s.change files new path).2.outcome = .error e)
    (torn : e.torn? (.text (toYaml ⟨trimmed new⟩)) = some c) :
    let text : Contents := .text (toYaml ⟨trimmed new⟩)
    (s.change files new path).2.files.held? path = some c ∧
    ∃ n < text.bytes.length, c = text.cut n := by
  by_cases refused : blank new
  · rw [change_of_blank refused] at failed
    cases failed
    cases torn
  · rw [change_of_not_blank refused] at failed ⊢
    exact held?_save_of_torn failed torn

theorem held?_change_of_error (finds : files.Finds path)
    (failed : (s.change files new path).2.outcome = .error e)
    (whole : e.torn? (.text (toYaml ⟨trimmed new⟩)) = none) :
    (s.change files new path).2.files.held? path = files.held? path := by
  by_cases refused : blank new
  · rw [change_of_blank refused]
  · rw [change_of_not_blank refused] at failed ⊢
    exact held?_save_of_error finds failed whole

end Settings

end ModalKeys
