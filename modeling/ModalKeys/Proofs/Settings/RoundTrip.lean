import ModalKeys.Proofs.Settings.Store
import ModalKeys.Proofs.Settings.Yaml

/-!
# Settings that are saved and loaded again

What was saved is loaded, except that a blank path comes back as the default. A changed path is kept
without the blanks around it, in memory as in the file, so that changing it once more to the same
path does nothing (`save_load_change`).
-/

namespace ModalKeys

theorem trimmed_trimmed (s : String) : trimmed (trimmed s) = trimmed s := by
  rw [trimmed, trimmed, String.toList_ofList, Text.trim_trim]

namespace Settings

variable {files : FileTree} {file new : String} {s : Settings}

theorem not_blank_normalized (s : Settings) : ¬blank s.normalized.directivePath := by
  unfold normalized
  split
  · decide
  · assumption

theorem not_blank_ofHeld (held : Option Contents) : ¬blank (ofHeld held).directivePath := by
  have usual : ¬blank standard.directivePath := by decide
  match held with
  | none => exact usual
  | some (.binary bytes) => exact usual
  | some (.text text) =>
    rw [ofHeld]
    cases ofYaml text with
    | error fault => exact usual
    | ok s => exact not_blank_normalized s

/-- Whatever is wrong with the file, the path that comes back is not blank. -/
theorem not_blank_load (files : FileTree) (file : String) :
    ¬blank (load files file).1.directivePath := by
  rw [load_eq_ofHeld]
  exact not_blank_ofHeld _

theorem load_save_of_ok (readable : ofYaml s.toYaml = .ok s)
    (done : (s.save files file).outcome = .ok ()) :
    (load (s.save files file).files file).1 = s.normalized := by
  rw [load_eq_ofHeld, held?_save_of_ok done, ofHeld, readable]
  rfl

theorem load_change_of_ok (readable : ofYaml (toYaml ⟨trimmed new⟩) = .ok ⟨trimmed new⟩)
    (done : (s.change files new file).2.outcome = .ok ()) :
    (load (s.change files new file).2.files file).1 = (s.change files new file).1 := by
  obtain ⟨given, memory, held⟩ := change_of_ok done
  have filled : ¬blank (trimmed new) := by rwa [blank_trimmed]
  rw [load_eq_ofHeld, held, memory]
  exact ofHeld_toYaml filled readable

/-- A path is changed to what it is already. -/
theorem change_again (wf : files.WellFormed) {again : String} (same : trimmed again = trimmed new)
    (done : (s.change files new file).2.outcome = .ok ()) :
    let changed := s.change files new file
    let twice := changed.1.change changed.2.files again file
    twice.2.outcome = .ok () ∧ twice.1 = changed.1 ∧
    twice.2.files.held? file = changed.2.files.held? file := by
  intro changed twice
  obtain ⟨given, memory, held⟩ := change_of_ok done
  have given' : ¬blank again := by rwa [← blank_trimmed, same, blank_trimmed]
  -- the second save is the first one once more, of the same settings
  have done' : twice.2.outcome = .ok () := by
    simp only [twice, changed, change_of_not_blank given, change_of_not_blank given', same]
      at done ⊢
    exact outcome_save_again wf done
  obtain ⟨-, memory', held'⟩ := change_of_ok done'
  rw [same] at memory' held'
  exact ⟨done', memory'.trans memory.symm, held'.trans held.symm⟩

/-- **Settings that were saved are loaded as they were**, but a blank path comes back as the
default; only of a path with several lines is it assumed that the text can be read back. A change
that succeeds was given a path that is not blank; it leaves this path without the blanks around it
in memory and the same settings in the file, and neither is altered when the same path is set again.
No file at all gives a blank path. -/
theorem save_load_change (wf : files.WellFormed) (file : String) :
    (∀ s : Settings, (¬Yaml.SingleLine s.directivePath → ofYaml s.toYaml = .ok s) →
      (s.save files file).outcome = .ok () → (load (s.save files file).files file).1 =
        if blank s.directivePath then standard else s) ∧
    (∀ (s : Settings) (new : String),
      let changed := s.change files new file
      changed.2.outcome = .ok () →
        ¬blank new ∧ changed.1 = ⟨trimmed new⟩ ∧
        ((¬Yaml.SingleLine (trimmed new) → ofYaml changed.1.toYaml = .ok changed.1) →
          (load changed.2.files file).1 = changed.1) ∧
        ∀ again ∈ [new, trimmed new],
          let twice := changed.1.change changed.2.files again file
          twice.2.outcome = .ok () ∧ twice.1 = changed.1 ∧
          twice.2.files.held? file = changed.2.files.held? file) ∧
    ¬blank (load files file).1.directivePath := by
  refine ⟨fun s lines done => load_save_of_ok (readable_of_lines lines) done, ?_,
    not_blank_load files file⟩
  intro s new changed done
  obtain ⟨given, memory, -⟩ := change_of_ok done
  refine ⟨given, memory, fun lines => ?_, fun again either => ?_⟩
  · have memory' : changed.1 = ⟨trimmed new⟩ := memory
    rw [memory'] at lines
    exact load_change_of_ok (readable_of_lines lines) done
  · have same : trimmed again = trimmed new := by
      simp only [List.mem_cons, List.not_mem_nil, or_false] at either
      rcases either with rfl | rfl
      · rfl
      · exact trimmed_trimmed new
    exact change_again wf same done

/-- The directories are made first; blanks around a path are saved, but not set. -/
theorem save_load_change_new_directories :
    let files : FileTree := ⟨[], []⟩
    let file := "conf/app/settings.yaml"
    let spaced : Settings := ⟨" keys.vim "⟩
    let changed := standard.change files "\u3000keys.vim\t" file
    (load (spaced.save files file).files file).1 = spaced ∧
    (load ((⟨" \t"⟩ : Settings).save files file).files file).1 = standard ∧
    changed.1 = ⟨"keys.vim"⟩ ∧ (load changed.2.files file).1 = ⟨"keys.vim"⟩ ∧
    (changed.1.change changed.2.files "keys.vim" file).2.files.held? file =
      some (.text "vimrc_path: keys.vim\n") ∧
    ¬blank (load files file).1.directivePath := by
  intro files file spaced changed
  have wf : files.WellFormed := FileTree.wellFormed_of_entries (by decide)
  obtain ⟨saved, set, never⟩ := save_load_change wf file
  have done : changed.2.outcome = .ok () := by decide +kernel
  have memory : changed.1 = ⟨"keys.vim"⟩ := by decide +kernel
  obtain ⟨-, -, loaded, again⟩ := set standard "\u3000keys.vim\t" done
  refine ⟨?_, ?_, memory, ?_, ?_, never⟩
  · exact (saved spaced (by decide +kernel) (by decide +kernel)).trans (if_neg (by decide))
  · exact (saved ⟨" \t"⟩ (by decide +kernel) (by decide +kernel)).trans (if_pos (by decide))
  · exact (loaded (by decide +kernel)).trans memory
  · exact (again "keys.vim" (by decide +kernel)).2.2.trans (by decide +kernel)

end Settings

end ModalKeys
