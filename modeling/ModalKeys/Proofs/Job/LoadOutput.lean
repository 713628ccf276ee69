import ModalKeys.Proofs.Job.Basic
import ModalKeys.Proofs.Keymap.Dump

/-!
# What loading prints

Loading prints its notice and what became of the skipped lines as comments, and the keymap after
them. The whole is again a directive file, and loading it gives the same mappings. A skipped line is
quoted as it was written, so each kind of diagnostic has to stay inside its comment. It does because
a line has no line feed in it, and everything else that a message says is made of words and numbers.
-/

namespace ModalKeys

/-! ### Messages stay on their line -/

private theorem toString_string (s : String) : toString s = s := rfl

private theorem newline_not_mem_toDigits (n : Nat) : '\n' ∉ Nat.toDigits 10 n := by
  intro member
  have digit := Nat.isDigit_of_mem_toDigits (by decide) (by decide) member
  revert digit
  decide

theorem newline_not_mem_passNotice (applied skipped : Nat) :
    '\n' ∉ (passNotice applied skipped).toList := by
  unfold passNotice
  split <;> simp [newline_not_mem_toDigits, toString_string]

namespace Diagnostic

theorem newline_not_mem_display {d : Diagnostic} (line : '\n' ∉ d.line.toList)
    (keyword : ∀ word, d.fault = some (.unrecognized word) → '\n' ∉ word.toList) :
    '\n' ∉ d.display.toList := by
  obtain ⟨n, shown, fault⟩ := d
  unfold display
  cases fault with
  | none => simpa [newline_not_mem_toDigits, toString_string] using line
  | some fault =>
    cases fault with
    | unrecognized word =>
      -- the one fault that quotes a second text
      have quoted : '\n' ∉ word.toList := keyword word rfl
      simpa [newline_not_mem_toDigits, toString_string, quoted] using line
    | missingOperand expected found =>
      simpa [newline_not_mem_toDigits, toString_string] using line
    | unexpectedOperand expected found =>
      simpa [newline_not_mem_toDigits, toString_string] using line

end Diagnostic

theorem newline_not_mem_display_of_interpret {text : String} {d : Diagnostic}
    (member : d ∈ (interpret text).diagnostics) : '\n' ∉ d.display.toList := by
  rw [interpret, Interpretation.diagnostics_ofLinesFrom] at member
  obtain ⟨⟨cs, n⟩, numbered, told⟩ := List.mem_filterMap.mp member
  -- the line is quoted without the blanks around it, and the keyword is a word of it
  have line : '\n' ∉ cs :=
    Text.newline_not_mem_of_mem_lines (List.fst_mem_of_mem_zipIdx numbered)
  unfold Diagnostic.ofLine at told
  split at told
  · cases told
    apply Diagnostic.newline_not_mem_display
    · rw [String.toList_ofList]
      exact fun inside => line (Text.mem_of_mem_trim inside)
    · exact fun word fault => Text.newline_not_mem_of_isWord (Line.isWord_of_unrecognized fault)
  · cases told

/-! ### The output as lines -/

/-- A comment line that says something. -/
def Line.commentOf (said : String) : List Char :=
  Line.commentMarker :: ' ' :: said.toList

theorem Line.ofChars_commentOf (said : String) : Line.ofChars (Line.commentOf said) = .comment := by
  have letter : Text.isBlank Line.commentMarker = false := by decide
  -- the marker begins the first word, whatever is said after it
  obtain ⟨w, ws, split⟩ := Text.words_letter_cons letter (' ' :: said.toList)
  rw [Line.ofChars, Line.commentOf, split, Line.ofWords, List.head?_cons, if_pos rfl]

theorem Line.newline_not_mem_commentOf {said : String} (inside : '\n' ∉ said.toList) :
    '\n' ∉ Line.commentOf said := by
  simp [Line.commentOf, Line.commentMarker, inside]

/-- What is remarked on an interpretation: the notice, and every line that was skipped. -/
def Interpretation.remarks (i : Interpretation) : List String :=
  passNotice i.requests.length i.problemCount :: i.problems.map Diagnostic.display

theorem newline_not_mem_remarks {text said : String}
    (member : said ∈ (interpret text).remarks) : '\n' ∉ said.toList := by
  rcases List.mem_cons.mp member with rfl | shown
  · exact newline_not_mem_passNotice _ _
  · obtain ⟨d, skipped, rfl⟩ := List.mem_map.mp shown
    exact newline_not_mem_display_of_interpret (List.mem_filter.mp skipped).1

namespace Job

/-- What is printed of a text that is loaded. -/
def loadOutput (text : String) : String :=
  let i := interpret text
  s!"\" {passNotice i.requests.length i.problemCount}\n" ++ problemLines "\" " i.diagnostics ++
    (loadedKeymap text).render

theorem toList_loadOutput (text : String) :
    (loadOutput text).toList =
      ((interpret text).remarks.map Line.commentOf ++
        (Keymap.byMode (loadedKeymap text).mappings).map fun m => m.display.toList).flatMap
          (· ++ ['\n']) := by
  have above (i : Interpretation) :
      (s!"\" {passNotice i.requests.length i.problemCount}\n" ++
        problemLines "\" " i.diagnostics).toList =
      (i.remarks.map Line.commentOf).flatMap (· ++ ['\n']) := by
    simp [Interpretation.remarks, Interpretation.problems, problemLines, Line.commentOf,
      Line.commentMarker, String.toList_join, List.flatMap_map, toString_string]
  rw [loadOutput, String.toList_append, above, Keymap.toList_render, List.flatMap_append]

theorem interpret_loadOutput (text : String) :
    (interpret (loadOutput text)).requests =
      (Keymap.byMode (loadedKeymap text).mappings).map Mapping.request ∧
    (interpret (loadOutput text)).problems = [] := by
  have comments : ∀ l ∈ (interpret text).remarks.map Line.commentOf,
      '\n' ∉ l ∧ Line.ofChars l = .comment := by
    intro l member
    obtain ⟨said, remark, rfl⟩ := List.mem_map.mp member
    exact ⟨Line.newline_not_mem_commentOf (newline_not_mem_remarks remark),
      Line.ofChars_commentOf said⟩
  have writable : ∀ m ∈ (loadedKeymap text).mappings, m.Writable :=
    Keymap.writable_of_interpret Keymap.standardModes text
  obtain ⟨requests, -, problems⟩ := interpret_mappings comments
    (Keymap.forall_mem_byMode.mpr writable) (toList_loadOutput text)
  exact ⟨requests, problems⟩

/-! ### Loading the output -/

theorem nodup_keys_loadedKeymap (text : String) :
    ((loadedKeymap text).mappings.map Mapping.key).Nodup :=
  Keymap.nodup_keys_applyAll Keymap.standardModes _

/-- Whatever the default modes are, the output gives the mappings that were loaded. -/
theorem mappings_applyAll_loadOutput (defaults : List Mode) (text : String) :
    (Engine.applyAll (Keymap.empty defaults)
      (interpret (loadOutput text)).requests).engine.mappings =
      Keymap.byMode (loadedKeymap text).mappings := by
  have unique := Keymap.nodup_keys_byMode (nodup_keys_loadedKeymap text)
  rw [(interpret_loadOutput text).1]
  exact Keymap.mappings_applyAll_request defaults unique

/-- Printing what was printed changes the notice at most. -/
theorem loadOutput_loadOutput (text : String) :
    loadOutput (loadOutput text) =
      s!"\" {passNotice (loadedKeymap text).mappings.length 0}\n" ++
        (loadedKeymap text).render := by
  obtain ⟨requests, problems⟩ := interpret_loadOutput text
  have count : (interpret (loadOutput text)).requests.length =
      (loadedKeymap text).mappings.length := by
    rw [requests, List.length_map, Keymap.length_byMode]
  have skipped : (interpret (loadOutput text)).problemCount = 0 := by
    rw [Interpretation.problemCount, problems, List.length_nil]
  have quiet : problemLines "\" " (interpret (loadOutput text)).diagnostics = "" := by
    rw [problemLines, ← Interpretation.problems, problems]
    rfl
  have same : (loadedKeymap (loadOutput text)).render = (loadedKeymap text).render := by
    rw [loadedKeymap]
    exact Keymap.render_eq_of_byMode (mappings_applyAll_loadOutput Keymap.standardModes text)
  conv => lhs; rw [loadOutput]
  simp only [count, skipped, quiet, same, String.append_empty]

/-! ### The job -/

/-- The job loads a text and prints the keymap as a directive file. -/
structure Loads (job : Job) (files : FileTree) (env : Environment) (text : String) : Prop where
  task : job.task = .load
  plain : job.json = false
  read : files.readText (Path.join job.root (job.settings files env).1.directivePath) = .ok text

variable {job : Job} {files : FileTree} {env : Environment} {text : String}

theorem Loads.pass (loads : job.Loads files env text) :
    let s := (job.settings files env).1
    let i := interpret text
    (job.loadPass files s).host.engine = some (loadedKeymap text) ∧
    (job.loadPass files s).answer =
      .ok ⟨s.directivePath, i.lineCount, i.requests, i.diagnostics⟩ :=
  loadPass_of_read job (Folder.read_of_readText loads.read)

/-- Loading depends on the files and the settings by the text that is read alone. -/
theorem Loads.run (loads : job.Loads files env text) :
    (job.run files env).outcome = .ok 0 ∧ (job.run files env).stdout = loadOutput text := by
  obtain ⟨state, answer⟩ := loads.pass
  have done := runLoad_of_loadPass state answer
  rw [Job.run, act, loads.task]
  simp only [loads.plain, Bool.false_eq_true, if_false] at done
  rw [loadedText, Report.notice, Report.skipped, List.countP_eq_length_filter] at done
  exact done

/-- **What loading prints is a directive file for the keymap that was loaded**, whatever was wrong
with the lines that were loaded. It is read without a problem, as one binding for each mapping, and
loading it prints the same mappings again under a notice of no skipped line. -/
theorem run_load_reproduces (loads : job.Loads files env text) :
    let i := interpret text
    let k := loadedKeymap text
    let out := (job.run files env).stdout
    (job.run files env).outcome = .ok 0 ∧
    (job.loadPass files (job.settings files env).1).host.engine = some k ∧
    out = s!"\" {passNotice i.requests.length i.problemCount}\n" ++
      problemLines "\" " i.diagnostics ++ k.render ∧
    (interpret out).problems = [] ∧
    (interpret out).requests = (Keymap.byMode k.mappings).map Mapping.request ∧
    (∀ defaults mode lhs,
      (Engine.applyAll (Keymap.empty defaults) (interpret out).requests).engine.lookup mode lhs =
        k.lookup mode lhs) ∧
    ∀ (again : Job) files' env', again.Loads files' env' out →
      (again.run files' env').outcome = .ok 0 ∧
      (again.run files' env').stdout =
        s!"\" {passNotice k.mappings.length 0}\n" ++ k.render := by
  intro i k out
  have printed : out = loadOutput text := loads.run.2
  rw [printed]
  obtain ⟨requests, problems⟩ := interpret_loadOutput text
  refine ⟨loads.run.1, loads.pass.1, rfl, problems, requests, fun defaults mode lhs => ?_, ?_⟩
  · apply Keymap.lookup_eq_of_perm (nodup_keys_loadedKeymap text)
    rw [mappings_applyAll_loadOutput defaults text]
    exact Keymap.byMode_perm k.mappings
  · intro again files' env' reads
    refine ⟨reads.run.1, ?_⟩
    rw [reads.run.2]
    exact loadOutput_loadOutput text

theorem run_load_reproduces_skipped_lines :
    let text := "nmap jj <Esc>\nfoo \"x\nnmap one\n"
    let files (text : String) : FileTree := ⟨[([".vimrc"], .file (.text text))], []⟩
    let job : Job := ⟨.load, ".", none, none, false⟩
    let env : Environment := ⟨none, none, none⟩
    let out := (job.run (files text) env).stdout
    job.Loads (files text) env text ∧ (interpret text).problemCount = 2 ∧
    (interpret out).problems = [] ∧ job.Loads (files out) env out ∧
    (job.run (files out) env).stdout =
      s!"\" {passNotice 1 0}\n" ++ (loadedKeymap text).render := by
  intro text files job env out
  have loads : ∀ text, job.Loads (files text) env text := by
    intro text
    have path : (job.settings (files text) env).1.directivePath = ".vimrc" := rfl
    have place : Path.join "." ".vimrc" = "./.vimrc" := by decide
    have find : (files text).find "./.vimrc" = .ok [".vimrc"] := rfl
    have contents : (files text).contents "./.vimrc" = .ok (.text text) := by
      rw [FileTree.contents, find]
      rfl
    have read : (files text).readText "./.vimrc" = .ok text := by
      rw [FileTree.readText, contents]
      rfl
    exact ⟨rfl, rfl, by rw [path, place, read]⟩
  have count : (loadedKeymap text).mappings.length = 1 := by decide
  obtain ⟨-, -, -, problems, -, -, reproduced⟩ := run_load_reproduces (loads text)
  obtain ⟨-, printed⟩ := reproduced job (files out) env (loads out)
  refine ⟨loads text, by decide, problems, loads out, ?_⟩
  rw [← count]
  exact printed

end Job

end ModalKeys
