import ModalKeys.Proofs.Host

/-! Texts one after the other: the numbers of the later lines alone tell of the earlier text. -/

namespace ModalKeys

/-- A text, and the text with one more line in it: between two lines, as the last one without an
end, or after a last line that had none. -/
inductive Text.Inserted (line : String) : String → String → Prop where
  | between (a b : String) (closed : Closed a.toList) :
    Inserted line (a ++ b) (a ++ (line ++ "\n") ++ b)
  | last (a : String) (closed : Closed a.toList) : Inserted line a (a ++ line)
  | next (a : String) : Inserted line a (a ++ "\n" ++ line)

theorem Text.closed_newline (text : String) : Text.Closed (text ++ "\n").toList := by
  right
  rw [String.toList_append]
  exact List.getLast?_concat

/-- A line feed at the end makes no difference to what is said of the lines, if it does not depend
on a carriage return at the end and nothing is said of an empty line. -/
theorem Text.filterMap_lines_newline {β : Type} {f : List Char → Option β}
    (chomps : ∀ l, f (chomp l) = f l) (nothing : f [] = none) (cs : List Char) :
    (lines (cs ++ ['\n'])).filterMap f = (lines cs).filterMap f := by
  by_cases closed : Closed cs
  · -- the line feed makes an empty line, of which nothing is said
    have silent : (lines ['\n']).filterMap f = [] := List.filterMap_cons_none nothing
    rw [lines_append closed, List.filterMap_append, silent, List.append_nil]
  · -- it ends the line that was open
    have same := congrArg (List.filterMap id) (map_lines_newline chomps closed)
    rwa [List.filterMap_map, List.filterMap_map] at same

theorem Diagnostic.ofLine_add (n k : Nat) (l : List Char) :
    Diagnostic.ofLine (n + k) l =
      (Diagnostic.ofLine n l).map fun d => { d with lineNumber := d.lineNumber + k } := by
  unfold Diagnostic.ofLine
  cases Line.ofChars l <;> rfl

namespace Interpretation

theorem ofLinesFrom_add (n k : Nat) (ls : List (List Char)) :
    ofLinesFrom (n + k) ls =
      { ofLinesFrom n ls with
        diagnostics := (ofLinesFrom n ls).diagnostics.map fun d =>
          { d with lineNumber := d.lineNumber + k } } := by
  induction ls generalizing n with
  | nil => rfl
  | cons l ls ih =>
    rw [ofLinesFrom, ofLinesFrom, consLine_eq, consLine_eq, Nat.add_right_comm, ih,
      Diagnostic.ofLine_add]
    cases Diagnostic.ofLine n l <;> rfl

theorem ofLinesFrom_append (n : Nat) (ls ms : List (List Char)) :
    let i := ofLinesFrom n ls
    let j := ofLinesFrom (n + ls.length) ms
    ofLinesFrom n (ls ++ ms) =
      ⟨i.requests ++ j.requests, i.diagnostics ++ j.diagnostics, i.lineCount + j.lineCount⟩ := by
  induction ls generalizing n with
  | nil => simp [ofLinesFrom, empty]
  | cons l ls ih =>
    intro i j
    -- one line further on, `ms` still begins at the same number
    have rest := ih (n + 1)
    rw [Nat.add_assoc, Nat.add_comm 1, ← List.length_cons (a := l)] at rest
    rw [List.cons_append, ofLinesFrom, consLine_eq, rest]
    simp only [i, j, ofLinesFrom, consLine_eq, List.append_assoc, Nat.add_right_comm]

theorem interpret_closed_append {a : String} (closed : Text.Closed a.toList) (b : String) :
    let i := interpret a
    let j := interpret b
    interpret (a ++ b) = ⟨i.requests ++ j.requests,
      i.diagnostics ++ j.diagnostics.map fun d =>
        { d with lineNumber := d.lineNumber + i.lineCount },
      i.lineCount + j.lineCount⟩ := by
  intro i j
  have count : i.lineCount = (Text.lines a.toList).length := lineCount_ofLinesFrom 1 _
  rw [interpret, String.toList_append, Text.lines_append closed, ofLinesFrom_append,
    ofLinesFrom_add, ← count]
  rfl

theorem requests_closed_append {a : String} (closed : Text.Closed a.toList) (b : String) :
    (interpret (a ++ b)).requests = (interpret a).requests ++ (interpret b).requests :=
  congrArg Interpretation.requests (interpret_closed_append closed b)

theorem requests_append_newline (text : String) :
    (interpret (text ++ "\n")).requests = (interpret text).requests := by
  rw [requests_interpret, requests_interpret, String.toList_append]
  exact Text.filterMap_lines_newline (fun l => by rw [Line.ofChars_chomp]) rfl _

theorem requests_of_inserted {line shorter longer : String}
    (inserted : Text.Inserted line shorter longer) (silent : (interpret line).requests = []) :
    (interpret longer).requests = (interpret shorter).requests := by
  cases inserted with
  | between a b closed =>
    -- the line is ended where it is put in, which changes nothing of what it asks for
    have ended : (interpret (line ++ "\n")).requests = [] :=
      (requests_append_newline line).trans silent
    rw [String.append_assoc, requests_closed_append closed,
      requests_closed_append (Text.closed_newline line), ended, requests_closed_append closed]
    rfl
  | last a closed => rw [requests_closed_append closed, silent, List.append_nil]
  | next a =>
    rw [requests_closed_append (Text.closed_newline _), silent, List.append_nil,
      requests_append_newline]

end Interpretation

/-- **Interpreting is done line by line.** When a text leaves no line open, the interpretation of a
text after it is appended to its own, with the line numbers counted on. A line that asks for nothing
changes no request wherever it is put in, so a pass does the same to every engine. -/
theorem interpret_append :
    (∀ a b : String, Text.Closed a.toList →
      let i := interpret a
      let j := interpret b
      interpret (a ++ b) = ⟨i.requests ++ j.requests,
        i.diagnostics ++ j.diagnostics.map fun d =>
          { d with lineNumber := d.lineNumber + i.lineCount },
        i.lineCount + j.lineCount⟩) ∧
    ∀ line shorter longer : String, Text.Inserted line shorter longer →
      (interpret line).requests = [] →
      (interpret longer).requests = (interpret shorter).requests ∧
      ∀ (σ ρ : Type) [Engine σ] [TextSource ρ] (h : Host σ) (source source' : ρ),
        (TextSource.read source h.settings.directivePath).outcome = .ok shorter →
        (TextSource.read source' h.settings.directivePath).outcome = .ok longer →
        (h.load source').host = (h.load source).host := by
  refine ⟨fun a b closed => Interpretation.interpret_closed_append closed b, ?_⟩
  intro line shorter longer inserted silent
  have same := Interpretation.requests_of_inserted inserted silent
  refine ⟨same, ?_⟩
  intro σ ρ _ _ h source source' read read'
  rw [Host.host_load_of_read source' read', same, ← Host.host_load_of_read source read]

theorem interpret_append_comment_between :
    let above := "nmap a b\r\n"
    let below := "bogus\nunmap a"
    let note := "\" a note"
    let shelf (text : String) : Shelf := ⟨[("keys", .ok text)], 0⟩
    let host : Host (List Call) := ⟨some [], ⟨"keys"⟩, none⟩
    Text.Closed above.toList ∧
    (interpret (above ++ below)).diagnostics.map Diagnostic.lineNumber = [1, 2, 3] ∧
    (interpret note).requests = [] ∧
    (host.load (shelf (above ++ (note ++ "\n") ++ below))).host.engine =
      some [.bind "a" "b" (some .normal), .unbind "a" none] := by
  intro above below note shelf host
  obtain ⟨both, inserting⟩ := interpret_append
  have closed : Text.Closed above.toList := by decide
  have silent : (interpret note).requests = [] := by decide
  have numbers := congrArg (fun i => i.diagnostics.map Diagnostic.lineNumber)
    (both above below closed)
  obtain ⟨-, passes⟩ := inserting note _ _ (.between above below closed) silent
  have same := passes (List Call) Shelf host (shelf (above ++ below))
    (shelf (above ++ (note ++ "\n") ++ below)) rfl rfl
  refine ⟨closed, numbers.trans (by decide), silent, ?_⟩
  exact (congrArg Host.engine same).trans (by decide)

end ModalKeys
