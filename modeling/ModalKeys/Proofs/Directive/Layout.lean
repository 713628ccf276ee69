import Mathlib.Data.List.Forall2
import ModalKeys.Proofs.Directive.Account
import ModalKeys.Proofs.Directive.Grammar

/-!
The blanks of a file part its words and its lines, and they do nothing else. What is asked for and
found on a line depends on its words (`ofLinesFrom_congr`), and what is repeated of it on the line
without the blanks around it (`ofLinesFrom_of_map_trim`). A carriage return before a line feed is
such a blank, whether the line feed takes it along or not.
-/

namespace ModalKeys

theorem Line.ofChars_congr {l m : List Char} (same : Line.tokens l = Line.tokens m) :
    Line.ofChars l = Line.ofChars m := by
  have words : Text.words l = Text.words m :=
    (Line.tokens_eq_iff.mp same).trans (Line.tokens_eq_iff.mp rfl).symm
  rw [Line.ofChars, words]
  rfl

namespace Diagnostic

/-- Apart from the line that is repeated, what is told of a line depends on its words. -/
theorem ofLine_congr {l m : List Char} (same : Line.tokens l = Line.tokens m) (n : Nat) :
    (ofLine n l).toList.map (fun d => (d.lineNumber, d.fault)) =
      (ofLine n m).toList.map fun d => (d.lineNumber, d.fault) := by
  rw [ofLine, ofLine, Line.ofChars_congr same]
  cases Line.ofChars m <;> rfl

theorem ofLine_trim (n : Nat) (l : List Char) : ofLine n (Text.trim l) = ofLine n l := by
  rw [ofLine, ofLine, Line.ofChars_trim, Text.trim_trim]

end Diagnostic

namespace Interpretation

theorem ofLinesFrom_congr {ls ms : List (List Char)}
    (same : List.Forall₂ (fun l m => Line.tokens l = Line.tokens m) ls ms) (n : Nat) :
    let i := ofLinesFrom n ls
    let j := ofLinesFrom n ms
    i.requests = j.requests ∧ i.lineCount = j.lineCount ∧
    i.diagnostics.map (fun d => (d.lineNumber, d.fault)) =
      j.diagnostics.map fun d => (d.lineNumber, d.fault) := by
  induction same generalizing n with
  | nil => exact ⟨rfl, rfl, rfl⟩
  | @cons l m ls ms here rest ih =>
    obtain ⟨requests, count, told⟩ := ih (n + 1)
    have first := Diagnostic.ofLine_congr here n
    intro i j
    simp only [i, j, ofLinesFrom, consLine_eq, List.map_append]
    refine ⟨?_, ?_, ?_⟩
    · rw [Line.ofChars_congr here, requests]
    · rw [count]
    · rw [first, told]

theorem ofLinesFrom_map_trim (n : Nat) (ls : List (List Char)) :
    ofLinesFrom n (ls.map Text.trim) = ofLinesFrom n ls := by
  induction ls generalizing n with
  | nil => rfl
  | cons l ls ih =>
    rw [List.map_cons, ofLinesFrom, ofLinesFrom, consLine_eq, consLine_eq, ih, Line.ofChars_trim,
      Diagnostic.ofLine_trim]

theorem ofLinesFrom_of_map_trim {ls ms : List (List Char)}
    (same : ls.map Text.trim = ms.map Text.trim) (n : Nat) :
    ofLinesFrom n ls = ofLinesFrom n ms := by
  rw [← ofLinesFrom_map_trim, same, ofLinesFrom_map_trim]

end Interpretation

/-- **Layout does not matter.** Two texts with the same words on each of their lines ask for the
same, and of each line the same is found under the same number. A text with a carriage return before
each line feed is interpreted as the text itself, and so is a text whose last line is ended when it
was left open. -/
theorem interpret_ignores_layout :
    (∀ a b : String,
      List.Forall₂ (fun l m => Line.tokens l = Line.tokens m)
        (Text.lines a.toList) (Text.lines b.toList) →
      (interpret a).requests = (interpret b).requests ∧
      (interpret a).lineCount = (interpret b).lineCount ∧
      (interpret a).diagnostics.map (fun d => (d.lineNumber, d.fault)) =
        (interpret b).diagnostics.map fun d => (d.lineNumber, d.fault)) ∧
    (∀ text : String, interpret (.ofList (Text.withReturns text.toList)) = interpret text) ∧
    ∀ text : String, text ≠ "" → text.toList.getLast? ≠ some '\n' →
      interpret (text ++ "\n") = interpret text := by
  refine ⟨fun a b same => ?_, fun text => ?_, fun text nonempty unended => ?_⟩
  · exact Interpretation.ofLinesFrom_congr same 1
  · -- the lines may differ by a carriage return that stays, but not when they are trimmed
    apply Interpretation.ofLinesFrom_of_map_trim
    rw [String.toList_ofList]
    exact Text.map_lines_withReturns Text.trim_chomp text.toList
  · apply Interpretation.ofLinesFrom_of_map_trim
    have opened : ¬Text.Closed text.toList := by
      rintro (empty | ended)
      · exact nonempty (String.toList_eq_nil_iff.mp empty)
      · exact unended ended
    rw [String.toList_append]
    exact Text.map_lines_newline Text.trim_chomp opened

theorem interpret_ignores_layout_indented :
    let plain := "nmap a b\n\nunmap"
    let spread := "\tnmap a \u00a0b\r\n \r\nunmap \r"
    (List.Forall₂ (fun l m => Line.tokens l = Line.tokens m)
        (Text.lines spread.toList) (Text.lines plain.toList) ∧
      (interpret spread).requests = [.bind (.only .normal) "a" "b"] ∧
      (interpret spread).diagnostics.map (fun d => (d.lineNumber, d.fault)) =
        [(1, none), (3, some (.missingOperand 1 0))]) ∧
    spread ≠ "" ∧ spread.toList.getLast? ≠ some '\n' ∧
      (interpret (spread ++ "\n")).diagnostics.map Diagnostic.line =
        ["nmap a \u00a0b", "unmap"] := by
  intro plain spread
  obtain ⟨wordwise, -, ended⟩ := interpret_ignores_layout
  have same : List.Forall₂ (fun l m => Line.tokens l = Line.tokens m)
      (Text.lines spread.toList) (Text.lines plain.toList) := by
    decide
  have nonempty : spread ≠ "" := by decide
  have unended : spread.toList.getLast? ≠ some '\n' := by decide
  obtain ⟨requests, -, told⟩ := wordwise spread plain same
  refine ⟨⟨same, requests.trans (by decide), told.trans (by decide)⟩, nonempty, unended, ?_⟩
  rw [ended spread nonempty unended]
  decide

end ModalKeys
