import ModalKeys.Proofs.Directive.Interpretation

/-!
# The grammar of directives

A directive is a keyword and its operands with blanks between them, and blanks may stand before and
after it. `Request.Written` is this grammar, character by character. A line is written for a request
exactly when its words spell the request (`written_iff_spelled`), whatever runs of blanks part them,
and what the words spell is known line by line already.
-/

namespace ModalKeys

open Text

/-- The ways to write a request on a line. -/
inductive Request.Written : Request → List Char → Prop where
  | bind (scope : Scope) {lhs rhs : String} {before gap gap' after : List Char}
    (ahead : Blanks before) (first : IsGap gap) (keys : IsWord lhs.toList) (second : IsGap gap')
    (meaning : IsWord rhs.toList) (behind : Blanks after) :
    Written (.bind scope lhs rhs) (before ++ (Command.keyword ⟨.bind, scope⟩).toList ++ gap ++
      lhs.toList ++ gap' ++ rhs.toList ++ after)
  | unbind (scope : Scope) {lhs : String} {before gap after : List Char}
    (ahead : Blanks before) (first : IsGap gap) (keys : IsWord lhs.toList)
    (behind : Blanks after) :
    Written (.unbind scope lhs) (before ++ (Command.keyword ⟨.unbind, scope⟩).toList ++ gap ++
      lhs.toList ++ after)

/-! ### Written and spelled -/

theorem Line.tokens_eq_iff {cs : List Char} {ts : List String} :
    Line.tokens cs = ts ↔ words cs = ts.map String.toList := by
  unfold Line.tokens
  constructor
  · rintro rfl
    simp
  · intro split
    rw [split]
    simp

theorem words_append_last {w after : List Char} (word : IsWord w) (behind : Blanks after) :
    words (w ++ after) = [w] := by
  rw [words_append_blanks behind, words_of_isWord word]

theorem words_append_gap {w gap : List Char} (word : IsWord w) (isGap : IsGap gap)
    (rest : List Char) : words (w ++ (gap ++ rest)) = w :: words rest := by
  rw [words_isWord_append word (isGap.head? rest), words_blanks_append isGap.2]

theorem Request.Written.spelled {r : Request} {cs : List Char} (written : r.Written cs) :
    r.Spelled (Line.tokens cs) := by
  cases written with
  | bind scope ahead first keys second meaning behind =>
    simp only [Line.tokens, List.append_assoc]
    rw [words_blanks_append ahead, words_append_gap (Command.isWord_keyword _) first,
      words_append_gap keys second, words_append_last meaning behind]
    simpa using Request.Spelled.bind scope _ _
  | unbind scope ahead first keys behind =>
    simp only [Line.tokens, List.append_assoc]
    rw [words_blanks_append ahead, words_append_gap (Command.isWord_keyword _) first,
      words_append_last keys behind]
    simpa using Request.Spelled.unbind scope _

theorem Request.Spelled.written {r : Request} {cs : List Char}
    (spelled : r.Spelled (Line.tokens cs)) : r.Written cs := by
  generalize split : Line.tokens cs = ts at spelled
  rw [Line.tokens_eq_iff] at split
  -- the words are taken off the line one by one, each with the blanks before it
  cases spelled with
  | bind scope lhs rhs =>
    obtain ⟨before, rest, rfl, ahead, -, next, split⟩ := exists_of_words_eq_cons split
    obtain ⟨gap, rest, rfl, first, keys, next, split⟩ := exists_gap_of_words_eq_cons next split
    obtain ⟨gap', rest, rfl, second, meaning, -, split⟩ := exists_gap_of_words_eq_cons next split
    have behind : Blanks rest := words_eq_nil_iff.mp split
    simpa only [List.append_assoc] using
      Request.Written.bind scope ahead first keys second meaning behind
  | unbind scope lhs =>
    obtain ⟨before, rest, rfl, ahead, -, next, split⟩ := exists_of_words_eq_cons split
    obtain ⟨gap, rest, rfl, first, keys, -, split⟩ := exists_gap_of_words_eq_cons next split
    have behind : Blanks rest := words_eq_nil_iff.mp split
    simpa only [List.append_assoc] using
      Request.Written.unbind scope ahead first keys behind

theorem Request.written_iff_spelled {r : Request} {cs : List Char} :
    r.Written cs ↔ r.Spelled (Line.tokens cs) :=
  ⟨Request.Written.spelled, Request.Spelled.written⟩

theorem Request.Written.isSome_rhs_iff {r : Request} {cs : List Char} (written : r.Written cs) :
    r.rhs.isSome ↔ r.operation = .bind := by
  cases written <;> simp [Request.bind, Request.unbind]

/-! ### What is told of a line -/

theorem Line.ofChars_of_tokens_nil {cs : List Char} (wordless : Line.tokens cs = []) :
    Line.ofChars cs = .blank := by
  rw [Line.ofChars, Line.tokens_eq_iff.mp wordless]
  rfl

theorem Line.ofChars_of_tokens_cons {cs : List Char} {first : String} {operands : List String}
    (split : Line.tokens cs = first :: operands) :
    Line.ofChars cs =
      if first.toList.head? = some Line.commentMarker then .comment
      else .directive first operands := by
  rw [Line.ofChars, Line.tokens_eq_iff.mp split, List.map_cons, Line.ofWords]
  simp

namespace Interpretation

variable {line : String} {first : String} {operands : List String}

theorem requests_eq_singleton_iff (single : '\n' ∉ line.toList) {r : Request} :
    (interpret line).requests = [r] ↔ r.Written line.toList := by
  rw [(interpret_of_not_mem single).1, Request.written_iff_spelled, ← Line.request?_eq_some_iff]
  cases (Line.ofChars line.toList).request? <;> simp

theorem requests_eq_nil (single : '\n' ∉ line.toList)
    (unwritten : ∀ r : Request, ¬r.Written line.toList) : (interpret line).requests = [] := by
  rw [(interpret_of_not_mem single).1]
  cases given : (Line.ofChars line.toList).request? with
  | none => rfl
  | some r =>
    have spelled := Line.request?_eq_some_iff.mp given
    exact absurd (Request.written_iff_spelled.mpr spelled) (unwritten r)

theorem diagnostics_of_written (single : '\n' ∉ line.toList) {r : Request}
    (written : r.Written line.toList) :
    (interpret line).diagnostics = [⟨1, trimmed line, none⟩] := by
  have given : (Line.ofChars line.toList).request? = some r :=
    Line.request?_eq_some_iff.mpr written.spelled
  have sound := Line.fault?_of_request? given
  rw [(interpret_of_not_mem single).2, Diagnostic.ofLine]
  cases kind : Line.ofChars line.toList with
  | directive keyword operands =>
    rw [kind] at sound
    rw [sound]
    rfl
  | _ =>
    -- neither gives a request
    rw [kind] at given
    cases given

theorem diagnostics_of_tokens_nil (single : '\n' ∉ line.toList)
    (wordless : Line.tokens line.toList = []) : (interpret line).diagnostics = [] := by
  rw [(interpret_of_not_mem single).2, Diagnostic.ofLine, Line.ofChars_of_tokens_nil wordless]
  rfl

theorem diagnostics_of_comment (single : '\n' ∉ line.toList)
    (split : Line.tokens line.toList = first :: operands)
    (marked : first.toList.head? = some Line.commentMarker) :
    (interpret line).diagnostics = [] := by
  rw [(interpret_of_not_mem single).2, Diagnostic.ofLine, Line.ofChars_of_tokens_cons split,
    if_pos marked]
  rfl

theorem diagnostics_of_fault (single : '\n' ∉ line.toList)
    (split : Line.tokens line.toList = first :: operands)
    (plain : first.toList.head? ≠ some Line.commentMarker)
    (unwritten : ∀ r : Request, ¬r.Written line.toList) :
    ∃ fault : Fault, fault.Found first operands.length ∧
      (interpret line).diagnostics = [⟨1, trimmed line, some fault⟩] := by
  have kind := Line.ofChars_of_tokens_cons split
  rw [if_neg plain] at kind
  cases read : Request.ofDirective first operands with
  | ok r =>
    have spelled := Request.ofDirective_eq_ok_iff.mp read
    rw [← split] at spelled
    exact absurd spelled.written (unwritten r)
  | error fault =>
    -- the line is told of with the fault that its first word and its operands have
    refine ⟨fault, Request.ofDirective_eq_error_iff.mp read, ?_⟩
    rw [(interpret_of_not_mem single).2, Diagnostic.ofLine, kind]
    simp [Line.fault?, read, trimmed]

end Interpretation

/-- **The grammar of directives.** A line gives a request exactly when the request is written on it:
the keyword of its operation and scope and then its keys, parted by blanks. The request has keys to
bind to exactly when it binds. Any other line gives none. It is not told of when it has no words or
the first one begins with the comment marker, and else it is told whether the first word is no
keyword, or how many operands there are too few or too many. -/
theorem interpret_single_line (line : String) (single : '\n' ∉ line.toList) :
    let i : Interpretation := interpret line
    let cs := line.toList
    (∀ r : Request, i.requests = [r] ↔ r.Written cs) ∧
    (∀ r : Request, r.Written cs → (r.rhs.isSome ↔ r.operation = .bind) ∧
      i.diagnostics = [⟨1, trimmed line, none⟩]) ∧
    ((∀ r : Request, ¬r.Written cs) → i.requests = [] ∧
      (Line.tokens cs = [] → i.diagnostics = []) ∧
      ∀ first operands, Line.tokens cs = first :: operands →
        (first.toList.head? = some '"' → i.diagnostics = []) ∧
        (first.toList.head? ≠ some '"' → ∃ fault : Fault, fault.Found first operands.length ∧
          i.diagnostics = [⟨1, trimmed line, some fault⟩])) := by
  intro i cs
  refine ⟨fun r => Interpretation.requests_eq_singleton_iff single, ?_, fun unwritten => ?_⟩
  · intro r written
    exact ⟨written.isSome_rhs_iff, Interpretation.diagnostics_of_written single written⟩
  · refine ⟨Interpretation.requests_eq_nil single unwritten,
      Interpretation.diagnostics_of_tokens_nil single, fun first operands split => ⟨?_, ?_⟩⟩
    · exact Interpretation.diagnostics_of_comment single split
    · intro plain
      exact Interpretation.diagnostics_of_fault single split plain unwritten

theorem interpret_single_line_bind_and_surplus :
    let bind := "\t nmap jj  <Esc>\r"
    let surplus := "iunmap jk jk"
    ('\n' ∉ bind.toList ∧
      (interpret bind).requests = [.bind (.only .normal) "jj" "<Esc>"]) ∧
    ('\n' ∉ surplus.toList ∧ ∃ fault : Fault, fault.Found "iunmap" 2 ∧
      (interpret surplus).diagnostics = [⟨1, "iunmap jk jk", some fault⟩]) := by
  intro bind surplus
  have single : '\n' ∉ bind.toList := by decide
  have single' : '\n' ∉ surplus.toList := by decide
  have split : bind.toList = ['\t', ' '] ++ "nmap".toList ++ [' '] ++ "jj".toList ++ [' ', ' '] ++
      "<Esc>".toList ++ ['\r'] := by decide
  have written : Request.Written (.bind (.only .normal) "jj" "<Esc>") bind.toList := by
    rw [split]
    exact .bind (.only .normal) (by decide) (by decide) (by decide) (by decide) (by decide)
      (by decide)
  obtain ⟨yields, -⟩ := interpret_single_line bind single
  obtain ⟨yields', -, refused⟩ := interpret_single_line surplus single'
  have unwritten : ∀ r : Request, ¬r.Written surplus.toList := by
    intro r written
    have idle : (interpret surplus).requests = [] := by decide
    rw [(yields' r).mpr written] at idle
    cases idle
  obtain ⟨-, -, told⟩ := refused unwritten
  obtain ⟨fault, found, shown⟩ := (told "iunmap" ["jk", "jk"] (by decide)).2 (by decide)
  have whole : trimmed surplus = "iunmap jk jk" := by decide
  rw [whole] at shown
  exact ⟨⟨single, (yields _).mpr written⟩, single', fault, found, shown⟩

end ModalKeys
