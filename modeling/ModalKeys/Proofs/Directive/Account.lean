import ModalKeys.Proofs.Directive.Interpretation

/-!
# Every line is accounted for

Each line that says something is told of once, under its own number, and what is told repeats enough
of the line to be interpreted again with the same result. This is known of a line on its own
(`Diagnostic.ofLine_eq_some_iff`, `Diagnostic.interpret_line`). In a file the numbers are those of
the texts between the line feeds (`mem_diagnostics_iff`), and the requests follow from the
diagnostics one by one.
-/

namespace ModalKeys

/-! ### The line of a diagnostic -/

/-- The line is neither blank nor a comment: it has a character that is not blank, and the first
such character is not the comment marker. -/
def Line.Speaks (cs : List Char) : Prop :=
  ∃ c, cs.find? (fun c => !Text.isBlank c) = some c ∧ c ≠ Line.commentMarker

theorem Line.speaks_trim_iff {cs : List Char} : Line.Speaks (Text.trim cs) ↔ Line.Speaks cs := by
  unfold Line.Speaks
  rw [Text.find?_letter, Text.words_trim, ← Text.find?_letter]

theorem Line.speaks_iff {cs : List Char} :
    Line.Speaks cs ↔ ∃ keyword operands, Line.ofChars cs = .directive keyword operands := by
  unfold Line.Speaks Line.ofChars
  rw [Text.find?_letter]
  cases split : Text.words cs with
  | nil => simp [Line.ofWords]
  | cons w ws =>
    -- the first word is not empty, so it has a first character
    have word : Text.IsWord w := Text.isWord_of_mem_words (split ▸ List.mem_cons_self)
    obtain ⟨c, rest, rfl⟩ := List.exists_cons_of_ne_nil word.1
    by_cases marked : c = Line.commentMarker
    · simp [Line.ofWords, marked]
    · simp [Line.ofWords, marked]

namespace Diagnostic

theorem ofLine_chomp (n : Nat) (cs : List Char) : ofLine n (Text.chomp cs) = ofLine n cs := by
  unfold ofLine
  rw [Line.ofChars_chomp, Text.trim_chomp]

theorem ofLine_eq_some_iff {n : Nat} {cs : List Char} {d : Diagnostic} :
    ofLine n cs = some d ↔
      Line.Speaks cs ∧ d = ⟨n, .ofList (Text.trim cs), (Line.ofChars cs).fault?⟩ := by
  rw [Line.speaks_iff, ofLine]
  cases Line.ofChars cs with
  | blank => simp
  | comment => simp
  | directive keyword operands => simp [eq_comm]

theorem exists_ofLine {text : String} {d : Diagnostic} (member : d ∈ (interpret text).diagnostics) :
    ∃ n l, '\n' ∉ l ∧ ofLine n l = some d := by
  rw [Interpretation.diagnostics_interpret] at member
  obtain ⟨⟨l, n⟩, numbered, told⟩ := List.mem_filterMap.mp member
  exact ⟨n, l, Text.newline_not_mem_of_mem_lines (List.fst_mem_of_mem_zipIdx numbered), told⟩

/-- The line of a diagnostic says the same on its own. -/
theorem interpret_line {n : Nat} {l : List Char} {d : Diagnostic} (inside : '\n' ∉ l)
    (told : ofLine n l = some d) :
    (interpret d.line).requests = (Line.ofChars l).request?.toList ∧
    (interpret d.line).diagnostics = [⟨1, d.line, d.fault⟩] := by
  obtain ⟨speaks, rfl⟩ := ofLine_eq_some_iff.mp told
  have shown : (String.ofList (Text.trim l)).toList = Text.trim l := String.toList_ofList
  have single : '\n' ∉ (String.ofList (Text.trim l)).toList := by
    rw [shown]
    exact fun member => inside (Text.mem_of_mem_trim member)
  obtain ⟨requests, diagnostics⟩ := Interpretation.interpret_of_not_mem single
  rw [shown, Line.ofChars_trim] at requests
  refine ⟨requests, ?_⟩
  -- trimmed once more the line stays as it is, and its words are those of `l`
  have again : ofLine 1 (Text.trim l) =
      some ⟨1, .ofList (Text.trim (Text.trim l)), (Line.ofChars (Text.trim l)).fault?⟩ :=
    ofLine_eq_some_iff.mpr ⟨Line.speaks_trim_iff.mpr speaks, rfl⟩
  rw [diagnostics, shown, again, Text.trim_trim, Line.ofChars_trim]
  rfl

theorem length_requests_line {text : String} {d : Diagnostic}
    (member : d ∈ (interpret text).diagnostics) :
    (interpret d.line).requests.length = if d.isProblem then 0 else 1 := by
  obtain ⟨n, l, inside, told⟩ := exists_ofLine member
  rw [(interpret_line inside told).1]
  obtain ⟨speaks, rfl⟩ := ofLine_eq_some_iff.mp told
  obtain ⟨keyword, operands, kind⟩ := Line.speaks_iff.mp speaks
  rw [kind, isProblem, Line.request?, Line.fault?]
  cases Request.ofDirective keyword operands <;> rfl

end Diagnostic

/-! ### The diagnostics of a file -/

namespace Interpretation

/-- A diagnostic stands for the text between two line feeds that has its number. -/
theorem mem_diagnostics_iff {text : String} {d : Diagnostic} :
    d ∈ (interpret text).diagnostics ↔
      ∃ k l, (text.toList.splitOn '\n')[k]? = some l ∧ Diagnostic.ofLine (k + 1) l = some d := by
  have nothing : ∀ n, Diagnostic.ofLine n [] = none := fun _ => rfl
  rw [diagnostics_interpret, Text.filterMap_zipIdx_lines
    (fun l n => Diagnostic.ofLine_chomp n l) nothing, List.mem_filterMap]
  constructor
  · rintro ⟨⟨l, n⟩, numbered, told⟩
    obtain ⟨first, found⟩ := List.mk_mem_zipIdx_iff_le_and_getElem?_sub.mp numbered
    refine ⟨n - 1, l, found, ?_⟩
    rwa [Nat.sub_add_cancel first]
  · rintro ⟨k, l, found, told⟩
    refine ⟨(l, k + 1), ?_, told⟩
    exact List.mk_mem_zipIdx_iff_le_and_getElem?_sub.mpr ⟨Nat.le_add_left 1 k, found⟩

theorem pairwise_lineNumber (text : String) :
    ((interpret text).diagnostics.map Diagnostic.lineNumber).Pairwise (· < ·) := by
  rw [diagnostics_interpret, List.pairwise_map]
  -- the numbers that the lines have, and a diagnostic has the number of its line
  have numbers : ((Text.lines text.toList).zipIdx 1).Pairwise fun p q => p.2 < q.2 := by
    rw [← List.pairwise_map (f := Prod.snd) (R := (· < ·)), List.zipIdx_map_snd]
    exact List.pairwise_lt_range'
  refine numbers.filterMap _ ?_
  intro p q before d told e told'
  obtain ⟨-, rfl⟩ := Diagnostic.ofLine_eq_some_iff.mp told
  obtain ⟨-, rfl⟩ := Diagnostic.ofLine_eq_some_iff.mp told'
  exact before

theorem lineNumber_bounds {text : String} {d : Diagnostic}
    (member : d ∈ (interpret text).diagnostics) :
    1 ≤ d.lineNumber ∧ d.lineNumber ≤ (interpret text).lineCount := by
  rw [diagnostics_interpret] at member
  obtain ⟨⟨l, n⟩, numbered, told⟩ := List.mem_filterMap.mp member
  obtain ⟨-, rfl⟩ := Diagnostic.ofLine_eq_some_iff.mp told
  have count : (interpret text).lineCount = (Text.lines text.toList).length :=
    lineCount_ofLinesFrom 1 _
  obtain ⟨first, found⟩ := List.mk_mem_zipIdx_iff_le_and_getElem?_sub.mp numbered
  obtain ⟨inside, -⟩ := List.getElem?_eq_some_iff.mp found
  rw [count]
  constructor
  · exact first
  · dsimp only
    omega

/-! ### The requests of a file -/

theorem requests_eq_flatMap (text : String) : (interpret text).requests =
    (interpret text).diagnostics.flatMap fun d => (interpret d.line).requests := by
  rw [requests_interpret, diagnostics_interpret]
  have lines : ∀ l ∈ Text.lines text.toList, '\n' ∉ l := fun l =>
    Text.newline_not_mem_of_mem_lines
  -- line by line, whatever number the first one has
  generalize Text.lines text.toList = ls at lines
  generalize 1 = n
  induction ls generalizing n with
  | nil => rfl
  | cons l ls ih =>
    have inside : '\n' ∉ l := lines l List.mem_cons_self
    have rest := ih (fun m member => lines m (List.mem_cons_of_mem l member)) (n + 1)
    rw [List.filterMap_cons, rest, List.zipIdx_cons, List.filterMap_cons]
    cases told : Diagnostic.ofLine n l with
    | some d =>
      rw [List.flatMap_cons, (Diagnostic.interpret_line inside told).1]
      cases (Line.ofChars l).request? <;> rfl
    | none =>
      -- a line that is not told of asks for nothing
      have silent : (Line.ofChars l).request? = none := by
        unfold Diagnostic.ofLine at told
        cases kind : Line.ofChars l with
        | blank => rfl
        | comment => rfl
        | directive keyword operands => simp [kind] at told
      rw [silent]

private theorem map_filter_eq_map_flatMap {α β : Type} {p : α → Bool} {g : α → List β} {xs : List α}
    (one : ∀ x ∈ xs, (g x).length = if p x then 0 else 1) :
    (xs.filter fun x => !p x).map g = (xs.flatMap g).map fun y => [y] := by
  induction xs with
  | nil => rfl
  | cons x xs ih =>
    have here := one x List.mem_cons_self
    have rest := ih fun y member => one y (List.mem_cons_of_mem x member)
    rw [List.flatMap_cons, List.map_append, ← rest, List.filter_cons]
    cases out : p x with
    | true =>
      have empty : g x = [] := List.length_eq_zero_iff.mp (by simpa [out] using here)
      simp [empty]
    | false =>
      obtain ⟨y, only⟩ := List.length_eq_one_iff.mp (by simpa [out] using here)
      simp [only]

/-- The requests in order are those of the lines that were mapped. -/
theorem requests_of_mapped (text : String) :
    ((interpret text).diagnostics.filter fun d => !d.isProblem).map
      (fun d => (interpret d.line).requests) = (interpret text).requests.map fun r => [r] := by
  rw [requests_eq_flatMap text]
  exact map_filter_eq_map_flatMap fun d member => Diagnostic.length_requests_line member

theorem length_requests_add_problemCount (text : String) :
    (interpret text).requests.length + (interpret text).problemCount =
      (interpret text).diagnostics.length := by
  have mapped := congrArg List.length (requests_of_mapped text)
  rw [List.length_map, List.length_map, ← List.countP_eq_length_filter] at mapped
  rw [← mapped, problemCount, problems, ← List.countP_eq_length_filter,
    List.length_eq_countP_add_countP Diagnostic.isProblem, Nat.add_comm]
  simp

end Interpretation

/-- **Every line is accounted for.** The lines are counted by their line feeds. The diagnostics are
numbered upwards within the count, a text between two line feeds has one exactly when it says
something, and a diagnostic repeats that text without the blanks around it. Interpreted alone, what
it repeats is told of in the same way and asks for the same, so that the requests of the file are
those of its diagnostics, one for each line that was mapped. -/
theorem interpret_accounts_for_lines (text : String) :
    let i := interpret text
    let cs := text.toList
    let between := cs.splitOn '\n'
    i.lineCount = cs.count '\n' + (if cs = [] ∨ cs.getLast? = some '\n' then 0 else 1) ∧
    (i.diagnostics.map Diagnostic.lineNumber).Pairwise (· < ·) ∧
    (∀ d ∈ i.diagnostics, 1 ≤ d.lineNumber ∧ d.lineNumber ≤ i.lineCount) ∧
    (∀ n, n ∈ i.diagnostics.map Diagnostic.lineNumber ↔
      ∃ k l c, n = k + 1 ∧ between[k]? = some l ∧
        l.find? (fun c => !Text.isBlank c) = some c ∧ c ≠ '"') ∧
    (∀ d ∈ i.diagnostics, ∃ k l, d.lineNumber = k + 1 ∧ between[k]? = some l ∧
      d.line = .ofList (Text.trim l) ∧ (interpret d.line).diagnostics = [⟨1, d.line, d.fault⟩]) ∧
    i.requests = i.diagnostics.flatMap (fun d => (interpret d.line).requests) ∧
    (i.diagnostics.filter fun d => !d.isProblem).map (fun d => (interpret d.line).requests) =
      i.requests.map (fun r => [r]) ∧
    i.requests.length + i.problemCount = i.diagnostics.length := by
  intro i cs between
  refine ⟨?_, Interpretation.pairwise_lineNumber text,
    fun d member => Interpretation.lineNumber_bounds member, fun n => ?_, fun d member => ?_,
    Interpretation.requests_eq_flatMap text, Interpretation.requests_of_mapped text,
    Interpretation.length_requests_add_problemCount text⟩
  · exact (Interpretation.lineCount_ofLinesFrom 1 _).trans (Text.length_lines cs)
  · constructor
    · intro listed
      obtain ⟨d, member, rfl⟩ := List.mem_map.mp listed
      obtain ⟨k, l, found, told⟩ := Interpretation.mem_diagnostics_iff.mp member
      obtain ⟨⟨c, first, plain⟩, rfl⟩ := Diagnostic.ofLine_eq_some_iff.mp told
      exact ⟨k, l, c, rfl, found, first, plain⟩
    · rintro ⟨k, l, c, rfl, found, first, plain⟩
      have told : Diagnostic.ofLine (k + 1) l = some _ :=
        Diagnostic.ofLine_eq_some_iff.mpr ⟨⟨c, first, plain⟩, rfl⟩
      exact List.mem_map.mpr ⟨_, Interpretation.mem_diagnostics_iff.mpr ⟨k, l, found, told⟩, rfl⟩
  · obtain ⟨k, l, found, told⟩ := Interpretation.mem_diagnostics_iff.mp member
    -- the line as it was read need not be this text, but nothing is told of the difference
    obtain ⟨m, read, inside, told'⟩ := Diagnostic.exists_ofLine member
    obtain ⟨-, alone⟩ := Diagnostic.interpret_line inside told'
    obtain ⟨-, rfl⟩ := Diagnostic.ofLine_eq_some_iff.mp told
    exact ⟨k, l, rfl, found, rfl, alone⟩

end ModalKeys
