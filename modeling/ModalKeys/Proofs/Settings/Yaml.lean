import ModalKeys.Proofs.Yaml.Plain
import ModalKeys.Proofs.Yaml.Quoted
import ModalKeys.Settings.Basic

/-!
# Settings that were written as YAML are read back

A directive path of one line is what the YAML text of the settings says (`ofYaml_toYaml`). The text
is cut into tokens in four steps: the key, its colon, the value and the end. Only the value depends
on the path, and how it is read on the style in which it was written.
-/

namespace ModalKeys

namespace Yaml

open Rest

/-! ### Tokens -/

def pathKeyChars : List Char :=
  ['v', 'i', 'm', 'r', 'c', '_', 'p', 'a', 't', 'h']

/-- The tokens of the settings. -/
def entryTokens (path : Token) : List Token :=
  [.mappingStart, .key, .scalar (.ofList pathKeyChars) true, .value, path, .blockEnd]

theorem ofTokens?_entryTokens (text : String) (plain : Bool) :
    Document.ofTokens? (entryTokens (.scalar text plain)) =
      .ok (some ⟨.mapping [(.scalar (.ofList pathKeyChars) true, .scalar text plain)], []⟩) :=
  rfl

namespace Lexer

/-- What there is once the key has been read. -/
def afterKey (rest : Rest) : Lexer :=
  ⟨rest, #[.scalar (.ofList pathKeyChars) true], 0, [], some ⟨false, 0, ⟨'v', 0, 0, 0⟩⟩, [], false⟩

/-- What there is once the colon has made a key of it. -/
def afterColon (rest : Rest) : Lexer :=
  ⟨rest, #[.mappingStart, .key, .scalar (.ofList pathKeyChars) true, .value], 1, [0], none, [],
    false⟩

theorem run_key (steps : Nat) (value : List Char) :
    run (steps + 1) (.ofRest (.ofChars (pathKeyChars ++ ':' :: ' ' :: value))) =
      run steps (afterKey (placeFrom 10 0 10 (':' :: ' ' :: value))) :=
  rfl

theorem insert_twice (a b c : Token) :
    (#[a].insertIdxIfInBounds 0 b).insertIdxIfInBounds 0 c = #[c, b, a] := by
  simp [Array.insertIdxIfInBounds]

theorem run_colon (steps : Nat) (value : List Char) :
    run (steps + 1) (afterKey (placeFrom 10 0 10 (':' :: ' ' :: value))) =
      run steps (afterColon (placeFrom 11 0 11 (' ' :: value))) := by
  -- the two insertions are all that does not compute
  let keyed : Array Token := #[.scalar (.ofList pathKeyChars) true].insertIdxIfInBounds 0 .key
  have taken : run (steps + 1) (afterKey (placeFrom 10 0 10 (':' :: ' ' :: value))) =
      run steps ⟨placeFrom 11 0 11 (' ' :: value),
        (keyed.insertIdxIfInBounds 0 .mappingStart).push .value, 1, [0], none, [], false⟩ := rfl
  rw [taken, insert_twice]
  rfl

theorem skipGap_space {c : Char} (letter : IsLetter c) (sign : c ≠ '#') (i l k : Nat)
    (cs : List Char) :
    skipGap false false false (placeFrom i l k (' ' :: c :: cs)) =
      (false, placeFrom (i + 1) l (k + 1) (c :: cs)) := by
  have notSpace := letter.1
  simp only [isSpace, Bool.or_eq_false_iff] at notSpace
  rw [placeFrom_cons rfl, placeFrom_cons letter.2, skipGap.eq_def]
  simp only [show isBreak ' ' = false from rfl, beq_self_eq_true, Bool.true_or, Bool.false_eq_true,
    if_false, if_true]
  rw [skipGap.eq_def]
  simp [letter.2, notSpace, sign]

/-- A token whose first character comes after one space is taken inside the open mapping. -/
theorem run_value {c : Char} (letter : IsLetter c) (sign : c ≠ '#') (steps : Nat)
    (cs : List Char) :
    run (steps + 1) (afterColon (placeFrom 11 0 11 (' ' :: c :: cs))) =
      (afterColon (placeFrom 12 0 12 (c :: cs))).take ⟨c, 12, 0, 12⟩ (placeFrom 13 0 13 cs) >>=
        run steps := by
  have skipped := skipGap_space letter sign 11 0 11 cs
  rw [run]
  simp only [afterColon, inFlow, List.isEmpty_nil, Bool.not_true, skipped]
  rw [placeFrom_cons letter.2]
  rfl

/-- With nothing but a line feed left, the mapping is closed. -/
theorem run_end (steps : Nat) (s : Token) (rest : Rest) (keyAllowed : Bool) (i l k : Nat)
    (last : rest = [] ∨ rest = placeFrom i l k ['\n']) :
    run (steps + 1) { (afterColon rest).push s with keyAllowed := keyAllowed } =
      .ok (entryTokens s) := by
  rcases last with rfl | rfl <;> rfl

theorem note_afterColon (rest : Rest) (here : Placed) :
    (afterColon rest).note here = .ok (afterColon rest) :=
  rfl

/-! ### Values in quotes -/

variable {quote : Char} {write : Char → List Char} {G : Char → Prop}

theorem take_quoted (quoting : Quoting quote write G) (either : quote = '\'' ∨ quote = '"')
    {cs : List Char} (good : ∀ c ∈ cs, G c) :
    let inside := cs.flatMap write ++ [quote, '\n']
    ∃ i k, (afterColon (placeFrom 12 0 12 (quote :: inside))).take ⟨quote, 12, 0, 12⟩
        (placeFrom 13 0 13 inside) =
      .ok { (afterColon (placeFrom i 0 k ['\n'])).push (.scalar (.ofList cs) false) with
        keyAllowed := false } := by
  intro inside
  have length : cs.length ≤ (cs.flatMap write).length :=
    length_le_flatMap fun c member => quoting.write_ne_nil (good c member)
  have enough : cs.length < (quote :: inside).length + 1 := by
    simp only [inside, List.length_cons, List.length_append]
    omega
  obtain ⟨i, k, read⟩ := quoting.quotedFrom_line cs good [] 13 0 12 enough
  refine ⟨i, k, ?_⟩
  have taken : (afterColon (placeFrom 12 0 12 (quote :: inside))).take ⟨quote, 12, 0, 12⟩
      (placeFrom 13 0 13 inside) =
      (afterColon (placeFrom 12 0 12 (quote :: inside))).takeQuoted ⟨quote, 12, 0, 12⟩ quote := by
    rcases either with rfl | rfl <;> rfl
  have scalar : quotedScalar quote (afterColon (placeFrom 12 0 12 (quote :: inside))).rest =
      .ok (cs, placeFrom i 0 k ['\n']) := by
    rw [afterColon, quotedScalar, length_placeFrom, placeFrom_cons quoting.ends.2]
    exact read
  rw [taken, takeQuoted, note_afterColon]
  simp only [bind, Except.bind, scalar]
  rfl

/-! ### Plain values -/

theorem leadingIndicators_eq : Style.leadingIndicators =
    ['#', ',', '[', ']', '\x7b', '\x7d', '&', '*', '!', '|', '>', '\'', '"', '%', '@', '\x60'] := by
  decide

theorem indicators_eq : "-?:,[]\x7b\x7d#&*!|>'\"%@`".toList =
    ['-', '?', ':', ',', '[', ']', '\x7b', '\x7d', '#', '&', '*', '!', '|', '>', '\'', '"', '%',
      '@', '\x60'] := by
  decide

theorem startsIn_of_atGap {rest : Rest} (letter : atGap rest = false) :
    startsIn isSpace rest = false := by
  cases rest with
  | nil => rfl
  | cons p rest =>
    simp only [atGap, Bool.or_eq_false_iff] at letter
    exact letter.1

theorem take_plain {c : Char} {cs : List Char} (letter : IsLetter c)
    (start : Style.badStart (c :: cs) = false) (s : Lexer) (outside : s.inFlow = false)
    (i l k : Nat) :
    s.take ⟨c, i, l, k + 1⟩ (placeFrom (i + 1) l (k + 2) (cs ++ ['\n'])) =
      s.takePlain ⟨c, i, l, k + 1⟩ := by
  unfold Style.badStart at start
  simp only [Bool.or_eq_false_iff, leadingIndicators_eq, List.contains_cons, List.contains_nil]
    at start
  obtain ⟨⟨lead, gap⟩, -⟩ := start
  unfold take
  by_cases which : (c == '?' || c == ':' || c == '-') = true
  · -- after one of the three other indicators something else than a gap comes
    have next : atGap (placeFrom (i + 1) l (k + 2) (cs ++ ['\n'])) = false :=
      atGap_of_gapNext (by simpa [which] using gap) _ _ _ _
    have begins : beginsPlain false c (placeFrom (i + 1) l (k + 2) (cs ++ ['\n'])) = true := by
      simp only [beginsPlain, startsIn_of_atGap next, next, Bool.not_false, Bool.and_true,
        Bool.true_and]
      grind
    simp [outside, lead, next, begins]
  · have apart : ((c == '?') = false ∧ (c == ':') = false) ∧ (c == '-') = false := by
      simpa only [Bool.not_eq_true, Bool.or_eq_false_iff] using which
    have begins : beginsPlain false c (placeFrom (i + 1) l (k + 2) (cs ++ ['\n'])) = true := by
      simp only [beginsPlain, isIndicator, indicators_eq, List.contains_cons, List.contains_nil,
        letter.1, letter.2, lead, apart, Bool.or_self, Bool.not_false, Bool.true_or]
    simp [outside, lead, apart, begins]

/-- What is asked of a string that is written plain. -/
theorem plainAllowed_cons {c : Char} {cs : List Char} (allowed : Style.plainAllowed (c :: cs)) :
    IsLetter c ∧ Style.badStart (c :: cs) = false ∧ Inside 'a' (c :: cs) ∧
      (c :: cs).getLast? ≠ some ' ' := by
  simp only [Style.plainAllowed, Style.singleAllowed, Style.writable, Bool.and_eq_true,
    Bool.not_eq_true', List.all_eq_true] at allowed
  obtain ⟨⟨⟨⟨⟨⟨⟨printable, -⟩, -⟩, line⟩, start⟩, middle⟩, head⟩, last⟩ := allowed
  -- a printable character that is no space and no break cannot end a word
  have letters : ∀ d ∈ c :: cs, d = ' ' ∨ IsLetter d := by
    intro d member
    by_cases space : d = ' '
    · exact .inl space
    · have noBreak : isBreak d = false := by
        simpa using List.any_eq_false.mp line d member
      exact .inr (isLetter_of_printable (printable d member) noBreak space)
  have notSpace : c ≠ ' ' := by simpa using head
  -- a colon in the first place is looked at with the beginning
  have colon : (c == ':' && gapNext cs) = false := by
    simp only [Style.badStart, Bool.or_eq_false_iff] at start
    cases which : c == ':' with
    | false => rfl
    | true => simpa [which] using start.1.2
  refine ⟨(letters c List.mem_cons_self).resolve_left notSpace, start, ⟨?_, letters⟩, ?_⟩
  · rw [Style.badMiddle, colon, middle]
    rfl
  · intro space
    simp [space] at last

theorem run_plain {c : Char} {cs : List Char} (allowed : Style.plainAllowed (c :: cs))
    (steps : Nat) :
    run (steps + 2) (afterColon (placeFrom 11 0 11 (' ' :: (c :: cs ++ ['\n'])))) =
      .ok (entryTokens (.scalar (.ofList (c :: cs)) true)) := by
  obtain ⟨letter, start, inside, ends⟩ := plainAllowed_cons allowed
  have sign : c ≠ '#' := by
    rintro rfl
    simp [Style.badStart, leadingIndicators_eq] at start
  have space : c ≠ ' ' := by
    rintro rfl
    cases letter.1
  let s := afterColon (placeFrom 12 0 12 (c :: (cs ++ ['\n'])))
  have scalar : plainScalar s.inFlow s.level s.rest = .ok ⟨c :: cs, true, []⟩ :=
    plainFrom_line (c :: cs) [] [] 12 0 11 inside (List.cons_ne_nil c cs) (by simpa using space)
      (by simpa using sign) ends (by simp [s, afterColon, length_placeFrom])
  rw [List.cons_append, run_value letter sign, take_plain letter start _ rfl, takePlain,
    note_afterColon]
  simp only [bind, Except.bind]
  rw [scalar]
  exact run_end steps _ [] true 0 0 0 (.inl rfl)

theorem run_quoted (quoting : Quoting quote write G) (either : quote = '\'' ∨ quote = '"')
    {cs : List Char} (good : ∀ c ∈ cs, G c) (steps : Nat) :
    run (steps + 2)
        (afterColon (placeFrom 11 0 11 (' ' :: quote :: (cs.flatMap write ++ [quote, '\n'])))) =
      .ok (entryTokens (.scalar (.ofList cs) false)) := by
  have sign : quote ≠ '#' := by
    rcases either with rfl | rfl <;> decide
  obtain ⟨i, k, taken⟩ := take_quoted quoting either good
  rw [run_value quoting.ends sign, taken]
  exact run_end steps _ _ false i 0 k (.inr rfl)

end Lexer

/-! ### Whole texts -/

/-- How the text of the settings is cut into tokens, if its value is cut so. -/
theorem tokenize_entry {value : List Char} {token : Token} (allowed : ∀ c ∈ value, isAllowed c)
    (read : ∀ steps, Lexer.run (steps + 2) (.afterColon (placeFrom 11 0 11 (' ' :: value))) =
      .ok (entryTokens token)) :
    tokenize (Settings.pathKey ++ ": " ++ .ofList value) = .ok (entryTokens token) := by
  have chars : (Settings.pathKey ++ ": " ++ .ofList value).toList =
      pathKeyChars ++ ':' :: ' ' :: value := by
    have key : Settings.pathKey.toList = pathKeyChars := by decide
    simp [key]
  have all : (pathKeyChars ++ ':' :: ' ' :: value).all isAllowed = true := by
    have key : (pathKeyChars ++ [':', ' ']).all isAllowed = true := by decide
    rw [show pathKeyChars ++ ':' :: ' ' :: value = pathKeyChars ++ [':', ' '] ++ value by simp,
      List.all_append, key, Bool.true_and, List.all_eq_true]
    exact allowed
  unfold tokenize
  rw [chars]
  dsimp only
  rw [if_pos all]
  -- two of the steps are for the key and its colon, and the value takes two more
  have steps : (pathKeyChars ++ ':' :: ' ' :: value).length + 1 = value.length + 9 + 2 + 1 + 1 := by
    simp [pathKeyChars]
  rw [steps, Lexer.run_key, Lexer.run_colon, read]

theorem isAllowed_of_printable {c : Char} (printable : isPrintable c) : isAllowed c := by
  simp only [isPrintable, isAllowed, Bool.or_eq_true, Bool.and_eq_true, beq_iff_eq, bne_iff_ne,
    decide_eq_true_eq] at printable ⊢
  omega

theorem isAllowed_hexDigits {m n : Nat} : ∀ c ∈ hexDigits m n, isAllowed c := by
  intro c digit
  obtain ⟨k, -, rfl⟩ := List.mem_map.mp digit
  have all : ∀ d < 16, isAllowed (hexDigit d) := by decide
  exact all _ (Nat.mod_lt _ (by decide))

theorem isAllowed_doubleQuotedChar (c : Char) : ∀ d ∈ doubleQuotedChar c, isAllowed d := by
  unfold doubleQuotedChar
  split_ifs with itself
  · simp only [Bool.and_eq_true] at itself
    simpa using isAllowed_of_printable itself.1.1.1
  · split
    · rename_i e escape
      have letter : isAllowed e :=
        of_lookup (P := fun p => isAllowed p.2) (by decide) escape
      simpa using ⟨rfl, letter⟩
    · dsimp only
      split_ifs
      all_goals simpa using ⟨by decide, by decide, isAllowed_hexDigits⟩

/-! ### Settings -/

/-- The text has no break that is kept as it is when the text is written. -/
def SingleLine (s : String) : Prop :=
  ∀ c ∈ s.toList, c ≠ '\n' ∧ c ≠ '\u2028' ∧ c ≠ '\u2029'

instance (s : String) : Decidable (SingleLine s) :=
  List.decidableBAll _ s.toList

theorem isBreak_of_printable {s : String} (line : SingleLine s) {c : Char} (member : c ∈ s.toList)
    (printable : isPrintable c) : isBreak c = false := by
  obtain ⟨feed, separator, paragraph⟩ := line c member
  have noReturn : c ≠ '\r' := by
    rintro rfl
    cases printable
  have noNext : c ≠ '\u0085' := by
    rintro rfl
    cases printable
  simp [isBreak, feed, separator, paragraph, noReturn, noNext]

theorem printable_of_singleAllowed {cs : List Char} (allowed : Style.singleAllowed cs) :
    ∀ c ∈ cs, isPrintable c := by
  simp only [Style.singleAllowed, Style.writable, Bool.and_eq_true, List.all_eq_true] at allowed
  exact allowed.1.1

theorem singleAllowed_of_plainAllowed {cs : List Char} (allowed : Style.plainAllowed cs) :
    Style.singleAllowed cs := by
  simp only [Style.plainAllowed, Bool.and_eq_true] at allowed
  exact allowed.1.1.1.1.1

/-- What the style of a text of one line says about it. -/
theorem of_style {s : String} (line : SingleLine s) :
    match Style.of s with
    | .plain => Style.plainAllowed s.toList ∧ s.toList ≠ []
    | .singleQuoted => ∀ c ∈ s.toList, isPrintable c
    | .doubleQuoted => True
    | .literal => False := by
  have feed : s.toList.contains '\n' = false := by
    simpa using fun member => (line '\n' member).1 rfl
  unfold Style.of
  simp only [feed, Bool.false_eq_true, if_false]
  by_cases plain : (Style.plainAllowed s.toList && !isAmbiguous s) = true
  · rw [if_pos plain]
    simp only [Bool.and_eq_true, Bool.not_eq_true', isAmbiguous, Bool.or_eq_false_iff] at plain
    exact ⟨plain.1, by simpa using plain.2.1.1.1.1.1⟩
  · rw [if_neg plain]
    by_cases single : Style.singleAllowed s.toList = true
    · rw [if_pos single]
      exact printable_of_singleAllowed single
    · rw [if_neg single]
      trivial

theorem tokenize_writeEntry {s : String} (line : SingleLine s) :
    ∃ plain, tokenize (writeEntry Settings.pathKey s) = .ok (entryTokens (.scalar s plain)) := by
  have style := of_style line
  unfold writeEntry writeChars
  cases which : Style.of s with
  | plain =>
    rw [which] at style
    obtain ⟨allowed, filled⟩ := style
    obtain ⟨c, cs, split⟩ := List.exists_cons_of_ne_nil filled
    have read := Lexer.run_plain (split ▸ allowed)
    rw [← split, String.ofList_toList] at read
    refine ⟨true, tokenize_entry (fun d member => ?_) read⟩
    have either : d ∈ s.toList ∨ d = '\n' := by simpa using member
    rcases either with inside | rfl
    · exact isAllowed_of_printable
        (printable_of_singleAllowed (singleAllowed_of_plainAllowed allowed) d inside)
    · rfl
  | singleQuoted =>
    rw [which] at style
    have letters : ∀ c ∈ s.toList, c = ' ' ∨ IsLetter c := fun c member => by
      by_cases space : c = ' '
      · exact .inl space
      · exact .inr (isLetter_of_printable (style c member)
          (isBreak_of_printable line member (style c member)) space)
    have read := Lexer.run_quoted quoting_single (.inl rfl) letters
    rw [String.ofList_toList] at read
    dsimp only
    rw [singleQuotedChars_line fun c member => isBreak_of_printable line member (style c member)]
    refine ⟨false, tokenize_entry (fun d member => ?_) (by simpa using read)⟩
    have either : d = '\'' ∨ (∃ c ∈ s.toList, d ∈ singleQuotedChar c) ∨ d = '\'' ∨ d = '\n' := by
      simpa using member
    rcases either with rfl | ⟨c, inside, written⟩ | rfl | rfl
    · rfl
    · obtain rfl : d = c := by
        unfold singleQuotedChar at written
        split_ifs at written <;> simpa using written
      exact isAllowed_of_printable (style d inside)
    · rfl
    · rfl
  | doubleQuoted =>
    have any : ∀ c ∈ s.toList, True := fun c _ => trivial
    have read := Lexer.run_quoted quoting_double (.inr rfl) any
    rw [String.ofList_toList] at read
    refine ⟨false, tokenize_entry (fun d member => ?_) (by simpa using read)⟩
    have either : d = '"' ∨ (∃ c ∈ s.toList, d ∈ doubleQuotedChar c) ∨ d = '"' ∨ d = '\n' := by
      simpa using member
    rcases either with rfl | ⟨c, -, written⟩ | rfl | rfl
    · rfl
    · exact isAllowed_doubleQuotedChar c d written
    · rfl
    · rfl
  | literal =>
    rw [which] at style
    exact style.elim

end Yaml

/-- **A directive path of one line is read back from the settings that were written with it.** -/
theorem Settings.ofYaml_toYaml {path : String} (line : Yaml.SingleLine path) :
    ofYaml (toYaml ⟨path⟩) = .ok ⟨path⟩ := by
  obtain ⟨plain, tokens⟩ := Yaml.tokenize_writeEntry line
  have document := Yaml.ofTokens?_entryTokens path plain
  unfold ofYaml toYaml
  simp only [tokens, bind, Except.bind, document]
  rfl

/-- Whether or not a path has one line, it is read back if those of more lines are. -/
theorem Settings.readable_of_lines {path : String}
    (lines : ¬Yaml.SingleLine path → ofYaml (toYaml ⟨path⟩) = .ok ⟨path⟩) :
    ofYaml (toYaml ⟨path⟩) = .ok ⟨path⟩ := by
  by_cases line : Yaml.SingleLine path
  · exact ofYaml_toYaml line
  · exact lines line

end ModalKeys
