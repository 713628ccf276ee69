import ModalKeys.Text

/-!
# Words

The words of a text are its maximal runs of characters that are not blank. A blank cuts a text in
two texts, and the words of the text are those of the one and then those of the other
(`words_append_blank`); a run without a blank is one word (`words_of_isWord`). Together these give
the words of every text that is put together from words and blanks.
-/

namespace ModalKeys.Text

/-- A run of blanks, possibly empty. -/
def Blanks (cs : List Char) : Prop :=
  ∀ c ∈ cs, isBlank c = true

instance (cs : List Char) : Decidable (Blanks cs) :=
  decidable_of_iff (cs.all isBlank = true) List.all_eq_true

theorem blanks_nil : Blanks [] := fun _ member => by cases member

theorem blanks_cons_iff {c : Char} {cs : List Char} :
    Blanks (c :: cs) ↔ isBlank c = true ∧ Blanks cs :=
  List.forall_mem_cons

/-- A run of characters that are not blank, at least one. -/
def IsWord (w : List Char) : Prop :=
  w ≠ [] ∧ ∀ c ∈ w, isBlank c = false

-- decided along the text: the bounded quantifier could be decided over all characters as well
instance (w : List Char) : Decidable (IsWord w) :=
  decidable_of_iff (w ≠ [] ∧ w.all (fun c => !isBlank c) = true) (by simp [IsWord])

@[simp] theorem words_nil : words [] = [] := rfl

@[simp] theorem words_blank_cons {c : Char} (blank : isBlank c = true) (cs : List Char) :
    words (c :: cs) = words cs := by
  simp [words, blank]

theorem words_letter_cons_blank {c : Char} {cs : List Char} (letter : isBlank c = false)
    (next : cs.head?.all isBlank = true) : words (c :: cs) = [c] :: words cs := by
  simp [words, letter, next]

/-- A letter before a letter joins the word that begins there. -/
theorem words_letter_cons_letter {c d : Char} (cs : List Char) (letter : isBlank c = false)
    (next : isBlank d = false) :
    ∃ w ws, words (d :: cs) = w :: ws ∧ words (c :: d :: cs) = (c :: w) :: ws := by
  obtain ⟨w, ws, split⟩ : ∃ w ws, words (d :: cs) = w :: ws := by
    rw [words]
    simp only [next, Bool.false_eq_true, if_false]
    split
    · exact ⟨_, _, rfl⟩
    · split <;> exact ⟨_, _, rfl⟩
  -- `d` is a letter, so the match in `words` takes its second branch
  refine ⟨w, ws, split, ?_⟩
  rw [words]
  simp [letter, next, split]

theorem words_letter_cons {c : Char} (letter : isBlank c = false) (cs : List Char) :
    ∃ w ws, words (c :: cs) = (c :: w) :: ws := by
  cases cs with
  | nil => exact ⟨[], [], words_letter_cons_blank letter rfl⟩
  | cons d cs =>
    cases next : isBlank d with
    | true => exact ⟨[], _, words_letter_cons_blank letter (by simpa using next)⟩
    | false =>
      obtain ⟨w, ws, -, whole⟩ := words_letter_cons_letter cs letter next
      exact ⟨w, ws, whole⟩

/-- A blank cuts a text in two, whatever stands before and after it. -/
theorem words_append_blank {c : Char} (blank : isBlank c = true) (cs ds : List Char) :
    words (cs ++ c :: ds) = words cs ++ words ds := by
  induction cs with
  | nil => simp [blank]
  | cons d cs ih =>
    cases letter : isBlank d with
    | true => simpa [letter] using ih
    | false =>
      -- what `d` becomes depends on the character after it, so that one is looked at too
      cases cs with
      | nil =>
        rw [List.cons_append, words_letter_cons_blank letter (by simpa using blank),
          words_letter_cons_blank letter rfl, ih]
        rfl
      | cons e cs =>
        cases next : isBlank e with
        | true =>
          rw [List.cons_append, words_letter_cons_blank letter (by simpa using next),
            words_letter_cons_blank letter (by simpa using next), ih]
          rfl
        | false =>
          -- `d` joins the word of `e`, with the rest after it and without
          obtain ⟨w, ws, tail, whole⟩ := words_letter_cons_letter cs letter next
          obtain ⟨v, vs, tail', whole'⟩ :=
            words_letter_cons_letter (cs ++ c :: ds) letter next
          rw [List.cons_append, tail', tail] at ih
          obtain ⟨rfl, rfl⟩ := List.cons.inj ih
          rw [List.cons_append, List.cons_append, whole', whole]
          rfl

theorem words_blanks_append {bs : List Char} (blanks : Blanks bs) (cs : List Char) :
    words (bs ++ cs) = words cs := by
  induction bs with
  | nil => rfl
  | cons b bs ih =>
    obtain ⟨blank, rest⟩ := blanks_cons_iff.mp blanks
    rw [List.cons_append, words_blank_cons blank, ih rest]

theorem words_of_blanks {bs : List Char} (blanks : Blanks bs) : words bs = [] := by
  simpa using words_blanks_append blanks []

theorem words_append_blanks {bs : List Char} (blanks : Blanks bs) (cs : List Char) :
    words (cs ++ bs) = words cs := by
  cases bs with
  | nil => rw [List.append_nil]
  | cons b bs =>
    obtain ⟨blank, rest⟩ := blanks_cons_iff.mp blanks
    rw [words_append_blank blank, words_of_blanks rest, List.append_nil]

theorem words_of_isWord {w : List Char} (word : IsWord w) : words w = [w] := by
  obtain ⟨nonempty, letters⟩ := word
  induction w with
  | nil => contradiction
  | cons c cs ih =>
    have letter : isBlank c = false := letters c List.mem_cons_self
    cases cs with
    | nil => exact words_letter_cons_blank letter rfl
    | cons d cs =>
      have next : isBlank d = false := letters d (by simp)
      obtain ⟨w, ws, tail, whole⟩ := words_letter_cons_letter cs letter next
      have one : words (d :: cs) = [d :: cs] :=
        ih (List.cons_ne_nil d cs) fun e member => letters e (List.mem_cons_of_mem c member)
      rw [tail, List.cons.injEq] at one
      rw [whole, one.1, one.2]

theorem words_isWord_append_blank {w : List Char} (word : IsWord w) {c : Char}
    (blank : isBlank c = true) (cs : List Char) : words (w ++ c :: cs) = w :: words cs := by
  rw [words_append_blank blank, words_of_isWord word]
  rfl

/-- The first character that is not blank begins the first word. -/
theorem find?_letter (cs : List Char) :
    cs.find? (fun c => !isBlank c) = (words cs).head?.bind List.head? := by
  induction cs with
  | nil => rfl
  | cons c cs ih =>
    cases letter : isBlank c with
    | true => simpa [letter] using ih
    | false =>
      obtain ⟨w, ws, split⟩ := words_letter_cons letter cs
      simp [letter, split]

theorem isWord_of_mem_words {cs w : List Char} (member : w ∈ words cs) : IsWord w := by
  induction cs generalizing w with
  | nil => simp at member
  | cons c cs ih =>
    cases letter : isBlank c with
    | true => exact ih (by simpa [letter] using member)
    | false =>
      have single : IsWord [c] := ⟨List.cons_ne_nil c [], by simpa using letter⟩
      cases cs with
      | nil =>
        rw [words_letter_cons_blank letter rfl, words_nil, List.mem_singleton] at member
        exact member ▸ single
      | cons d cs =>
        cases next : isBlank d with
        | true =>
          rw [words_letter_cons_blank letter (by simpa using next)] at member
          rcases List.mem_cons.mp member with rfl | later
          · exact single
          · exact ih later
        | false =>
          obtain ⟨v, vs, tail, whole⟩ := words_letter_cons_letter cs letter next
          rw [whole] at member
          rcases List.mem_cons.mp member with rfl | later
          · -- the word that `c` joins was a word before
            have rest : IsWord v := ih (by simp [tail])
            refine ⟨List.cons_ne_nil c v, fun e inside => ?_⟩
            rcases List.mem_cons.mp inside with rfl | inside
            · exact letter
            · exact rest.2 e inside
          · exact ih (by simp [tail, later])

/-! ### Texts with given words -/

theorem words_eq_nil_iff {cs : List Char} : words cs = [] ↔ Blanks cs := by
  constructor
  · intro wordless c member
    cases letter : isBlank c with
    | true => rfl
    | false =>
      -- a letter begins a word, wherever it stands
      have first := find?_letter cs
      rw [wordless, List.head?_nil, Option.bind_none, List.find?_eq_none] at first
      exact absurd letter (by simpa using first c member)
  · exact words_of_blanks

theorem words_isWord_append {w rest : List Char} (word : IsWord w)
    (next : ∀ c ∈ rest.head?, isBlank c = true) : words (w ++ rest) = w :: words rest := by
  cases rest with
  | nil => rw [List.append_nil, words_of_isWord word, words_nil]
  | cons c rest =>
    have blank : isBlank c = true := next c rfl
    rw [words_isWord_append_blank word blank, words_blank_cons blank]

private theorem exists_run (p : Char → Bool) (cs : List Char) :
    ∃ run rest, cs = run ++ rest ∧ (∀ c ∈ run, p c = true) ∧ ∀ c ∈ rest.head?, p c = false := by
  refine ⟨cs.takeWhile p, cs.dropWhile p, List.takeWhile_append_dropWhile.symm,
    List.all_eq_true.mp List.all_takeWhile, ?_⟩
  intro c first
  have stops := List.head?_dropWhile_not p cs
  rwa [Option.mem_def.mp first] at stops

/-- A text with a word is blanks, the word, and a text that does not go on with it. -/
theorem exists_of_words_eq_cons {cs w : List Char} {ws : List (List Char)}
    (split : words cs = w :: ws) :
    ∃ before rest, cs = before ++ w ++ rest ∧ Blanks before ∧ IsWord w ∧
      (∀ c ∈ rest.head?, isBlank c = true) ∧ words rest = ws := by
  obtain ⟨before, tail, rfl, blanks, start⟩ := exists_run isBlank cs
  obtain ⟨run, rest, rfl, letters, stop⟩ := exists_run (fun c => !isBlank c) tail
  have next : ∀ c ∈ rest.head?, isBlank c = true := fun c first => by simpa using stop c first
  rw [words_blanks_append blanks] at split
  have word : IsWord run := by
    refine ⟨?_, fun c member => by simpa using letters c member⟩
    rintro rfl
    -- what is after the blanks would begin neither with a blank nor with a letter
    cases rest with
    | nil => cases split
    | cons c rest => exact absurd (next c rfl) (by simp [start c rfl])
  rw [words_isWord_append word next] at split
  obtain ⟨rfl, rfl⟩ := List.cons.inj split
  exact ⟨before, rest, (List.append_assoc before run rest).symm, blanks, word, next, rfl⟩

/-- The blanks between two words, at least one. -/
def IsGap (cs : List Char) : Prop :=
  cs ≠ [] ∧ Blanks cs

instance (cs : List Char) : Decidable (IsGap cs) :=
  inferInstanceAs (Decidable (_ ∧ _))

theorem IsGap.head? {gap : List Char} (isGap : IsGap gap) (rest : List Char) :
    ∀ c ∈ (gap ++ rest).head?, isBlank c = true := by
  obtain ⟨c, after, rfl⟩ := List.exists_cons_of_ne_nil isGap.1
  intro d first
  cases first
  exact isGap.2 c List.mem_cons_self

theorem exists_gap_of_words_eq_cons {cs w : List Char} {ws : List (List Char)}
    (start : ∀ c ∈ cs.head?, isBlank c = true) (split : words cs = w :: ws) :
    ∃ gap rest, cs = gap ++ w ++ rest ∧ IsGap gap ∧ IsWord w ∧
      (∀ c ∈ rest.head?, isBlank c = true) ∧ words rest = ws := by
  obtain ⟨gap, rest, rfl, blanks, word, next, words⟩ := exists_of_words_eq_cons split
  refine ⟨gap, rest, rfl, ⟨?_, blanks⟩, word, next, words⟩
  rintro rfl
  -- then the text would begin with the word
  obtain ⟨c, after, rfl⟩ := List.exists_cons_of_ne_nil word.1
  have blank : isBlank c = true := start c rfl
  exact absurd blank (by simp [word.2 c List.mem_cons_self])

end ModalKeys.Text
