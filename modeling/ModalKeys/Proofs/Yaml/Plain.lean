import ModalKeys.Proofs.Yaml.Placed

/-!
# Plain scalars are read back

A string that may be written plain is read as it was: no colon in it ends a key, no number sign
begins a comment, and a space is never the last character (`plainFrom_line`).
-/

namespace ModalKeys.Yaml

open Rest

/-- What is known of the inside of a string that may be written plain, after the character `x`. -/
structure Inside (x : Char) (cs : List Char) : Prop where
  middle : Style.badMiddle (x :: cs) = false
  letters : ∀ c ∈ cs, c = ' ' ∨ IsLetter c

theorem Inside.tail {x c : Char} {cs : List Char} (inside : Inside x (c :: cs)) : Inside c cs := by
  refine ⟨?_, fun d member => inside.letters d (List.mem_cons_of_mem c member)⟩
  have middle := inside.middle
  rw [Style.badMiddle] at middle
  simp only [Bool.or_eq_false_iff] at middle
  exact middle.2

theorem Inside.drop {x : Char} {front cs : List Char} (inside : Inside x (front ++ cs))
    (filled : front ≠ []) : Inside (front.getLast filled) cs := by
  induction front generalizing x with
  | nil => exact absurd rfl filled
  | cons c front ih =>
    cases front with
    | nil => exact inside.tail
    | cons d front =>
      rw [List.getLast_cons (List.cons_ne_nil d front)]
      exact ih inside.tail _

theorem Inside.not_hash {cs : List Char} (inside : Inside ' ' cs) : cs.head? ≠ some '#' := by
  intro hash
  cases cs with
  | nil => simp at hash
  | cons c cs =>
    obtain rfl : c = '#' := by simpa using hash
    have middle := inside.middle
    simp [Style.badMiddle, gapNext, isSpace] at middle

/-- Where the string says that no gap comes next, none is read. -/
theorem atGap_of_gapNext {cs : List Char} (letter : gapNext cs = false) (i l k : Nat)
    (rest : List Char) : atGap (placeFrom i l k (cs ++ rest)) = false := by
  rw [atGap_placeFrom]
  cases cs with
  | nil => simp [gapNext] at letter
  | cons d cs =>
    simp only [gapNext, List.head?_cons, Option.all_some, Bool.or_eq_false_iff] at letter
    simp [letter.1]

/-- A colon inside is no end of a key. -/
theorem Inside.not_colon {x c : Char} {cs : List Char} (inside : Inside x (c :: cs))
    (i l k : Nat) : (c == ':' && atGap (placeFrom i l k (cs ++ ['\n']))) = false := by
  have middle := inside.middle
  rw [Style.badMiddle] at middle
  simp only [Bool.or_eq_false_iff] at middle
  cases colon : c == ':' with
  | false => rfl
  | true => exact atGap_of_gapNext (by simpa [colon] using middle.1.1) i l k _

theorem plainWord_line {w cs : List Char} {x : Char} (inside : Inside x (w ++ cs))
    (word : ' ' ∉ w) (ends : cs = [] ∨ cs.head? = some ' ') (i l k : Nat) :
    plainWord false (placeFrom i l k (w ++ (cs ++ ['\n']))) =
      .ok (w, placeFrom (i + w.length) l (k + w.length) (cs ++ ['\n'])) := by
  induction w generalizing x i k with
  | nil =>
    obtain ⟨c, tail, split, gap⟩ := exists_gap_cons ends
    obtain ⟨i', l', k', placed⟩ := placeFrom_eq_cons i l k c tail
    rw [List.nil_append, split, placed, plainWord, if_pos gap, ← placed]
    rfl
  | cons c w ih =>
    obtain ⟨apart, word⟩ : ' ' ≠ c ∧ ' ' ∉ w := by simpa using word
    have letter : IsLetter c := by
      rcases inside.letters c (by simp) with space | letter
      · exact absurd space.symm apart
      · exact letter
    rw [List.cons_append] at inside
    have colon := inside.not_colon (i + 1) l (k + 1)
    rw [List.append_assoc] at colon
    rw [List.cons_append, placeFrom_cons letter.2, plainWord]
    simp only [letter.1, letter.2, colon, ih inside.tail word, Bool.or_self, Bool.false_and,
      Bool.false_eq_true, if_false, List.length_cons]
    rw [Nat.add_assoc i, Nat.add_assoc k, Nat.add_comm 1]
    rfl

/-- One turn of reading a plain scalar: a word, and then the gap after it. -/
theorem plainFrom_word {w cs : List Char} {x : Char} (inside : Inside x (w ++ cs))
    (filled : w ≠ []) (word : ' ' ∉ w) (hash : w.head? ≠ some '#')
    (ends : cs = [] ∨ cs.head? = some ' ') (text spaces : List Char) (i l k steps : Nat) :
    plainFrom false 1 (steps + 1) text ⟨spaces, false, [], []⟩
        (placeFrom i l (k + 1) (w ++ (cs ++ ['\n']))) = do
      let (gap, rest) ←
        Gap.none.read 1 (placeFrom (i + w.length) l (k + 1 + w.length) (cs ++ ['\n']))
      match rest with
      | p :: _ =>
        if p.column < 1 then return ⟨text ++ spaces ++ w, gap.broken, rest⟩
        plainFrom false 1 steps (text ++ spaces ++ w) gap rest
      | [] => return ⟨text ++ spaces ++ w, gap.broken, []⟩ := by
  have sign : startsWith '#' (placeFrom i l (k + 1) (w ++ (cs ++ ['\n']))) = false := by
    rw [startsWith_placeFrom]
    cases w with
    | nil => exact absurd rfl filled
    | cons c w => simpa using hash
  obtain ⟨c, tail, split, gap⟩ := exists_gap_cons ends
  obtain ⟨i', l', k', placed⟩ :=
    placeFrom_eq_cons (i + w.length) l (k + 1 + w.length) c tail
  have letters : w.isEmpty = false := by simpa using filled
  rw [plainFrom, atDocumentMark_placeFrom, sign, plainWord_line inside word ends, split, placed]
  simp only [bind, Except.bind, pure, Except.pure, Bool.or_self, Bool.false_eq_true, if_false,
    letters, List.isEmpty_cons, atGap, gap, Bool.not_true, Bool.not_false, Bool.true_and,
    decide_eq_true_eq]
  rfl

/-- A plain scalar goes on to the end of its line. -/
theorem plainFrom_line (cs : List Char) : ∀ {x : Char} (text spaces : List Char) (i l k : Nat)
    {steps : Nat}, Inside x cs → cs ≠ [] → cs.head? ≠ some ' ' → cs.head? ≠ some '#' →
    cs.getLast? ≠ some ' ' → cs.length < steps →
    plainFrom false 1 steps text ⟨spaces, false, [], []⟩ (placeFrom i l (k + 1) (cs ++ ['\n'])) =
      .ok ⟨text ++ spaces ++ cs, true, []⟩ := by
  induction cs using induction_words with
  | word w word =>
    intro x text spaces i l k steps inside filled space hash ends enough
    obtain ⟨steps, rfl⟩ := Nat.exists_eq_add_one_of_ne_zero (Nat.ne_zero_of_lt enough)
    have inside' : Inside x (w ++ []) := by simpa using inside
    exact plainFrom_word inside' filled word hash (.inl rfl) text spaces i l k _
  | more w blanks cs word gap blank begins ih =>
    intro x text spaces i l k steps inside filled space hash ends enough
    have first : blanks.head? = some ' ' := head?_spaces gap blank
    have last : blanks.getLast? = some ' ' := by
      rw [List.getLast?_eq_some_getLast gap, blank _ (List.getLast_mem gap)]
    -- the word before the spaces is not empty, nor is what follows them
    have before : w ≠ [] := by
      rintro rfl
      simp [first] at space
    obtain ⟨c, tail, rfl⟩ : ∃ c tail, cs = c :: tail := List.exists_cons_of_ne_nil fun empty => by
      simp [empty, last] at ends
    have inside' : Inside ' ' (c :: tail) := by
      have dropped := (List.append_assoc w blanks (c :: tail) ▸ inside).drop (by simp [gap])
      rwa [List.getLast_append_of_ne_nil _ gap, blank _ (List.getLast_mem gap)] at dropped
    have letter : IsLetter c := by
      rcases inside'.letters c List.mem_cons_self with rfl | letter
      · simp at begins
      · exact letter
    have hash' : w.head? ≠ some '#' := by
      obtain ⟨a, v, rfl⟩ := List.exists_cons_of_ne_nil before
      simpa using hash
    have ends' : (c :: tail).getLast? ≠ some ' ' := by
      simpa [List.getLast?_append] using ends
    obtain ⟨steps, rfl⟩ := Nat.exists_eq_add_one_of_ne_zero (Nat.ne_zero_of_lt enough)
    have enough' : (c :: tail).length < steps := by
      have more := List.length_pos_iff.mpr gap
      simp only [List.length_append] at enough
      omega
    have columns : k + 1 + w.length + blanks.length = k + w.length + blanks.length + 1 := by omega
    have rest := ih (text ++ spaces ++ w) blanks (i + w.length + blanks.length) l
      (k + w.length + blanks.length) inside' (List.cons_ne_nil c tail) begins inside'.not_hash ends'
      enough'
    -- one turn reads the word and the spaces, and the others what begins after them
    rw [List.append_assoc w, plainFrom_word inside before word hash' (.inr (by simp [first])),
      List.append_assoc blanks, Gap.none, Gap.read_spaces blank, List.cons_append,
      Gap.read_letter letter, columns]
    rw [List.cons_append, placeFrom_cons letter.2] at rest
    rw [placeFrom_cons letter.2]
    simpa [bind, Except.bind] using rest

end ModalKeys.Yaml
