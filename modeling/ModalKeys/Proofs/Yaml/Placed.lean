import Mathlib.Data.List.TakeWhile
import ModalKeys.Yaml.Printer

/-!
# Texts of one line, as they are placed

Reading goes by the characters and hardly by their places. A scalar is read in turns, a word and the
spaces after it, so a text is taken apart the same way (`induction_words`).
-/

namespace ModalKeys.Yaml

open Rest

/-! ### Places -/

theorem placeFrom_cons {c : Char} (here : isBreak c = false) (i l k : Nat) (cs : List Char) :
    placeFrom i l k (c :: cs) = ⟨c, i, l, k⟩ :: placeFrom (i + 1) l (k + 1) cs := by
  have notReturn : (c == '\r') = false := by
    by_contra same
    simp [show c = '\r' by simpa using same, isBreak] at here
  simp [placeFrom, notReturn, here]

/-- Characters that stay on their line are placed one after another. -/
theorem placeFrom_append {w : List Char} (line : ∀ c ∈ w, isBreak c = false) (i l k : Nat)
    (cs : List Char) :
    placeFrom i l k (w ++ cs) =
      placeFrom i l k w ++ placeFrom (i + w.length) l (k + w.length) cs := by
  induction w generalizing i k with
  | nil => rfl
  | cons c w ih =>
    obtain ⟨here, line⟩ := List.forall_mem_cons.mp line
    rw [List.cons_append, placeFrom_cons here, placeFrom_cons here, ih line, List.cons_append,
      List.length_cons, Nat.add_assoc i, Nat.add_assoc k, Nat.add_comm 1]

/-- Whatever the places are, a character is found where it was put. -/
theorem placeFrom_eq_cons (i l k : Nat) (c : Char) (cs : List Char) :
    ∃ i' l' k', placeFrom i l k (c :: cs) = ⟨c, i, l, k⟩ :: placeFrom i' l' k' cs := by
  rw [placeFrom]
  split_ifs <;> exact ⟨_, _, _, rfl⟩

theorem map_char_placeFrom (i l k : Nat) (cs : List Char) :
    (placeFrom i l k cs).map Placed.char = cs := by
  induction cs generalizing i l k with
  | nil => rfl
  | cons c cs ih =>
    obtain ⟨i', l', k', placed⟩ := placeFrom_eq_cons i l k c cs
    rw [placed, List.map_cons, ih]

theorem length_placeFrom (i l k : Nat) (cs : List Char) :
    (placeFrom i l k cs).length = cs.length := by
  simpa using congrArg List.length (map_char_placeFrom i l k cs)

theorem startsWith_placeFrom (d : Char) (i l k : Nat) (cs : List Char) :
    startsWith d (placeFrom i l k cs) = cs.head?.any (· == d) := by
  cases cs with
  | nil => rfl
  | cons c cs =>
    obtain ⟨i', l', k', placed⟩ := placeFrom_eq_cons i l k c cs
    rw [placed]
    rfl

theorem atGap_placeFrom (i l k : Nat) (cs : List Char) :
    atGap (placeFrom i l k cs) = cs.head?.all fun c => isSpace c || isBreak c := by
  cases cs with
  | nil => rfl
  | cons c cs =>
    obtain ⟨i', l', k', placed⟩ := placeFrom_eq_cons i l k c cs
    rw [placed]
    rfl

theorem atDocumentMark_placeFrom (i l k : Nat) (cs : List Char) :
    atDocumentMark (placeFrom i l (k + 1) cs) = false := by
  cases cs with
  | nil => rfl
  | cons c cs =>
    obtain ⟨i', l', k', placed⟩ := placeFrom_eq_cons i l (k + 1) c cs
    rw [placed]
    rfl

/-! ### Words and the spaces between them -/

/-- A text begins with a longest part whose characters all satisfy `f`. -/
theorem exists_longest (f : Char → Bool) (cs : List Char) :
    ∃ front rest, cs = front ++ rest ∧ (∀ c ∈ front, f c) ∧ rest.head?.all (!f ·) := by
  refine ⟨cs.takeWhile f, cs.dropWhile f, List.takeWhile_append_dropWhile.symm,
    fun c => List.mem_takeWhile_imp, ?_⟩
  have stop := List.head?_dropWhile_not f cs
  cases head : (cs.dropWhile f).head? with
  | none => rfl
  | some c => simpa [head] using stop

/-- A text is a word, or a word, spaces and another text; the first word may be empty. -/
theorem induction_words {P : List Char → Prop} (word : ∀ w, ' ' ∉ w → P w)
    (more : ∀ w spaces cs, ' ' ∉ w → spaces ≠ [] → (∀ c ∈ spaces, c = ' ') →
      cs.head? ≠ some ' ' → P cs → P (w ++ (spaces ++ cs))) (cs : List Char) : P cs := by
  induction length : cs.length using Nat.strong_induction_on generalizing cs with
  | _ n ih =>
    obtain ⟨w, rest, rfl, letters, stop⟩ := exists_longest (· != ' ') cs
    obtain ⟨spaces, tail, rfl, blanks, begins⟩ := exists_longest (· == ' ') rest
    have w_word : ' ' ∉ w := fun member => by simpa using letters _ member
    cases spaces with
    | nil =>
      -- nothing stopped the word but the end
      have all : tail = [] := by
        cases tail with
        | nil => rfl
        | cons c tail => simp_all
      simpa [all] using word w w_word
    | cons c spaces =>
      have shorter : tail.length < n := by
        simp only [List.length_append, List.length_cons] at length
        omega
      refine more w (c :: spaces) tail w_word (List.cons_ne_nil _ _) (by simpa using blanks) ?_
        (ih _ shorter tail rfl)
      cases tail with
      | nil => simp
      | cons d tail => simpa using begins

theorem head?_spaces {spaces : List Char} (gap : spaces ≠ []) (blank : ∀ c ∈ spaces, c = ' ') :
    spaces.head? = some ' ' := by
  rw [List.head?_eq_some_head gap, blank _ (List.head_mem gap)]

/-- A word ends with the line or at a space. -/
theorem exists_gap_cons {cs : List Char} (ends : cs = [] ∨ cs.head? = some ' ') :
    ∃ c tail, cs ++ ['\n'] = c :: tail ∧ (isSpace c || isBreak c) := by
  rcases ends with rfl | space
  · exact ⟨'\n', [], rfl, rfl⟩
  · cases cs with
    | nil => simp at space
    | cons c cs => exact ⟨c, cs ++ ['\n'], rfl, by simp_all [isSpace]⟩

/-- The character is none at which a word ends. -/
def IsLetter (c : Char) : Prop :=
  isSpace c = false ∧ isBreak c = false

theorem isLetter_of_printable {c : Char} (printable : isPrintable c) (line : isBreak c = false)
    (apart : c ≠ ' ') : IsLetter c := by
  refine ⟨?_, line⟩
  cases space : isSpace c with
  | false => rfl
  | true =>
    rcases (by simpa [isSpace] using space : c = ' ' ∨ c = '\t') with rfl | rfl
    · exact absurd rfl apart
    · cases printable

theorem Gap.read_letter {c : Char} (letter : IsLetter c) (least : Nat) (g : Gap) (i l k : Nat)
    (cs : List Char) :
    g.read least (placeFrom i l k (c :: cs)) = .ok (g, placeFrom i l k (c :: cs)) := by
  have notReturn : (c == '\r') = false := by
    by_contra same
    simp [IsLetter, show c = '\r' by simpa using same, isBreak] at letter
  rw [placeFrom_cons letter.2, Gap.read]
  simp [letter.1, letter.2, notReturn]

theorem Gap.read_spaces {spaces : List Char} (blanks : ∀ c ∈ spaces, c = ' ') (least : Nat)
    (before : List Char) (i l k : Nat) (cs : List Char) :
    Gap.read least ⟨before, false, [], []⟩ (placeFrom i l k (spaces ++ cs)) =
      Gap.read least ⟨before ++ spaces, false, [], []⟩
        (placeFrom (i + spaces.length) l (k + spaces.length) cs) := by
  induction spaces generalizing before i k with
  | nil => simp
  | cons c spaces ih =>
    obtain ⟨space, others⟩ := List.forall_mem_cons.mp blanks
    subst space
    rw [List.cons_append, placeFrom_cons rfl, Gap.read]
    simp only [isSpace, Gap.addSpace, Bool.false_and, beq_self_eq_true, Bool.true_or, if_true,
      Bool.false_eq_true, if_false, ih others]
    rw [List.append_assoc, List.singleton_append, List.length_cons, Nat.add_assoc i,
      Nat.add_assoc k, Nat.add_comm 1]

end ModalKeys.Yaml
