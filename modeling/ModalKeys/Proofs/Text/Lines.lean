import ModalKeys.Proofs.Text.Trim

/-!
# Lines

A line feed ends a line and takes one carriage return before it along. A text has no line feed, or
it is a line, a line feed and a text: `induction_lines` is the induction along this, and both ways
of cutting a text, into its lines and at its line feeds, have an equation for each of its cases. The
two differ by blanks alone, for the carriage return that is taken along makes no difference to the
words of a line (`words_chomp`) or to the line when it is trimmed (`trim_chomp`).
-/

namespace ModalKeys.Text

/-- A line without the carriage return at its end, if there is one. -/
def chomp (l : List Char) : List Char :=
  if l.getLast? = some '\r' then l.dropLast else l

@[simp] theorem lines_nil : lines [] = [] := rfl

/-- A character that has no part in the end of a line stands in front of the first line. -/
theorem lines_cons {c : Char} {cs : List Char} (inside : c ≠ '\n')
    (apart : c = '\r' → cs.head? ≠ some '\n') :
    lines (c :: cs) = (c :: (lines cs).headD []) :: (lines cs).tail := by
  rw [lines]
  · cases lines cs <;> rfl
  · exact inside
  · rintro rest ret rfl
    exact apart ret rfl

theorem chomp_cons {c : Char} {cs : List Char} (apart : c = '\r' → cs ≠ []) :
    chomp (c :: cs) = c :: chomp cs := by
  cases cs with
  | nil =>
    have other : c ≠ '\r' := fun equal => apart equal rfl
    simp [chomp, other]
  | cons d cs => simp only [chomp, List.getLast?_cons_cons, List.dropLast_cons_cons]; split <;> rfl

theorem lines_append_newline {l : List Char} (inside : '\n' ∉ l) (rest : List Char) :
    lines (l ++ '\n' :: rest) = chomp l :: lines rest := by
  induction l with
  | nil => rfl
  | cons c l ih =>
    have here : c ≠ '\n' := fun equal => inside (equal ▸ List.mem_cons_self)
    have tail : '\n' ∉ l := fun member => inside (List.mem_cons_of_mem c member)
    by_cases ending : c = '\r' ∧ l = []
    · -- the carriage return that the line feed takes along
      obtain ⟨rfl, rfl⟩ := ending
      rfl
    · have apart : c = '\r' → l ≠ [] := fun equal empty => ending ⟨equal, empty⟩
      have next : c = '\r' → (l ++ '\n' :: rest).head? ≠ some '\n' := by
        intro equal
        obtain ⟨d, ds, rfl⟩ := List.exists_cons_of_ne_nil (apart equal)
        have other : d ≠ '\n' := fun same => tail (same ▸ List.mem_cons_self)
        simpa using other
      rw [List.cons_append, lines_cons here next, ih tail, chomp_cons apart]
      rfl

/-- Lines that are each ended stand before the lines of any text after them. -/
theorem lines_ended {ls : List (List Char)} (inside : ∀ l ∈ ls, '\n' ∉ l) (rest : List Char) :
    lines (ls.flatMap (· ++ ['\n']) ++ rest) = ls.map chomp ++ lines rest := by
  induction ls with
  | nil => rfl
  | cons l ls ih =>
    rw [List.flatMap_cons, List.append_assoc, List.append_assoc, List.singleton_append,
      lines_append_newline (inside l List.mem_cons_self),
      ih fun m member => inside m (List.mem_cons_of_mem l member)]
    rfl

theorem exists_chomp (l : List Char) : ∃ after, Blanks after ∧ l = chomp l ++ after := by
  unfold chomp
  split
  · next ending =>
    obtain ⟨front, rfl⟩ := List.getLast?_eq_some_iff.mp ending
    exact ⟨['\r'], blanks_cons_iff.mpr ⟨by decide, blanks_nil⟩, by rw [List.dropLast_concat]⟩
  · exact ⟨[], blanks_nil, (List.append_nil l).symm⟩

/-- A carriage return at the end of a line makes no difference to its words. -/
theorem words_chomp (l : List Char) : words (chomp l) = words l := by
  obtain ⟨after, blanks, split⟩ := exists_chomp l
  conv => rhs; rw [split, words_append_blanks blanks]

theorem trim_chomp (l : List Char) : trim (chomp l) = trim l := by
  obtain ⟨after, blanks, split⟩ := exists_chomp l
  conv => rhs; rw [split, trim_append_blanks blanks]

theorem newline_not_mem_of_isWord {w : List Char} (word : IsWord w) : '\n' ∉ w := by
  intro member
  have letter := word.2 '\n' member
  revert letter
  decide

/-! ### Line by line -/

theorem lines_of_not_mem {l : List Char} (inside : '\n' ∉ l) (nonempty : l ≠ []) :
    lines l = [l] := by
  induction l with
  | nil => contradiction
  | cons c l ih =>
    have here : c ≠ '\n' := fun equal => inside (equal ▸ List.mem_cons_self)
    have tail : '\n' ∉ l := fun member => inside (List.mem_cons_of_mem c member)
    have apart : l.head? ≠ some '\n' := fun next => tail (List.mem_of_head? next)
    rw [lines_cons here fun _ => apart]
    by_cases last : l = []
    · rw [last]
      rfl
    · rw [ih tail last]
      rfl

@[elab_as_elim]
theorem induction_lines {motive : List Char → Prop} (last : ∀ l, '\n' ∉ l → motive l)
    (ended : ∀ l rest, '\n' ∉ l → motive rest → motive (l ++ '\n' :: rest)) (cs : List Char) :
    motive cs := by
  by_cases member : '\n' ∈ cs
  · obtain ⟨l, rest, split, inside⟩ := List.eq_append_cons_of_mem member
    have shorter : rest.length < cs.length := by
      rw [split, List.length_append, List.length_cons]
      omega
    rw [split]
    exact ended l rest inside (induction_lines last ended rest)
  · exact last cs member
termination_by cs.length

theorem newline_not_mem_of_mem_lines {cs l : List Char} (member : l ∈ lines cs) : '\n' ∉ l := by
  induction cs using induction_lines with
  | last m inside =>
    by_cases empty : m = []
    · simp [empty] at member
    · rw [lines_of_not_mem inside empty, List.mem_singleton] at member
      exact member ▸ inside
  | ended m rest inside ih =>
    rw [lines_append_newline inside] at member
    rcases List.mem_cons.mp member with rfl | later
    · -- no more than a carriage return was taken off
      obtain ⟨after, -, split⟩ := exists_chomp m
      rw [split] at inside
      exact fun kept => inside (List.mem_append_left after kept)
    · exact ih later

/-- The text leaves no line open. -/
def Closed (cs : List Char) : Prop :=
  cs = [] ∨ cs.getLast? = some '\n'

instance (cs : List Char) : Decidable (Closed cs) :=
  inferInstanceAs (Decidable (_ ∨ _))

theorem closed_iff_of_not_mem {l : List Char} (inside : '\n' ∉ l) : Closed l ↔ l = [] := by
  constructor
  · rintro (empty | ends)
    · exact empty
    · exact absurd (List.mem_of_getLast? ends) inside
  · exact Or.inl

theorem closed_append_newline_iff {l rest : List Char} :
    Closed (l ++ '\n' :: rest) ↔ Closed rest := by
  unfold Closed
  cases rest with
  | nil => simp
  | cons c rest => simp [List.getLast?_append, List.getLast?_cons]

theorem lines_append {cs : List Char} (closed : Closed cs) (ds : List Char) :
    lines (cs ++ ds) = lines cs ++ lines ds := by
  induction cs using induction_lines with
  | last l inside =>
    obtain rfl : l = [] := (closed_iff_of_not_mem inside).mp closed
    rfl
  | ended l rest inside ih =>
    rw [List.append_assoc, List.cons_append, lines_append_newline inside,
      lines_append_newline inside, ih (closed_append_newline_iff.mp closed)]
    rfl

/-- There is a line for each line feed, and one more that is left open if there is one. -/
theorem length_lines (cs : List Char) :
    (lines cs).length = cs.count '\n' + if Closed cs then 0 else 1 := by
  induction cs using induction_lines with
  | last l inside =>
    rw [List.count_eq_zero.mpr inside]
    by_cases empty : l = []
    · subst empty
      rfl
    · have opened : ¬Closed l := fun closed => empty ((closed_iff_of_not_mem inside).mp closed)
      simp [lines_of_not_mem inside empty, opened]
  | ended l rest inside ih =>
    rw [lines_append_newline inside, List.length_cons, ih, List.count_append, List.count_cons_self,
      List.count_eq_zero.mpr inside]
    simp only [closed_append_newline_iff]
    omega

/-! ### Other ends of lines -/

/-- The text with a carriage return put before each line feed. -/
def withReturns (cs : List Char) : List Char :=
  cs.flatMap fun c => if c = '\n' then ['\r', '\n'] else [c]

theorem withReturns_of_not_mem {l : List Char} (inside : '\n' ∉ l) : withReturns l = l := by
  induction l with
  | nil => rfl
  | cons c l ih =>
    have here : c ≠ '\n' := Ne.symm (List.ne_of_not_mem_cons inside)
    have tail : '\n' ∉ l := List.not_mem_of_not_mem_cons inside
    rw [withReturns, List.flatMap_cons, if_neg here, ← withReturns, ih tail]
    rfl

theorem withReturns_append_newline {l : List Char} (inside : '\n' ∉ l) (rest : List Char) :
    withReturns (l ++ '\n' :: rest) = (l ++ ['\r']) ++ '\n' :: withReturns rest := by
  have before : l.flatMap (fun c => if c = '\n' then ['\r', '\n'] else [c]) = l :=
    withReturns_of_not_mem inside
  rw [withReturns, List.flatMap_append, before, List.flatMap_cons, if_pos rfl, ← withReturns,
    List.append_assoc]
  rfl

theorem chomp_append_return (l : List Char) : chomp (l ++ ['\r']) = l := by
  rw [chomp, List.getLast?_concat, if_pos rfl, List.dropLast_concat]

section

variable {β : Type} {f : List Char → β}

/-- What is said of lines is said of them in the text with carriage returns, if it does not depend
on one at the end of a line. -/
theorem map_lines_withReturns (chomps : ∀ l, f (chomp l) = f l) (cs : List Char) :
    (lines (withReturns cs)).map f = (lines cs).map f := by
  induction cs using induction_lines with
  | last l inside => rw [withReturns_of_not_mem inside]
  | ended l rest inside ih =>
    have inside' : '\n' ∉ l ++ ['\r'] := by
      intro member
      rcases List.mem_append.mp member with old | new
      · exact inside old
      · exact absurd (List.mem_singleton.mp new) (by decide)
    -- of two carriage returns at the end of a line one stays, which the other text has there too
    rw [withReturns_append_newline inside, lines_append_newline inside', chomp_append_return,
      lines_append_newline inside, List.map_cons, List.map_cons, chomps, ih]

/-- A line that was left open may as well be ended. -/
theorem map_lines_newline (chomps : ∀ l, f (chomp l) = f l) {cs : List Char}
    (opened : ¬Closed cs) : (lines (cs ++ ['\n'])).map f = (lines cs).map f := by
  induction cs using induction_lines with
  | last l inside =>
    have nonempty : l ≠ [] := fun empty => opened (Or.inl empty)
    rw [lines_append_newline inside, lines_of_not_mem inside nonempty, lines_nil, List.map_cons,
      List.map_cons, chomps]
  | ended l rest inside ih =>
    have opened' : ¬Closed rest := fun closed => opened (closed_append_newline_iff.mpr closed)
    rw [List.append_assoc, List.cons_append, lines_append_newline inside,
      lines_append_newline inside, List.map_cons, List.map_cons, ih opened']

end

/-! ### The texts between the line feeds -/

theorem splitOn_append_newline {l : List Char} (inside : '\n' ∉ l) (rest : List Char) :
    (l ++ '\n' :: rest).splitOn '\n' = l :: rest.splitOn '\n' := by
  have cut := List.splitOnP_append_cons (p := (· == '\n')) l rest (beq_self_eq_true '\n')
  rw [List.splitOn, cut, ← List.splitOn, ← List.splitOn, List.splitOn_eq_singleton inside]
  rfl

/-- What is said of the lines with their numbers can be said of the texts between the line feeds, if
it does not depend on a carriage return at the end and nothing is said of an empty text. -/
theorem filterMap_zipIdx_lines {β : Type} {f : List Char × Nat → Option β}
    (chomps : ∀ l n, f (chomp l, n) = f (l, n)) (nothing : ∀ n, f ([], n) = none) (cs : List Char)
    (n : Nat) : ((lines cs).zipIdx n).filterMap f = ((cs.splitOn '\n').zipIdx n).filterMap f := by
  induction cs using induction_lines generalizing n with
  | last l inside =>
    rw [List.splitOn_eq_singleton inside]
    by_cases empty : l = []
    · -- the text after the last line feed is no line when it is empty
      simp [empty, nothing]
    · rw [lines_of_not_mem inside empty]
  | ended l rest inside ih =>
    rw [lines_append_newline inside, splitOn_append_newline inside, List.zipIdx_cons,
      List.zipIdx_cons, List.filterMap_cons, List.filterMap_cons, chomps, ih]

end ModalKeys.Text
