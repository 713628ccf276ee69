import ModalKeys.Proofs.Text.Words

/-! Trimming takes the blanks off both ends of a text, and it takes nothing else. -/

namespace ModalKeys.Text

/-! ### Blanks at the ends -/

theorem dropWhile_of_blanks {bs : List Char} (blanks : Blanks bs) : bs.dropWhile isBlank = [] := by
  have all : (bs ++ []).dropWhile isBlank = [].dropWhile isBlank :=
    List.dropWhile_append_of_pos blanks
  simpa using all

theorem trimEnd_append_blanks {bs : List Char} (blanks : Blanks bs) (cs : List Char) :
    trimEnd (cs ++ bs) = trimEnd cs := by
  induction cs with
  | cons c cs ih => rw [List.cons_append, trimEnd, ih, trimEnd]
  | nil =>
    -- nothing is left of a run of blanks, from its end on
    induction bs with
    | nil => rfl
    | cons b bs ih =>
      obtain ⟨blank, rest⟩ := blanks_cons_iff.mp blanks
      have nothing : trimEnd bs = [] := ih rest
      simp [trimEnd, nothing, blank]

theorem trim_blanks_append {bs : List Char} (blanks : Blanks bs) (cs : List Char) :
    trim (bs ++ cs) = trim cs := by
  rw [trim, List.dropWhile_append_of_pos blanks, trim]

theorem trim_append_blanks {bs : List Char} (blanks : Blanks bs) (cs : List Char) :
    trim (cs ++ bs) = trim cs := by
  rw [trim, trim, List.dropWhile_append]
  split
  · next all =>
    -- blanks all through
    rw [dropWhile_of_blanks blanks, List.isEmpty_iff.mp all]
  · exact trimEnd_append_blanks blanks _

/-! ### What trimming takes off -/

theorem exists_trimEnd (cs : List Char) : ∃ after, Blanks after ∧ cs = trimEnd cs ++ after := by
  induction cs with
  | nil => exact ⟨[], blanks_nil, rfl⟩
  | cons c cs ih =>
    obtain ⟨after, blanks, split⟩ := ih
    rw [trimEnd]
    cases kept : trimEnd cs with
    | cons d ds => exact ⟨after, blanks, by rw [kept] at split; simp [split]⟩
    | nil =>
      -- the text after `c` is blank, and `c` is kept or goes with it
      obtain rfl : cs = after := by simpa [kept] using split
      cases blank : isBlank c with
      | true => exact ⟨c :: cs, blanks_cons_iff.mpr ⟨blank, blanks⟩, by simp⟩
      | false => exact ⟨cs, blanks, by simp⟩

theorem exists_trim (cs : List Char) :
    ∃ before after, Blanks before ∧ Blanks after ∧ cs = before ++ trim cs ++ after := by
  obtain ⟨after, blanks, split⟩ := exists_trimEnd (cs.dropWhile isBlank)
  refine ⟨cs.takeWhile isBlank, after, ?_, blanks, ?_⟩
  · exact List.all_eq_true.mp List.all_takeWhile
  · calc
      cs = cs.takeWhile isBlank ++ cs.dropWhile isBlank := List.takeWhile_append_dropWhile.symm
      _ = cs.takeWhile isBlank ++ (trim cs ++ after) := congrArg _ split
      _ = cs.takeWhile isBlank ++ trim cs ++ after := (List.append_assoc _ _ _).symm

theorem words_trim (cs : List Char) : words (trim cs) = words cs := by
  obtain ⟨before, after, ahead, behind, split⟩ := exists_trim cs
  conv => rhs; rw [split]
  rw [words_append_blanks behind, words_blanks_append ahead]

theorem trim_trim (cs : List Char) : trim (trim cs) = trim cs := by
  obtain ⟨before, after, ahead, behind, split⟩ := exists_trim cs
  conv => rhs; rw [split]
  rw [trim_append_blanks behind, trim_blanks_append ahead]

theorem mem_of_mem_trim {c : Char} {cs : List Char} (member : c ∈ trim cs) : c ∈ cs := by
  obtain ⟨before, after, -, -, split⟩ := exists_trim cs
  rw [split]
  simp [member]

theorem all_isBlank_trim (cs : List Char) : (trim cs).all isBlank = cs.all isBlank := by
  obtain ⟨before, after, ahead, behind, split⟩ := exists_trim cs
  have first : before.all isBlank = true := List.all_eq_true.mpr ahead
  have last : after.all isBlank = true := List.all_eq_true.mpr behind
  conv => rhs; rw [split]
  simp [first, last]

end ModalKeys.Text

/-- A text is not made blank by dropping the blanks around it. -/
theorem ModalKeys.blank_trimmed (s : String) : blank (trimmed s) = blank s := by
  rw [blank, trimmed, String.toList_ofList, Text.all_isBlank_trim]
  rfl
