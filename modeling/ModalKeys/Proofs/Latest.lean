import Mathlib.Data.List.Induction

/-!
In a history the latest element that matters decides. `Latest P xs x` says that `x` has the property
`P` and that no element of `xs` after it has.
-/

namespace ModalKeys

variable {α : Type} {P : α → Prop} {xs : List α} {x y : α}

/-- The last element of a list with a property. -/
def Latest (P : α → Prop) (xs : List α) (x : α) : Prop :=
  ∃ before after, xs = before ++ x :: after ∧ P x ∧ ∀ y ∈ after, ¬P y

theorem Latest.holds (latest : Latest P xs x) : P x := by
  obtain ⟨_, _, _, holds, _⟩ := latest
  exact holds

theorem Latest.mem (latest : Latest P xs x) : x ∈ xs := by
  obtain ⟨before, after, rfl, _, _⟩ := latest
  simp

@[simp] theorem not_latest_nil : ¬Latest P [] x := fun latest => by simpa using latest.mem

theorem Latest.append_left (latest : Latest P xs x) (ys : List α) : Latest P (ys ++ xs) x := by
  obtain ⟨before, after, rfl, holds, unmet⟩ := latest
  exact ⟨ys ++ before, after, by simp, holds, unmet⟩

/-- An element with the property is the latest one as soon as it is there. -/
theorem latest_concat_of_pos (holds : P y) : Latest P (xs ++ [y]) x ↔ x = y := by
  constructor
  · rintro ⟨before, after, split, -, unmet⟩
    rcases List.eq_nil_or_concat after with rfl | ⟨front, last, rfl⟩
    · have same : [y] = [x] := (List.append_inj' split rfl).2
      exact (List.cons.inj same).1.symm
    · -- then `y` comes after `x`, and it has the property
      have split' : xs ++ [y] = (before ++ x :: front) ++ [last] := by simpa using split
      have same : [y] = [last] := (List.append_inj' split' rfl).2
      cases same
      exact absurd holds (unmet y (by simp))
  · rintro rfl
    exact ⟨xs, [], rfl, holds, by simp⟩

/-- An element without the property changes nothing. -/
theorem latest_concat_of_neg (fails : ¬P y) : Latest P (xs ++ [y]) x ↔ Latest P xs x := by
  constructor
  · rintro ⟨before, after, split, holds, unmet⟩
    rcases List.eq_nil_or_concat after with rfl | ⟨front, last, rfl⟩
    · have same : [y] = [x] := (List.append_inj' split rfl).2
      cases same
      contradiction
    · have split' : xs ++ [y] = (before ++ x :: front) ++ [last] := by simpa using split
      exact ⟨before, front, (List.append_inj' split' rfl).1, holds, fun z member =>
        unmet z (by simp [member])⟩
  · rintro ⟨before, after, rfl, holds, unmet⟩
    refine ⟨before, after ++ [y], by simp, holds, fun z member => ?_⟩
    rcases List.mem_append.mp member with inside | last
    · exact unmet z inside
    · exact List.mem_singleton.mp last ▸ fails

/-- The later part of a history decides, unless nothing in it has the property. -/
theorem latest_append_iff {ys : List α} :
    Latest P (xs ++ ys) x ↔ Latest P ys x ∨ Latest P xs x ∧ ∀ y ∈ ys, ¬P y := by
  induction ys using List.reverseRecOn with
  | nil => simp
  | append_singleton ys y ih =>
    rw [← List.append_assoc]
    by_cases last : P y
    · rw [latest_concat_of_pos last, latest_concat_of_pos last]
      constructor
      · exact Or.inl
      · rintro (equal | ⟨-, unmet⟩)
        · exact equal
        · exact absurd last (unmet y (by simp))
    · rw [latest_concat_of_neg last, latest_concat_of_neg last, ih]
      simp [or_imp, forall_and, last]

theorem exists_latest_iff : (∃ x, Latest P xs x) ↔ ∃ x ∈ xs, P x := by
  constructor
  · rintro ⟨x, latest⟩
    exact ⟨x, latest.mem, latest.holds⟩
  · rintro ⟨x, member, holds⟩
    -- from the end, where the latest element is met first
    induction xs using List.reverseRecOn with
    | nil => simp at member
    | append_singleton xs y ih =>
      by_cases last : P y
      · exact ⟨y, (latest_concat_of_pos last).mpr rfl⟩
      · have inside : x ∈ xs := by
          rcases List.mem_append.mp member with inside | here
          · exact inside
          · exact absurd (List.mem_singleton.mp here ▸ holds) last
        obtain ⟨z, latest⟩ := ih inside
        exact ⟨z, (latest_concat_of_neg last).mpr latest⟩

end ModalKeys
