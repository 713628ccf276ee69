import Mathlib.Data.List.Forall2
import ModalKeys.Proofs.Engine
import ModalKeys.Proofs.Keymap.Grouping
import ModalKeys.Proofs.Keymap.History

/-!
# Default modes

A binding without a mode goes to each of the default modes. It makes no difference in which order
they are listed or how often, except to the order in which mappings of different modes are stored.

## Main result

`trace_of_same_default_modes`: two keymaps with the same default modes, in whatever order, show the
same after each action of a run. If the lists of default modes differ in later repeats alone, even
the stored mappings are the same.

## Proof strategy

`Alike` relates two keymaps that store the same mappings for each mode, in the same order. An action
is the same edit in some modes, or it does not depend on the default modes (`Action.edits_cases`).
An edit of one mode leaves the others alone and making it twice is making it once, so the mappings
of a mode only show whether the mode is among those meant (`Uniform.inMode_editAll`). Repeats can be
dropped for the same reason: in a mode in which the edit was made, nothing is left for it to do
(`Uniform.edit_of_mem`).
-/

namespace ModalKeys.Keymap

variable {k k' : Keymap} {mode : Mode}

/-! ### The mappings of one mode -/

/-- What an edit does to the mappings of a mode depends on those mappings alone. -/
theorem inMode_edit_congr (same : inMode k.mappings mode = inMode k'.mappings mode) (e : Edit) :
    inMode (k.edit e).mappings mode = inMode (k'.edit e).mappings mode := by
  cases e with
  | insert m =>
    have left := inMode_place m k.mappings mode
    rw [same] at left
    exact left.trans (inMode_place m k'.mappings mode).symm
  | remove mode' lhs =>
    have left := inMode_filter (fun m => !m.isFor mode' lhs) k.mappings mode
    rw [same] at left
    exact left.trans (inMode_filter _ k'.mappings mode).symm
  | clear => rfl

theorem inMode_editAll_congr (same : inMode k.mappings mode = inMode k'.mappings mode)
    (es : List Edit) :
    inMode (k.editAll es).mappings mode = inMode (k'.editAll es).mappings mode :=
  editAll_congr (f := fun k => inMode k.mappings mode) (fun e same => inMode_edit_congr same e)
    same es

theorem remove_answer_eq (k : Keymap) (mode : Mode) (lhs : String) :
    (k.remove mode lhs).2 = (k.lookup mode lhs).isSome := by
  rw [Bool.eq_iff_iff, remove_answer_iff, lookup, Option.isSome_map, List.find?_isSome,
    List.mem_map]
  simp only [Mapping.isFor_iff]

/-! ### The same edit in some modes -/

/-- The edit that binds or unbinds the same keys, in any mode. -/
inductive Uniform : (Mode → Edit) → Prop where
  | bind (lhs rhs : String) : Uniform fun mode => .insert ⟨mode, lhs, rhs⟩
  | unbind (lhs : String) : Uniform fun mode => .remove mode lhs

theorem Action.edits_cases (a : Action) :
    (∃ f scope, Uniform f ∧ ∀ defaults, a.edits defaults = (meant defaults scope).map f) ∨
      ∃ es, ∀ defaults, a.edits defaults = es := by
  cases a with
  | bind lhs rhs scope => exact Or.inl ⟨_, scope, .bind lhs rhs, fun _ => rfl⟩
  | unbind lhs scope => exact Or.inl ⟨_, scope, .unbind lhs, fun _ => rfl⟩
  | insert m => exact Or.inr ⟨[.insert m], fun _ => rfl⟩
  | remove mode lhs => exact Or.inr ⟨[.remove mode lhs], fun _ => rfl⟩
  | clear => exact Or.inr ⟨[.clear], fun _ => rfl⟩
  | apply r =>
    obtain ⟨operation, scope, lhs, rhs⟩ := r
    cases operation with
    | unbind => exact Or.inl ⟨_, scope.mode?, .unbind lhs, fun _ => rfl⟩
    | bind =>
      cases rhs with
      | none => exact Or.inr ⟨[], fun _ => rfl⟩
      | some rhs => exact Or.inl ⟨_, scope.mode?, .bind lhs rhs, fun _ => rfl⟩

namespace Uniform

variable {f : Mode → Edit}

theorem inMode_of_ne (uniform : Uniform f) (k : Keymap) {first : Mode} (apart : first ≠ mode) :
    inMode (k.edit (f first)).mappings mode = inMode k.mappings mode := by
  cases uniform with
  | bind lhs rhs => exact (inMode_place _ k.mappings mode).trans (if_neg apart)
  | unbind lhs =>
    refine (inMode_filter _ k.mappings mode).trans (List.filter_eq_self.mpr fun m member => ?_)
    have here : m.mode = mode := by simpa using (List.mem_filter.mp member).2
    have other : (m.mode == first) = false := by simpa [here] using Ne.symm apart
    simp [Mapping.isFor, other]

/-- In a mode in which the edit was made, it has nothing left to do. -/
theorem edit_of_mem (uniform : Uniform f) (k : Keymap) {modes : List Mode} (member : mode ∈ modes) :
    (k.editAll (modes.map f)).edit (f mode) = k.editAll (modes.map f) := by
  cases uniform with
  | bind lhs rhs =>
    apply insert_of_lookup
    exact (lookup_bindEdits k modes lhs rhs none mode lhs).trans (if_pos ⟨member, rfl⟩)
  | unbind lhs =>
    apply remove_of_lookup
    exact (lookup_unbindEdits k modes lhs none mode lhs).trans (if_pos ⟨member, rfl⟩)

theorem edit_twice (uniform : Uniform f) (k : Keymap) (mode : Mode) :
    (k.edit (f mode)).edit (f mode) = k.edit (f mode) :=
  uniform.edit_of_mem k (List.mem_singleton.mpr rfl : mode ∈ [mode])

theorem inMode_editAll (uniform : Uniform f) (k : Keymap) (modes : List Mode) (mode : Mode) :
    inMode (k.editAll (modes.map f)).mappings mode =
      if mode ∈ modes then inMode (k.edit (f mode)).mappings mode else inMode k.mappings mode := by
  induction modes generalizing k with
  | nil => simp
  | cons first rest ih =>
    rw [List.map_cons, editAll, List.foldl_cons]
    refine (ih (k.edit (f first))).trans ?_
    by_cases here : first = mode
    · -- whether the edit is made in this mode once more later on or not, the result is the same
      subst here
      rw [uniform.edit_twice, ite_self, if_pos List.mem_cons_self]
    · -- the first edit is not seen in this mode
      have unseen := uniform.inMode_of_ne k here
      rw [inMode_edit_congr unseen, unseen]
      simp [Ne.symm here]

theorem editAll_eraseDups (uniform : Uniform f) (k : Keymap) (modes : List Mode) :
    k.editAll (modes.eraseDups.map f) = k.editAll (modes.map f) := by
  -- a mode is kept where it comes first, so whether the last one stays depends on those before it
  induction modes using List.reverseRecOn with
  | nil => rfl
  | append_singleton modes last ih =>
    rw [List.eraseDups_append, List.map_append, List.map_append, editAll_append, editAll_append, ih]
    by_cases repeated : last ∈ modes
    · have gone : [last].removeAll modes = [] := by simp [List.removeAll, repeated]
      rw [gone]
      exact (uniform.edit_of_mem k repeated).symm
    · have kept : [last].removeAll modes = [last] := by simp [List.removeAll, repeated]
      rw [kept]
      rfl

end Uniform

/-! ### Two keymaps side by side -/

theorem mem_meant_congr {defaults defaults' : List Mode}
    (same : ∀ mode, mode ∈ defaults ↔ mode ∈ defaults') (scope : Option Mode) (mode : Mode) :
    mode ∈ meant defaults scope ↔ mode ∈ meant defaults' scope := by
  cases scope with
  | none => exact same mode
  | some named => exact Iff.rfl

/-- The same default modes, and in each mode the same mappings in the same order. -/
structure Alike (k k' : Keymap) : Prop where
  modes : ∀ mode, mode ∈ k.defaultModes ↔ mode ∈ k'.defaultModes
  parts : ∀ mode, inMode k.mappings mode = inMode k'.mappings mode

namespace Alike

theorem byMode (alike : Alike k k') : byMode k.mappings = byMode k'.mappings := by
  simp only [Keymap.byMode, alike.parts]

theorem lookup (alike : Alike k k') (mode : Mode) (lhs : String) :
    k.lookup mode lhs = k'.lookup mode lhs := by
  rw [lookup_eq_inMode, lookup_eq_inMode, alike.parts]

theorem length (alike : Alike k k') : k.mappings.length = k'.mappings.length := by
  rw [← length_byMode, alike.byMode, length_byMode]

theorem render (alike : Alike k k') : k.render = k'.render := by
  rw [Keymap.render, Keymap.render, grouped_eq_byMode, grouped_eq_byMode, alike.byMode]

/-- An action keeps two keymaps alike. -/
theorem perform (alike : Alike k k') (a : Action) : Alike (k.perform a).1 (k'.perform a).1 := by
  rw [perform_eq_editAll, perform_eq_editAll]
  refine ⟨fun mode => ?_, fun mode => ?_⟩
  · rw [defaultModes_editAll, defaultModes_editAll]
    exact alike.modes mode
  · rcases a.edits_cases with ⟨f, scope, uniform, edits⟩ | ⟨es, edits⟩
    · -- both keymaps make the edit in this mode, or neither does
      rw [edits, edits, uniform.inMode_editAll, uniform.inMode_editAll]
      simp only [mem_meant_congr alike.modes scope mode, alike.parts mode,
        inMode_edit_congr (alike.parts mode)]
    · rw [edits, edits]
      exact inMode_editAll_congr (alike.parts mode) es

theorem answer (alike : Alike k k') (a : Action) : (k.perform a).2 = (k'.perform a).2 := by
  cases a with
  | remove mode lhs =>
    simp only [Keymap.perform, remove_answer_eq, alike.lookup]
  | apply r => simp only [Keymap.perform, Engine.answer_dispatch]
  | bind lhs rhs scope => rfl
  | unbind lhs scope => rfl
  | insert m => rfl
  | clear => rfl

end Alike

/-! ### A run -/

/-- The keymap after each action of a run, with the answer of the action. -/
def trace (k : Keymap) : List Action → List (Keymap × Option Bool)
  | [] => []
  | a :: as => k.perform a :: (k.perform a).1.trace as

theorem Alike.trace (alike : Alike k k') (as : List Action) :
    List.Forall₂ (fun p q : Keymap × Option Bool => Alike p.1 q.1 ∧ p.2 = q.2)
      (k.trace as) (k'.trace as) := by
  induction as generalizing k k' with
  | nil => exact .nil
  | cons a as ih => exact .cons ⟨alike.perform a, alike.answer a⟩ (ih (alike.perform a))

/-- Default modes that differ in repeats alone are meant alike. -/
theorem editAll_edits_congr (k : Keymap) {defaults defaults' : List Mode}
    (same : defaults.eraseDups = defaults'.eraseDups) (a : Action) :
    k.editAll (a.edits defaults) = k.editAll (a.edits defaults') := by
  rcases a.edits_cases with ⟨f, scope, uniform, edits⟩ | ⟨es, edits⟩
  · have meant : (meant defaults scope).eraseDups = (meant defaults' scope).eraseDups := by
      cases scope with
      | none => exact same
      | some named => rfl
    rw [edits, edits, ← uniform.editAll_eraseDups, meant, uniform.editAll_eraseDups]
  · rw [edits, edits]

theorem mappings_trace_congr (modes : k.defaultModes.eraseDups = k'.defaultModes.eraseDups)
    (same : k.mappings = k'.mappings) (as : List Action) :
    (k.trace as).map (fun p => p.1.mappings) = (k'.trace as).map fun p => p.1.mappings := by
  induction as generalizing k k' with
  | nil => rfl
  | cons a as ih =>
    have after : (k.perform a).1.mappings = (k'.perform a).1.mappings := by
      rw [perform_eq_editAll, perform_eq_editAll, editAll_edits_congr k modes]
      exact mappings_editAll_congr same _
    have modes' : (k.perform a).1.defaultModes.eraseDups =
        (k'.perform a).1.defaultModes.eraseDups := by
      rw [perform_eq_editAll, perform_eq_editAll, defaultModes_editAll, defaultModes_editAll, modes]
    rw [trace, trace, List.map_cons, List.map_cons, after, ih modes' after]

/-- **Default modes matter as a set.** With the same default modes, listed in any order and any
number of times, two keymaps show the same after each action of a run: the same lookups, the same
number of mappings, the same file, and the same answers. With lists that are the same up to later
repeats, they store the same mappings in the same order. -/
theorem trace_of_same_default_modes (as : List Action) :
    (∀ defaults defaults' : List Mode, (∀ mode, mode ∈ defaults ↔ mode ∈ defaults') →
      List.Forall₂ (fun p q : Keymap × Option Bool =>
          (∀ mode lhs, p.1.lookup mode lhs = q.1.lookup mode lhs) ∧
          p.1.mappings.length = q.1.mappings.length ∧ p.1.render = q.1.render ∧ p.2 = q.2)
        ((empty defaults).trace as) ((empty defaults').trace as)) ∧
    ∀ defaults defaults' : List Mode, defaults.eraseDups = defaults'.eraseDups →
      ((empty defaults).trace as).map (fun p => p.1.mappings) =
        ((empty defaults').trace as).map fun p => p.1.mappings := by
  refine ⟨fun defaults defaults' same => ?_, fun defaults defaults' same => ?_⟩
  · have start : Alike (empty defaults) (empty defaults') := ⟨same, fun _ => rfl⟩
    refine (start.trace as).imp ?_
    rintro p q ⟨alike, answers⟩
    exact ⟨alike.lookup, alike.length, alike.render, answers⟩
  · have modes : (empty defaults).defaultModes.eraseDups =
        (empty defaults').defaultModes.eraseDups := same
    exact mappings_trace_congr modes rfl as

theorem trace_of_same_default_modes_reordered :
    let as : List Action := [.bind "a" "1" none, .remove .visual "a", .bind "a" "2" none]
    let one : List Mode := [.visual, .normal, .visual]
    let other : List Mode := [.normal, .visual]
    ((∀ mode, mode ∈ one ↔ mode ∈ other) ∧
      List.Forall₂ (fun p q : Keymap × Option Bool => p.1.render = q.1.render ∧ p.2 = q.2)
        ((empty one).trace as) ((empty other).trace as) ∧
      ((empty one).trace as).map (fun p => p.1.mappings) ≠
        ((empty other).trace as).map fun p => p.1.mappings) ∧
    one.eraseDups = [Mode.visual, .normal].eraseDups ∧
      ((empty one).trace as).map (fun p => p.1.mappings) =
        ((empty [.visual, .normal]).trace as).map fun p => p.1.mappings := by
  intro as one other
  obtain ⟨shown, stored⟩ := trace_of_same_default_modes as
  have same : ∀ mode, mode ∈ one ↔ mode ∈ other := by
    intro mode
    cases mode <;> decide
  have dropped : one.eraseDups = [Mode.visual, .normal].eraseDups := by decide
  refine ⟨⟨same, (shown one other same).imp ?_, by decide⟩, dropped, stored one _ dropped⟩
  rintro p q ⟨-, -, file, answer⟩
  exact ⟨file, answer⟩

end ModalKeys.Keymap
