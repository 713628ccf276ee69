import ModalKeys.Proofs.Directive.Interpretation
import ModalKeys.Proofs.Keymap.Edits
import ModalKeys.Proofs.Latest

/-!
# The meaning of a directive file

What keys stand for in a mode, once a directive file has been read into an empty keymap, is said by
one line of the file: the last one that is effective for them. Each line is read as the edits it
stands for. A line that is not effective leaves the lookup alone (`lookup_lines_of_not_effective`),
so the lines after the last effective one do, and this one decides whatever was there before.
-/

namespace ModalKeys

open Keymap

/-- The mode is named, or it is one of the default modes and none is named. -/
def Scope.Covers (defaults : List Mode) (mode : Mode) : Scope → Prop
  | .only m => m = mode
  | .default => mode ∈ defaults

theorem Scope.covers_iff {defaults : List Mode} {mode : Mode} {scope : Scope} :
    scope.Covers defaults mode ↔ mode ∈ meant defaults scope.mode? := by
  cases scope with
  | only m => simp [Covers, meant, Scope.mode?, eq_comm]
  | default => rfl

namespace Line

/-- The words of the line bind `lhs` to `rhs` in a scope with the mode. -/
def Binds (defaults : List Mode) (mode : Mode) (lhs rhs : String) (line : List Char) : Prop :=
  ∃ scope : Scope, scope.Covers defaults mode ∧
    tokens line = [Command.keyword ⟨.bind, scope⟩, lhs, rhs]

/-- The words of the line unbind `lhs` in a scope with the mode. -/
def Unbinds (defaults : List Mode) (mode : Mode) (lhs : String) (line : List Char) : Prop :=
  ∃ scope : Scope, scope.Covers defaults mode ∧
    tokens line = [Command.keyword ⟨.unbind, scope⟩, lhs]

/-- The line decides what `lhs` stands for in the mode. -/
def Effective (defaults : List Mode) (mode : Mode) (lhs : String) (line : List Char) : Prop :=
  (∃ rhs, Binds defaults mode lhs rhs line) ∨ Unbinds defaults mode lhs line

/-- The edits that a line stands for. -/
def edits (defaults : List Mode) (line : List Char) : List Edit :=
  ((ofChars line).request?.map (requestEdits defaults)).getD []

variable {defaults : List Mode} {mode : Mode} {lhs : String} {line : List Char}

/-! ### One line -/

theorem edits_of_spelled {r : Request} (spelled : r.Spelled (tokens line)) :
    edits defaults line = requestEdits defaults r := by
  simp [edits, request?_eq_some_iff.mpr spelled]

theorem lookup_of_binds {rhs : String} (binds : Binds defaults mode lhs rhs line) (k : Keymap) :
    (k.editAll (edits defaults line)).lookup mode lhs = some rhs := by
  obtain ⟨scope, covers, words⟩ := binds
  have spelled : (Request.bind scope lhs rhs).Spelled (tokens line) := words ▸ .bind scope lhs rhs
  rw [edits_of_spelled spelled]
  refine (lookup_bindEdits k defaults lhs rhs scope.mode? mode lhs).trans (if_pos ⟨?_, rfl⟩)
  exact Scope.covers_iff.mp covers

theorem lookup_of_unbinds (unbinds : Unbinds defaults mode lhs line) (k : Keymap) :
    (k.editAll (edits defaults line)).lookup mode lhs = none := by
  obtain ⟨scope, covers, words⟩ := unbinds
  have spelled : (Request.unbind scope lhs).Spelled (tokens line) := words ▸ .unbind scope lhs
  rw [edits_of_spelled spelled]
  refine (lookup_unbindEdits k defaults lhs scope.mode? mode lhs).trans (if_pos ⟨?_, rfl⟩)
  exact Scope.covers_iff.mp covers

theorem lookup_of_not_effective (idle : ¬Effective defaults mode lhs line) (k : Keymap) :
    (k.editAll (edits defaults line)).lookup mode lhs = k.lookup mode lhs := by
  cases given : (ofChars line).request? with
  | none => simp [edits, given]
  | some r =>
    -- a request for other keys, or in a scope without the mode
    have spelled := request?_eq_some_iff.mp given
    rw [edits_of_spelled spelled]
    generalize words : tokens line = ts at spelled
    cases spelled with
    | bind scope lhs' rhs =>
      refine (lookup_bindEdits k defaults lhs' rhs scope.mode? mode lhs).trans (if_neg ?_)
      rintro ⟨covers, rfl⟩
      exact idle (Or.inl ⟨rhs, scope, Scope.covers_iff.mpr covers, words⟩)
    | unbind scope lhs' =>
      refine (lookup_unbindEdits k defaults lhs' scope.mode? mode lhs).trans (if_neg ?_)
      rintro ⟨covers, rfl⟩
      exact idle (Or.inr ⟨scope, Scope.covers_iff.mpr covers, words⟩)

/-! ### Many lines -/

theorem lookup_lines_of_not_effective {ls : List (List Char)}
    (idle : ∀ l ∈ ls, ¬Effective defaults mode lhs l) (k : Keymap) :
    (k.editAll (ls.flatMap (edits defaults))).lookup mode lhs = k.lookup mode lhs := by
  induction ls generalizing k with
  | nil => rfl
  | cons l ls ih =>
    have rest : ∀ m ∈ ls, ¬Effective defaults mode lhs m := fun m member =>
      idle m (List.mem_cons_of_mem l member)
    rw [List.flatMap_cons, editAll_append, ih rest]
    exact lookup_of_not_effective (idle l List.mem_cons_self) k

/-- Before the last effective line anything may have happened, and after it nothing matters. -/
theorem lookup_of_latest {ls : List (List Char)}
    (latest : Latest (Effective defaults mode lhs) ls line) (k : Keymap) :
    ∃ before : Keymap, (k.editAll (ls.flatMap (edits defaults))).lookup mode lhs =
      (before.editAll (edits defaults line)).lookup mode lhs := by
  obtain ⟨before, after, rfl, -, idle⟩ := latest
  refine ⟨k.editAll (before.flatMap (edits defaults)), ?_⟩
  rw [List.flatMap_append, List.flatMap_cons, editAll_append, editAll_append]
  exact lookup_lines_of_not_effective idle _

theorem idle_or_latest (defaults : List Mode) (mode : Mode) (lhs : String) (ls : List (List Char)) :
    (∀ l ∈ ls, ¬Effective defaults mode lhs l) ∨
      ∃ line, Latest (Effective defaults mode lhs) ls line := by
  by_cases effective : ∃ l ∈ ls, Effective defaults mode lhs l
  · exact Or.inr (exists_latest_iff.mpr effective)
  · exact Or.inl fun l member holds => effective ⟨l, member, holds⟩

section Loaded

/-- The keymap that comes of some lines when it was empty before. -/
def loaded (defaults : List Mode) (ls : List (List Char)) : Keymap :=
  (Keymap.empty defaults).editAll (ls.flatMap (edits defaults))

variable {ls : List (List Char)}

theorem lookup_loaded_of_idle (idle : ∀ l ∈ ls, ¬Effective defaults mode lhs l) :
    (loaded defaults ls).lookup mode lhs = none :=
  lookup_lines_of_not_effective idle (Keymap.empty defaults)

theorem lookup_loaded_of_binds {rhs : String}
    (latest : Latest (Effective defaults mode lhs) ls line)
    (binds : Binds defaults mode lhs rhs line) :
    (loaded defaults ls).lookup mode lhs = some rhs := by
  obtain ⟨before, same⟩ := lookup_of_latest latest (Keymap.empty defaults)
  exact same.trans (lookup_of_binds binds before)

theorem lookup_loaded_of_unbinds (latest : Latest (Effective defaults mode lhs) ls line)
    (unbinds : Unbinds defaults mode lhs line) : (loaded defaults ls).lookup mode lhs = none := by
  obtain ⟨before, same⟩ := lookup_of_latest latest (Keymap.empty defaults)
  exact same.trans (lookup_of_unbinds unbinds before)

theorem lookup_loaded_eq_some_iff {rhs : String} :
    (loaded defaults ls).lookup mode lhs = some rhs ↔
      ∃ line, Latest (Effective defaults mode lhs) ls line ∧ Binds defaults mode lhs rhs line := by
  constructor
  · intro found
    rcases idle_or_latest defaults mode lhs ls with idle | ⟨line, latest⟩
    · rw [lookup_loaded_of_idle idle] at found
      cases found
    · refine ⟨line, latest, ?_⟩
      -- whichever it does, the lookup shows it
      rcases latest.holds with ⟨rhs', binds⟩ | unbinds
      · rw [lookup_loaded_of_binds latest binds] at found
        cases found
        exact binds
      · rw [lookup_loaded_of_unbinds latest unbinds] at found
        cases found
  · rintro ⟨line, latest, binds⟩
    exact lookup_loaded_of_binds latest binds

theorem lookup_loaded_eq_none_iff :
    (loaded defaults ls).lookup mode lhs = none ↔
      (∀ l ∈ ls, ¬Effective defaults mode lhs l) ∨
        ∃ line, Latest (Effective defaults mode lhs) ls line ∧ Unbinds defaults mode lhs line := by
  constructor
  · intro missing
    rcases idle_or_latest defaults mode lhs ls with idle | ⟨line, latest⟩
    · exact Or.inl idle
    · rcases latest.holds with ⟨rhs, binds⟩ | unbinds
      · rw [lookup_loaded_of_binds latest binds] at missing
        cases missing
      · exact Or.inr ⟨line, latest, unbinds⟩
  · rintro (idle | ⟨line, latest, unbinds⟩)
    · exact lookup_loaded_of_idle idle
    · exact lookup_loaded_of_unbinds latest unbinds

theorem lookup_loaded_skip (idle : ¬Effective defaults mode lhs line)
    (before after : List (List Char)) :
    (loaded defaults (before ++ line :: after)).lookup mode lhs =
      (loaded defaults (before ++ after)).lookup mode lhs := by
  simp only [loaded, List.flatMap_append, List.flatMap_cons, editAll_append]
  exact lookup_editAll_congr (lookup_of_not_effective idle _) _

end Loaded

end Line

/-- Reading a file into an empty keymap makes the edits of its lines. -/
theorem applyAll_interpret_eq_loaded (defaults : List Mode) (text : String) :
    (Engine.applyAll (Keymap.empty defaults) (interpret text).requests).engine =
      Line.loaded defaults (Text.lines text.toList) := by
  rw [applyAll_eq_editAll, Interpretation.requests_interpret, Line.loaded]
  congr 1
  -- a line without a request has no edits, so it makes no difference that it is left out
  induction Text.lines text.toList with
  | nil => rfl
  | cons l ls ih =>
    rw [List.filterMap_cons, List.flatMap_cons, ← ih, Line.edits]
    cases (Line.ofChars l).request? <;> rfl

/-- **Meaning of a directive file**: after it was read into an empty keymap, keys stand in a mode
for what the last effective line binds them to, and for nothing exactly when that line unbinds them
or no line is effective. A line that is not effective may as well be left out. -/
theorem lookup_interpret (text : String) (defaults : List Mode) (mode : Mode) (lhs : String) :
    let k := fun text => (Engine.applyAll (Keymap.empty defaults) (interpret text).requests).engine
    let lines := Text.lines text.toList
    let effective := Line.Effective defaults mode lhs
    (∀ rhs, (k text).lookup mode lhs = some rhs ↔
      ∃ line, Latest effective lines line ∧ Line.Binds defaults mode lhs rhs line) ∧
    ((k text).lookup mode lhs = none ↔
      (∀ line ∈ lines, ¬effective line) ∨
        ∃ line, Latest effective lines line ∧ Line.Unbinds defaults mode lhs line) ∧
    ∀ before line after shorter, lines = before ++ line :: after → ¬effective line →
      Text.lines shorter.toList = before ++ after →
      (k text).lookup mode lhs = (k shorter).lookup mode lhs := by
  intro k lines effective
  have run : ∀ text, k text = Line.loaded defaults (Text.lines text.toList) :=
    applyAll_interpret_eq_loaded defaults
  refine ⟨fun rhs => ?_, ?_, fun before line after shorter split idle rest => ?_⟩
  · rw [run]
    exact Line.lookup_loaded_eq_some_iff
  · rw [run]
    exact Line.lookup_loaded_eq_none_iff
  · have whole : Text.lines text.toList = before ++ line :: after := split
    rw [run, run, whole, rest]
    exact Line.lookup_loaded_skip idle before after

end ModalKeys
