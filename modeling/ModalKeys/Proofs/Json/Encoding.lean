import Mathlib.Data.List.Basic
import ModalKeys.Job
import ModalKeys.Proofs.Directive.Interpretation
import ModalKeys.Proofs.Json.Text

/-!
Reports can be told from their JSON texts. The texts are unambiguous, so it is the layout of each
record that has to be. Fields keep their order and their names. The keys `rhs` stand last in a
request, and a request without them has no field more; what a diagnostic says besides its line
begins with its kind.
-/

namespace ModalKeys

theorem Operation.name_injective : Function.Injective Operation.name := by
  intro o p
  cases o <;> cases p <;> decide

theorem Request.toJson_injective : Function.Injective Request.toJson := by
  rintro ⟨operation, scope, lhs, rhs⟩ ⟨operation', scope', lhs', rhs'⟩ same
  simp only [toJson, Json.obj.injEq, List.cons_append, List.nil_append, List.cons.injEq,
    Prod.mk.injEq, Json.str.injEq, true_and] at same
  obtain ⟨operations, scopes, rfl, rest⟩ := same
  obtain rfl := Operation.name_injective operations
  obtain rfl := Scope.name_injective scopes
  -- with the keys there is one field more
  cases rhs with
  | none =>
    cases rhs' with
    | none => rfl
    | some rhs' => cases rest
  | some rhs =>
    cases rhs' with
    | none => cases rest
    | some rhs' =>
      cases rest
      rfl

theorem Fault.jsonFields_injective : Function.Injective Fault.jsonFields := by
  intro e f same
  rcases e with _ | _ | _ | _ <;> rcases f with _ | _ | _ | _ <;>
    simp [jsonFields] at same ⊢ <;> exact same

theorem Diagnostic.toJson_injective : Function.Injective Diagnostic.toJson := by
  rintro ⟨lineNumber, line, fault⟩ ⟨lineNumber', line', fault'⟩ same
  simp only [toJson, Json.obj.injEq, List.cons_append, List.nil_append, List.cons.injEq,
    Prod.mk.injEq, Json.num.injEq, Json.str.injEq, true_and] at same
  obtain ⟨rfl, rfl, faults⟩ := same
  obtain rfl := Fault.jsonFields_injective faults
  rfl

theorem Mapping.toJson_injective : Function.Injective Mapping.toJson := by
  rintro ⟨mode, lhs, rhs⟩ ⟨mode', lhs', rhs'⟩ same
  simp only [toJson, Json.obj.injEq, List.cons.injEq, Prod.mk.injEq, Json.str.injEq, true_and,
    and_true] at same
  obtain ⟨modes, rfl, rfl⟩ := same
  obtain rfl := Mode.name_injective modes
  rfl

theorem Interpretation.toJson_injective : Function.Injective Interpretation.toJson := by
  rintro ⟨requests, diagnostics, lineCount⟩ ⟨requests', diagnostics', lineCount'⟩ same
  simp only [toJson, Json.obj.injEq, List.cons.injEq, Prod.mk.injEq, Json.arr.injEq,
    Json.num.injEq, true_and, and_true] at same
  obtain ⟨listed, told, rfl⟩ := same
  obtain rfl := List.map_injective_iff.mpr Request.toJson_injective listed
  obtain rfl := List.map_injective_iff.mpr Diagnostic.toJson_injective told
  rfl

theorem Report.toJson_injective : Function.Injective Report.toJson := by
  rintro ⟨path, lineCount, applied, diagnostics⟩ ⟨path', lineCount', applied', diagnostics'⟩ same
  simp only [toJson, Json.obj.injEq, List.cons.injEq, Prod.mk.injEq, Json.arr.injEq,
    Json.num.injEq, Json.str.injEq, true_and, and_true] at same
  obtain ⟨rfl, rfl, listed, told⟩ := same
  obtain rfl := List.map_injective_iff.mpr Request.toJson_injective listed
  obtain rfl := List.map_injective_iff.mpr Diagnostic.toJson_injective told
  rfl

theorem Mapping.arr_map_toJson_inj {ms ns : List Mapping} :
    Json.arr (ms.map toJson) = .arr (ns.map toJson) ↔ ms = ns := by
  rw [Json.arr.injEq]
  exact (List.map_injective_iff.mpr toJson_injective).eq_iff

theorem Job.loadedJson_inj {r s : Report} {k m : Keymap} :
    loadedJson r k = loadedJson s m ↔ r = s ∧ k.mappings = m.mappings := by
  simp only [loadedJson, Json.obj.injEq, List.cons.injEq, Prod.mk.injEq, true_and, and_true]
  exact and_congr Report.toJson_injective.eq_iff Mapping.arr_map_toJson_inj

/-- **A report can be told from its JSON text**, from the one on a single line as from the indented
one, whatever its strings are. So can an interpretation, a list of mappings, and what loading
prints: the report and the mappings in their order. -/
theorem json_texts_determine_reports :
    (∀ r s : Report, (r.toJson.compact = s.toJson.compact ↔ r = s) ∧
      (r.toJson.pretty = s.toJson.pretty ↔ r = s)) ∧
    (∀ i j : Interpretation, (i.toJson.compact = j.toJson.compact ↔ i = j) ∧
      (i.toJson.pretty = j.toJson.pretty ↔ i = j)) ∧
    (∀ ms ns : List Mapping,
      ((Json.arr (ms.map Mapping.toJson)).compact = (Json.arr (ns.map Mapping.toJson)).compact ↔
        ms = ns) ∧
      ((Json.arr (ms.map Mapping.toJson)).pretty = (Json.arr (ns.map Mapping.toJson)).pretty ↔
        ms = ns)) ∧
    ∀ (r s : Report) (k m : Keymap), (Job.loadedJson r k).pretty = (Job.loadedJson s m).pretty ↔
      r = s ∧ k.mappings = m.mappings := by
  refine ⟨fun r s => ?_, fun i j => ?_, fun ms ns => ?_, fun r s k m => ?_⟩
  · rw [Json.compact_inj, Json.pretty_inj, and_self]
    exact Report.toJson_injective.eq_iff
  · rw [Json.compact_inj, Json.pretty_inj, and_self]
    exact Interpretation.toJson_injective.eq_iff
  · rw [Json.compact_inj, Json.pretty_inj, and_self]
    exact Mapping.arr_map_toJson_inj
  · rw [Json.pretty_inj]
    exact Job.loadedJson_inj

end ModalKeys
