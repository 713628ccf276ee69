import ModalKeys.Engine
import ModalKeys.Proofs.Directive.Interpretation

/-!
# Passing requests on

Requests can be passed on in two ways, one that counts them and one that keeps them. Both leave the
engine in the same state, whatever engine it is, and both answer for the complete requests alone: an
engine that was passed requests is one that got their calls (`engine_applyAll`). An engine with a
record of its calls (`Observed`) is an engine too, so the same lemma says what is recorded.
-/

namespace ModalKeys

/-- Something with a record of what was asked of it. -/
structure Observed (α κ : Type) where
  inner : α
  asked : List κ

instance {σ : Type} [Engine σ] : Engine (Observed σ Call) where
  receive o call := ⟨Engine.receive o.inner call, o.asked ++ [call]⟩

/-- A request to bind has keys to bind to. -/
def Request.isComplete (r : Request) : Bool :=
  r.operation == .unbind || r.rhs.isSome

/-- The call that a request is passed on as, unless it is refused. -/
def Request.call? (r : Request) : Option Call :=
  match r.operation, r.rhs with
  | .bind, some rhs => some (.bind r.lhs rhs r.scope.mode?)
  | .bind, none => none
  | .unbind, _ => some (.unbind r.lhs r.scope.mode?)

theorem Request.isComplete_eq (r : Request) :
    r.isComplete = !(r.operation == .bind && r.rhs.isNone) := by
  obtain ⟨operation, scope, lhs, rhs⟩ := r
  cases operation with
  | unbind => rfl
  | bind => cases rhs <;> rfl

theorem Request.isSome_call? (r : Request) : r.call?.isSome = r.isComplete := by
  obtain ⟨operation, scope, lhs, rhs⟩ := r
  cases operation with
  | unbind => rfl
  | bind => cases rhs <;> rfl

/-- Complete requests are one call each. -/
theorem Request.map_call? {rs : List Request} (complete : ∀ r ∈ rs, r.isComplete = true) :
    rs.map Request.call? = (rs.filterMap Request.call?).map some := by
  induction rs with
  | nil => rfl
  | cons r rs ih =>
    have here : r.call?.isSome = true := by
      rw [Request.isSome_call?]
      exact complete r List.mem_cons_self
    obtain ⟨call, found⟩ := Option.isSome_iff_exists.mp here
    rw [List.map_cons, List.filterMap_cons, found, List.map_cons,
      ih fun s member => complete s (List.mem_cons_of_mem r member)]

/-- A request that is refused is no call. -/
theorem Request.filterMap_call?_filter (rs : List Request) :
    (rs.filter Request.isComplete).filterMap Request.call? = rs.filterMap Request.call? := by
  induction rs with
  | nil => rfl
  | cons r rs ih =>
    have same := r.isSome_call?
    rw [List.filter_cons, List.filterMap_cons, ← same]
    cases found : r.call? with
    | none => exact ih
    | some call =>
      rw [Option.isSome_some, if_pos rfl, List.filterMap_cons, found, ih]

namespace Engine

variable {σ : Type} [Engine σ]

theorem answer_dispatch (engine : σ) (r : Request) : (dispatch engine r).answer = r.isComplete := by
  obtain ⟨operation, scope, lhs, rhs⟩ := r
  cases operation with
  | unbind => rfl
  | bind => cases rhs <;> rfl

/-- The state of an engine after some calls. -/
def receiveAll (engine : σ) (calls : List Call) : σ :=
  calls.foldl receive engine

theorem receiveAll_append (engine : σ) (before after : List Call) :
    receiveAll engine (before ++ after) = receiveAll (receiveAll engine before) after :=
  List.foldl_append

theorem engine_dispatch (engine : σ) (r : Request) :
    (dispatch engine r).engine = receiveAll engine r.call?.toList := by
  obtain ⟨operation, scope, lhs, rhs⟩ := r
  cases operation with
  | unbind => rfl
  | bind => cases rhs <;> rfl

theorem engine_applyAll (engine : σ) (rs : List Request) :
    (applyAll engine rs).engine = receiveAll engine (rs.filterMap Request.call?) := by
  induction rs generalizing engine with
  | nil => rfl
  | cons r rs ih =>
    have rest : (applyAll engine (r :: rs)).engine =
        receiveAll (dispatch engine r).engine (rs.filterMap Request.call?) := ih _
    rw [rest, engine_dispatch, List.filterMap_cons]
    cases r.call? <;> rfl

theorem engine_applyKeeping (engine : σ) (rs : List Request) :
    (applyKeeping engine rs).engine = (applyAll engine rs).engine := by
  induction rs generalizing engine with
  | nil => rfl
  | cons r rs ih => exact ih (dispatch engine r).engine

theorem answer_applyKeeping (engine : σ) (rs : List Request) :
    (applyKeeping engine rs).answer = rs.filter Request.isComplete := by
  induction rs generalizing engine with
  | nil => rfl
  | cons r rs ih =>
    rw [applyKeeping, List.filter_cons, ← ih (dispatch engine r).engine, answer_dispatch]

theorem answer_applyAll (engine : σ) (rs : List Request) :
    (applyAll engine rs).answer = rs.countP Request.isComplete := by
  induction rs generalizing engine with
  | nil => rfl
  | cons r rs ih =>
    rw [applyAll, List.countP_cons, ← ih (dispatch engine r).engine, answer_dispatch]
    cases r.isComplete <;> rfl

theorem receiveAll_observed (o : Observed σ Call) (calls : List Call) :
    receiveAll o calls = ⟨receiveAll o.inner calls, o.asked ++ calls⟩ := by
  induction calls generalizing o with
  | nil => simp [receiveAll]
  | cons call calls ih =>
    have later := ih (receive o call)
    rw [receiveAll, List.foldl_cons, ← receiveAll, later]
    simp [receive, receiveAll]

/-- **The two ways to pass requests on agree**, whatever the engine is and whatever the requests
are. It ends in the same state after the same calls. One way counts what the other keeps, which is
every request but those to bind without keys to bind to. Each of them is one call, and passed on
alone they do the same to the engine. -/
theorem dispatch_paths_agree (engine : σ) (rs : List Request) :
    let watched : Observed σ Call := ⟨engine, []⟩
    let counted := applyAll watched rs
    let kept := applyKeeping watched rs
    kept.engine = counted.engine ∧
    counted.answer = kept.answer.length ∧
    kept.answer = rs.filter (fun r => !(r.operation == .bind && r.rhs.isNone)) ∧
    (applyAll watched kept.answer).engine = counted.engine ∧
    (applyKeeping watched kept.answer).engine = counted.engine ∧
    kept.answer.map Request.call? = counted.engine.asked.map some ∧
    (applyAll engine rs).engine = counted.engine.inner ∧
    (applyKeeping engine rs).engine = kept.engine.inner := by
  intro watched counted kept
  have paths : kept.engine = counted.engine := engine_applyKeeping watched rs
  have answer : kept.answer = rs.filter Request.isComplete := answer_applyKeeping watched rs
  have calls : kept.answer.filterMap Request.call? = rs.filterMap Request.call? := by
    rw [answer, Request.filterMap_call?_filter]
  have state : counted.engine = ⟨receiveAll engine (rs.filterMap Request.call?),
      [] ++ rs.filterMap Request.call?⟩ := by
    rw [← receiveAll_observed watched]
    exact engine_applyAll watched rs
  have alone : (applyAll watched kept.answer).engine = counted.engine := by
    rw [engine_applyAll, calls, ← engine_applyAll]
  have plain : (applyAll engine rs).engine = counted.engine.inner := by
    rw [state, engine_applyAll]
  refine ⟨paths, ?_, ?_, alone, ?_, ?_, plain, ?_⟩
  · have count : counted.answer = rs.countP Request.isComplete := answer_applyAll watched rs
    rw [count, answer, List.countP_eq_length_filter]
  · rw [answer]
    exact List.filter_congr fun r _ => r.isComplete_eq
  · rw [engine_applyKeeping, alone]
  · -- nothing that was kept is refused, so no call is missing from the record
    have complete : ∀ r ∈ kept.answer, r.isComplete = true := by
      intro r member
      rw [answer] at member
      exact (List.mem_filter.mp member).2
    rw [Request.map_call? complete, calls, state, List.nil_append]
  · rw [engine_applyKeeping, plain, paths]

end Engine

theorem Request.Spelled.isComplete {r : Request} {ts : List String} (spelled : r.Spelled ts) :
    r.isComplete = true := by
  cases spelled <;> rfl

theorem isComplete_of_mem_interpret {text : String} {r : Request}
    (member : r ∈ (interpret text).requests) : r.isComplete = true := by
  rw [Interpretation.requests_interpret] at member
  obtain ⟨line, -, given⟩ := List.mem_filterMap.mp member
  exact (Line.request?_eq_some_iff.mp given).isComplete

/-- Each request of a file is one call. -/
theorem map_call?_interpret (text : String) :
    (interpret text).requests.map Request.call? =
      ((interpret text).requests.filterMap Request.call?).map some :=
  Request.map_call? fun _ => isComplete_of_mem_interpret

/-- Everything that a file asks for is passed on. -/
theorem Engine.answer_applyKeeping_interpret {σ : Type} [Engine σ] (engine : σ) (text : String) :
    (applyKeeping engine (interpret text).requests).answer = (interpret text).requests := by
  rw [answer_applyKeeping]
  exact List.filter_eq_self.mpr fun r member => isComplete_of_mem_interpret member

theorem Engine.answer_applyAll_interpret {σ : Type} [Engine σ] (engine : σ) (text : String) :
    (applyAll engine (interpret text).requests).answer = (interpret text).requests.length := by
  rw [answer_applyAll]
  exact List.countP_eq_length.mpr fun r member => isComplete_of_mem_interpret member

end ModalKeys
