import ModalKeys.Proofs.Engine

/-!
# What the display of a request tells

A request is displayed for the reader of a log, and passed on to an engine. There are two forms of
displays and three outcomes: a request to bind without keys to bind to is refused, and displayed as
one to unbind. Apart from these requests, a display tells what the engine is asked for.

## Main results

`dispatch_of_display_eq`: requests with the same display are passed on the same, as long as none or
both of them are refused. `refused_displayed_as_unbind` is a request that is refused and displayed
as one that is passed on. `eq_of_display_eq_of_mem_interpret`: no two requests of files share their
display.

## Proof strategy

Every request is displayed as some complete request (`Request.shown`). The words of a display are
the keys of that request and fixed words in fixed places, so the display determines it even when
the keys imitate the fixed words (`Request.display_eq_iff`).
-/

namespace ModalKeys

namespace Scope

theorem mode?_injective : Function.Injective mode? := by
  intro s t
  cases s <;> cases t <;> simp [mode?]

/-- The scope as it ends a display. -/
def mark (s : Scope) : String :=
  s!"({s.name})"

theorem isWord_mark (s : Scope) : Text.IsWord s.mark.toList := by
  rcases s with (_ | _ | _) | _ <;> decide

theorem mark_injective : Function.Injective mark := by
  intro s t same
  have names : s.name = t.name := by simpa [mark, toString] using same
  exact name_injective names

end Scope

namespace Request

/-- The keys of the request can be written in a directive. -/
def Writable (r : Request) : Prop :=
  Text.IsWord r.lhs.toList ∧ ∀ rhs ∈ r.rhs, Text.IsWord rhs.toList

instance (r : Request) : Decidable r.Writable :=
  inferInstanceAs (Decidable (_ ∧ _))

/-- The complete request that a request is displayed as. -/
def shown (r : Request) : Request :=
  match r.operation, r.rhs with
  | .bind, some rhs => .bind r.scope r.lhs rhs
  | _, _ => .unbind r.scope r.lhs

/-! ### The words of a display -/

theorem tokens_display_bind (scope : Scope) {lhs rhs : String} (left : Text.IsWord lhs.toList)
    (right : Text.IsWord rhs.toList) :
    Line.tokens (bind scope lhs rhs).display.toList = ["bind", lhs, "->", rhs, scope.mark] := by
  have space : Text.isBlank ' ' = true := by decide
  have split : (bind scope lhs rhs).display.toList = "bind".toList ++ ' ' :: (lhs.toList ++
      ' ' :: ("->".toList ++ ' ' :: (rhs.toList ++ ' ' :: scope.mark.toList))) := by
    simp [display, bind, Scope.mark, toString]
  rw [Line.tokens, split, Text.words_isWord_append_blank (by decide) space,
    Text.words_isWord_append_blank left space, Text.words_isWord_append_blank (by decide) space,
    Text.words_isWord_append_blank right space, Text.words_of_isWord scope.isWord_mark]
  simp

theorem tokens_display_unbind (scope : Scope) {lhs : String} (left : Text.IsWord lhs.toList) :
    Line.tokens (unbind scope lhs).display.toList = ["unbind", lhs, scope.mark] := by
  have space : Text.isBlank ' ' = true := by decide
  have split : (unbind scope lhs).display.toList =
      "unbind".toList ++ ' ' :: (lhs.toList ++ ' ' :: scope.mark.toList) := by
    simp [display, unbind, Scope.mark, toString]
  rw [Line.tokens, split, Text.words_isWord_append_blank (by decide) space,
    Text.words_isWord_append_blank left space, Text.words_of_isWord scope.isWord_mark]
  simp

/-! ### The request that is shown -/

theorem shown_cases (r : Request) :
    (∃ rhs ∈ r.rhs, r.shown = .bind r.scope r.lhs rhs) ∨ r.shown = .unbind r.scope r.lhs := by
  obtain ⟨operation, scope, lhs, rhs⟩ := r
  cases operation with
  | unbind => exact .inr rfl
  | bind =>
    cases rhs with
    | none => exact .inr rfl
    | some rhs => exact .inl ⟨rhs, rfl, rfl⟩

theorem display_shown (r : Request) : r.shown.display = r.display := by
  obtain ⟨operation, scope, lhs, rhs⟩ := r
  cases operation with
  | unbind => rfl
  | bind => cases rhs <;> rfl

variable {r s : Request}

theorem exists_of_complete (complete : r.isComplete = true) :
    (∃ scope lhs rhs, r = .bind scope lhs rhs) ∨
      ∃ scope lhs rhs, r = ⟨.unbind, scope, lhs, rhs⟩ := by
  obtain ⟨operation, scope, lhs, rhs⟩ := r
  cases operation with
  | unbind => exact .inr ⟨scope, lhs, rhs, rfl⟩
  | bind =>
    obtain ⟨rhs, rfl⟩ := Option.isSome_iff_exists.mp complete
    exact .inl ⟨scope, lhs, rhs, rfl⟩

theorem exists_of_refused (refused : r.isComplete = false) :
    ∃ scope lhs, r = ⟨.bind, scope, lhs, none⟩ := by
  obtain ⟨operation, scope, lhs, rhs⟩ := r
  cases operation with
  | unbind => cases refused
  | bind =>
    cases rhs with
    | none => exact ⟨scope, lhs, rfl⟩
    | some rhs => cases refused

/-- A request that is passed on is shown as what is passed on. -/
theorem call?_shown (complete : r.isComplete = true) : r.shown.call? = r.call? := by
  obtain ⟨scope, lhs, rhs, rfl⟩ | ⟨scope, lhs, rhs, rfl⟩ := exists_of_complete complete <;> rfl

theorem shown_of_refused (refused : r.isComplete = false) :
    r.shown = .unbind r.scope r.lhs := by
  obtain ⟨scope, lhs, rfl⟩ := exists_of_refused refused
  rfl

theorem shown_eq_unbind_iff {scope : Scope} {lhs : String} :
    r.shown = .unbind scope lhs ↔
      r.scope = scope ∧ r.lhs = lhs ∧ (r.operation = .bind → r.rhs = none) := by
  obtain ⟨operation, scope', lhs', rhs⟩ := r
  cases operation with
  | unbind => simp [shown, unbind]
  | bind => cases rhs <;> simp [shown, bind, unbind]

/-- Among the requests that are shown, different ones are different calls. -/
theorem shown_eq_of_call? (same : r.shown.call? = s.shown.call?) : r.shown = s.shown := by
  obtain ⟨rhs, -, shape⟩ | shape := r.shown_cases <;>
    obtain ⟨rhs', -, shape'⟩ | shape' := s.shown_cases <;> rw [shape, shape'] at same ⊢
  · obtain ⟨keys, value, modes⟩ :
        r.lhs = s.lhs ∧ rhs = rhs' ∧ r.scope.mode? = s.scope.mode? := by
      simpa [call?, bind] using same
    rw [keys, value, Scope.mode?_injective modes]
  · cases same
  · cases same
  · obtain ⟨keys, modes⟩ : r.lhs = s.lhs ∧ r.scope.mode? = s.scope.mode? := by
      simpa [call?, unbind] using same
    rw [keys, Scope.mode?_injective modes]

/-- A display tells which request is shown, whatever words the keys are. -/
theorem display_eq_iff (left : r.Writable) (right : s.Writable) :
    r.display = s.display ↔ r.shown = s.shown := by
  constructor
  · intro same
    have words : Line.tokens r.shown.display.toList = Line.tokens s.shown.display.toList := by
      rw [display_shown, display_shown, same]
    -- the first word tells the form, and the others stand in the places that the form gives them
    obtain ⟨rhs, given, shape⟩ | shape := r.shown_cases <;>
      obtain ⟨rhs', given', shape'⟩ | shape' := s.shown_cases <;> rw [shape, shape'] at words ⊢
    · rw [tokens_display_bind r.scope left.1 (left.2 rhs given),
        tokens_display_bind s.scope right.1 (right.2 rhs' given')] at words
      obtain ⟨keys, value, marks⟩ :
          r.lhs = s.lhs ∧ rhs = rhs' ∧ r.scope.mark = s.scope.mark := by simpa using words
      rw [keys, value, Scope.mark_injective marks]
    · rw [tokens_display_bind r.scope left.1 (left.2 rhs given),
        tokens_display_unbind s.scope right.1] at words
      simp at words
    · rw [tokens_display_unbind r.scope left.1,
        tokens_display_bind s.scope right.1 (right.2 rhs' given')] at words
      simp at words
    · rw [tokens_display_unbind r.scope left.1, tokens_display_unbind s.scope right.1] at words
      obtain ⟨keys, marks⟩ : r.lhs = s.lhs ∧ r.scope.mark = s.scope.mark := by
        simpa using words
      rw [keys, Scope.mark_injective marks]
  · intro same
    rw [← display_shown r, same, display_shown]

end Request

/-! ### Passing on what is displayed -/

namespace Engine

variable {σ : Type} [Engine σ] {r s : Request}

theorem dispatch_shown (engine : σ) (complete : r.isComplete = true) :
    dispatch engine r.shown = dispatch engine r := by
  obtain ⟨scope, lhs, rhs, rfl⟩ | ⟨scope, lhs, rhs, rfl⟩ :=
    Request.exists_of_complete complete <;> rfl

theorem dispatch_of_refused (engine : σ) (refused : r.isComplete = false) :
    dispatch engine r = ⟨engine, [.refused r.lhs], false⟩ := by
  obtain ⟨scope, lhs, rfl⟩ := Request.exists_of_refused refused
  rfl

theorem dispatch_of_shown_eq (engine : σ) (same : r.shown = s.shown)
    (alike : r.isComplete = s.isComplete) : dispatch engine r = dispatch engine s := by
  cases complete : r.isComplete with
  | true =>
    rw [← dispatch_shown engine complete, same, dispatch_shown engine (alike ▸ complete)]
  | false =>
    -- the scopes do not matter here, as nothing is passed on
    have refused : s.isComplete = false := alike ▸ complete
    rw [Request.shown_of_refused refused] at same
    obtain ⟨-, keys, -⟩ := Request.shown_eq_unbind_iff.mp same
    rw [dispatch_of_refused engine complete, dispatch_of_refused engine refused, keys]

/-- The engine that remembers its calls tells the calls of two requests apart. -/
theorem calls_dispatch_eq_iff :
    (dispatch ([] : List Call) r).engine = (dispatch ([] : List Call) s).engine ↔
      r.call? = s.call? := by
  have record (r : Request) : (dispatch ([] : List Call) r).engine = r.call?.toList := by
    rw [engine_dispatch]
    cases r.call? <;> rfl
  rw [record, record]
  constructor
  · intro same
    simpa using congrArg List.head? same
  · intro same
    rw [same]

/-- **What is displayed the same is passed on the same, refused requests apart.** Take two requests
whose keys are words. If their displays are the same and none or both of them are refused, then
every engine gets the same call from them, or none, and the same answer and log come back. If none
of them is refused, the displays are the same exactly when the calls are. A request that is refused
shares its display with the requests to unbind its keys in its scope, and with the refused requests
to bind these. -/
theorem dispatch_of_display_eq (left : r.Writable) (right : s.Writable) :
    (r.display = s.display → r.isComplete = s.isComplete →
      ∀ (σ : Type) [Engine σ] (engine : σ), dispatch engine r = dispatch engine s) ∧
    (r.isComplete = true → s.isComplete = true →
      (r.display = s.display ↔
        (dispatch ([] : List Call) r).engine = (dispatch ([] : List Call) s).engine)) ∧
    (r.isComplete = false → (r.display = s.display ↔
      s.scope = r.scope ∧ s.lhs = r.lhs ∧ (s.operation = .bind → s.rhs = none))) := by
  have told : r.display = s.display ↔ r.shown = s.shown := Request.display_eq_iff left right
  refine ⟨fun same alike σ _ engine => dispatch_of_shown_eq engine (told.mp same) alike,
    fun complete complete' => ?_, fun refused => ?_⟩
  · rw [told, calls_dispatch_eq_iff, ← Request.call?_shown complete,
      ← Request.call?_shown complete']
    exact ⟨congrArg Request.call?, Request.shown_eq_of_call?⟩
  · rw [told, Request.shown_of_refused refused, eq_comm]
    exact Request.shown_eq_unbind_iff

/-- Keys that look like the fixed words of a display, with keys that are not passed on. -/
theorem dispatch_of_display_eq_arrow :
    let surplus : Request := ⟨.unbind, .default, "->", some "(normal)"⟩
    let plain : Request := .unbind .default "->"
    let refused : Request := ⟨.bind, .default, "->", none⟩
    surplus.Writable ∧ plain.Writable ∧ refused.Writable ∧
    (∀ (σ : Type) [Engine σ] (engine : σ), dispatch engine surplus = dispatch engine plain) ∧
    surplus.display = plain.display ∧ refused.display = plain.display := by
  intro surplus plain refused
  have keys : surplus.Writable ∧ plain.Writable ∧ refused.Writable := by decide
  obtain ⟨writable, writable', writable''⟩ := keys
  obtain ⟨passed, called, -⟩ := dispatch_of_display_eq writable writable'
  obtain ⟨-, -, shared⟩ := dispatch_of_display_eq writable'' writable'
  have same : surplus.display = plain.display := (called rfl rfl).mpr rfl
  exact ⟨writable, writable', writable'', passed same rfl, same, (shared rfl).mpr ⟨rfl, rfl, nofun⟩⟩

/-- A request that reaches no engine is displayed like one that takes a mapping away. -/
theorem refused_displayed_as_unbind :
    let refused : Request := ⟨.bind, .only .normal, "a", none⟩
    let removal : Request := .unbind (.only .normal) "a"
    let keymap : Keymap := ⟨Keymap.standardModes, [⟨.normal, "a", "b"⟩]⟩
    refused.Writable ∧ removal.Writable ∧ refused.display = removal.display ∧
    (dispatch keymap refused).answer = false ∧ (dispatch keymap removal).answer = true ∧
    (dispatch keymap refused).engine = keymap ∧
    (dispatch keymap removal).engine.mappings = [] := by
  decide

end Engine

/-! ### Requests of files -/

theorem Request.Spelled.shown {r : Request} {ts : List String} (spelled : r.Spelled ts) :
    r.shown = r := by
  cases spelled <;> rfl

/-- No two requests of files are displayed the same. -/
theorem eq_of_display_eq_of_mem_interpret {text other : String} {r s : Request}
    (left : r ∈ (interpret text).requests) (right : s ∈ (interpret other).requests)
    (same : r.display = s.display) : r = s := by
  rw [Interpretation.requests_interpret] at left right
  obtain ⟨line, -, given⟩ := List.mem_filterMap.mp left
  obtain ⟨line', -, given'⟩ := List.mem_filterMap.mp right
  -- a file gives complete requests, and these are shown as they are
  have whole : r.shown = r := (Line.request?_eq_some_iff.mp given).shown
  have whole' : s.shown = s := (Line.request?_eq_some_iff.mp given').shown
  rw [← whole, ← whole']
  exact (Request.display_eq_iff (Line.isWord_of_request? given)
    (Line.isWord_of_request? given')).mp same

end ModalKeys
