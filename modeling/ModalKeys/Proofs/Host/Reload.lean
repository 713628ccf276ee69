import ModalKeys.Proofs.Host.Run
import ModalKeys.Proofs.Keymap.Edits

/-!
# Reloading a keymap

A keymap that is reloaded is what it would have been if nothing else had ever been done to it, the
order of its mappings included. For a pass depends on the engine, on the directive path and on what
is read there, and on nothing else (`load_congr`); and the default modes are the same through a
whole run, so clearing the keymap gives the one that a new host begins with.
-/

namespace ModalKeys

namespace Keymap

theorem defaultModes_receive (k : Keymap) (call : Call) :
    (Engine.receive k call).defaultModes = k.defaultModes := by
  cases call with
  | bind lhs rhs mode =>
    exact (congrArg defaultModes (bind_eq_editAll k lhs rhs mode)).trans (by simp)
  | unbind lhs mode => exact (congrArg defaultModes (unbind_eq_editAll k lhs mode)).trans (by simp)
  | clear => rfl

theorem defaultModes_receiveAll (k : Keymap) (calls : List Call) :
    (Engine.receiveAll k calls).defaultModes = k.defaultModes := by
  induction calls generalizing k with
  | nil => rfl
  | cons call calls ih => exact (ih (Engine.receive k call)).trans (defaultModes_receive k call)

end Keymap

namespace Host

section

variable {σ ρ : Type} [Engine σ] [TextSource ρ]

def found (h : Host σ) (source : ρ) : Except SourceError String :=
  (TextSource.read source h.settings.directivePath).outcome

omit [Engine σ] in
theorem turn_load_congr {h h' : Host σ} {source source' : ρ}
    (present : h'.engine.isSome = h.engine.isSome) (settings : h'.settings = h.settings)
    (same : h'.found source' = h.found source) :
    Step.turn h'.engine.isSome h'.settings.directivePath source' .load =
      Step.turn h.engine.isSome h.settings.directivePath source .load := by
  unfold found at same
  rw [settings] at same
  simp only [Step.turn, present, settings, same]

theorem load_congr {h h' : Host σ} {source source' : ρ} (engine : h'.engine = h.engine)
    (settings : h'.settings = h.settings) (same : h'.found source' = h.found source) :
    (h'.load source').answer = (h.load source).answer ∧
    (h'.load source').host.engine = (h.load source).host.engine := by
  have turn := turn_load_congr (congrArg Option.isSome engine) settings same
  have here := follows_load h source
  have there := follows_load h' source'
  constructor
  · apply Option.some.inj
    exact there.answer.trans ((congrArg Turn.answer turn).trans here.answer.symm)
  · refine there.engine.trans (Eq.trans ?_ here.engine.symm)
    rw [turn, engine]

theorem settings_reload (h : Host σ) (source : ρ) : (h.reload source).host.settings = h.settings :=
  congrArg Settings.mk (follows_reload h source).path

theorem answer_reload (h : Host σ) (source : ρ) :
    (h.reload source).answer = (h.load source).answer := by
  have reloaded := (follows_reload h source).answer
  have loaded := (follows_load h source).answer
  refine Option.some.inj (reloaded.trans (Eq.trans ?_ loaded.symm))
  -- clearing the engine first makes no difference to the answer
  cases h.engine.isSome <;> rfl

/-- A pass that fails makes no call but the one that clears the engine. -/
theorem engine_reload_of_error {h : Host σ} {engine : σ} {source : ρ} {e : PassError}
    (present : h.engine = some engine) (failed : (h.reload source).answer = .error e) :
    (∃ cause, e = .sourceFailed cause) ∧
    (h.reload source).host.engine = some (Engine.receive engine .clear) := by
  have follows := follows_reload h source
  cases read : (TextSource.read source h.settings.directivePath).outcome with
  | ok text =>
    have answer := follows.answer
    simp [take, Step.turn, present, read, Turn.pass, Turn.afterClear, failed] at answer
  | error cause =>
    have answer := follows.answer
    simp only [take, Step.turn, present, Option.isSome_some, if_true, read, Turn.pass,
      Turn.afterClear, failed, Option.some.injEq, Except.error.injEq] at answer
    refine ⟨⟨cause, answer⟩, follows.engine.trans ?_⟩
    simp [Step.turn, present, read, Turn.pass, Turn.afterClear, Engine.receiveAll]

end

section

variable {ρ : Type} [TextSource ρ]

theorem engine_reload {h : Host Keymap} {k : Keymap} (present : h.engine = some k) (source : ρ) :
    ∃ after : Keymap, (h.reload source).host.engine = some after ∧
      after.defaultModes = k.defaultModes := by
  have engine := (follows_reload h source).engine
  rw [present] at engine
  exact ⟨_, engine, Keymap.defaultModes_receiveAll k _⟩

/-- A run leaves a keymap in the host, with the default modes that it had. -/
theorem engine_run (k : Keymap) (s : Settings) (file : Option String) (source : ρ)
    (steps : List (Step ρ)) :
    ∃ reached : Keymap, (run ⟨some k, s, file⟩ source steps).host.engine = some reached ∧
      reached.defaultModes = k.defaultModes :=
  ⟨_, (run_turns ⟨some k, s, file⟩ source steps).1, Keymap.defaultModes_receiveAll k _⟩

theorem reload_eq_load_empty {h : Host Keymap} {k : Keymap} {source : ρ}
    (present : h.engine = some k) (file : Option String) {source' : ρ}
    (same : h.found source' = h.found source) :
    let fresh := load ⟨some (Keymap.empty k.defaultModes), h.settings, file⟩ source'
    (h.reload source).answer = fresh.answer ∧
    (h.reload source).host.engine = fresh.host.engine := by
  intro fresh
  obtain ⟨host, -, answer⟩ := reload_of_present source present
  rw [host, answer]
  exact load_congr rfl rfl same.symm

/-- **Reloading forgets**: whatever was done before, and whatever the keymap held when the host got
it, reloading is loading once into an empty keymap with the same default modes. Reloading what was
reloaded changes nothing, as long as the same is found. A reload that fails leaves no mapping, and
it fails as loading would have. -/
theorem reload_forgets (k : Keymap) (s : Settings) (file : Option String) (source : ρ)
    (steps : List (Step ρ)) :
    let reached := run ⟨some k, s, file⟩ source steps
    let again := reached.host.reload reached.source
    (∀ file' (source' : ρ), reached.host.found source' = reached.host.found reached.source →
      let fresh := load ⟨some (Keymap.empty k.defaultModes), reached.host.settings, file'⟩ source'
      again.answer = fresh.answer ∧ again.host.engine = fresh.host.engine) ∧
    (∀ source' : ρ, reached.host.found source' = reached.host.found reached.source →
      (again.host.reload source').answer = again.answer ∧
      (again.host.reload source').host.engine = again.host.engine) ∧
    ∀ e, again.answer = .error e →
      (∃ cause, e = .sourceFailed cause) ∧
      again.host.engine = some (Keymap.empty k.defaultModes) ∧
      again.host.settings = reached.host.settings ∧
      (reached.host.load reached.source).answer = .error e := by
  intro reached again
  obtain ⟨now, present, modes⟩ := engine_run k s file source steps
  have fresh (file' : Option String) (source' : ρ)
      (same : reached.host.found source' = reached.host.found reached.source) :
      let fresh := load ⟨some (Keymap.empty k.defaultModes), reached.host.settings, file'⟩ source'
      again.answer = fresh.answer ∧ again.host.engine = fresh.host.engine := by
    rw [← modes]
    exact reload_eq_load_empty present file' same
  refine ⟨fresh, fun source' same => ?_, fun e failed => ?_⟩
  · -- the second reload is a fresh load too, of the same settings
    obtain ⟨after, present', modes'⟩ := engine_reload present reached.source
    have settings : again.host.settings = reached.host.settings := settings_reload _ _
    obtain ⟨answer, engine⟩ :=
      reload_eq_load_empty present' none (rfl : again.host.found source' = _)
    obtain ⟨answer', engine'⟩ := fresh none source' same
    rw [settings, modes', modes] at answer engine
    exact ⟨answer.trans answer'.symm, engine.trans engine'.symm⟩
  · obtain ⟨cause, cleared⟩ := engine_reload_of_error present failed
    refine ⟨cause, ?_, settings_reload _ _, ?_⟩
    · rw [← modes]
      exact cleared
    · rw [← answer_reload]
      exact failed

end

end Host

end ModalKeys
