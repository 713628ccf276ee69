import ModalKeys.Proofs.Host

/-!
# Runs of a host

A host is loaded, reloaded and unloaded and has its settings changed, in any order, while others
edit its source. What it asks of its engine and its source meanwhile is the trace of the run.

## Main result

`run_trace`: the calls that the engine gets are those of the turns, one turn after another; the
source is read once for each pass and at no other time; and each pass answers for what was read.

## Proof strategy

`Step.turn` says what one step asks for, from the directive path and the source at that moment
alone. `take_turn` is the step, for every engine and every source, and `run_turns` is the run. An
engine and a source that keep a record are an engine and a source among others.
-/

namespace ModalKeys

instance {ρ : Type} [TextSource ρ] : TextSource (Observed ρ String) where
  read o path :=
    let fetched := TextSource.read o.inner path
    ⟨⟨fetched.source, o.asked ++ [path]⟩, fetched.events, fetched.outcome⟩

namespace Host

/-- What is done to a host, or to its source by others. -/
inductive Step (ρ : Type) where
  | load
  | reload
  | unload
  | changeSettings (files : FileTree) (env : Environment) (path : String)
  | edit (change : ρ → ρ)

section

variable {σ ρ : Type} [Engine σ] [TextSource ρ]

/-- Takes one step. The answer is that of the pass, if the step runs one. -/
def take (h : Host σ) (source : ρ) :
    Step ρ → Stepped σ ρ (Option (Except PassError Report))
  | .load =>
    let done := h.load source
    { done with answer := some done.answer }
  | .reload =>
    let done := h.reload source
    { done with answer := some done.answer }
  | .unload => ⟨h.unload.1, source, h.unload.2, none⟩
  | .changeSettings files env path =>
    let (changed, saved) := h.changeSettings files env path
    ⟨changed, source, saved.events, none⟩
  | .edit change => ⟨h, change source, [], none⟩

def run (h : Host σ) (source : ρ) :
    List (Step ρ) → Stepped σ ρ (List (Option (Except PassError Report)))
  | [] => ⟨h, source, [], []⟩
  | step :: rest =>
    let first := h.take source step
    let later := run first.host first.source rest
    { later with events := first.events ++ later.events, answer := first.answer :: later.answer }

end

/-- What a step asks of the engine and of the source, and how its pass ends, if it runs one. -/
structure Turn where
  calls : List Call
  reads : List String
  answer : Option (Except PassError Report)

namespace Turn

def idle : Turn :=
  ⟨[], [], none⟩

/-- A pass that finds a text at the directive path, or finds out why there is none. -/
def pass (path : String) : Except SourceError String → Turn
  | .error e => ⟨[], [path], some (.error (.sourceFailed e))⟩
  | .ok text =>
    let i := interpret text
    ⟨i.requests.filterMap Request.call?, [path],
      some (.ok ⟨path, i.lineCount, i.requests, i.diagnostics⟩)⟩

def refused : Turn :=
  ⟨[], [], some (.error .engineMissing)⟩

def afterClear (t : Turn) : Turn :=
  { t with calls := .clear :: t.calls }

end Turn

namespace Step

variable {ρ : Type}

def asksPass : Step ρ → Bool
  | .load | .reload => true
  | _ => false

/-- The turn of a step of a host with or without an engine, where the directive path is `path`. -/
def turn [TextSource ρ] (engine : Bool) (path : String) (source : ρ) : Step ρ → Turn
  | .load => if engine then .pass path (TextSource.read source path).outcome else .refused
  | .reload =>
    if engine then (Turn.pass path (TextSource.read source path).outcome).afterClear else .refused
  | .unload => if engine then Turn.idle.afterClear else .idle
  | .changeSettings _ _ _ => .idle
  | .edit _ => .idle

/-- The directive path after a step, where the host keeps its settings in `file`, if it says. -/
def pathAfter (file : Option String) (path : String) : Step ρ → String
  | .changeSettings _ env new =>
    if (file <|> env.configFile?).isNone || blank new then path else trimmed new
  | _ => path

def sourceAfter [TextSource ρ] (engine : Bool) (path : String) (source : ρ) : Step ρ → ρ
  | .load | .reload => if engine then (TextSource.read source path).source else source
  | .edit change => change source
  | _ => source

/-- The same step where the source is observed. The edits of others are no part of its record. -/
def observed : Step ρ → Step (Observed ρ String)
  | .load => .load
  | .reload => .reload
  | .unload => .unload
  | .changeSettings files env path => .changeSettings files env path
  | .edit change => .edit fun o => { o with inner := change o.inner }

end Step

def turns {ρ : Type} [TextSource ρ] (engine : Bool) (file : Option String) (path : String)
    (source : ρ) : List (Step ρ) → List Turn
  | [] => []
  | step :: rest =>
    step.turn engine path source ::
      turns engine file (step.pathAfter file path) (step.sourceAfter engine path source) rest

/-! ### One step -/

section

variable {σ ρ : Type} [Engine σ] [TextSource ρ]

/-- The step is what its turn says: the engine gets the calls, and the directive path and the source
are those after the step. -/
structure Follows (h : Host σ) (source : ρ) (step : Step ρ) : Prop where
  engine : (h.take source step).host.engine = h.engine.map (Engine.receiveAll ·
    (step.turn h.engine.isSome h.settings.directivePath source).calls)
  path : (h.take source step).host.settings.directivePath =
    step.pathAfter h.settingsFile h.settings.directivePath
  file : (h.take source step).host.settingsFile = h.settingsFile
  left : (h.take source step).source =
    step.sourceAfter h.engine.isSome h.settings.directivePath source
  answer : (h.take source step).answer =
    (step.turn h.engine.isSome h.settings.directivePath source).answer

theorem follows_load (h : Host σ) (source : ρ) : h.Follows source .load := by
  obtain ⟨engine, settings, file⟩ := h
  cases engine with
  | none => exact ⟨rfl, rfl, rfl, rfl, rfl⟩
  | some engine =>
    have left : (load ⟨some engine, settings, file⟩ source).source =
      (TextSource.read source settings.directivePath).source := source_load source rfl
    cases outcome : (TextSource.read source settings.directivePath).outcome with
    | error e =>
      obtain ⟨host, answer⟩ :=
        load_of_unread (h := ⟨some engine, settings, file⟩) source rfl outcome
      refine ⟨?_, ?_, ?_, left, ?_⟩ <;>
        simp [take, host, answer, Step.turn, Step.pathAfter, outcome, Turn.pass, Engine.receiveAll]
    | ok text =>
      obtain ⟨host, answer⟩ := load_of_read (h := ⟨some engine, settings, file⟩) source rfl outcome
      refine ⟨?_, ?_, ?_, left, ?_⟩ <;>
        simp [take, host, answer, Step.turn, Step.pathAfter, outcome, Turn.pass,
          Engine.engine_applyAll]

theorem follows_reload (h : Host σ) (source : ρ) : h.Follows source .reload := by
  obtain ⟨engine, settings, file⟩ := h
  cases engine with
  | none => exact ⟨rfl, rfl, rfl, rfl, rfl⟩
  | some engine =>
    -- the pass of the host whose engine was cleared, which is one call more
    obtain ⟨host, left, answer⟩ := reload_of_present (h := ⟨some engine, settings, file⟩) source rfl
    have pass := follows_load ⟨some (Engine.receive engine .clear), settings, file⟩ source
    exact ⟨(congrArg Host.engine host).trans pass.engine,
      (congrArg (·.settings.directivePath) host).trans pass.path,
      (congrArg Host.settingsFile host).trans pass.file, left.trans pass.left,
      (congrArg some answer).trans pass.answer⟩

theorem follows_unload (h : Host σ) (source : ρ) : h.Follows source .unload := by
  obtain ⟨engine, settings, file⟩ := h
  cases engine <;> exact ⟨rfl, rfl, rfl, rfl, rfl⟩

theorem follows_changeSettings (h : Host σ) (source : ρ) (files : FileTree) (env : Environment)
    (new : String) : h.Follows source (.changeSettings files env new) := by
  have host := changeSettings_host h files env new
  obtain ⟨engine, settings, file⟩ := h
  refine ⟨(congrArg Host.engine host).trans ?_,
    (congrArg (·.settings.directivePath) host).trans ?_,
    (congrArg Host.settingsFile host).trans ?_, rfl, rfl⟩
  · cases engine <;> split <;> rfl
  · rw [Step.pathAfter]
    split <;> rfl
  · split <;> rfl

theorem follows_take (h : Host σ) (source : ρ) (step : Step ρ) : h.Follows source step := by
  cases step with
  | load => exact follows_load h source
  | reload => exact follows_reload h source
  | unload => exact follows_unload h source
  | changeSettings files env new => exact follows_changeSettings h source files env new
  | edit change =>
    obtain ⟨engine, settings, file⟩ := h
    cases engine <;> exact ⟨rfl, rfl, rfl, rfl, rfl⟩

/-! ### A run -/

theorem run_turns (h : Host σ) (source : ρ) (steps : List (Step ρ)) :
    let ts := turns h.engine.isSome h.settingsFile h.settings.directivePath source steps
    (h.run source steps).host.engine = h.engine.map (Engine.receiveAll · (ts.flatMap Turn.calls)) ∧
    (h.run source steps).answer = ts.map Turn.answer := by
  -- the host and the source after the first step are those of the run of the rest
  induction steps generalizing h source with
  | nil => cases h with | mk engine _ _ => cases engine <;> exact ⟨rfl, rfl⟩
  | cons step rest ih =>
    have follows := follows_take h source step
    have present : (h.take source step).host.engine.isSome = h.engine.isSome := by
      rw [follows.engine]
      exact Option.isSome_map
    obtain ⟨engine, answers⟩ := ih (h.take source step).host (h.take source step).source
    rw [present, follows.path, follows.file, follows.left] at engine answers
    intro ts
    rw [run, follows.left]
    constructor
    · rw [engine, follows.engine, Option.map_map]
      simp only [ts, turns, List.flatMap_cons, Engine.receiveAll_append]
      rfl
    · simp only [ts, turns, List.map_cons, follows.answer, answers]

/-! ### A run under observation -/

theorem reads_pass (path : String) (outcome : Except SourceError String) :
    (Turn.pass path outcome).reads = [path] := by
  cases outcome <;> rfl

theorem turn_observed (engine : Bool) (path : String) (o : Observed ρ String) (step : Step ρ) :
    step.observed.turn engine path o = step.turn engine path o.inner := by
  cases step <;> rfl

omit [TextSource ρ] in
theorem pathAfter_observed (file : Option String) (path : String) (step : Step ρ) :
    step.observed.pathAfter file path = step.pathAfter file path := by
  cases step <;> rfl

theorem sourceAfter_observed (engine : Bool) (path : String) (o : Observed ρ String)
    (step : Step ρ) :
    step.observed.sourceAfter engine path o = ⟨step.sourceAfter engine path o.inner,
      o.asked ++ (step.turn engine path o.inner).reads⟩ := by
  -- the record grows by what the turn reads, which is nothing in all but two cases
  have unread : o = ⟨o.inner, o.asked ++ []⟩ := by rw [List.append_nil]
  cases step with
  | load =>
    cases engine with
    | true => simp [Step.observed, Step.sourceAfter, Step.turn, reads_pass, TextSource.read]
    | false => exact unread
  | reload =>
    cases engine with
    | true =>
      simp [Step.observed, Step.sourceAfter, Step.turn, Turn.afterClear, reads_pass,
        TextSource.read]
    | false => exact unread
  | unload => cases engine <;> exact unread
  | changeSettings files env new => exact unread
  | edit change =>
    rw [Step.observed, Step.sourceAfter, Step.turn, Turn.idle, List.append_nil]
    rfl

theorem turns_observed (engine : Bool) (file : Option String) (path : String)
    (o : Observed ρ String) (steps : List (Step ρ)) :
    turns engine file path o (steps.map Step.observed) = turns engine file path o.inner steps := by
  induction steps generalizing path o with
  | nil => rfl
  | cons step rest ih =>
    rw [List.map_cons, turns, turns, turn_observed, pathAfter_observed, ih, sourceAfter_observed]

theorem asked_run (h : Host σ) (o : Observed ρ String) (steps : List (Step ρ)) :
    (h.run o (steps.map Step.observed)).source.asked = o.asked ++
      (turns h.engine.isSome h.settingsFile h.settings.directivePath o.inner steps).flatMap
        Turn.reads := by
  induction steps generalizing h o with
  | nil => simp [run, turns]
  | cons step rest ih =>
    have follows := follows_take h o step.observed
    have present : (h.take o step.observed).host.engine.isSome = h.engine.isSome := by
      rw [follows.engine]
      exact Option.isSome_map
    rw [List.map_cons, run, ih, present, follows.path, follows.file, follows.left,
      pathAfter_observed, sourceAfter_observed, turns, List.flatMap_cons, List.append_assoc]

theorem turns_without_engine (file : Option String) (path : String) (source : ρ)
    (steps : List (Step ρ)) :
    turns false file path source steps =
      steps.map fun step => if step.asksPass then .refused else .idle := by
  induction steps generalizing path source with
  | nil => rfl
  | cons step rest ih =>
    rw [turns, ih, List.map_cons]
    cases step <;> rfl

/-- **The trace of a run**: whatever the engine and the source are, the engine gets the calls of the
turns one after another, the source is read at the paths that the turns read and at no other time,
and the passes end as the turns say. Each request of a text is one call. Without an engine nothing
is asked of either, and every pass is refused. -/
theorem run_trace (h : Host (Observed σ Call)) (source : Observed ρ String)
    (steps : List (Step ρ)) :
    let ran := h.run source (steps.map Step.observed)
    let ts := turns h.engine.isSome h.settingsFile h.settings.directivePath source.inner steps
    let calls := ts.flatMap Turn.calls
    ran.host.engine =
      h.engine.map (fun o => ⟨Engine.receiveAll o.inner calls, o.asked ++ calls⟩) ∧
    ran.source.asked = source.asked ++ ts.flatMap Turn.reads ∧
    ran.answer = ts.map Turn.answer ∧
    (∀ text, (interpret text).requests.map Request.call? =
      ((interpret text).requests.filterMap Request.call?).map some) ∧
    (h.engine = none → ran.host.engine = none ∧ ran.source.asked = source.asked ∧
      ran.answer = steps.map fun step =>
        if step.asksPass then some (.error .engineMissing) else none) := by
  intro ran ts calls
  have asked : ran.source.asked = source.asked ++ ts.flatMap Turn.reads := asked_run h source steps
  have run := run_turns h source (steps.map Step.observed)
  rw [turns_observed] at run
  have engine : ran.host.engine = h.engine.map (Engine.receiveAll · calls) := run.1
  have answer : ran.answer = ts.map Turn.answer := run.2
  refine ⟨?_, asked, answer, map_call?_interpret, fun missing => ?_⟩
  · simpa only [Engine.receiveAll_observed] using engine
  · have quiet : ts = steps.map fun step => if step.asksPass then .refused else .idle := by
      simp only [ts, missing]
      exact turns_without_engine _ _ _ _
    refine ⟨by rw [engine, missing]; rfl, ?_, ?_⟩
    · have unread : ∀ step ∈ steps, (if step.asksPass then Turn.refused else .idle).reads = [] := by
        intro step _
        split <;> rfl
      rw [asked, quiet, List.flatMap_map, List.flatMap_eq_nil_iff.mpr unread, List.append_nil]
    · rw [answer, quiet, List.map_map]
      refine List.map_congr_left fun step _ => ?_
      simp only [Function.comp_apply]
      split <;> rfl

end

end Host

end ModalKeys
