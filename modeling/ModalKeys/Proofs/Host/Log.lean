import ModalKeys.Proofs.Directive.Account
import ModalKeys.Proofs.Directive.Grammar
import ModalKeys.Proofs.Host
import Mathlib.Data.List.Forall2

/-!
# The log of a pass

A pass that ends well tells the log that it begins, what became of each directive line, what it
asked of the engine, and at last what it tells the user. Nothing else is in the log but what the
source may have told while it was read.

The events of the second part are those of the requests, whatever the engine is
(`events_applyKeeping`), and a file gives complete requests only, each of which is one call. The
first part has an event for each diagnostic, and so for each directive line (`diagnostics_eq_map`).
That the lines and the calls go together is what is known of the diagnostics and the requests of a
file (`requests_of_mapped`).
-/

namespace ModalKeys

open Log (Event)

private theorem map_eq_map_iff {α β γ : Type} {f : α → γ} {g : β → γ} {xs : List α}
    {ys : List β} : xs.map f = ys.map g ↔ List.Forall₂ (fun x y => f x = g y) xs ys := by
  rw [← List.forall₂_eq_eq_eq, List.forall₂_map_left_iff, List.forall₂_map_right_iff]

/-! ### Calls and their events -/

/-- The event that tells what became of a request. -/
def Request.event (r : Request) : Event :=
  match r.operation, r.rhs with
  | .bind, some rhs => .bound r.lhs rhs r.scope
  | .bind, none => .refused r.lhs
  | .unbind, _ => .unbound r.lhs r.scope

namespace Engine

variable {σ : Type} [Engine σ]

theorem events_dispatch (engine : σ) (r : Request) : (dispatch engine r).events = [r.event] := by
  obtain ⟨operation, scope, lhs, rhs⟩ := r
  cases operation with
  | unbind => rfl
  | bind => cases rhs <;> rfl

theorem events_applyKeeping (engine : σ) (rs : List Request) :
    (applyKeeping engine rs).events = rs.map Request.event := by
  induction rs generalizing engine with
  | nil => rfl
  | cons r rs ih =>
    rw [applyKeeping, events_dispatch, ih (dispatch engine r).engine]
    rfl

end Engine

/-- The event that tells of a call. -/
inductive Call.ToldBy : Call → Event → Prop where
  | bind (scope : Scope) (lhs rhs : String) :
    ToldBy (.bind lhs rhs scope.mode?) (.bound lhs rhs scope)
  | unbind (scope : Scope) (lhs : String) : ToldBy (.unbind lhs scope.mode?) (.unbound lhs scope)

theorem Request.toldBy_of_call? {r : Request} {call : Call} (passed : r.call? = some call) :
    call.ToldBy r.event := by
  obtain ⟨operation, scope, lhs, rhs⟩ := r
  cases operation with
  | unbind =>
    cases passed
    exact .unbind scope lhs
  | bind =>
    cases rhs with
    | none => cases passed
    | some rhs =>
      cases passed
      exact .bind scope lhs rhs

/-- Requests that are one call each are told of by the events of their calls. -/
theorem Request.forall₂_toldBy {rs : List Request} {calls : List Call}
    (passed : rs.map Request.call? = calls.map some) :
    List.Forall₂ Call.ToldBy calls (rs.map Request.event) :=
  List.forall₂_map_right_iff.mpr <| (map_eq_map_iff.mp passed).flip.imp
    fun _ _ => Request.toldBy_of_call?

/-! ### Lines and their events -/

instance Line.decidableSpeaks (cs : List Char) : Decidable (Line.Speaks cs) :=
  decidable_of_iff ((cs.find? fun c => !Text.isBlank c).any (· != Line.commentMarker) = true)
    (by simp [Line.Speaks, Option.any_eq_true])

/-- The texts between the line feeds that are neither blank nor a comment, with their numbers. -/
def directiveLines (text : String) : List (List Char × Nat) :=
  ((text.toList.splitOn '\n').zipIdx 1).filter fun p => Line.Speaks p.1

theorem Interpretation.diagnostics_eq_map (text : String) : (interpret text).diagnostics =
    (directiveLines text).map fun p =>
      ⟨p.2, .ofList (Text.trim p.1), (Line.ofChars p.1).fault?⟩ := by
  have nothing : ∀ n, Diagnostic.ofLine n [] = none := fun _ => rfl
  rw [diagnostics_interpret, Text.filterMap_zipIdx_lines
    (fun l n => Diagnostic.ofLine_chomp n l) nothing, directiveLines, ← List.filterMap_eq_map,
    List.filterMap_filter]
  refine List.filterMap_congr fun p _ => Option.ext fun d => ?_
  rw [Diagnostic.ofLine_eq_some_iff]
  by_cases speaks : Line.Speaks p.1 <;> simp [speaks, eq_comm]

/-- The event that tells of a line with a number: the line has the words of a request, or else it
is told what is wrong with its words. -/
inductive Line.ToldBy : List Char × Nat → Event → Prop where
  | mapped {cs : List Char} {n : Nat} {r : Request} (spelled : r.Spelled (tokens cs)) :
    ToldBy (cs, n) (.lineMapped (.ofList (Text.trim cs)))
  | skipped {cs : List Char} {n : Nat} {first : String} {operands : List String} {fault : Fault}
    (split : tokens cs = first :: operands) (wrong : fault.Found first operands.length) :
    ToldBy (cs, n) (.lineSkipped ⟨n, .ofList (Text.trim cs), some fault⟩)

theorem Line.tokens_of_directive {cs : List Char} {keyword : String} {operands : List String}
    (kind : ofChars cs = .directive keyword operands) : tokens cs = keyword :: operands := by
  cases split : tokens cs with
  | nil => simp [ofChars_of_tokens_nil split] at kind
  | cons first others =>
    rw [ofChars_of_tokens_cons split] at kind
    split at kind
    · cases kind
    · cases kind
      rfl

theorem Line.toldBy_event {cs : List Char} (speaks : Speaks cs) (n : Nat) :
    ToldBy (cs, n)
      (Diagnostic.event ⟨n, .ofList (Text.trim cs), (ofChars cs).fault?⟩) := by
  obtain ⟨keyword, operands, kind⟩ := speaks_iff.mp speaks
  have split := tokens_of_directive kind
  rw [kind, fault?]
  cases read : Request.ofDirective keyword operands with
  | ok r =>
    have spelled := Request.ofDirective_eq_ok_iff.mp read
    rw [← split] at spelled
    exact .mapped spelled
  | error fault => exact .skipped split (Request.ofDirective_eq_error_iff.mp read)

/-! ### Lines and calls -/

/-- The event tells that a line was mapped. -/
def Log.Event.isMapped : Event → Bool
  | .lineMapped _ => true
  | _ => false

theorem Diagnostic.isMapped_event (d : Diagnostic) : d.event.isMapped = !d.isProblem := by
  unfold event
  cases d.isProblem <;> rfl

/-- A line that was mapped, and what was done: the words of the line are the keyword for it and the
same keys. -/
inductive Log.SameDirective : Event → Event → Prop where
  | bind {line : String} {scope : Scope} {lhs rhs : String}
    (spelled : (Request.bind scope lhs rhs).Spelled (Line.tokens line.toList)) :
    SameDirective (.lineMapped line) (.bound lhs rhs scope)
  | unbind {line : String} {scope : Scope} {lhs : String}
    (spelled : (Request.unbind scope lhs).Spelled (Line.tokens line.toList)) :
    SameDirective (.lineMapped line) (.unbound lhs scope)

theorem Request.Spelled.sameDirective {r : Request} {line : String}
    (spelled : r.Spelled (Line.tokens line.toList)) :
    Log.SameDirective (.lineMapped line) r.event := by
  generalize split : Line.tokens line.toList = words at spelled
  cases spelled with
  | bind scope lhs rhs => exact .bind (split ▸ .bind scope lhs rhs)
  | unbind scope lhs => exact .unbind (split ▸ .unbind scope lhs)

theorem Diagnostic.spelled_line {text : String} {d : Diagnostic} {r : Request}
    (member : d ∈ (interpret text).diagnostics) (given : (interpret d.line).requests = [r]) :
    r.Spelled (Line.tokens d.line.toList) := by
  obtain ⟨n, l, inside, told⟩ := exists_ofLine member
  obtain ⟨-, rfl⟩ := ofLine_eq_some_iff.mp told
  have single : '\n' ∉ (String.ofList (Text.trim l)).toList := by
    rw [String.toList_ofList]
    exact fun inner => inside (Text.mem_of_mem_trim inner)
  exact ((Interpretation.requests_eq_singleton_iff single).mp given).spelled

theorem Interpretation.forall₂_sameDirective (text : String) :
    List.Forall₂ Log.SameDirective
      (((interpret text).diagnostics.map Diagnostic.event).filter Event.isMapped)
      ((interpret text).requests.map Request.event) := by
  have paired := map_eq_map_iff.mp (requests_of_mapped text)
  -- a line is mapped when it is told of and no problem
  have mapped : ∀ d ∈ (interpret text).diagnostics.filter fun d => !d.isProblem,
      d ∈ (interpret text).diagnostics ∧ d.event = .lineMapped d.line := by
    intro d member
    obtain ⟨listed, sound⟩ := List.mem_filter.mp member
    exact ⟨listed, if_neg (by simpa using sound)⟩
  rw [List.filter_map, List.forall₂_map_left_iff, List.forall₂_map_right_iff]
  have kept : Event.isMapped ∘ Diagnostic.event = fun d => !d.isProblem :=
    funext Diagnostic.isMapped_event
  rw [kept]
  refine ((List.forall₂_and_left _ _).mpr ⟨mapped, paired⟩).imp ?_
  rintro d r ⟨⟨listed, event⟩, given⟩
  rw [event]
  exact (Diagnostic.spelled_line listed given).sameDirective

/-! ### What the log shows -/

/-- An event as the log shows it. -/
def Log.Event.entry (e : Event) : Log.Level × String :=
  (e.level, e.message)

/-- What the log shows of a directive line. -/
def Diagnostic.entry (d : Diagnostic) : Log.Level × String :=
  if d.isProblem then (.warn, s!"Could not map {d.display}")
  else (.debug, s!"Successfully mapped! {d.line}")

/-- What the log shows of a call to the engine. -/
def Call.entry : Call → Log.Level × String
  | .bind lhs rhs mode => (.debug, s!"Bound {lhs} -> {rhs} in {place mode} scope")
  | .unbind lhs mode => (.debug, s!"Unbound {lhs} in {place mode} scope")
  | .clear => (.info, "Cleared vimrc mappings")
where
  place (mode : Option Mode) : String := mode.elim "default" Mode.name

theorem Diagnostic.entry_event (d : Diagnostic) : d.event.entry = d.entry := by
  unfold event entry
  cases d.isProblem <;> rfl

theorem Call.ToldBy.entry_eq {call : Call} {e : Event} (told : call.ToldBy e) :
    e.entry = call.entry := by
  cases told with
  | bind scope => cases scope <;> rfl
  | unbind scope => cases scope <;> rfl

/-! ### The log of a text -/

/-- What a pass tells once it has read a text. -/
def passLog (path text : String) : List Event :=
  let i := interpret text
  .passStarted path i.lineCount :: i.diagnostics.map Diagnostic.event ++
    i.requests.map Request.event ++
    [.passDone i.requests.length (i.diagnostics.countP Diagnostic.isProblem)]

theorem Diagnostic.warns_event (d : Diagnostic) : (d.event.level == .warn) = d.isProblem := by
  unfold event
  cases d.isProblem <;> rfl

theorem Call.ToldBy.level_eq {call : Call} {e : Event} (told : call.ToldBy e) :
    e.level = .debug := by
  cases told <;> rfl

/-- What a file asks for is told by the events of calls. -/
theorem exists_toldBy_of_mem {text : String} {e : Event}
    (member : e ∈ (interpret text).requests.map Request.event) :
    ∃ call : Call, call.ToldBy e := by
  obtain ⟨r, listed, rfl⟩ := List.mem_map.mp member
  have complete : r.call?.isSome = true := by
    rw [Request.isSome_call?]
    exact isComplete_of_mem_interpret listed
  obtain ⟨call, passed⟩ := Option.isSome_iff_exists.mp complete
  exact ⟨call, Request.toldBy_of_call? passed⟩

theorem warnings_passLog (path text : String) :
    (passLog path text).countP (·.level == .warn) =
      (interpret text).diagnostics.countP Diagnostic.isProblem := by
  have lines : ((interpret text).diagnostics.map Diagnostic.event).countP (·.level == .warn) =
      (interpret text).diagnostics.countP Diagnostic.isProblem := by
    rw [List.countP_map]
    exact congrArg (List.countP · _) (funext Diagnostic.warns_event)
  have calls : ((interpret text).requests.map Request.event).countP (·.level == .warn) = 0 := by
    refine List.countP_eq_zero.mpr fun e member => ?_
    obtain ⟨call, told⟩ := exists_toldBy_of_mem member
    simp [told.level_eq]
  rw [passLog, List.countP_append, List.countP_append, List.countP_cons, lines, calls]
  rfl

/-- Nothing that a file asks for is refused. -/
theorem refused_not_mem_passLog (path text lhs : String) :
    Event.refused lhs ∉ passLog path text := by
  have lines : Event.refused lhs ∉ (interpret text).diagnostics.map Diagnostic.event := by
    intro member
    obtain ⟨d, -, event⟩ := List.mem_map.mp member
    unfold Diagnostic.event at event
    split at event <;> cases event
  have calls : Event.refused lhs ∉ (interpret text).requests.map Request.event := by
    intro member
    obtain ⟨call, told⟩ := exists_toldBy_of_mem member
    cases told
  simp [passLog, lines, calls]

theorem map_entry_passLog {path text : String} {calls : List Call}
    (told : List.Forall₂ Call.ToldBy calls ((interpret text).requests.map Request.event)) :
    let i := interpret text
    let skipped := i.diagnostics.countP Diagnostic.isProblem
    (passLog path text).map Event.entry =
      (.info, s!"Processing vimrc file {path} ({i.lineCount} lines)") ::
        i.diagnostics.map Diagnostic.entry ++ calls.map Call.entry ++
        [(.info, passNotice i.requests.length skipped)] := by
  intro i skipped
  have shown : calls.map Call.entry = (i.requests.map Request.event).map Event.entry :=
    map_eq_map_iff.mpr <| told.imp fun _ _ told => told.entry_eq.symm
  have lines : (i.diagnostics.map Diagnostic.event).map Event.entry =
      i.diagnostics.map Diagnostic.entry := by
    rw [List.map_map]
    exact congrArg (List.map · _) (funext Diagnostic.entry_event)
  rw [passLog, List.map_append, List.map_append, List.map_cons, lines, shown]
  rfl

theorem Interpretation.forall₂_toldBy (text : String) :
    List.Forall₂ Line.ToldBy (directiveLines text)
      ((interpret text).diagnostics.map Diagnostic.event) := by
  rw [diagnostics_eq_map, List.map_map, List.forall₂_map_right_iff, List.forall₂_same]
  rintro ⟨cs, n⟩ member
  have speaks : Line.Speaks cs := by simpa using (List.mem_filter.mp member).2
  exact Line.toldBy_event speaks n

/-! ### A pass -/

namespace Host

variable {σ ρ : Type} [Engine σ] [TextSource ρ] {h : Host σ} {source : ρ} {report : Report}

/-- The host with a record of the calls to its engine. -/
def watched (h : Host σ) : Host (Observed σ Call) :=
  { h with engine := h.engine.map (⟨·, []⟩) }

/-- The calls that the engine gets in a pass. -/
def callsOfLoad (h : Host σ) (source : ρ) : List Call :=
  (h.watched.load source).host.engine.elim [] Observed.asked

section

variable {engine : σ} {text : String}

theorem callsOfLoad_of_read (present : h.engine = some engine)
    (read : (TextSource.read source h.settings.directivePath).outcome = .ok text) :
    h.callsOfLoad source = (interpret text).requests.filterMap Request.call? := by
  have watching : h.watched.engine = some ⟨engine, []⟩ := by
    rw [watched, present]
    rfl
  rw [callsOfLoad, (load_of_read source watching read).1]
  simp [Engine.engine_applyAll, Engine.receiveAll_observed]

theorem events_load_of_read (present : h.engine = some engine)
    (read : (TextSource.read source h.settings.directivePath).outcome = .ok text) :
    (h.load source).events = (TextSource.read source h.settings.directivePath).events ++
      passLog h.settings.directivePath text := by
  simp only [load, present, read, Engine.events_applyKeeping,
    Engine.answer_applyKeeping_interpret, Report.skipped, passLog, List.append_assoc,
    List.cons_append, List.nil_append]

end

/-- A pass that ends well had an engine and read a text, and reports what is in the text. -/
theorem exists_of_load_eq_ok (done : (h.load source).answer = .ok report) :
    ∃ engine text, h.engine = some engine ∧
      (TextSource.read source h.settings.directivePath).outcome = .ok text ∧
      report = ⟨h.settings.directivePath, (interpret text).lineCount, (interpret text).requests,
        (interpret text).diagnostics⟩ := by
  cases present : h.engine with
  | none => simp [load, present] at done
  | some engine =>
    cases read : (TextSource.read source h.settings.directivePath).outcome with
    | error e => simp [(load_of_unread source present read).2] at done
    | ok text =>
      rw [(load_of_read source present read).2] at done
      cases done
      exact ⟨engine, text, rfl, rfl, rfl⟩

/-- **The log of a pass is a complete account of it.** After what the source told, it says that the
pass begins; then it tells of the directive lines of the text, each by one event and in order; then
of the calls to the engine, each by one event and in order; and at last it gives the notice of the
report. The lines that it tells to be mapped are those that the calls come from, one by one. It
warns of as many lines as were skipped and of nothing else, and no request is refused. -/
theorem load_log (done : (h.load source).answer = .ok report) :
    let fetched := TextSource.read source h.settings.directivePath
    let calls := h.callsOfLoad source
    ∃ text dispatched,
      let first := Event.passStarted report.path (interpret text).lineCount
      let told := report.diagnostics.map Diagnostic.event
      let last := Event.passDone report.applied.length report.skipped
      let own := first :: told ++ dispatched ++ [last]
      fetched.outcome = .ok text ∧
      (h.load source).host.engine = h.engine.map (Engine.receiveAll · calls) ∧
      (h.load source).events = fetched.events ++ own ∧
      List.Forall₂ Line.ToldBy (directiveLines text) told ∧
      List.Forall₂ Call.ToldBy calls dispatched ∧
      List.Forall₂ Log.SameDirective (told.filter Event.isMapped) dispatched ∧
      own.map Event.entry =
        (.info, s!"Processing vimrc file {report.path} ({(interpret text).lineCount} lines)") ::
          report.diagnostics.map Diagnostic.entry ++ calls.map Call.entry ++
          [(.info, report.notice)] ∧
      own.countP (·.level == .warn) = report.skipped ∧
      ∀ lhs, .refused lhs ∉ own := by
  intro fetched calls
  obtain ⟨engine, text, present, read, rfl⟩ := exists_of_load_eq_ok done
  have asked : calls = (interpret text).requests.filterMap Request.call? :=
    callsOfLoad_of_read present read
  have passed : (interpret text).requests.map Request.call? = calls.map some := by
    rw [asked]
    exact map_call?_interpret text
  have dispatched : List.Forall₂ Call.ToldBy calls ((interpret text).requests.map Request.event) :=
    Request.forall₂_toldBy passed
  refine ⟨text, (interpret text).requests.map Request.event, read, ?_,
    events_load_of_read present read, Interpretation.forall₂_toldBy text, dispatched,
    Interpretation.forall₂_sameDirective text, map_entry_passLog dispatched,
    warnings_passLog _ text, refused_not_mem_passLog _ text⟩
  rw [(load_of_read source present read).1, Engine.engine_applyAll, ← asked, present]
  rfl

/-- A comment, a line that is mapped, one that is skipped, and one that takes keys away. -/
theorem load_log_skipped_line :
    let text := "\" keys\nnmap jj <Esc>\nbogus x\n\n  vunmap q\r\n"
    let shelf : Shelf := ⟨[(".vimrc", .ok text)], 0⟩
    let host : Host Keymap := ⟨some (.empty Keymap.standardModes), .standard, none⟩
    ∃ report, (host.load shelf).answer = .ok report ∧ report.skipped = 1 ∧
      (host.load shelf).events.countP (·.level == .warn) = report.skipped ∧
      (host.load shelf).events.map Event.entry =
        [(.info, "Processing vimrc file .vimrc (5 lines)"),
          (.debug, "Successfully mapped! nmap jj <Esc>"),
          (.warn, "Could not map line 3: unrecognized directive `bogus` in `bogus x`"),
          (.debug, "Successfully mapped! vunmap q"),
          (.debug, "Bound jj -> <Esc> in normal scope"),
          (.debug, "Unbound q in visual scope"),
          (.info, "Loaded vimrc (2 mappings, 1 lines skipped)")] := by
  intro text shelf host
  let report : Report := ⟨".vimrc", 5,
    [.bind (.only .normal) "jj" "<Esc>", .unbind (.only .visual) "q"],
    [⟨2, "nmap jj <Esc>", none⟩, ⟨3, "bogus x", some (.unrecognized "bogus")⟩,
      ⟨5, "vunmap q", none⟩]⟩
  have done : (host.load shelf).answer = .ok report := by decide
  have calls : host.callsOfLoad shelf =
      [.bind "jj" "<Esc>" (some .normal), .unbind "q" (some .visual)] := by decide
  obtain ⟨text', dispatched, read, -, events, -, -, -, shown, warnings, -⟩ := load_log done
  have same : text = text' := Except.ok.inj read
  have silent : (TextSource.read shelf host.settings.directivePath).events = [] := rfl
  rw [silent, List.nil_append] at events
  refine ⟨report, done, rfl, by rw [events, warnings], ?_⟩
  rw [events, shown, calls, ← same]
  decide

end Host

end ModalKeys
