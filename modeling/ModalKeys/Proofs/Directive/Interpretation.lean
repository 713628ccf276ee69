import ModalKeys.Directive.Interpretation
import ModalKeys.Proofs.Text.Lines

/-!
# Interpretation, line by line

A line is interpreted on its own: what becomes of it depends on its words alone, and neither on its
number nor on the other lines. It gives a request when its words spell the request by one of the
eight keywords (`request?_eq_some_iff`), and any other directive is refused with the one fault that
its words have (`Request.ofDirective_eq_error_iff`).
-/

namespace ModalKeys

/-! ### Names of modes and scopes -/

theorem Mode.name_injective : Function.Injective Mode.name := by
  intro m n
  cases m <;> cases n <;> decide

theorem Scope.name_injective : Function.Injective Scope.name := by
  intro s t
  rcases s with (_ | _ | _) | _ <;> rcases t with (_ | _ | _) | _ <;> decide

/-! ### Keywords -/

namespace Command

theorem mem_table (c : Command) : (c.keyword, c) ∈ table := by
  obtain ⟨operation, scope⟩ := c
  cases operation <;> rcases scope with (_ | _ | _) | _ <;> decide

theorem ofKeyword?_keyword (c : Command) : ofKeyword? c.keyword = some c := by
  -- the table has no keyword twice, so each entry is the one that is found
  have found : ∀ entry ∈ table, ofKeyword? entry.1 = some entry.2 := by decide
  exact found (c.keyword, c) (mem_table c)

theorem ofKeyword?_eq_some_iff {keyword : String} {c : Command} :
    ofKeyword? keyword = some c ↔ keyword = c.keyword := by
  constructor
  · intro found
    obtain ⟨before, after, split, -⟩ := List.lookup_eq_some_iff.mp found
    have listed : (keyword, c) ∈ table := by
      rw [split]
      exact List.mem_append_right before List.mem_cons_self
    have spelled : ∀ entry ∈ table, entry.1 = entry.2.keyword := by decide
    exact spelled _ listed
  · rintro rfl
    exact ofKeyword?_keyword c

theorem head?_keyword (c : Command) : c.keyword.toList.head? ≠ some Line.commentMarker := by
  have plain : ∀ entry ∈ table, entry.1.toList.head? ≠ some Line.commentMarker := by decide
  exact plain (c.keyword, c) (mem_table c)

theorem isWord_keyword (c : Command) : Text.IsWord c.keyword.toList := by
  have words : ∀ entry ∈ table, Text.IsWord entry.1.toList := by decide
  exact words (c.keyword, c) (mem_table c)

end Command

/-! ### Directives -/

/-- The words that spell a request. -/
inductive Request.Spelled : Request → List String → Prop where
  | bind (scope : Scope) (lhs rhs : String) :
    Spelled (.bind scope lhs rhs) [Command.keyword ⟨.bind, scope⟩, lhs, rhs]
  | unbind (scope : Scope) (lhs : String) :
    Spelled (.unbind scope lhs) [Command.keyword ⟨.unbind, scope⟩, lhs]

theorem Request.Spelled.exists_keyword {r : Request} {first : String} {others : List String}
    (spelled : r.Spelled (first :: others)) : ∃ c : Command, first = c.keyword := by
  cases spelled with
  | bind scope lhs rhs => exact ⟨⟨.bind, scope⟩, rfl⟩
  | unbind scope lhs => exact ⟨⟨.unbind, scope⟩, rfl⟩

theorem Request.ofDirective_eq_ok_iff {keyword : String} {operands : List String} {r : Request} :
    Request.ofDirective keyword operands = .ok r ↔ r.Spelled (keyword :: operands) := by
  constructor
  · intro read
    unfold Request.ofDirective at read
    split at read
    · cases read
    · next c found =>
      obtain ⟨operation, scope⟩ := c
      obtain rfl := Command.ofKeyword?_eq_some_iff.mp found
      split at read
      · next kind =>
        cases kind
        cases read
        exact .bind scope _ _
      · next kind =>
        cases kind
        cases read
        exact .unbind scope _
      · split at read <;> cases read
  · intro spelled
    cases spelled with
    | bind scope lhs rhs =>
      unfold Request.ofDirective
      rw [Command.ofKeyword?_keyword]
    | unbind scope lhs =>
      unfold Request.ofDirective
      rw [Command.ofKeyword?_keyword]

/-- What is wrong with a directive, by its first word and the number of the others. -/
inductive Fault.Found : Fault → String → Nat → Prop where
  | unrecognized {first : String} {n : Nat} (unknown : ∀ c : Command, first ≠ c.keyword) :
    Found (.unrecognized first) first n
  | missing {c : Command} {n : Nat} (fewer : n < c.operation.arity) :
    Found (.missingOperand c.operation.arity n) c.keyword n
  | unexpected {c : Command} {n : Nat} (more : c.operation.arity < n) :
    Found (.unexpectedOperand c.operation.arity n) c.keyword n

/-- With the right number of operands there is a request. -/
theorem Request.exists_ofDirective {c : Command} {operands : List String}
    (right : operands.length = c.operation.arity) :
    ∃ r, Request.ofDirective c.keyword operands = .ok r := by
  obtain ⟨operation, scope⟩ := c
  cases operation with
  | bind =>
    match operands, right with
    | [lhs, rhs], _ => exact ⟨_, Request.ofDirective_eq_ok_iff.mpr (.bind scope lhs rhs)⟩
  | unbind =>
    match operands, right with
    | [lhs], _ => exact ⟨_, Request.ofDirective_eq_ok_iff.mpr (.unbind scope lhs)⟩

theorem Request.ofDirective_of_length_ne {c : Command} {operands : List String}
    (wrong : operands.length ≠ c.operation.arity) :
    Request.ofDirective c.keyword operands =
      .error (if operands.length < c.operation.arity
        then .missingOperand c.operation.arity operands.length
        else .unexpectedOperand c.operation.arity operands.length) := by
  unfold Request.ofDirective
  rw [Command.ofKeyword?_keyword]
  dsimp only
  split
  · next bind => simp [bind, Operation.arity] at wrong
  · next unbind => simp [unbind, Operation.arity] at wrong
  · split <;> rfl

theorem Request.ofDirective_eq_error_iff {keyword : String} {operands : List String}
    {fault : Fault} : Request.ofDirective keyword operands = .error fault ↔
      fault.Found keyword operands.length := by
  constructor
  · intro refused
    cases known : Command.ofKeyword? keyword with
    | none =>
      unfold Request.ofDirective at refused
      rw [known] at refused
      cases refused
      refine .unrecognized fun c spelled => ?_
      rw [spelled, Command.ofKeyword?_keyword] at known
      cases known
    | some c =>
      obtain rfl := Command.ofKeyword?_eq_some_iff.mp known
      by_cases right : operands.length = c.operation.arity
      · obtain ⟨r, read⟩ := Request.exists_ofDirective right
        rw [read] at refused
        cases refused
      · rw [Request.ofDirective_of_length_ne right] at refused
        split at refused
        · next fewer =>
          cases refused
          exact .missing fewer
        · next enough =>
          cases refused
          exact .unexpected (by omega)
  · intro found
    cases found with
    | unrecognized unknown =>
      have unnamed : Command.ofKeyword? keyword = none := by
        refine Option.eq_none_iff_forall_ne_some.mpr fun c found => ?_
        exact unknown c (Command.ofKeyword?_eq_some_iff.mp found)
      unfold Request.ofDirective
      rw [unnamed]
    | missing fewer =>
      rw [Request.ofDirective_of_length_ne (Nat.ne_of_lt fewer), if_pos fewer]
    | unexpected more =>
      rw [Request.ofDirective_of_length_ne (Nat.ne_of_gt more), if_neg (Nat.not_lt_of_gt more)]

theorem Request.keyword_of_unrecognized {keyword word : String} {operands : List String}
    (refused : Request.ofDirective keyword operands = .error (.unrecognized word)) :
    word = keyword := by
  cases Request.ofDirective_eq_error_iff.mp refused
  rfl

/-! ### Lines -/

namespace Line

/-- The words of a line, as texts. -/
def tokens (cs : List Char) : List String :=
  (Text.words cs).map String.ofList

/-- The request that a line gives. -/
def request? : Line → Option Request
  | .directive keyword operands => (Request.ofDirective keyword operands).toOption
  | _ => none

/-- Why a line is skipped. -/
def fault? : Line → Option Fault
  | .directive keyword operands =>
    match Request.ofDirective keyword operands with
    | .ok _ => none
    | .error fault => some fault
  | _ => none

theorem request?_eq_some_iff {cs : List Char} {r : Request} :
    (ofChars cs).request? = some r ↔ r.Spelled (tokens cs) := by
  unfold ofChars tokens
  cases Text.words cs with
  | nil =>
    constructor
    · intro read
      cases read
    · intro spelled
      cases spelled
  | cons w ws =>
    rw [ofWords, List.map_cons]
    split
    · next marked =>
      constructor
      · intro read
        cases read
      · intro spelled
        -- the first word of a comment begins with the marker, and no keyword does
        obtain ⟨c, first⟩ := spelled.exists_keyword
        have plain := c.head?_keyword
        rw [← first, String.toList_ofList] at plain
        contradiction
    · rw [request?, ← Request.ofDirective_eq_ok_iff]
      cases Request.ofDirective (String.ofList w) (ws.map String.ofList) <;>
        simp [Except.toOption]

theorem ofChars_chomp (cs : List Char) : ofChars (Text.chomp cs) = ofChars cs := by
  rw [ofChars, Text.words_chomp]
  rfl

theorem ofChars_trim (cs : List Char) : ofChars (Text.trim cs) = ofChars cs := by
  rw [ofChars, Text.words_trim]
  rfl

/-- What a line asks for is written in it: its keys are words of the line. -/
theorem isWord_of_request? {cs : List Char} {r : Request} (given : (ofChars cs).request? = some r) :
    Text.IsWord r.lhs.toList ∧ ∀ rhs ∈ r.rhs, Text.IsWord rhs.toList := by
  have words : ∀ s ∈ tokens cs, Text.IsWord s.toList := by
    intro s member
    obtain ⟨w, inside, rfl⟩ := List.mem_map.mp member
    rw [String.toList_ofList]
    exact Text.isWord_of_mem_words inside
  have spelled := request?_eq_some_iff.mp given
  -- the words are forgotten but for the fact that they are words
  generalize tokens cs = ts at words spelled
  cases spelled with
  | bind scope lhs rhs =>
    refine ⟨words lhs (by simp), fun x member => ?_⟩
    cases member
    exact words rhs (by simp)
  | unbind scope lhs => exact ⟨words lhs (by simp), fun x member => by cases member⟩

theorem isWord_of_unrecognized {cs : List Char} {word : String}
    (fault : (ofChars cs).fault? = some (.unrecognized word)) : Text.IsWord word.toList := by
  unfold ofChars at fault
  cases split : Text.words cs with
  | nil =>
    rw [split] at fault
    cases fault
  | cons w ws =>
    rw [split, ofWords] at fault
    split at fault
    · cases fault
    · rw [fault?] at fault
      cases read : Request.ofDirective (String.ofList w) (ws.map String.ofList) with
      | ok r => simp [read] at fault
      | error e =>
        simp only [read, Option.some.injEq] at fault
        rw [fault] at read
        rw [Request.keyword_of_unrecognized read, String.toList_ofList]
        exact Text.isWord_of_mem_words (split ▸ List.mem_cons_self)

/-- A line that gives a request is not skipped. -/
theorem fault?_of_request? {l : Line} {r : Request} (given : l.request? = some r) :
    l.fault? = none := by
  cases l with
  | blank => rfl
  | comment => rfl
  | directive keyword operands =>
    rw [request?] at given
    rw [fault?]
    cases read : Request.ofDirective keyword operands with
    | ok r => rfl
    | error fault => simp [read, Except.toOption] at given

end Line

/-! ### Files -/

/-- What is told of a line with a number: nothing of a blank line or a comment. -/
def Diagnostic.ofLine (n : Nat) (cs : List Char) : Option Diagnostic :=
  match Line.ofChars cs with
  | .directive _ _ => some ⟨n, .ofList (Text.trim cs), (Line.ofChars cs).fault?⟩
  | _ => none

theorem Diagnostic.isProblem_ofLine {n : Nat} {cs : List Char} :
    (∀ d ∈ Diagnostic.ofLine n cs, d.isProblem = false) ↔ (Line.ofChars cs).fault? = none := by
  unfold Diagnostic.ofLine
  cases Line.ofChars cs <;> simp [Diagnostic.isProblem, Line.fault?]

namespace Interpretation

/-- A line adds what it gives, what is told of it, and one to the count, whatever comes after it. -/
theorem consLine_eq (n : Nat) (l : List Char) (rest : Interpretation) :
    consLine n l rest = ⟨(Line.ofChars l).request?.toList ++ rest.requests,
      (Diagnostic.ofLine n l).toList ++ rest.diagnostics, rest.lineCount + 1⟩ := by
  unfold consLine Diagnostic.ofLine
  cases kind : Line.ofChars l with
  | blank => rfl
  | comment => rfl
  | directive keyword operands =>
    cases read : Request.ofDirective keyword operands <;>
      simp [read, Line.request?, Line.fault?, Except.toOption]

theorem requests_ofLinesFrom (n : Nat) (ls : List (List Char)) :
    (ofLinesFrom n ls).requests = ls.filterMap fun l => (Line.ofChars l).request? := by
  induction ls generalizing n with
  | nil => rfl
  | cons l ls ih =>
    rw [ofLinesFrom, consLine_eq, List.filterMap_cons, ih]
    cases (Line.ofChars l).request? <;> rfl

theorem diagnostics_ofLinesFrom (n : Nat) (ls : List (List Char)) :
    (ofLinesFrom n ls).diagnostics =
      (ls.zipIdx n).filterMap fun p => Diagnostic.ofLine p.2 p.1 := by
  induction ls generalizing n with
  | nil => rfl
  | cons l ls ih =>
    rw [ofLinesFrom, consLine_eq, List.zipIdx_cons, List.filterMap_cons, ih]
    cases Diagnostic.ofLine n l <;> simp

theorem lineCount_ofLinesFrom (n : Nat) (ls : List (List Char)) :
    (ofLinesFrom n ls).lineCount = ls.length := by
  induction ls generalizing n with
  | nil => rfl
  | cons l ls ih => rw [ofLinesFrom, consLine_eq, ih, List.length_cons]

theorem problems_ofLinesFrom_eq_nil_iff (n : Nat) (ls : List (List Char)) :
    (ofLinesFrom n ls).problems = [] ↔ ∀ l ∈ ls, (Line.ofChars l).fault? = none := by
  induction ls generalizing n with
  | nil => simp [ofLinesFrom, empty, problems]
  | cons l ls ih =>
    rw [List.forall_mem_cons, ← ih (n + 1), ← Diagnostic.isProblem_ofLine (n := n), ofLinesFrom,
      consLine_eq]
    simp [problems]

theorem requests_interpret (text : String) : (interpret text).requests =
    (Text.lines text.toList).filterMap fun l => (Line.ofChars l).request? :=
  requests_ofLinesFrom 1 _

theorem diagnostics_interpret (text : String) : (interpret text).diagnostics =
    ((Text.lines text.toList).zipIdx 1).filterMap fun p => Diagnostic.ofLine p.2 p.1 :=
  diagnostics_ofLinesFrom 1 _

/-- A text without a line feed is interpreted as one line, even when it is empty. -/
theorem interpret_of_not_mem {text : String} (single : '\n' ∉ text.toList) :
    (interpret text).requests = (Line.ofChars text.toList).request?.toList ∧
    (interpret text).diagnostics = (Diagnostic.ofLine 1 text.toList).toList := by
  by_cases empty : text.toList = []
  · rw [interpret, empty]
    exact ⟨rfl, rfl⟩
  · rw [interpret, Text.lines_of_not_mem single empty, ofLinesFrom, consLine_eq]
    simp [ofLinesFrom, Interpretation.empty]

/-- A file whose lines are all ended is interpreted by what stands before their ends. -/
theorem interpret_ended {text : String} {ls : List (List Char)} (inside : ∀ l ∈ ls, '\n' ∉ l)
    (written : text.toList = ls.flatMap (· ++ ['\n'])) :
    (interpret text).requests = (ls.filterMap fun l => (Line.ofChars l).request?) ∧
    (interpret text).lineCount = ls.length ∧
    ((interpret text).problems = [] ↔ ∀ l ∈ ls, (Line.ofChars l).fault? = none) := by
  -- a carriage return at the end of a line is lost, and it is a blank
  have split : Text.lines text.toList = ls.map Text.chomp := by
    have lines := Text.lines_ended inside []
    rwa [List.append_nil, ← written, Text.lines_nil, List.append_nil] at lines
  rw [interpret, split, requests_ofLinesFrom, lineCount_ofLinesFrom,
    problems_ofLinesFrom_eq_nil_iff]
  simp only [List.filterMap_map, List.length_map, List.forall_mem_map, Function.comp_def,
    Line.ofChars_chomp]
  exact ⟨trivial, trivial, trivial⟩

end Interpretation

end ModalKeys
