import Mathlib.Tactic.SplitIfs
import ModalKeys.Json.Basic

/-!
# JSON texts are unambiguous

A value can be told from either of its texts. The two are written alike but for what stands between
the parts of a value, so both are cases of `Layout.write`. Two writings are compared from the front,
with any text after them. The first character tells what kind of value it is
(`kind_eq_of_write_append`), a string ends at the first quote that is not escaped
(`quoted_cancel`), and a number where its digits end (`toDigits_cancel`). `write_cancel` puts these
together along the value.
-/

namespace ModalKeys.Json

/-! ### Strings -/

/-- The number that a hexadecimal digit stands for. -/
def hexValue (digit : Char) : Nat :=
  if digit.isDigit then digit.toNat - 48 else digit.toNat - 87

/-- Reads one character of a string back, with what stands after it. There is none at the end. -/
def unescape : List Char → Option (Char × List Char)
  | [] => none
  | '"' :: _ => none
  | '\\' :: 'n' :: rest => some ('\n', rest)
  | '\\' :: 'r' :: rest => some ('\r', rest)
  | '\\' :: 't' :: rest => some ('\t', rest)
  | '\\' :: 'b' :: rest => some ('\x08', rest)
  | '\\' :: 'f' :: rest => some ('\x0c', rest)
  | '\\' :: 'u' :: '0' :: '0' :: high :: low :: rest =>
    some (.ofNat (16 * hexValue high + hexValue low), rest)
  | '\\' :: c :: rest => some (c, rest)
  | c :: rest => some (c, rest)

theorem hexValue_hexDigit : ∀ n < 16, hexValue (hexDigit n) = n := by
  decide

theorem unescape_quote (rest : List Char) : unescape ('"' :: rest) = none := rfl

theorem unescape_escape (c : Char) (rest : List Char) :
    unescape (escape c ++ rest) = some (c, rest) := by
  unfold escape
  split_ifs with quote backslash feed ret tab back form control
  · simp [unescape, quote]
  · simp [unescape, backslash]
  · simp [unescape, feed]
  · simp [unescape, ret]
  · simp [unescape, tab]
  · simp [unescape, back]
  · simp [unescape, form]
  · have high := hexValue_hexDigit (c.toNat / 16) (by omega)
    have low := hexValue_hexDigit (c.toNat % 16) (by omega)
    have value : 16 * (c.toNat / 16) + c.toNat % 16 = c.toNat := by omega
    simp [unescape, high, low, value]
  · simp [unescape, backslash]

/-- A string ends at the first quote that does not belong to an escape. -/
theorem flatMap_escape_cancel {cs ds x y : List Char}
    (same : cs.flatMap escape ++ '"' :: x = ds.flatMap escape ++ '"' :: y) : cs = ds ∧ x = y := by
  -- both are read back from the front, one character of the string at a time
  induction cs generalizing ds with
  | nil =>
    cases ds with
    | nil => simpa using same
    | cons d ds =>
      have read := congrArg unescape same
      simp only [List.flatMap_nil, List.nil_append, List.flatMap_cons, List.append_assoc,
        unescape_quote, unescape_escape] at read
      cases read
  | cons c cs ih =>
    have read := congrArg unescape same
    cases ds with
    | nil =>
      simp only [List.flatMap_nil, List.nil_append, List.flatMap_cons, List.append_assoc,
        unescape_quote, unescape_escape] at read
      cases read
    | cons d ds =>
      simp only [List.flatMap_cons, List.append_assoc, unescape_escape, Option.some.injEq,
        Prod.mk.injEq] at read
      obtain ⟨rfl, rest⟩ := read
      obtain ⟨rfl, after⟩ := ih rest
      exact ⟨rfl, after⟩

theorem quoted_cancel {s t : String} {x y : List Char} (same : quoted s ++ x = quoted t ++ y) :
    s = t ∧ x = y := by
  simp only [quoted, List.cons_append, List.append_assoc, List.nil_append, List.cons.injEq,
    true_and] at same
  obtain ⟨chars, after⟩ := flatMap_escape_cancel same
  exact ⟨String.toList_inj.mp chars, after⟩

/-! ### Numbers -/

/-- The text does not go on with digits. -/
def Stops (cs : List Char) : Prop :=
  ∀ c ∈ cs.head?, c.isDigit = false

theorem takeWhile_toDigits {x : List Char} (n : Nat) (stops : Stops x) :
    (Nat.toDigits 10 n ++ x).takeWhile Char.isDigit = Nat.toDigits 10 n := by
  have digits : ∀ c ∈ Nat.toDigits 10 n, c.isDigit = true := fun _ member =>
    Nat.isDigit_of_mem_toDigits (by decide) (by decide) member
  have rest : x.takeWhile Char.isDigit = [] := by
    cases x with
    | nil => rfl
    | cons c x => exact List.takeWhile_cons_of_neg (by simp [stops c rfl])
  rw [List.takeWhile_append_of_pos digits, rest, List.append_nil]

theorem toDigits_cancel {n m : Nat} {x y : List Char} (stops : Stops x) (stops' : Stops y)
    (same : Nat.toDigits 10 n ++ x = Nat.toDigits 10 m ++ y) : n = m ∧ x = y := by
  have digits : Nat.toDigits 10 n = Nat.toDigits 10 m := by
    rw [← takeWhile_toDigits n stops, same, takeWhile_toDigits m stops']
  refine ⟨?_, ?_⟩
  · calc
      n = Nat.ofDigitChars 10 (Nat.toDigits 10 n) 0 := Nat.ofDigitChars_ten_toDigits.symm
      _ = Nat.ofDigitChars 10 (Nat.toDigits 10 m) 0 := by rw [digits]
      _ = m := Nat.ofDigitChars_ten_toDigits
  · rw [digits] at same
    exact List.append_cancel_left same

/-! ### Kinds of values -/

inductive Kind where
  | null
  | number
  | string
  | array
  | object
deriving DecidableEq

def kind : Json → Kind
  | null => .null
  | num _ => .number
  | str _ => .string
  | arr _ => .array
  | obj _ => .object

/-- The kind of the values that begin with a character. -/
def Kind.ofChar? (c : Char) : Option Kind :=
  if c.isDigit then some .number
  else if c = 'n' then some .null
  else if c = '"' then some .string
  else if c = '[' then some .array
  else if c = '\x7b' then some .object
  else none

/-! ### Texts with any layout -/

/-- What stands between the parts of a value: before each item and before the bracket that closes,
by the level, and after the name of a field. -/
structure Layout where
  gap : Nat → List Char
  colon : List Char
  blank : ∀ level, ∀ c ∈ gap level, c = '\n' ∨ c = ' '

namespace Layout

mutual

def write (l : Layout) (level : Nat) : Json → List Char
  | .null => ['n', 'u', 'l', 'l']
  | .num n => Nat.toDigits 10 n
  | .str s => quoted s
  | .arr [] => ['[', ']']
  | .arr items => l.writeItems level '[' items
  | .obj [] => ['\x7b', '\x7d']
  | .obj fields => l.writeFields level '\x7b' fields

/-- The items of an array, the first one after `mark`, and the end of the array. -/
def writeItems (l : Layout) (level : Nat) (mark : Char) : List Json → List Char
  | [] => l.gap level ++ [']']
  | j :: rest => mark :: l.gap (level + 1) ++ l.write (level + 1) j ++ l.writeItems level ',' rest

/-- The fields of an object, the first one after `mark`, and the end of the object. -/
def writeFields (l : Layout) (level : Nat) (mark : Char) : List (String × Json) → List Char
  | [] => l.gap level ++ ['\x7d']
  | (name, j) :: rest =>
    mark :: l.gap (level + 1) ++ quoted name ++ l.colon ++ l.write (level + 1) j ++
      l.writeFields level ',' rest

end

variable {l : Layout} {level : Nat} {c d mark : Char} {x y cs ds : List Char}

/-! ### The first characters -/

theorem head_gap_append (same : l.gap level ++ c :: cs = d :: ds) : d = c ∨ d = '\n' ∨ d = ' ' := by
  cases gap : l.gap level with
  | nil =>
    rw [gap] at same
    exact .inl (List.cons.inj same).1.symm
  | cons b bs =>
    rw [gap] at same
    obtain rfl := (List.cons.inj same).1
    exact .inr (l.blank level b (by simp [gap]))

theorem stops_gap_append (other : c.isDigit = false) : Stops (l.gap level ++ c :: cs) := by
  intro d first
  obtain ⟨ds, same⟩ := List.head?_eq_some_iff.mp first
  rcases head_gap_append same with rfl | rfl | rfl
  · exact other
  · rfl
  · rfl

theorem stops_writeItems (items : List Json) : Stops (l.writeItems level ',' items ++ x) := by
  cases items with
  | nil =>
    rw [writeItems, List.append_assoc]
    exact stops_gap_append rfl
  | cons j rest =>
    intro d first
    cases first
    rfl

theorem stops_writeFields (fields : List (String × Json)) :
    Stops (l.writeFields level ',' fields ++ x) := by
  cases fields with
  | nil =>
    rw [writeFields, List.append_assoc]
    exact stops_gap_append rfl
  | cons field rest =>
    intro d first
    cases first
    rfl

theorem exists_write_eq_cons (l : Layout) (level : Nat) (j : Json) :
    ∃ c cs, l.write level j = c :: cs ∧ Kind.ofChar? c = some j.kind := by
  cases j with
  | null => exact ⟨_, _, rfl, rfl⟩
  | num n =>
    obtain ⟨c, cs, split⟩ := List.exists_cons_of_ne_nil (Nat.toDigits_ne_nil (n := n) (b := 10))
    have digit : c.isDigit = true :=
      Nat.isDigit_of_mem_toDigits (by decide) (by decide) (split ▸ List.mem_cons_self)
    exact ⟨c, cs, by rw [write, split], by simp [Kind.ofChar?, digit, kind]⟩
  | str s => exact ⟨_, _, rfl, rfl⟩
  | arr items => cases items <;> exact ⟨_, _, rfl, rfl⟩
  | obj fields => cases fields <;> exact ⟨_, _, rfl, rfl⟩

theorem kind_eq_of_write_append {a b : Json} (same : l.write level a ++ x = l.write level b ++ y) :
    a.kind = b.kind := by
  obtain ⟨c, cs, split, first⟩ := l.exists_write_eq_cons level a
  obtain ⟨d, ds, split', first'⟩ := l.exists_write_eq_cons level b
  rw [split, split'] at same
  obtain rfl : c = d := (List.cons.inj same).1
  exact Option.some.inj (first.symm.trans first')

/-- After the bracket that opens an array, its end cannot be taken for an item. -/
theorem write_arr_nil_append_ne (j : Json) (rest : List Json) :
    l.write level (.arr []) ++ x ≠ l.write level (.arr (j :: rest)) ++ y := by
  intro same
  obtain ⟨c, cs, split, first⟩ := l.exists_write_eq_cons (level + 1) j
  simp only [write, writeItems, split, List.cons_append, List.append_assoc, List.cons.injEq,
    true_and] at same
  rcases head_gap_append same.symm with rfl | blank | blank
  · cases first
  · cases blank
  · cases blank

theorem write_obj_nil_append_ne (field : String × Json) (rest : List (String × Json)) :
    l.write level (.obj []) ++ x ≠ l.write level (.obj (field :: rest)) ++ y := by
  intro same
  simp only [write, writeFields, quoted, List.cons_append, List.append_assoc, List.cons.injEq,
    true_and] at same
  rcases head_gap_append same.symm with quote | blank | blank
  · cases quote
  · cases blank
  · cases blank

/-- What stands before an item or a field cannot be taken for the end. -/
theorem gap_close_ne (marks : mark ∈ ['[', '\x7b', ',']) (closes : c ∈ [']', '\x7d']) :
    l.gap level ++ c :: cs ≠ mark :: ds := by
  intro same
  rcases head_gap_append same with rfl | rfl | rfl
  · simp only [List.mem_cons, List.not_mem_nil, or_false] at closes
    rcases closes with rfl | rfl <;> simp at marks
  · simp at marks
  · simp at marks

theorem writeItems_nil_append_ne (marks : mark ∈ ['[', '\x7b', ',']) (j : Json)
    (rest : List Json) :
    l.writeItems level mark [] ++ x ≠ l.writeItems level mark (j :: rest) ++ y := by
  rw [writeItems, List.append_assoc]
  exact gap_close_ne marks (by decide)

theorem writeFields_nil_append_ne (marks : mark ∈ ['[', '\x7b', ',']) (field : String × Json)
    (rest : List (String × Json)) :
    l.writeFields level mark [] ++ x ≠ l.writeFields level mark (field :: rest) ++ y := by
  rw [writeFields, List.append_assoc]
  exact gap_close_ne marks (by decide)

/-! ### Reading from the front -/

mutual

/-- Two texts that begin with a value begin with the same value. -/
theorem write_cancel (l : Layout) (level : Nat) {x y : List Char} (stops : Stops x)
    (stops' : Stops y) :
    ∀ a b : Json, l.write level a ++ x = l.write level b ++ y → a = b ∧ x = y
  | .null, b, same => by
    have kind := kind_eq_of_write_append same
    cases b with
    | null => exact ⟨rfl, List.append_cancel_left same⟩
    | _ => cases kind
  | .num n, b, same => by
    have kind := kind_eq_of_write_append same
    cases b with
    | num m =>
      obtain ⟨rfl, after⟩ := toDigits_cancel stops stops' same
      exact ⟨rfl, after⟩
    | _ => cases kind
  | .str s, b, same => by
    have kind := kind_eq_of_write_append same
    cases b with
    | str t =>
      obtain ⟨rfl, after⟩ := quoted_cancel same
      exact ⟨rfl, after⟩
    | _ => cases kind
  | .arr items, b, same => by
    have kind := kind_eq_of_write_append same
    cases b with
    | arr items' =>
      match items, items' with
      | [], [] => exact ⟨rfl, List.append_cancel_left same⟩
      | [], j :: rest => exact absurd same (write_arr_nil_append_ne j rest)
      | i :: rest, [] => exact absurd same.symm (write_arr_nil_append_ne i rest)
      | i :: rest, j :: rest' =>
        obtain ⟨items, after⟩ :=
          writeItems_cancel l level '[' (by decide) (i :: rest) (j :: rest') same
        exact ⟨congrArg Json.arr items, after⟩
    | _ => cases kind
  | .obj fields, b, same => by
    have kind := kind_eq_of_write_append same
    cases b with
    | obj fields' =>
      match fields, fields' with
      | [], [] => exact ⟨rfl, List.append_cancel_left same⟩
      | [], g :: rest => exact absurd same (write_obj_nil_append_ne g rest)
      | f :: rest, [] => exact absurd same.symm (write_obj_nil_append_ne f rest)
      | f :: rest, g :: rest' =>
        obtain ⟨fields, after⟩ :=
          writeFields_cancel l level '\x7b' (by decide) (f :: rest) (g :: rest') same
        exact ⟨congrArg Json.obj fields, after⟩
    | _ => cases kind

theorem writeItems_cancel (l : Layout) (level : Nat) (mark : Char)
    (marks : mark ∈ ['[', '\x7b', ',']) {x y : List Char} : ∀ is js : List Json,
    l.writeItems level mark is ++ x = l.writeItems level mark js ++ y → is = js ∧ x = y
  | [], [], same => ⟨rfl, List.append_cancel_left same⟩
  | [], j :: rest, same => absurd same (writeItems_nil_append_ne marks j rest)
  | i :: rest, [], same => absurd same.symm (writeItems_nil_append_ne marks i rest)
  | i :: rest, j :: rest', same => by
    simp only [writeItems, List.cons_append, List.append_assoc, List.cons.injEq, true_and,
      List.append_right_inj] at same
    obtain ⟨rfl, later⟩ :=
      write_cancel l (level + 1) (stops_writeItems rest) (stops_writeItems rest') i j same
    obtain ⟨rfl, after⟩ := writeItems_cancel l level ',' (by decide) rest rest' later
    exact ⟨rfl, after⟩

theorem writeFields_cancel (l : Layout) (level : Nat) (mark : Char)
    (marks : mark ∈ ['[', '\x7b', ',']) {x y : List Char} : ∀ fs gs : List (String × Json),
    l.writeFields level mark fs ++ x = l.writeFields level mark gs ++ y → fs = gs ∧ x = y
  | [], [], same => ⟨rfl, List.append_cancel_left same⟩
  | [], g :: rest, same => absurd same (writeFields_nil_append_ne marks g rest)
  | f :: rest, [], same => absurd same.symm (writeFields_nil_append_ne marks f rest)
  | (name, i) :: rest, (name', j) :: rest', same => by
    simp only [writeFields, List.cons_append, List.append_assoc, List.cons.injEq, true_and,
      List.append_right_inj] at same
    obtain ⟨rfl, value⟩ := quoted_cancel same
    obtain ⟨rfl, later⟩ := write_cancel l (level + 1) (stops_writeFields rest)
      (stops_writeFields rest') i j (List.append_cancel_left value)
    obtain ⟨rfl, after⟩ := writeFields_cancel l level ',' (by decide) rest rest' later
    exact ⟨rfl, after⟩

end

theorem write_inj (l : Layout) (level : Nat) {a b : Json} :
    l.write level a = l.write level b ↔ a = b := by
  constructor
  · intro same
    have nothing : Stops [] := fun _ first => by cases first
    exact (write_cancel l level nothing nothing a b (by rw [same])).1
  · intro same
    rw [same]

end Layout

/-! ### The two texts -/

def compactLayout : Layout :=
  ⟨fun _ => [], [':'], fun _ _ member => by cases member⟩

def prettyLayout : Layout where
  gap := newline
  colon := [':', ' ']
  blank level c member := by
    rcases List.mem_cons.mp member with rfl | inside
    · exact .inl rfl
    · exact .inr (List.eq_of_mem_replicate inside)

mutual

theorem compactChars_eq_write (level : Nat) :
    ∀ j : Json, j.compactChars = compactLayout.write level j
  | .null => rfl
  | .num _ => rfl
  | .str _ => rfl
  | .arr [] => rfl
  | .arr (j :: rest) => compactItems_eq_writeItems level '[' (j :: rest) (List.cons_ne_nil j rest)
  | .obj [] => rfl
  | .obj (f :: rest) =>
    compactFields_eq_writeFields level '\x7b' (f :: rest) (List.cons_ne_nil f rest)

theorem compactItems_eq_writeItems (level : Nat) (mark : Char) : ∀ items : List Json, items ≠ [] →
    mark :: compactItems items ++ [']'] = compactLayout.writeItems level mark items
  | [j], _ => by
    rw [compactItems, compactChars_eq_write (level + 1) j]
    simp [Layout.writeItems, compactLayout]
  | j :: k :: rest, _ => by
    have later := compactItems_eq_writeItems level ',' (k :: rest) (List.cons_ne_nil k rest)
    rw [Layout.writeItems, ← later, compactItems, compactChars_eq_write (level + 1) j]
    · simp [compactLayout]
    · simp

theorem compactFields_eq_writeFields (level : Nat) (mark : Char) :
    ∀ fields : List (String × Json), fields ≠ [] →
    mark :: compactFields fields ++ ['\x7d'] = compactLayout.writeFields level mark fields
  | [(name, j)], _ => by
    rw [compactFields, compactChars_eq_write (level + 1) j]
    simp [Layout.writeFields, compactLayout]
  | (name, j) :: g :: rest, _ => by
    have later := compactFields_eq_writeFields level ',' (g :: rest) (List.cons_ne_nil g rest)
    rw [Layout.writeFields, ← later, compactFields, compactChars_eq_write (level + 1) j]
    · simp [compactLayout]
    · simp

end

mutual

theorem prettyChars_eq_write (level : Nat) :
    ∀ j : Json, j.prettyChars level = prettyLayout.write level j
  | .null => rfl
  | .num _ => rfl
  | .str _ => rfl
  | .arr [] => rfl
  | .arr (j :: rest) => prettyItems_eq_writeItems level '[' (j :: rest) (List.cons_ne_nil j rest)
  | .obj [] => rfl
  | .obj (f :: rest) =>
    prettyFields_eq_writeFields level '\x7b' (f :: rest) (List.cons_ne_nil f rest)

theorem prettyItems_eq_writeItems (level : Nat) (mark : Char) : ∀ items : List Json, items ≠ [] →
    mark :: prettyItems (level + 1) items ++ newline level ++ [']'] =
      prettyLayout.writeItems level mark items
  | [j], _ => by
    rw [prettyItems, prettyChars_eq_write (level + 1) j]
    simp [Layout.writeItems, prettyLayout]
  | j :: k :: rest, _ => by
    have later := prettyItems_eq_writeItems level ',' (k :: rest) (List.cons_ne_nil k rest)
    rw [Layout.writeItems, ← later, prettyItems, prettyChars_eq_write (level + 1) j]
    · simp [prettyLayout]
    · simp

theorem prettyFields_eq_writeFields (level : Nat) (mark : Char) :
    ∀ fields : List (String × Json), fields ≠ [] →
    mark :: prettyFields (level + 1) fields ++ newline level ++ ['\x7d'] =
      prettyLayout.writeFields level mark fields
  | [(name, j)], _ => by
    rw [prettyFields, prettyChars_eq_write (level + 1) j]
    simp [Layout.writeFields, prettyLayout]
  | (name, j) :: g :: rest, _ => by
    have later := prettyFields_eq_writeFields level ',' (g :: rest) (List.cons_ne_nil g rest)
    rw [Layout.writeFields, ← later, prettyFields, prettyChars_eq_write (level + 1) j]
    · simp [prettyLayout]
    · simp

end

/-- No two values have the same text without blanks. -/
theorem compact_inj {a b : Json} : a.compact = b.compact ↔ a = b := by
  rw [compact, compact, compactChars_eq_write 0, compactChars_eq_write 0,
    ← compactLayout.write_inj 0]
  exact ⟨String.ofList_injective, congrArg String.ofList⟩

/-- No two values have the same indented text. -/
theorem pretty_inj {a b : Json} : a.pretty = b.pretty ↔ a = b := by
  rw [pretty, pretty, prettyChars_eq_write, prettyChars_eq_write,
    ← prettyLayout.write_inj 0]
  exact ⟨String.ofList_injective, congrArg String.ofList⟩

end ModalKeys.Json
