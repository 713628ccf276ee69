import ModalKeys.Yaml.Scalar

/-!
# Plain scalars that are no strings

Written plain, some texts would read as null, as a truth value or as a number. `isAmbiguous` tells
which; such a string has to be quoted. Texts of digits with a leading zero are counted among them,
since readers disagree on what they are.
-/

namespace ModalKeys.Yaml

/-- The rest of the text after `start`, if it begins so. -/
def after? : List Char → List Char → Option (List Char)
  | [], cs => some cs
  | _ :: _, [] => none
  | s :: start, c :: cs => if s == c then after? start cs else none

def isNullText (s : String) : Bool :=
  ["null", "Null", "NULL", "~"].contains s

def isBoolText (s : String) : Bool :=
  ["true", "True", "TRUE", "false", "False", "FALSE"].contains s

/-! ## Integers -/

/-- The number that digits of a base write; there has to be one. -/
def digitsIn? (base : Nat) (cs : List Char) : Option Nat :=
  if cs.isEmpty then none
  else
    cs.foldl (fun n c => do
      let n ← n
      let d ← hexValue? c
      if d < base then return base * n + d else none) (some 0)

/-- The bases that a mark before the digits states. -/
def markedBases : List (String × Nat) :=
  [("0x", 16), ("0o", 8), ("0b", 2)]

/-- Reads digits after a mark of their base. -/
def markedNumber? (cs : List Char) : Option Nat :=
  markedBases.findSome? fun (mark, base) => do digitsIn? base (← after? mark.toList cs)

/-- Digits, more than one, of which the first is a zero; a sign may stand before them. -/
def isZeroLed (cs : List Char) : Bool :=
  let digits :=
    match cs with
    | '+' :: rest | '-' :: rest => rest
    | _ => cs
  digits.length > 1 && digits.head? == some '0' && digits.all Char.isDigit

/-- The number written without a sign, with or without the mark of a base. -/
def magnitude? (cs : List Char) : Option Nat :=
  markedNumber? cs <|> digitsIn? 10 cs

/-- The text reads as an integer of at most 128 bits. -/
def isIntText (cs : List Char) : Bool :=
  let signless := magnitude? (match cs with | '+' :: rest => rest | _ => cs)
  let negative :=
    match cs with
    | '-' :: rest => magnitude? rest
    | _ => none
  !isZeroLed cs && (signless.any (· < .pow 2 128) || negative.any (· ≤ .pow 2 127))

/-! ## Decimal fractions -/

/-- A decimal number: its digits read as one integer, and the power of ten that scales it. -/
structure Decimal where
  digits : Nat
  exponent : Int
deriving Repr

/-- Reads the part after the digits: nothing, or a letter, a sign and an exponent. -/
def exponentOf? (cs : List Char) : Option Int :=
  match cs with
  | [] => some 0
  | c :: rest =>
    if c != 'e' && c != 'E' then none
    else
      match rest with
      | '-' :: ds => (digitsIn? 10 ds).map fun n => -(n : Int)
      | '+' :: ds => (digitsIn? 10 ds).map Int.ofNat
      | ds => (digitsIn? 10 ds).map Int.ofNat

/-- Reads a decimal number without a sign; digits may be missing on one side of the point. -/
def decimal? (cs : List Char) : Option Decimal := do
  let whole := cs.takeWhile Char.isDigit
  let rest := cs.dropWhile Char.isDigit
  let (fraction, rest) :=
    match rest with
    | '.' :: tail => (tail.takeWhile Char.isDigit, tail.dropWhile Char.isDigit)
    | _ => ([], rest)
  let digits ← digitsIn? 10 (whole ++ fraction)
  let exponent ← exponentOf? rest
  return ⟨digits, exponent - fraction.length⟩

/-- The least number that is rounded to infinity: the largest double and half a step more. -/
def overflowBound : Nat :=
  .pow 2 1024 - .pow 2 970

/-- The number is not too large for a double. For most numbers the order of magnitude decides. -/
def Decimal.isFinite (d : Decimal) : Bool :=
  let magnitude := (Nat.toDigits 10 d.digits).length + d.exponent
  if d.digits = 0 || magnitude < 308 then true
  else if magnitude > 310 then false
  else d.digits * .pow 10 d.exponent.toNat < overflowBound * .pow 10 (-d.exponent).toNat

/-- The text reads as a number with a fraction or an exponent, as an infinity or as no number. -/
def isFloatText (cs : List Char) : Bool :=
  let isOne (names : List String) (cs : List Char) := names.any (·.toList == cs)
  let signless := match cs with | '+' :: rest | '-' :: rest => rest | _ => cs
  isOne [".inf", ".Inf", ".INF"] signless || isOne [".nan", ".NaN", ".NAN"] cs ||
    (decimal? signless).any Decimal.isFinite

/-- Written plain, the text would be read as something else than a string. -/
def isAmbiguous (s : String) : Bool :=
  let cs := s.toList
  cs.isEmpty || isNullText s || isBoolText s || isIntText cs || isZeroLed cs || isFloatText cs

end ModalKeys.Yaml
