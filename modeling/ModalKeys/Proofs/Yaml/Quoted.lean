import Mathlib.Tactic.Ring
import ModalKeys.Proofs.Yaml.Placed

/-!
# Quoted scalars are read back

Inside quotes each character is written by itself, and what is read up to the next space or to the
last quote is what was written. This is `Quoting`; single and double quotes are two cases of it, and
the turns of reading are the same for both (`Quoting.quotedFrom_line`).
-/

namespace ModalKeys.Yaml

open Rest

/-- A part of a quoted scalar comes next. -/
def quotedPart (quote : Char) (rest : Rest) : Except Error QuotedPart :=
  if quote == '\'' then .ok (singleQuotedPart rest) else doubleQuotedPart (rest.length + 1) rest

/-- A quoted text is written so that it is read back: each character by itself, a space as it is,
and a word of the characters `G` up to a space or to the quote that ends the text. -/
structure Quoting (quote : Char) (write : Char → List Char) (G : Char → Prop) : Prop where
  ends : IsLetter quote
  space : write ' ' = [' ']
  begins : ∀ c, G c → c ≠ ' ' → ∃ d ds, write c = d :: ds ∧ IsLetter d
  part : ∀ w cs, (∀ c ∈ w, G c ∧ c ≠ ' ') → cs = [quote, '\n'] ∨ cs.head? = some ' ' →
    ∀ i l k, ∃ i' k', quotedPart quote (placeFrom i l (k + 1) (w.flatMap write ++ cs)) =
      .ok ⟨w, false, placeFrom i' l (k' + 1) cs⟩

variable {quote : Char} {write : Char → List Char} {G : Char → Prop}

theorem length_le_flatMap {cs : List Char} (filled : ∀ c ∈ cs, write c ≠ []) :
    cs.length ≤ (cs.flatMap write).length := by
  induction cs with
  | nil => exact Nat.le_refl 0
  | cons c cs ih =>
    obtain ⟨here, others⟩ := List.forall_mem_cons.mp filled
    have shorter := ih others
    have more := List.length_pos_iff.mpr here
    rw [List.flatMap_cons, List.length_append, List.length_cons]
    omega

theorem Quoting.write_ne_nil (quoting : Quoting quote write G) {c : Char} (good : G c) :
    write c ≠ [] := by
  by_cases space : c = ' '
  · simp [space, quoting.space]
  · obtain ⟨d, ds, written, -⟩ := quoting.begins c good space
    simp [written]

theorem Quoting.flatMap_spaces (quoting : Quoting quote write G) {spaces : List Char}
    (blank : ∀ c ∈ spaces, c = ' ') : spaces.flatMap write = spaces := by
  induction spaces with
  | nil => rfl
  | cons c spaces ih =>
    obtain ⟨space, others⟩ := List.forall_mem_cons.mp blank
    subst space
    rw [List.flatMap_cons, quoting.space, ih others]
    rfl

/-- One turn of reading a quoted scalar. -/
theorem quotedFrom_part (quote : Char) (steps : Nat) (text : List Char) (i l k : Nat)
    {cs : List Char} (filled : cs ≠ []) {part : QuotedPart}
    (read : quotedPart quote (placeFrom i l (k + 1) cs) = .ok part)
    (plain : part.escapedBreak = false) :
    quotedFrom quote (steps + 1) text (placeFrom i l (k + 1) cs) =
      if startsWith quote part.rest then .ok (text ++ part.text, part.rest.drop 1)
      else Gap.none.read 0 part.rest >>= fun (gap, rest) =>
        quotedFrom quote steps (text ++ part.text ++ gap.text) rest := by
  have more : (placeFrom i l (k + 1) cs).isEmpty = false := by
    obtain ⟨c, tail, rfl⟩ := List.exists_cons_of_ne_nil filled
    obtain ⟨i', l', k', placed⟩ := placeFrom_eq_cons i l (k + 1) c tail
    rw [placed]
    rfl
  rw [quotedFrom, atDocumentMark_placeFrom, more]
  simp only [bind, Except.bind, pure, Except.pure, Bool.false_eq_true, if_false]
  unfold quotedPart at read
  by_cases single : (quote == '\'') = true
  · rw [if_pos single] at read ⊢
    cases read
    simp only [plain, Bool.false_eq_true, if_false]
  · rw [if_neg single] at read ⊢
    simp only [read, plain, Bool.false_eq_true, if_false]

theorem Quoting.head_flatMap (quoting : Quoting quote write G) {cs : List Char}
    (good : ∀ c ∈ cs, G c) (begins : cs.head? ≠ some ' ') :
    ∃ d ds, cs.flatMap write ++ [quote, '\n'] = d :: ds ∧ IsLetter d := by
  cases cs with
  | nil => exact ⟨quote, ['\n'], rfl, quoting.ends⟩
  | cons c cs =>
    obtain ⟨d, ds, written, letter⟩ :=
      quoting.begins c (good c List.mem_cons_self) (by simpa using begins)
    exact ⟨d, ds ++ cs.flatMap write ++ [quote, '\n'], by simp [written], letter⟩

/-- A quoted text goes on to its last quote. -/
theorem Quoting.quotedFrom_line (quoting : Quoting quote write G) (cs : List Char) :
    (∀ c ∈ cs, G c) → ∀ (text : List Char) (i l k : Nat) {steps : Nat}, cs.length < steps →
    ∃ i' k', quotedFrom quote steps text
        (placeFrom i l (k + 1) (cs.flatMap write ++ [quote, '\n'])) =
      .ok (text ++ cs, placeFrom i' l k' ['\n']) := by
  induction cs using induction_words with
  | word w word =>
    intro good text i l k steps enough
    obtain ⟨steps, rfl⟩ := Nat.exists_eq_add_one_of_ne_zero (Nat.ne_zero_of_lt enough)
    have letters : ∀ c ∈ w, G c ∧ c ≠ ' ' := fun c member =>
      ⟨good c member, fun space => word (space ▸ member)⟩
    obtain ⟨i', k', read⟩ := quoting.part w [quote, '\n'] letters (.inl rfl) i l k
    refine ⟨i' + 1, k' + 1 + 1, ?_⟩
    rw [quotedFrom_part quote steps text i l k (by simp) read rfl]
    dsimp only
    rw [placeFrom_cons quoting.ends.2, startsWith]
    simp
  | more w blanks cs word gap blank begins ih =>
    intro good text i l k steps enough
    obtain ⟨steps, rfl⟩ := Nat.exists_eq_add_one_of_ne_zero (Nat.ne_zero_of_lt enough)
    have letters : ∀ c ∈ w, G c ∧ c ≠ ' ' := fun c member =>
      ⟨good c (List.mem_append_left _ member), fun space => word (space ▸ member)⟩
    have good' : ∀ c ∈ cs, G c := fun c member => good c (by simp [member])
    have first : blanks.head? = some ' ' := head?_spaces gap blank
    have enough' : cs.length < steps := by
      have more := List.length_pos_iff.mpr gap
      simp only [List.length_append] at enough
      omega
    -- the spaces do not end the text, and neither are they the last of it
    have notQuote : (' ' == quote) = false := by
      cases same : ' ' == quote with
      | false => rfl
      | true =>
        have letter := quoting.ends.1
        rw [← show ' ' = quote by simpa using same] at letter
        cases letter
    obtain ⟨d, ds, written, letter⟩ := quoting.head_flatMap good' begins
    obtain ⟨i', k', read⟩ := quoting.part w (blanks ++ (cs.flatMap write ++ [quote, '\n'])) letters
      (.inr (by simp [first])) i l k
    obtain ⟨i'', k'', rest⟩ := ih good' (text ++ w ++ blanks) (i' + blanks.length) l
      (k' + blanks.length) enough'
    refine ⟨i'', k'', ?_⟩
    rw [List.flatMap_append, List.flatMap_append, quoting.flatMap_spaces blank, List.append_assoc,
      List.append_assoc, quotedFrom_part quote steps text i l k (by simp) read rfl]
    dsimp only
    have columns : k' + 1 + blanks.length = k' + blanks.length + 1 := by omega
    rw [startsWith_placeFrom, List.head?_append, first, Gap.none, Gap.read_spaces blank, columns,
      written, Gap.read_letter letter]
    rw [written] at rest
    simpa [notQuote, Gap.text, bind, Except.bind] using rest

/-! ### Single quotes -/

/-- What stands for a character inside single quotes. -/
def singleQuotedChar (c : Char) : List Char :=
  if c == '\'' then [c, c] else [c]

theorem singleQuotedChars_line {cs : List Char} (line : ∀ c ∈ cs, isBreak c = false) :
    singleQuotedChars false cs = cs.flatMap singleQuotedChar := by
  induction cs with
  | nil => rfl
  | cons c cs ih =>
    obtain ⟨here, line⟩ := List.forall_mem_cons.mp line
    rw [singleQuotedChars, ih line, List.flatMap_cons, singleQuotedChar]
    by_cases space : c = ' '
    · subst space
      rfl
    · simp [space, here]

/-- A part in single quotes ends at a space and at a quote that is not doubled. -/
theorem singleQuotedPart_stop {c : Char} {cs : List Char} (stop : c = ' ' ∨ c = '\'')
    (single : c = '\'' → cs.head? ≠ some '\'') (i l k : Nat) :
    singleQuotedPart (placeFrom i l k (c :: cs)) = ⟨[], false, placeFrom i l k (c :: cs)⟩ := by
  have ends : (isSpace c || isBreak c || c == '\'') = true := by
    rcases stop with rfl | rfl <;> rfl
  obtain ⟨i', l', k', placed⟩ := placeFrom_eq_cons i l k c cs
  rw [placed]
  cases cs with
  | nil => rw [placeFrom, singleQuotedPart, if_pos ends]
  | cons d cs =>
    obtain ⟨i'', l'', k'', placed'⟩ := placeFrom_eq_cons i' l' k' d cs
    have apart : ¬(c == '\'' && d == '\'') = true := by
      simpa using single
    rw [placed', singleQuotedPart, if_neg apart, if_pos ends]

theorem singleQuotedPart_char {c d : Char} (letter : IsLetter c) (i l k : Nat) (cs : List Char) :
    singleQuotedPart (placeFrom i l k (singleQuotedChar c ++ d :: cs)) =
      (singleQuotedPart (placeFrom (i + (singleQuotedChar c).length) l
        (k + (singleQuotedChar c).length) (d :: cs))).push c := by
  unfold singleQuotedChar
  by_cases quote : c = '\''
  · subst quote
    rw [if_pos (beq_self_eq_true _), List.cons_append, placeFrom_cons rfl, List.cons_append,
      placeFrom_cons rfl, singleQuotedPart]
    rfl
  · have apart : (c == '\'') = false := by simpa using quote
    obtain ⟨i', l', k', placed⟩ := placeFrom_eq_cons (i + 1) l (k + 1) d cs
    rw [apart, if_neg Bool.false_ne_true, List.singleton_append, placeFrom_cons letter.2, placed,
      singleQuotedPart]
    simp only [apart, letter.1, letter.2, Bool.false_and, Bool.or_self, Bool.false_eq_true,
      if_false]
    rw [← placed]
    rfl

theorem singleQuotedPart_line {w cs : List Char} (letters : ∀ c ∈ w, IsLetter c)
    (stop : cs = ['\'', '\n'] ∨ cs.head? = some ' ') (i l k : Nat) :
    ∃ i' k', singleQuotedPart (placeFrom i l (k + 1) (w.flatMap singleQuotedChar ++ cs)) =
      ⟨w, false, placeFrom i' l (k' + 1) cs⟩ := by
  induction w generalizing i k with
  | nil =>
    refine ⟨i, k, ?_⟩
    rcases stop with rfl | space
    · exact singleQuotedPart_stop (.inr rfl) (by simp) i l (k + 1)
    · cases cs with
      | nil => simp at space
      | cons c cs =>
        obtain rfl : c = ' ' := by simpa using space
        exact singleQuotedPart_stop (.inl rfl) (by simp) i l (k + 1)
  | cons c w ih =>
    obtain ⟨letter, letters⟩ := List.forall_mem_cons.mp letters
    obtain ⟨d, ds, more⟩ : ∃ d ds, w.flatMap singleQuotedChar ++ cs = d :: ds := by
      refine List.exists_cons_of_ne_nil fun empty => ?_
      rcases stop with rfl | space <;> simp_all
    obtain ⟨i', k', rest⟩ := ih letters (i + (singleQuotedChar c).length)
      (k + (singleQuotedChar c).length)
    refine ⟨i', k', ?_⟩
    have columns : k + 1 + (singleQuotedChar c).length = k + (singleQuotedChar c).length + 1 := by
      omega
    rw [List.flatMap_cons, List.append_assoc, more, singleQuotedPart_char letter, columns, ← more,
      rest]
    rfl

theorem quoting_single : Quoting '\'' singleQuotedChar fun c => c = ' ' ∨ IsLetter c where
  ends := ⟨rfl, rfl⟩
  space := rfl
  begins c good apart := by
    have letter := good.resolve_left apart
    unfold singleQuotedChar
    split_ifs
    · exact ⟨c, [c], rfl, letter⟩
    · exact ⟨c, [], rfl, letter⟩
  part w cs good stop i l k := by
    obtain ⟨i', k', read⟩ := singleQuotedPart_line
      (fun c member => (good c member).1.resolve_left (good c member).2) stop i l k
    exact ⟨i', k', congrArg Except.ok read⟩

/-! ### Double quotes -/

/-- The digit with a value. -/
def hexDigit (d : Nat) : Char :=
  .ofNat (if d < 10 then 48 + d else 55 + d)

theorem hexValue?_hexDigit : ∀ d < 16, hexValue? (hexDigit d) = some d := by
  decide

theorem isBreak_hexDigit : ∀ d < 16, isBreak (hexDigit d) = false := by
  decide

theorem hexDigits_succ (m n : Nat) :
    hexDigits (m + 1) n = hexDigit (n / 16 ^ m % 16) :: hexDigits m n := by
  simp [hexDigits, hexDigit, List.range_succ]

theorem length_hexDigits (m n : Nat) : (hexDigits m n).length = m := by
  simp [hexDigits]

theorem isBreak_of_mem_hexDigits {m n : Nat} {c : Char} (digit : c ∈ hexDigits m n) :
    isBreak c = false := by
  obtain ⟨k, -, rfl⟩ := List.mem_map.mp digit
  exact isBreak_hexDigit _ (Nat.mod_lt _ (by decide))

/-- Each digit is read at its weight, after what was read before. -/
theorem foldl_hexDigits (m n before : Nat) :
    (hexDigits m n).foldl (fun n c => do return 16 * (← n) + (← hexValue? c)) (some before) =
      some (before * 16 ^ m + n % 16 ^ m) := by
  induction m generalizing before with
  | zero => simp [hexDigits, Nat.mod_one]
  | succ m ih =>
    have small : n / 16 ^ m % 16 < 16 := Nat.mod_lt _ (by decide)
    rw [hexDigits_succ, List.foldl_cons, hexValue?_hexDigit _ small]
    have weight : (16 * before + n / 16 ^ m % 16) * 16 ^ m + n % 16 ^ m =
        before * 16 ^ (m + 1) + n % 16 ^ (m + 1) := by
      rw [Nat.mod_pow_succ]
      ring
    exact (ih _).trans (congrArg some weight)

theorem hexNumber?_hexDigits {m n : Nat} (fits : n < 16 ^ m) :
    hexNumber? (hexDigits m n) = some n := by
  rw [hexNumber?, foldl_hexDigits, Nat.zero_mul, Nat.zero_add, Nat.mod_eq_of_lt fits]

theorem codedChar_hexDigits {m : Nat} {c : Char} (fits : c.toNat < 16 ^ m) (i l k : Nat)
    (cs : List Char) :
    codedChar m (placeFrom i l k (hexDigits m c.toNat ++ cs)) = .ok c := by
  have taken : ((placeFrom i l k (hexDigits m c.toNat ++ cs)).take m).map Placed.char =
      hexDigits m c.toNat := by
    rw [List.map_take, map_char_placeFrom]
    exact List.take_left' (length_hexDigits m _)
  unfold codedChar
  simp only [taken, hexNumber?_hexDigits fits, length_hexDigits]
  rw [if_pos ⟨trivial, c.valid⟩, Char.ofNat_toNat]

/-- An escape with a code is read back. -/
theorem doubleQuotedPart_code {m : Nat} {c e : Char} (length : codeLength? e = some m)
    (noBreak : isBreak e = false) (other : simpleEscape? e = none) (fits : c.toNat < 16 ^ m)
    (i l k steps : Nat) (cs : List Char) :
    doubleQuotedPart (steps + 1) (placeFrom i l k ('\\' :: e :: hexDigits m c.toNat ++ cs)) = do
      let part ← doubleQuotedPart steps (placeFrom (i + 2 + m) l (k + 2 + m) cs)
      return part.push c := by
  have code := codedChar_hexDigits fits (i + 1 + 1) l (k + 1 + 1) cs
  -- reading goes on after as many characters as the letter of the escape announces
  have rest : (placeFrom (i + 1 + 1) l (k + 1 + 1) (hexDigits m c.toNat ++ cs)).drop m =
      placeFrom (i + 2 + m) l (k + 2 + m) cs := by
    rw [placeFrom_append fun d => isBreak_of_mem_hexDigits, length_hexDigits]
    exact List.drop_left' ((length_placeFrom ..).trans (length_hexDigits m _))
  rw [List.cons_append, placeFrom_cons rfl, List.cons_append, placeFrom_cons noBreak,
    doubleQuotedPart]
  simp only [noBreak, other, length, code, rest]
  rfl

theorem of_lookup {P : Char × Char → Prop} {table : List (Char × Char)} {c e : Char}
    (all : ∀ p ∈ table, P p) (found : table.lookup c = some e) : P (c, e) := by
  obtain ⟨before, after, rfl, -⟩ := List.lookup_eq_some_iff.mp found
  exact all (c, e) (by simp)

theorem simpleEscape?_of_escapeLetter? {c e : Char} (escape : escapeLetter? c = some e) :
    simpleEscape? e = some c ∧ isBreak e = false :=
  of_lookup (P := fun p => simpleEscape? p.2 = some p.1 ∧ isBreak p.2 = false) (by decide) escape

theorem doubleQuotedPart_escape {c e : Char} (escape : escapeLetter? c = some e)
    (i l k steps : Nat) (cs : List Char) :
    doubleQuotedPart (steps + 1) (placeFrom i l k ('\\' :: e :: cs)) = do
      let part ← doubleQuotedPart steps (placeFrom (i + 2) l (k + 2) cs)
      return part.push c := by
  obtain ⟨simple, noBreak⟩ := simpleEscape?_of_escapeLetter? escape
  rw [placeFrom_cons rfl, placeFrom_cons noBreak, doubleQuotedPart]
  simp only [noBreak, simple]
  rfl

theorem doubleQuotedPart_letter {c : Char} (letter : IsLetter c) (notQuote : (c == '"') = false)
    (notSlash : (c != '\\') = true) (i l k steps : Nat) (cs : List Char) :
    doubleQuotedPart (steps + 1) (placeFrom i l k (c :: cs)) = do
      let part ← doubleQuotedPart steps (placeFrom (i + 1) l (k + 1) cs)
      return part.push c := by
  rw [placeFrom_cons letter.2, doubleQuotedPart.eq_def]
  simp only [letter.1, letter.2, notQuote, notSlash, Bool.or_self, Bool.false_eq_true, if_false,
    if_true]

/-- Whatever character it is, it stands for itself, is escaped by a letter or by its code. -/
theorem doubleQuotedPart_char {c : Char} (apart : c ≠ ' ') (i l k steps : Nat) (cs : List Char) :
    ∃ n, doubleQuotedPart (steps + 1) (placeFrom i l k (doubleQuotedChar c ++ cs)) = do
      let part ← doubleQuotedPart steps (placeFrom (i + n) l (k + n) cs)
      return part.push c := by
  unfold doubleQuotedChar
  split_ifs with itself
  · simp only [Bool.and_eq_true, Bool.not_eq_true'] at itself
    obtain ⟨⟨⟨printable, noBreak⟩, notQuote⟩, notSlash⟩ := itself
    have letter := isLetter_of_printable printable noBreak apart
    exact ⟨1, doubleQuotedPart_letter letter (by simpa using notQuote) notSlash i l k steps cs⟩
  · split
    · rename_i e escape
      exact ⟨2, doubleQuotedPart_escape escape i l k steps cs⟩
    · -- the shortest of three codes that has room for the character
      have small : c.toNat < 16 ^ 8 := c.val.toNat_lt
      dsimp only
      split_ifs with short long
      · exact ⟨2 + 2, doubleQuotedPart_code rfl rfl rfl (by omega) i l k steps cs⟩
      · exact ⟨2 + 4, doubleQuotedPart_code rfl rfl rfl (by omega) i l k steps cs⟩
      · exact ⟨2 + 8, doubleQuotedPart_code rfl rfl rfl small i l k steps cs⟩

theorem exists_doubleQuotedChar {c : Char} (apart : c ≠ ' ') :
    ∃ d ds, doubleQuotedChar c = d :: ds ∧ IsLetter d := by
  unfold doubleQuotedChar
  split_ifs with itself
  · simp only [Bool.and_eq_true, Bool.not_eq_true'] at itself
    exact ⟨c, [], rfl, isLetter_of_printable itself.1.1.1 itself.1.1.2 apart⟩
  · split
    · exact ⟨_, _, rfl, rfl, rfl⟩
    · dsimp only
      split_ifs <;> exact ⟨_, _, rfl, rfl, rfl⟩

theorem doubleQuotedPart_line {w cs : List Char} (letters : ∀ c ∈ w, c ≠ ' ')
    (stop : cs = ['"', '\n'] ∨ cs.head? = some ' ') (i l k : Nat) {steps : Nat}
    (enough : w.length < steps) :
    ∃ i' k', doubleQuotedPart steps (placeFrom i l (k + 1) (w.flatMap doubleQuotedChar ++ cs)) =
      .ok ⟨w, false, placeFrom i' l (k' + 1) cs⟩ := by
  obtain ⟨steps, rfl⟩ := Nat.exists_eq_add_one_of_ne_zero (Nat.ne_zero_of_lt enough)
  induction w generalizing i k steps with
  | nil =>
    refine ⟨i, k, ?_⟩
    obtain ⟨c, tail, rfl, ends⟩ :
        ∃ c tail, cs = c :: tail ∧ (isSpace c || isBreak c || c == '"') := by
      rcases stop with rfl | space
      · exact ⟨'"', ['\n'], rfl, rfl⟩
      · cases cs with
        | nil => simp at space
        | cons c cs => exact ⟨c, cs, rfl, by simp_all [isSpace]⟩
    obtain ⟨i', l', k', placed⟩ := placeFrom_eq_cons i l (k + 1) c tail
    rw [List.flatMap_nil, List.nil_append, placed, doubleQuotedPart.eq_def]
    simp only [ends, if_true]
  | cons c w ih =>
    obtain ⟨letter, letters⟩ := List.forall_mem_cons.mp letters
    obtain ⟨steps, rfl⟩ := Nat.exists_eq_add_one_of_ne_zero (n := steps) (by
      rintro rfl
      simp at enough)
    obtain ⟨n, read⟩ :=
      doubleQuotedPart_char letter i l (k + 1) (steps + 1) (w.flatMap doubleQuotedChar ++ cs)
    obtain ⟨i', k', rest⟩ := ih letters (i + n) (k + n) steps (by simpa using enough)
    have columns : k + 1 + n = k + n + 1 := by omega
    refine ⟨i', k', ?_⟩
    rw [List.flatMap_cons, List.append_assoc, read, columns, rest]
    rfl

theorem quoting_double : Quoting '"' doubleQuotedChar fun _ => True where
  ends := ⟨rfl, rfl⟩
  space := rfl
  begins c _ apart := exists_doubleQuotedChar apart
  part w cs good stop i l k := by
    have letters : ∀ c ∈ w, c ≠ ' ' := fun c member => (good c member).2
    have shorter : w.length ≤ (w.flatMap doubleQuotedChar).length :=
      length_le_flatMap fun c member => by
        obtain ⟨d, ds, written, -⟩ := exists_doubleQuotedChar (letters c member)
        simp [written]
    refine doubleQuotedPart_line letters stop i l k ?_
    rw [length_placeFrom, List.length_append]
    omega

end ModalKeys.Yaml
