import ScratchPage.Proofs.Decimal.Double
import ScratchPage.Proofs.Decimal.Parsing

/-!
# The number at the start of a text

`leadingNumber?` finds the number at the start of a text by positions in its bytes: it walks over the
sign, the digits, the point and the exponent byte by byte, cuts the text at the positions it has reached
and parses the piece. A cut inside a character would fail. No cut does, since every byte that is passed
is a character of its own (`split?_append`), and the piece is always a number, so that the reading ends
with the number that scanning the characters gives (`leadingNumber?_eq`). `leadingPart?` is the piece
itself, together with what follows it.
-/

namespace ScratchPage.Numeral
set_option autoImplicit false

/-! ## Reading by positions -/

/-- The bytes of a text. -/
def bytesOf (cs : List Char) : List UInt8 := cs.flatMap String.utf8EncodeChar

/-- The byte is a character of its own, and the character passes the test. -/
def passes (p : Char → Bool) (b : UInt8) : Bool := decide (b.toNat < 128) && p (Char.ofNat b.toNat)

/-- There is a byte at the position, and it passes the test. -/
def byteAt (bytes : List UInt8) (p : Char → Bool) (i : Nat) : Bool := bytes[i]?.any (passes p)

def isSign (c : Char) : Bool := c == '+' || c == '-'

def isMark (c : Char) : Bool := c == 'e' || c == 'E'

/-- The position behind an optional sign. -/
def signEnd (bytes : List UInt8) (i : Nat) : Nat := if byteAt bytes isSign i then i + 1 else i

/-- The first position from `i` on that holds no digit. -/
def digitsEnd (bytes : List UInt8) (i : Nat) : Nat := i + ((bytes.drop i).takeWhile (passes Char.isDigit)).length

/-- The position behind the point and the digits around it, and the number of these digits. A point
without digits is not passed. -/
def mantissaEnd (bytes : List UInt8) (i : Nat) : Nat × Nat :=
  let wholeEnd := digitsEnd bytes i
  if byteAt bytes (· == '.') wholeEnd then
    let fractionEnd := digitsEnd bytes (wholeEnd + 1)
    let count := wholeEnd - i + (fractionEnd - (wholeEnd + 1))
    (if 0 < count then fractionEnd else wholeEnd, count)
  else (wholeEnd, wholeEnd - i)

/-- The position behind an optional exponent. A mark without digits is not passed. -/
def exponentEnd (bytes : List UInt8) (i : Nat) : Nat :=
  if byteAt bytes isMark i then
    let start := signEnd bytes (i + 1)
    let stop := digitsEnd bytes start
    if start < stop then stop else i
  else i

/-- The text cut at a position in its bytes; there is no cut inside a character or behind the end. -/
def split? : List Char → Nat → Option (List Char × List Char)
  | cs, 0 => some ([], cs)
  | [], _ + 1 => none
  | c :: cs, i + 1 =>
    if c.utf8Size ≤ i + 1 then (split? cs (i + 1 - c.utf8Size)).map fun (front, rest) => (c :: front, rest)
    else none

/-- The number at the start of a text after its leading blanks, by positions; nothing where the text is
cut inside a character. -/
def leadingNumber? (text : String) : Option Float :=
  let cs := Text.trimLeft text.toList
  let bytes := bytesOf cs
  let start := signEnd bytes 0
  (split? cs start).bind fun (_, afterSign) =>
    if infinityWord.isPrefixOf afterSign then
      some (Binary.ofMagnitude (cs.head? == some '-') Binary.infinityBits)
    else
      let (stop, count) := mantissaEnd bytes start
      if count = 0 then some notANumber
      else
        (split? cs (exponentEnd bytes stop)).map fun (taken, _) =>
          (parse? (taken.rdropWhile (· == '.'))).getD notANumber

/-- The part of a text that the number at its start is read from, and the rest, by the same positions; a
text that starts with no number has no such part. -/
def leadingPart? (cs : List Char) : Option (List Char × List Char) :=
  let bytes := bytesOf cs
  let start := signEnd bytes 0
  (split? cs start).bind fun (_, afterSign) =>
    if infinityWord.isPrefixOf afterSign then split? cs (start + infinityWord.length)
    else
      let (stop, count) := mantissaEnd bytes start
      if count = 0 then some ([], cs) else split? cs (exponentEnd bytes stop)

/-! ## Characters of one byte -/

/-- Each of the characters is one byte. -/
def AreBytes (cs : List Char) : Prop := ∀ c ∈ cs, c.toNat < 128

theorem AreBytes.append {a b : List Char} (left : AreBytes a) (right : AreBytes b) : AreBytes (a ++ b) := by
  intro c mem
  exact (List.mem_append.1 mem).elim (left c) (right c)

theorem isByte_of_isDigit {c : Char} (isDigit : c.isDigit = true) : c.toNat < 128 := by
  simp only [Char.isDigit, Bool.and_eq_true, decide_eq_true_eq, UInt32.le_iff_toNat_le] at isDigit
  have high : c.toNat ≤ 57 := isDigit.2
  omega

theorem areBytes_digits (cs : List Char) : AreBytes (digits cs).1 :=
  fun c mem => isByte_of_isDigit ((digits_split cs).2 c mem)

theorem utf8EncodeChar_of_isByte {c : Char} (single : c.toNat < 128) :
    String.utf8EncodeChar c = [UInt8.ofNat c.toNat] := by
  have small : c.val.toNat ≤ 127 := Nat.le_of_lt_succ single
  simp only [String.utf8EncodeChar, small, if_true]
  rfl

/-- The first byte of a character of several bytes is not that of any other character. -/
theorem head_utf8EncodeChar {c : Char} (several : ¬ c.toNat < 128) :
    ∃ b more, String.utf8EncodeChar c = b :: more ∧ 128 ≤ b.toNat := by
  have large : ¬ c.val.toNat ≤ 127 := fun small => several (Nat.lt_succ_of_le small)
  simp only [String.utf8EncodeChar, large, if_false]
  split_ifs
  all_goals
    refine ⟨_, _, rfl, ?_⟩
    rw [UInt8.toNat_ofNat']
    omega

theorem bytesOf_append (a b : List Char) : bytesOf (a ++ b) = bytesOf a ++ bytesOf b := by
  simp [bytesOf]

theorem AreBytes.length_bytesOf {a : List Char} (single : AreBytes a) : (bytesOf a).length = a.length := by
  induction a with
  | nil => rfl
  | cons c a ih =>
    rw [AreBytes, List.forall_mem_cons] at single
    have rest := ih single.2
    simp only [bytesOf, List.flatMap_cons, utf8EncodeChar_of_isByte single.1] at rest ⊢
    simp [rest]

theorem passes_ofNat (p : Char → Bool) {c : Char} (single : c.toNat < 128) :
    passes p (UInt8.ofNat c.toNat) = p c := by
  have byte : (UInt8.ofNat c.toNat).toNat = c.toNat := by
    rw [UInt8.toNat_ofNat']
    omega
  simp [passes, byte, single, Char.ofNat_toNat]

theorem passes_of_large (p : Char → Bool) {b : UInt8} (large : 128 ≤ b.toNat) : passes p b = false := by
  have above : ¬ b.toNat < 128 := by omega
  simp [passes, above]

/-! ## What stands at a position -/

/-- Tests that only characters of one byte pass agree on the first byte and the first character. -/
theorem any_head_bytesOf {p : Char → Bool} (narrow : ∀ c, p c = true → c.toNat < 128) (cs : List Char) :
    (bytesOf cs).head?.any (passes p) = cs.head?.any p := by
  cases cs with
  | nil => rfl
  | cons c cs =>
    by_cases single : c.toNat < 128
    · simp [bytesOf, utf8EncodeChar_of_isByte single, passes_ofNat p single]
    · obtain ⟨b, more, bytes, large⟩ := head_utf8EncodeChar single
      have other : p c = false := by
        simpa using fun passed => single (narrow c passed)
      simp [bytesOf, bytes, passes_of_large p large, other]

theorem byteAt_append {p : Char → Bool} (narrow : ∀ c, p c = true → c.toNat < 128) {a : List Char}
    (single : AreBytes a) (rest : List Char) : byteAt (bytesOf (a ++ rest)) p a.length = rest.head?.any p := by
  rw [byteAt, bytesOf_append, ← single.length_bytesOf, List.getElem?_append_right (Nat.le_refl _), Nat.sub_self,
    ← List.head?_eq_getElem?, any_head_bytesOf narrow]

/-- As many bytes as characters are leading digits. -/
theorem length_takeWhile_bytesOf (cs : List Char) :
    ((bytesOf cs).takeWhile (passes Char.isDigit)).length = (digits cs).1.length := by
  rw [digits_eq]
  induction cs with
  | nil => rfl
  | cons c cs ih =>
    by_cases isDigit : c.isDigit = true
    · have single := isByte_of_isDigit isDigit
      simp only [bytesOf, List.flatMap_cons, utf8EncodeChar_of_isByte single] at ih ⊢
      simp [passes_ofNat _ single, isDigit, ih]
    · have stops : (bytesOf (c :: cs)).head?.any (passes Char.isDigit) = false := by
        rw [any_head_bytesOf (fun _ => isByte_of_isDigit)]
        simpa using isDigit
      have none : (bytesOf (c :: cs)).takeWhile (passes Char.isDigit) = [] := by
        cases front : bytesOf (c :: cs) with
        | nil => rfl
        | cons b more =>
          rw [front] at stops
          simpa using stops
      simp [none, isDigit]

theorem digitsEnd_append {a : List Char} (single : AreBytes a) (rest : List Char) :
    digitsEnd (bytesOf (a ++ rest)) a.length = (a ++ (digits rest).1).length := by
  have behind : (bytesOf (a ++ rest)).drop a.length = bytesOf rest := by
    rw [bytesOf_append, ← single.length_bytesOf, List.drop_left]
  rw [digitsEnd, behind, length_takeWhile_bytesOf, List.length_append]

/-- A text is cut behind characters that are one byte each. -/
theorem split?_append {a : List Char} (single : AreBytes a) (rest : List Char) :
    split? (a ++ rest) a.length = some (a, rest) := by
  induction a with
  | nil => cases rest <;> rfl
  | cons c a ih =>
    rw [AreBytes, List.forall_mem_cons] at single
    have size : c.utf8Size = 1 := by
      rw [← String.length_utf8EncodeChar, utf8EncodeChar_of_isByte single.1]
      rfl
    simp [split?, size, ih single.2]

/-! ## Stage by stage -/

theorem eq_of_isSign {c : Char} (isSign : isSign c = true) : c = '+' ∨ c = '-' := by
  simpa [Numeral.isSign] using isSign

theorem isByte_of_isSign (c : Char) (isSign : isSign c = true) : c.toNat < 128 := by
  obtain rfl | rfl := eq_of_isSign isSign <;> decide

theorem isByte_of_isMark (c : Char) (isMark : isMark c = true) : c.toNat < 128 := by
  simp only [Numeral.isMark, Bool.or_eq_true, beq_iff_eq] at isMark
  obtain rfl | rfl := isMark <;> decide

theorem isByte_of_isPoint (c : Char) (isPoint : (c == '.') = true) : c.toNat < 128 := by
  rw [beq_iff_eq] at isPoint
  subst isPoint
  decide

/-- The sign that the scanner takes ends where the sign ends by positions. -/
theorem signEnd_append {a : List Char} (single : AreBytes a) (rest : List Char) :
    ∃ s, AreBytes s ∧ rest = s ++ (sign rest).2 ∧ signEnd (bytesOf (a ++ rest)) a.length = (a ++ s).length := by
  rw [signEnd, byteAt_append isByte_of_isSign single]
  unfold sign
  split
  · exact ⟨['-'], by simp [AreBytes], rfl, by simp [isSign]⟩
  · exact ⟨['+'], by simp [AreBytes], rfl, by simp [isSign]⟩
  · next minus plus =>
    refine ⟨[], by simp [AreBytes], rfl, ?_⟩
    have unsigned : rest.head?.any isSign = false := by
      cases rest with
      | nil => rfl
      | cons c rest =>
        have notMinus : c ≠ '-' := fun same => minus rest (by rw [same])
        have notPlus : c ≠ '+' := fun same => plus rest (by rw [same])
        simp [isSign, notMinus, notPlus]
    simp [unsigned]

/-- The same for the exponent. -/
theorem exponentEnd_append {a : List Char} (single : AreBytes a) (rest : List Char) :
    ∃ t, AreBytes t ∧ rest = t ++ (exponentPart rest).2 ∧
      exponentEnd (bytesOf (a ++ rest)) a.length = (a ++ t).length := by
  rw [exponentEnd, byteAt_append isByte_of_isMark single]
  cases rest with
  | nil => exact ⟨[], by simp [AreBytes], rfl, by simp⟩
  | cons mark rest =>
    by_cases isMark : mark = 'e' ∨ mark = 'E'
    · have marked : Numeral.isMark mark = true := by simpa [Numeral.isMark] using isMark
      have singleMark : AreBytes (a ++ [mark]) := single.append (by simpa [AreBytes] using isByte_of_isMark mark marked)
      obtain ⟨s, singleSign, afterSign, signed⟩ := signEnd_append singleMark rest
      have digitsStop := digitsEnd_append (singleMark.append singleSign) (sign rest).2
      rw [List.append_assoc _ s, ← afterSign, ← List.append_cons] at digitsStop
      rw [← List.append_cons, List.length_append, List.length_singleton] at signed
      obtain ⟨afterDigits, -⟩ := digits_split (sign rest).2
      simp only [List.head?_cons, Option.any_some, marked, if_true, signed, digitsStop]
      by_cases empty : (digits (sign rest).2).1 = []
      · exact ⟨[], by simp [AreBytes], by simp [exponentPart, isMark, empty], by simp [empty]⟩
      · refine ⟨mark :: s ++ (digits (sign rest).2).1, ?_, ?_, ?_⟩
        · have singleton : AreBytes [mark] := fun c mem => singleMark c (List.mem_append_right a mem)
          exact (singleton.append singleSign).append (areBytes_digits _)
        · simp only [exponentPart, isMark, List.isEmpty_iff, empty, if_true, if_false, List.cons_append,
            List.append_assoc, ← afterDigits, ← afterSign]
        · have longer : 0 < (digits (sign rest).2).1.length := List.length_pos_of_ne_nil empty
          rw [if_pos]
          · simp
          · simp only [List.length_append, List.length_cons]
            omega
    · have unmarked : Numeral.isMark mark = false := by simpa [Numeral.isMark] using isMark
      exact ⟨[], by simp [AreBytes], by simp [exponentPart, isMark], by simp [unmarked]⟩

/-- The same for the digits and the point, if there is a digit; their number is what the scanner takes. -/
theorem mantissaEnd_append {a : List Char} (single : AreBytes a) (rest : List Char) :
    (mantissaEnd (bytesOf (a ++ rest)) a.length).2 =
        (digits rest).1.length + (fractionPart (digits rest).2).1.length ∧
      ((mantissaEnd (bytesOf (a ++ rest)) a.length).2 ≠ 0 → ∃ t, AreBytes t ∧
        rest = t ++ (fractionPart (digits rest).2).2 ∧
        (mantissaEnd (bytesOf (a ++ rest)) a.length).1 = (a ++ t).length) := by
  obtain ⟨afterWhole, -⟩ := digits_split rest
  have singleWhole : AreBytes (a ++ (digits rest).1) := single.append (areBytes_digits rest)
  have wholeStop := digitsEnd_append single rest
  have point := byteAt_append isByte_of_isPoint singleWhole (digits rest).2
  rw [List.append_assoc, ← afterWhole] at point
  by_cases pointed : ∃ more, (digits rest).2 = '.' :: more
  · obtain ⟨more, isPoint⟩ := pointed
    rw [isPoint] at afterWhole point ⊢
    have singlePoint : AreBytes (a ++ (digits rest).1 ++ ['.']) := singleWhole.append (by simp [AreBytes])
    have fractionStop := digitsEnd_append singlePoint more
    obtain ⟨afterFraction, -⟩ := digits_split more
    rw [← List.append_cons, List.append_assoc a, ← afterWhole, List.length_append, List.length_singleton]
      at fractionStop
    have count : (a ++ (digits rest).1).length - a.length +
        ((a ++ (digits rest).1 ++ ['.'] ++ (digits more).1).length - ((a ++ (digits rest).1).length + 1)) =
          (digits rest).1.length + (digits more).1.length := by
      simp only [List.length_append, List.length_singleton]
      omega
    simp only [mantissaEnd, wholeStop, point, fractionStop, fractionPart, List.head?_cons, Option.any_some,
      beq_self_eq_true, if_true, count]
    refine ⟨trivial, fun given => ⟨(digits rest).1 ++ ['.'] ++ (digits more).1, ?_, ?_, ?_⟩⟩
    · exact ((areBytes_digits rest).append (by simp [AreBytes])).append (areBytes_digits more)
    · rw [List.append_assoc, ← afterFraction, ← List.append_cons]
      exact afterWhole
    · rw [if_pos (Nat.pos_of_ne_zero given)]
      simp
  · have skipped : fractionPart (digits rest).2 = ([], (digits rest).2) := by
      unfold fractionPart
      split
      · next more isPoint => exact absurd ⟨more, isPoint⟩ pointed
      · rfl
    have pointless : (digits rest).2.head?.any (· == '.') = false := by
      cases behind : (digits rest).2 with
      | nil => rfl
      | cons c more => simpa using fun same : c = '.' => pointed ⟨more, by rw [behind, same]⟩
    simp only [mantissaEnd, wholeStop, point, pointless, skipped]
    exact ⟨by simp, fun _ => ⟨(digits rest).1, areBytes_digits rest, afterWhole, by simp⟩⟩

theorem sign_fst (cs : List Char) : (sign cs).1 = (cs.head? == some '-') := by
  unfold sign
  split
  · rfl
  · rfl
  · next minus _ =>
    cases cs with
    | nil => rfl
    | cons c rest =>
      have notMinus : c ≠ '-' := fun same => minus rest (by rw [same])
      simp [notMinus]

/-- The scanner finds a numeral where there is a digit around the point. -/
theorem scan?_of_count (cs : List Char) :
    let whole := digits (sign cs).2
    let fraction := fractionPart whole.2
    (whole.1.length + fraction.1.length = 0 → scan? cs = none) ∧
      (whole.1.length + fraction.1.length ≠ 0 → ∃ n, scan? cs = some (n, (exponentPart fraction.2).2)) := by
  constructor
  · intro none
    have empty := Nat.add_eq_zero_iff.1 none
    simp [scan?, List.eq_nil_of_length_eq_zero empty.1, List.eq_nil_of_length_eq_zero empty.2]
  · intro given
    have nonempty : ¬ ((digits (sign cs).2).1 = [] ∧ (fractionPart (digits (sign cs).2).2).1 = []) := by
      rintro ⟨whole, fraction⟩
      simp [whole, fraction] at given
    simp [scan?, nonempty]

theorem areBytes_of_isSign {s : List Char} (isSign : s ∈ [[], ['+'], ['-']]) : AreBytes s := by
  fin_cases isSign <;> simp [AreBytes]

/-- The sign that the scanner takes is cut off. -/
theorem split?_sign (cs : List Char) :
    ∃ s, AreBytes s ∧ cs = s ++ (sign cs).2 ∧ signEnd (bytesOf cs) 0 = s.length ∧
      split? cs s.length = some (s, (sign cs).2) := by
  obtain ⟨s, single, afterSign, signStop⟩ := signEnd_append (a := []) (by simp [AreBytes]) cs
  rw [List.nil_append, List.nil_append, List.length_nil] at signStop
  have cut := split?_append single (sign cs).2
  rw [← afterSign] at cut
  exact ⟨s, single, afterSign, signStop, cut⟩

/-- A word for an infinity is read as a whole. -/
theorem leadingPart?_of_infinite {s : List Char} (isSign : s ∈ [[], ['+'], ['-']]) (rest : List Char) :
    leadingPart? (s ++ (infinityWord ++ rest)) = some (s ++ infinityWord, rest) := by
  have signed : sign (s ++ (infinityWord ++ rest)) = (decide (s = ['-']), infinityWord ++ rest) :=
    sign_append isSign (by simp [infinityWord])
  have word : infinityWord.isPrefixOf (infinityWord ++ rest) = true :=
    List.isPrefixOf_iff_prefix.2 (List.prefix_append _ _)
  obtain ⟨t, -, afterSign, signStop, cut⟩ := split?_sign (s ++ (infinityWord ++ rest))
  rw [signed] at afterSign cut
  obtain rfl : s = t := List.append_cancel_right afterSign
  have single : AreBytes (s ++ infinityWord) :=
    (areBytes_of_isSign isSign).append (by simp [AreBytes, infinityWord])
  have whole := split?_append single rest
  rw [List.append_assoc, List.length_append] at whole
  simp only [leadingPart?, signStop, cut, Option.bind_some, word, if_true, whole]

theorem parse?_infinite {s : List Char} (isSign : s ∈ [[], ['+'], ['-']]) :
    parse? (s ++ infinityWord) = some (Binary.ofMagnitude (decide (s = ['-'])) Binary.infinityBits) := by
  fin_cases isSign <;> rfl

theorem rdropWhile_infinite {s : List Char} (isSign : s ∈ [[], ['+'], ['-']]) :
    (s ++ infinityWord).rdropWhile (· == '.') = s ++ infinityWord := by
  fin_cases isSign <;> rfl

/-- The part that is read where a text starts with a word for an infinity. -/
theorem exists_part_of_infinite {cs : List Char} (infinite : infinityWord.isPrefixOf (sign cs).2 = true) :
    ∃ part rest, leadingPart? cs = some (part, rest) ∧
      parse? (part.rdropWhile (· == '.')) = some (Binary.ofMagnitude (sign cs).1 Binary.infinityBits) := by
  obtain ⟨s, isSign, split, negative⟩ := sign_split cs
  obtain ⟨rest, word⟩ := List.isPrefixOf_iff_prefix.1 infinite
  have part := leadingPart?_of_infinite isSign rest
  rw [word, ← split] at part
  exact ⟨s ++ infinityWord, rest, part, by rw [rdropWhile_infinite isSign, parse?_infinite isSign, negative]⟩

/-- The number is parsed from the part that is read, without the points at its end. -/
theorem leadingNumber?_eq_parse (text : String) :
    leadingNumber? text = (leadingPart? (Text.trimLeft text.toList)).map fun part =>
      (parse? (part.1.rdropWhile (· == '.'))).getD notANumber := by
  generalize isText : Text.trimLeft text.toList = cs
  obtain ⟨s, -, -, signStop, cut⟩ := split?_sign cs
  cases infinite : infinityWord.isPrefixOf (sign cs).2 with
  | true =>
    obtain ⟨part, rest, isPart, parsed⟩ := exists_part_of_infinite infinite
    rw [isPart, Option.map_some, parsed, sign_fst]
    simp only [leadingNumber?, isText, signStop, cut, Option.bind_some, infinite, if_true, Option.getD_some]
  | false =>
    simp only [leadingNumber?, leadingPart?, isText, signStop, cut, Option.bind_some, infinite, Bool.false_eq_true,
      if_false]
    split_ifs <;> rfl

/-- A text that starts with the word for infinity has no leading decimal. -/
theorem scan?_of_infinite {cs : List Char} (infinite : infinityWord.isPrefixOf (sign cs).2 = true) :
    scan? cs = none := by
  obtain ⟨rest, word⟩ := List.isPrefixOf_iff_prefix.1 infinite
  have noDigit : digits (sign cs).2 = ([], (sign cs).2) := by
    apply digits_of_head
    simp [← word, infinityWord]
  have noPoint : fractionPart (sign cs).2 = ([], (sign cs).2) := by
    simp [← word, infinityWord, fractionPart]
  simp [scan?, noDigit, noPoint]

/-- What the scanner takes is read as a whole. -/
theorem leadingPart?_of_scan? {cs rest : List Char} {n : Numeral} (scanned : scan? cs = some (n, rest)) :
    ∃ s : Spelling, cs = s.text ++ rest ∧ n = s.numeral ∧ leadingPart? cs = some (s.text, rest) := by
  obtain ⟨spelling, taken, isNumeral⟩ := scan?_eq_some scanned
  refine ⟨spelling, taken, isNumeral, ?_⟩
  have finite : infinityWord.isPrefixOf (sign cs).2 = false := by
    rw [Bool.eq_false_iff]
    intro infinite
    rw [scan?_of_infinite infinite] at scanned
    cases scanned
  obtain ⟨s, singleSign, afterSign, signStop, cut⟩ := split?_sign cs
  obtain ⟨count, mantissa⟩ := mantissaEnd_append singleSign (sign cs).2
  obtain ⟨lost, found⟩ := scan?_of_count cs
  rw [← afterSign] at count mantissa
  rw [← count] at lost found
  by_cases empty : (mantissaEnd (bytesOf cs) s.length).2 = 0
  · rw [lost empty] at scanned
    cases scanned
  · obtain ⟨_, again⟩ := found empty
    obtain ⟨-, rfl⟩ := Prod.mk.inj (Option.some.inj (scanned.symm.trans again))
    obtain ⟨t, singleMantissa, afterMantissa, mantissaStop⟩ := mantissa empty
    obtain ⟨u, singlePower, afterPower, powerStop⟩ :=
      exponentEnd_append (singleSign.append singleMantissa) (fractionPart (digits (sign cs).2).2).2
    have pieces : cs = s ++ t ++ u ++ (exponentPart (fractionPart (digits (sign cs).2).2).2).2 := by
      rw [List.append_assoc _ u, ← afterPower, List.append_assoc, ← afterMantissa, ← afterSign]
    -- What is cut off is what the scanner has taken, so it is a numeral.
    have same : s ++ t ++ u = spelling.text := List.append_cancel_right (pieces.symm.trans taken)
    have cutOff := split?_append ((singleSign.append singleMantissa).append singlePower)
      (exponentPart (fractionPart (digits (sign cs).2).2).2).2
    rw [← pieces, same] at cutOff
    rw [List.append_assoc s, ← afterMantissa, ← afterSign, same] at powerStop
    simp only [leadingPart?, signStop, cut, Option.bind_some, finite, Bool.false_eq_true, if_false, empty, mantissaStop,
      powerStop, cutOff]

/-- Nothing is read where a text starts with no number. -/
theorem leadingPart?_of_lost {cs : List Char} (finite : infinityWord.isPrefixOf (sign cs).2 = false)
    (lost : scan? cs = none) : leadingPart? cs = some ([], cs) := by
  obtain ⟨s, single, afterSign, signStop, cut⟩ := split?_sign cs
  obtain ⟨count, -⟩ := mantissaEnd_append single (sign cs).2
  rw [← afterSign] at count
  have empty : (mantissaEnd (bytesOf cs) s.length).2 = 0 := by
    by_contra given
    rw [count] at given
    obtain ⟨n, found⟩ := (scan?_of_count cs).2 given
    rw [lost] at found
    cases found
  simp only [leadingPart?, signStop, cut, Option.bind_some, finite, Bool.false_eq_true, if_false, empty, if_true]

/-- Reading by positions does not cut a character, and gives the number that scanning gives. -/
theorem leadingNumber?_eq (text : String) : leadingNumber? text = some (leadingNumber text) := by
  rw [leadingNumber?_eq_parse]
  simp only [leadingNumber]
  generalize Text.trimLeft text.toList = cs
  cases infinite : infinityWord.isPrefixOf (sign cs).2 with
  | true =>
    obtain ⟨part, rest, isPart, parsed⟩ := exists_part_of_infinite infinite
    rw [isPart, Option.map_some, parsed]
    rfl
  | false =>
    cases scanned : scan? cs with
    | none =>
      rw [leadingPart?_of_lost infinite scanned]
      rfl
    | some found =>
      obtain ⟨s, -, numeral, isPart⟩ := leadingPart?_of_scan? scanned
      rw [isPart, Option.map_some, parse?_without_point, ← numeral]
      rfl

/-! ## What the number is -/

/-- The word for infinity is read with its sign. -/
theorem leadingNumber_of_infinite {text : String} {s : List Char} (isSign : s ∈ [[], ['+'], ['-']])
    (infinite : s ++ infinityWord <+: Text.trimLeft text.toList) :
    leadingNumber text = Binary.ofMagnitude (decide (s = ['-'])) Binary.infinityBits := by
  obtain ⟨rest, whole⟩ := infinite
  have signed : sign (s ++ (infinityWord ++ rest)) = (decide (s = ['-']), infinityWord ++ rest) :=
    sign_append isSign (by simp [infinityWord])
  have word : infinityWord.isPrefixOf (infinityWord ++ rest) = true :=
    List.isPrefixOf_iff_prefix.2 (List.prefix_append _ _)
  rw [leadingNumber, ← whole, List.append_assoc, signed]
  simp only [word, if_true]

/-- Any other text is read as its leading decimal. -/
theorem leadingNumber_of_finite {text : String}
    (finite : ∀ s ∈ [[], ['+'], ['-']], ¬ s ++ infinityWord <+: Text.trimLeft text.toList) :
    leadingNumber text = ((scan? (Text.trimLeft text.toList)).map fun found => found.1.toFloat).getD notANumber := by
  have noWord : infinityWord.isPrefixOf (sign (Text.trimLeft text.toList)).2 = false := by
    obtain ⟨s, isSign, split, -⟩ := sign_split (Text.trimLeft text.toList)
    rw [Bool.eq_false_iff, Ne, List.isPrefixOf_iff_prefix]
    intro word
    apply finite s isSign
    rw [split]
    exact (List.prefix_append_right_inj s).2 word
  simp only [leadingNumber, noWord, Bool.false_eq_true, if_false]
  cases scan? (Text.trimLeft text.toList) <;> rfl

/-- The number at the start of a text, after its leading blanks. Reading by positions cuts no character
and gives it. Behind an optional sign the word for it gives an infinity. Otherwise the longest numeral
that the text starts with is parsed, without the points at its end, and this never fails; and where
the text starts with no numeral, the result is not a number, and only there. -/
theorem leadingNumber_longest (text : String) :
    leadingNumber? text = some (leadingNumber text) ∧
      (∀ s ∈ [[], ['+'], ['-']], s ++ infinityWord <+: Text.trimLeft text.toList →
        (leadingNumber text).toBits = if s = ['-'] then 0xFFF0000000000000 else 0x7FF0000000000000) ∧
      ((∀ s ∈ [[], ['+'], ['-']], ¬ s ++ infinityWord <+: Text.trimLeft text.toList) →
        (∃ taken, IsLongest taken (Text.trimLeft text.toList) ∧
          parse? (taken.rdropWhile (· == '.')) = some (leadingNumber text) ∧
          (leadingNumber text).isNaN = false) ∨
        (∀ taken, taken <+: Text.trimLeft text.toList → taken ∉ Grammar.numeral.matches') ∧
          (leadingNumber text).isNaN = true) := by
  refine ⟨leadingNumber?_eq text, fun s isSign infinite => ?_, fun finite => ?_⟩
  · rw [leadingNumber_of_infinite isSign infinite]
    by_cases minus : s = ['-']
    · simp only [minus, decide_true, if_true]
      rfl
    · simp only [minus, decide_false, if_false]
      rfl
  · rw [leadingNumber_of_finite finite]
    cases found : scan? (Text.trimLeft text.toList) with
    | some scanned =>
      obtain ⟨s, longest, numeral⟩ := isLongest_of_scan? found
      refine .inl ⟨s.text, longest, ?_, Decimal.isNaN_toFloat _ _⟩
      rw [parse?_without_point, Option.map_some, numeral]
      rfl
    | none => exact .inr ⟨fun taken starts => not_mem_of_scan? found starts, rfl⟩

/-- A text that starts with infinity, and one whose number ends before a letter of two bytes. -/
theorem leadingNumber_longest_mixed :
    (leadingNumber "\t-Infinity!").toBits = 0xFFF0000000000000 ∧
      ∃ taken, IsLongest taken (Text.trimLeft " -2.5e2é".toList) ∧
        parse? (taken.rdropWhile (· == '.')) = some (leadingNumber " -2.5e2é") ∧
        (leadingNumber " -2.5e2é").isNaN = false := by
  have finite : ∀ s ∈ [[], ['+'], ['-']], ¬ s ++ infinityWord <+: Text.trimLeft " -2.5e2é".toList := by decide +kernel
  have number : (leadingNumber " -2.5e2é").isNaN = false := by decide +kernel
  constructor
  · exact (leadingNumber_longest "\t-Infinity!").2.1 ['-'] (by simp) ⟨['!'], rfl⟩
  · refine ((leadingNumber_longest " -2.5e2é").2.2 finite).resolve_right ?_
    rintro ⟨-, nan⟩
    rw [number] at nan
    cases nan

end ScratchPage.Numeral
