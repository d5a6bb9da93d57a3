/-
# KubeAutopsy.Theory.Json — documents, written and read again

The text of a document, as an encoder writes it that also escapes what HTML treats as
markup, and as much of a reader as such texts need.  An encoder of byte strings has a choice
to make about bytes that are no characters: this one writes the replacement character, so a
reader gets `toValid` of the string, which is the string itself if it is valid.

`readBody_writeBody` is the round trip of one string, by induction over its runes, and
`parse_write` that of a document, by induction on how deep the reader may go.  No escape of a
surrogate is ever written, so the reader has none.
-/
import KubeAutopsy.Theory.Escape
import KubeAutopsy.Theory.Runes

namespace KubeAutopsy.Theory.Json

open KubeAutopsy.Theory.Bytes (GoString lit itoa)
open KubeAutopsy.Theory.Escape (encodeChar_ascii encodeChar_cases)
open KubeAutopsy.Theory.Runes
open KubeAutopsy.Theory.Utf8

set_option autoImplicit false

/-! ## Writing a string -/

def hexDigit (n : UInt8) : UInt8 := if n < 10 then 0x30 + n else 0x57 + n

/-- A byte below `0x80`. -/
def writeAscii (b : UInt8) : GoString :=
  if b = 0x22 ∨ b = 0x5C then [0x5C, b]
  else if b = 0x08 then [0x5C, 0x62]
  else if b = 0x0C then [0x5C, 0x66]
  else if b = 0x0A then [0x5C, 0x6E]
  else if b = 0x0D then [0x5C, 0x72]
  else if b = 0x09 then [0x5C, 0x74]
  else if b < 0x20 ∨ b = 0x26 ∨ b = 0x3C ∨ b = 0x3E then
    [0x5C, 0x75, 0x30, 0x30, hexDigit (b / 16), hexDigit (b % 16)]
  else [b]

/-- A rune that is not ASCII, with its bytes.  The two line separators are escaped because
they end a line in JavaScript. -/
def writeRune (r : Nat) (bytes : GoString) : GoString :=
  if r = runeError ∧ bytes.length = 1 then [0xEF, 0xBF, 0xBD]
  else if r = 0x2028 then [0x5C, 0x75, 0x32, 0x30, 0x32, 0x38]
  else if r = 0x2029 then [0x5C, 0x75, 0x32, 0x30, 0x32, 0x39]
  else bytes

/-- What stands between the quotes, in at most `fuel` steps. -/
def writeFrom : Nat → GoString → GoString
  | 0, _ => []
  | _ + 1, [] => []
  | fuel + 1, b :: s =>
      if b < 0x80 then writeAscii b ++ writeFrom fuel s
      else
        writeRune (decodeRune (b :: s)).1 ((b :: s).take (decodeRune (b :: s)).2) ++
          writeFrom fuel ((b :: s).drop (decodeRune (b :: s)).2)

def writeBody (s : GoString) : GoString := writeFrom s.length s

def writeText (s : GoString) : GoString := 0x22 :: writeBody s ++ [0x22]

/-! ## Reading a string -/

def hexValue (b : UInt8) : Option Nat :=
  if 0x30 ≤ b ∧ b ≤ 0x39 then some (b.toNat - 0x30)
  else if 0x61 ≤ b ∧ b ≤ 0x66 then some (b.toNat - 0x57)
  else if 0x41 ≤ b ∧ b ≤ 0x46 then some (b.toNat - 0x37)
  else none

/-- The code of four hexadecimal digits, unless it is half of a surrogate pair. -/
def hexCode (a b c d : UInt8) : Option Nat := do
  let code := (((← hexValue a) * 16 + (← hexValue b)) * 16 + (← hexValue c)) * 16 + (← hexValue d)
  if 0xD800 ≤ code ∧ code ≤ 0xDFFF then none else some code

/-- What a single letter behind a backslash stands for. -/
def shortEscape (b : UInt8) : Option UInt8 :=
  if b = 0x22 ∨ b = 0x5C ∨ b = 0x2F then some b
  else if b = 0x62 then some 0x08
  else if b = 0x66 then some 0x0C
  else if b = 0x6E then some 0x0A
  else if b = 0x72 then some 0x0D
  else if b = 0x74 then some 0x09
  else none

def before (s : GoString) (read : GoString × GoString) : GoString × GoString := (s ++ read.1, read.2)

/-- The string up to the closing quote, and what is behind it. -/
def readBody : GoString → Option (GoString × GoString)
  | [] => none
  | b :: s =>
      if b = 0x22 then some ([], s)
      else if b = 0x5C then
        match s with
        | [] => none
        | e :: s =>
            if e = 0x75 then
              match s with
              | h₁ :: h₂ :: h₃ :: h₄ :: s =>
                  match hexCode h₁ h₂ h₃ h₄ with
                  | some r => (readBody s).map (before (encodeRune r))
                  | none => none
              | _ => none
            else
              match shortEscape e with
              | some c => (readBody s).map (before [c])
              | none => none
      else if b < 0x20 then none
      else (readBody s).map (before [b])

def readText : GoString → Option (GoString × GoString)
  | b :: s => if b = 0x22 then readBody s else none
  | [] => none

/-! ## One string, there and back -/

section Steps

variable {s : GoString}

theorem before_before (s t : GoString) (read : Option (GoString × GoString)) :
    (read.map (before t)).map (before s) = read.map (before (s ++ t)) := by
  cases read with
  | none => rfl
  | some read => simp [before]

theorem readBody_hex {h₁ h₂ h₃ h₄ : UInt8} {r : Nat} (code : hexCode h₁ h₂ h₃ h₄ = some r) :
    readBody (0x5C :: 0x75 :: h₁ :: h₂ :: h₃ :: h₄ :: s) =
      (readBody s).map (before (encodeRune r)) := by
  rw [readBody.eq_def]
  simp [code]

theorem readBody_short {e c : UInt8} (other : e ≠ 0x75) (stands : shortEscape e = some c) :
    readBody (0x5C :: e :: s) = (readBody s).map (before [c]) := by
  rw [readBody.eq_def]
  simp [other, stands]

theorem readBody_plain {b : UInt8} (quote : b ≠ 0x22) (escape : b ≠ 0x5C) (control : ¬ b < 0x20) :
    readBody (b :: s) = (readBody s).map (before [b]) := by
  rw [readBody.eq_def]
  simp only [if_neg quote, if_neg escape, if_neg control]

/-- Bytes of characters that are not ASCII stand for themselves. -/
theorem readBody_high {bytes : GoString} (high : ∀ b ∈ bytes, ¬ b < 0x80) :
    readBody (bytes ++ s) = (readBody s).map (before bytes) := by
  induction bytes with
  | nil => cases read : readBody s <;> simp [before, read]
  | cons b bytes ih =>
      obtain ⟨head, tail⟩ := List.forall_mem_cons.1 high
      have plain : ∀ c : UInt8, ¬ c < 0x80 → c ≠ 0x22 ∧ c ≠ 0x5C ∧ ¬ c < 0x20 := by decide +kernel
      obtain ⟨quote, escape, control⟩ := plain b head
      rw [List.cons_append, readBody_plain quote escape control, ih tail, before_before]
      rfl

theorem hexCode_ascii : ∀ b : UInt8, b < 0x80 →
    hexCode 0x30 0x30 (hexDigit (b / 16)) (hexDigit (b % 16)) = some b.toNat := by
  decide +kernel

theorem encodeRune_ascii : ∀ b : UInt8, b < 0x80 → encodeRune b.toNat = [b] := by
  decide +kernel

theorem readBody_writeAscii {b : UInt8} (low : b < 0x80) :
    readBody (writeAscii b ++ s) = (readBody s).map (before [b]) := by
  rw [writeAscii]
  split_ifs with quoted bs ff nl cr tab hex
  · rcases quoted with rfl | rfl
    · exact readBody_short (by decide) (by decide)
    · exact readBody_short (by decide) (by decide)
  · exact bs ▸ readBody_short (by decide) (by decide)
  · exact ff ▸ readBody_short (by decide) (by decide)
  · exact nl ▸ readBody_short (by decide) (by decide)
  · exact cr ▸ readBody_short (by decide) (by decide)
  · exact tab ▸ readBody_short (by decide) (by decide)
  · rw [← encodeRune_ascii b low]
    exact readBody_hex (hexCode_ascii b low)
  · push Not at quoted hex
    exact readBody_plain quoted.1 quoted.2 hex.1

end Steps

/-! ### The writer, rune by rune -/

/-- Fuel for each byte is fuel enough. -/
theorem writeFrom_eq {n m : Nat} {s : GoString} (enough : s.length ≤ n) (enough' : s.length ≤ m) :
    writeFrom n s = writeFrom m s := by
  induction n generalizing m s with
  | zero =>
      obtain rfl := List.length_eq_zero_iff.1 (Nat.le_zero.1 enough)
      cases m <;> rfl
  | succ n ih =>
      cases s with
      | nil => cases m <;> rfl
      | cons b s =>
          rw [List.length_cons] at enough enough'
          obtain ⟨m, rfl⟩ : ∃ k, m = k + 1 := ⟨m - 1, by omega⟩
          have wide := decodeRune_wide b s
          have short : ((b :: s).drop (decodeRune (b :: s)).2).length ≤ s.length := by
            rw [List.length_drop, List.length_cons]
            omega
          rw [writeFrom, writeFrom, ih (m := m) (s := s) (by omega) (by omega),
            ih (m := m) (by omega) (by omega)]

theorem writeBody_ascii {b : UInt8} (low : b < 0x80) (s : GoString) :
    writeBody (b :: s) = writeAscii b ++ writeBody s := by
  rw [writeBody, List.length_cons, writeFrom, if_pos low]
  rfl

theorem writeBody_high {bytes s : GoString} {r : Nat} (present : bytes ≠ [])
    (high : ∀ b ∈ bytes, ¬ b < 0x80) (read : decodeRune (bytes ++ s) = (r, bytes.length)) :
    writeBody (bytes ++ s) = writeRune r bytes ++ writeBody s := by
  obtain ⟨b, bytes, rfl⟩ := List.exists_cons_of_ne_nil present
  rw [List.cons_append] at read ⊢
  rw [writeBody, List.length_cons, writeFrom, if_neg (high b List.mem_cons_self), read,
    ← List.cons_append, List.take_left, List.drop_left,
    writeFrom_eq (m := s.length) (by simp) (Nat.le_refl _)]
  rfl

theorem not_ascii_of_error {b : UInt8} {s : GoString}
    (bad : decodeRune (b :: s) = (runeError, 1)) : ¬ b < 0x80 := by
  intro low
  have small : b.toNat < 128 := UInt8.lt_iff_toNat_lt.1 low
  have read := (Encodes.one (Nat.le_of_lt_succ small)).decodeRune s
  have value : runeError = b.toNat := congrArg Prod.fst (bad.symm.trans read)
  rw [← value, runeError] at small
  omega

theorem writeBody_error {b : UInt8} {s : GoString} (bad : decodeRune (b :: s) = (runeError, 1)) :
    writeBody (b :: s) = [0xEF, 0xBF, 0xBD] ++ writeBody s := by
  have written : writeBody ([b] ++ s) = writeRune runeError [b] ++ writeBody s :=
    writeBody_high (List.cons_ne_nil b [])
      (List.forall_mem_singleton.2 (not_ascii_of_error bad)) bad
  rwa [writeRune, if_pos ⟨rfl, rfl⟩] at written

/-- **A string is written as the string it is read back as.** -/
theorem writeBody_toValid (s : GoString) : writeBody (toValid s) = writeBody s := by
  induction s using rune_induction with
  | nil => rfl
  | char c s ih =>
      rw [toValid_encodeChar]
      rcases encodeChar_cases c with ⟨b, low, shape⟩ | high
      · rw [shape, List.singleton_append, List.singleton_append, writeBody_ascii low,
          writeBody_ascii low, ih]
      · rw [writeBody_high (encodeChar_ne_nil c) high (decodeRune_encodeChar c (toValid s)),
          writeBody_high (encodeChar_ne_nil c) high (decodeRune_encodeChar c s), ih]
  | error b s bad ih =>
      have high : ∀ c ∈ ([0xEF, 0xBF, 0xBD] : GoString), ¬ c < 0x80 := by decide +kernel
      have replaced := writeBody_high (List.cons_ne_nil _ _) high
        (decodeRune_encodeChar (Char.ofNat runeError) (toValid s))
      rw [toValid_error bad, writeBody_error bad, ← ih]
      exact replaced

/-- A character that is not ASCII is read back. -/
theorem readBody_writeRune {c : Char} (high : ∀ b ∈ String.utf8EncodeChar c, ¬ b < 0x80)
    (s : GoString) :
    readBody (writeRune c.toNat (String.utf8EncodeChar c) ++ s) =
      (readBody s).map (before (String.utf8EncodeChar c)) := by
  have spelled := encodeRune_toNat c
  rw [writeRune]
  split_ifs with bad line paragraph
  · -- The replacement character takes three bytes, so it is not taken for an error.
    obtain ⟨value, one⟩ := bad
    rw [← spelled, value] at one
    exact absurd one (by decide)
  · rw [← spelled, line]
    exact readBody_hex (by decide)
  · rw [← spelled, paragraph]
    exact readBody_hex (by decide)
  · exact readBody_high high

/-- **What is written is read again**, up to the bytes that are no characters. -/
theorem readBody_writeBody (s rest : GoString) :
    readBody (writeBody s ++ 0x22 :: rest) = some (toValid s, rest) := by
  induction s using rune_induction with
  | nil =>
      rw [readBody.eq_def]
      rfl
  | char c s ih =>
      rw [toValid_encodeChar]
      rcases encodeChar_cases c with ⟨b, low, shape⟩ | high
      · rw [shape, List.singleton_append, writeBody_ascii low, List.append_assoc,
          readBody_writeAscii low, ih]
        rfl
      · rw [writeBody_high (encodeChar_ne_nil c) high (decodeRune_encodeChar c s),
          List.append_assoc, readBody_writeRune high, ih]
        rfl
  | error b s bad ih =>
      have high : ∀ c ∈ ([0xEF, 0xBF, 0xBD] : GoString), ¬ c < 0x80 := by decide +kernel
      rw [toValid_error bad, encodeRune_runeError, writeBody_error bad, List.append_assoc,
        readBody_high high, ih]
      rfl

theorem readText_writeText (s rest : GoString) :
    readText (writeText s ++ rest) = some (toValid s, rest) := by
  rw [writeText, List.cons_append, List.cons_append, List.append_assoc, readText, if_pos rfl]
  exact readBody_writeBody s rest

/-! ## Integers -/

def isDigit (b : UInt8) : Bool := 0x30 ≤ b && b ≤ 0x39

def readDigits (n : Nat) : GoString → Nat × GoString
  | [] => (n, [])
  | b :: s => if isDigit b then readDigits (10 * n + (b.toNat - 0x30)) s else (n, b :: s)

def readNat : GoString → Option (Nat × GoString)
  | [] => none
  | b :: s => if isDigit b then some (readDigits 0 (b :: s)) else none

def readInt : GoString → Option (Int × GoString)
  | [] => none
  | b :: s =>
      if b = 0x2D then (readNat s).map fun (n, rest) => (-n, rest)
      else (readNat (b :: s)).map fun (n, rest) => (n, rest)

/-- The rest of a text in which a number has ended. -/
def Ended (rest : GoString) : Prop := ∀ b ∈ rest.head?, isDigit b = false

theorem ended_nil : Ended [] := nofun

theorem encodeChar_digit {c : Char} (digit : c.isDigit = true) :
    ∃ b, String.utf8EncodeChar c = [b] ∧ isDigit b = true ∧ b.toNat = c.toNat := by
  have range : 48 ≤ c.toNat ∧ c.toNat ≤ 57 := by
    simpa [Char.isDigit, UInt32.le_iff_toNat_le] using digit
  have value : (UInt8.ofNat c.toNat).toNat = c.toNat :=
    UInt8.toNat_ofNat_of_lt' (Nat.lt_of_le_of_lt range.2 (by decide))
  refine ⟨UInt8.ofNat c.toNat, ?_, between_iff.2 ?_, value⟩
  · have ascii : UInt8.ofNat c.toNat < 0x80 := by
      rw [UInt8.lt_iff_toNat_lt, value]
      exact Nat.lt_of_le_of_lt range.2 (by decide)
    have encoded := encodeChar_ascii _ ascii
    rwa [value, Char.ofNat_toNat] at encoded
  · rw [value]
    exact range

theorem readDigits_chars {chars : List Char} (digits : ∀ c ∈ chars, c.isDigit = true)
    {rest : GoString} (ended : Ended rest) (n : Nat) :
    readDigits n (chars.flatMap String.utf8EncodeChar ++ rest) =
      (Nat.ofDigitChars 10 chars n, rest) := by
  induction chars generalizing n with
  | nil =>
      cases rest with
      | nil => rfl
      | cons b rest => simp [readDigits, ended b rfl]
  | cons c chars ih =>
      obtain ⟨digit, digits⟩ := List.forall_mem_cons.1 digits
      obtain ⟨b, encoded, accepted, value⟩ := encodeChar_digit digit
      rw [List.flatMap_cons, encoded, List.append_assoc, List.singleton_append, readDigits,
        if_pos accepted, ih digits, value]
      rfl

theorem readNat_repr (n : Nat) {rest : GoString} (ended : Ended rest) :
    readNat (lit n.repr ++ rest) = some (n, rest) := by
  have written : lit n.repr = (Nat.toDigits 10 n).flatMap String.utf8EncodeChar := by
    rw [lit_eq, Nat.repr_eq_ofList_toDigits, String.toList_ofList]
  have digits : ∀ c ∈ Nat.toDigits 10 n, c.isDigit = true := fun c member =>
    Nat.isDigit_of_mem_toDigits (by decide) (by decide) member
  have whole := readDigits_chars digits ended 0
  rw [Nat.ofDigitChars_toDigits (by decide) (by decide)] at whole
  obtain ⟨c, chars, shape⟩ := List.exists_cons_of_ne_nil (Nat.toDigits_ne_nil (n := n) (b := 10))
  obtain ⟨b, encoded, accepted, -⟩ := encodeChar_digit (digits c (shape ▸ List.mem_cons_self))
  rw [shape, List.flatMap_cons, encoded, List.append_assoc, List.singleton_append] at whole
  rw [written, shape, List.flatMap_cons, encoded, List.append_assoc, List.singleton_append, readNat,
    if_pos accepted, whole]

/-- No digit is the sign. -/
theorem readInt_of_readNat {s rest : GoString} {n : Nat} (read : readNat s = some (n, rest)) :
    readInt s = some ((n : Int), rest) := by
  cases s with
  | nil => cases read
  | cons b s =>
      have unsigned : b ≠ 0x2D := by
        rintro rfl
        cases read
      rw [readInt, if_neg unsigned, read]
      rfl

theorem readInt_itoa (n : Int) {rest : GoString} (ended : Ended rest) :
    readInt (itoa n ++ rest) = some (n, rest) := by
  rw [itoa, Int.repr_eq_if]
  split_ifs with natural
  · have read := readInt_of_readNat (readNat_repr n.toNat ended)
    rwa [Int.toNat_of_nonneg natural] at read
  · have signed : lit ("-" ++ (-n).toNat.repr) = 0x2D :: lit (-n).toNat.repr := by
      rw [lit_eq, String.toList_append, List.flatMap_append, ← lit_eq, ← lit_eq]
      rfl
    rw [signed, List.cons_append, readInt, if_pos rfl, readNat_repr _ ended]
    simp only [Option.map_some, Option.some.injEq, Prod.mk.injEq, and_true]
    omega

/-! ## Sequences -/

section Sequences

variable {α β : Type}

/-- The items with a comma between any two, and the closing bracket. -/
def writeItems (close : UInt8) (write : α → GoString) : List α → GoString
  | [] => [close]
  | x :: items => write x ++ (items.flatMap fun y => 0x2C :: write y) ++ [close]

/-- Further items, each behind a comma, in at most `fuel` steps. -/
def readMore (close : UInt8) (read : GoString → Option (β × GoString)) :
    Nat → GoString → Option (List β × GoString)
  | 0, _ => none
  | _ + 1, [] => none
  | fuel + 1, b :: s =>
      if b = close then some ([], s)
      else if b = 0x2C then
        (read s).bind fun x =>
          (readMore close read fuel x.2).map fun items => (x.1 :: items.1, items.2)
      else none

def readItems (close : UInt8) (read : GoString → Option (β × GoString)) :
    GoString → Option (List β × GoString)
  | [] => none
  | b :: s =>
      if b = close then some ([], s)
      else
        (read (b :: s)).bind fun x =>
          (readMore close read x.2.length x.2).map fun items => (x.1 :: items.1, items.2)

/-- A bracket that no number and no comma is taken for. -/
structure Closes (close : UInt8) : Prop where
  digit : isDigit close = false
  comma : close ≠ 0x2C

/-- The reader takes the item as what it stands for, and does not start it with the bracket. -/
structure Reads (close : UInt8) (write : α → GoString) (read : GoString → Option (β × GoString))
    (value : α → β) (x : α) : Prop where
  back : ∀ {rest}, Ended rest → read (write x ++ rest) = some (value x, rest)
  opens : ∃ b s, write x = b :: s ∧ b ≠ close

variable {close : UInt8} {write : α → GoString} {read : GoString → Option (β × GoString)}
  {value : α → β}

/-- A number is over where further items or the bracket stand. -/
theorem Closes.ended (closes : Closes close) (write : α → GoString) (items : List α)
    (rest : GoString) :
    Ended ((items.flatMap fun y => 0x2C :: write y) ++ close :: rest) := by
  cases items with
  | nil => exact fun b first => by cases first; exact closes.digit
  | cons x items => exact fun b first => by cases first; rfl

theorem readMore_items (closes : Closes close) {items : List α}
    (reads : ∀ x ∈ items, Reads close write read value x) {fuel : Nat}
    (enough : items.length < fuel) (rest : GoString) :
    readMore close read fuel ((items.flatMap fun y => 0x2C :: write y) ++ close :: rest) =
      some (items.map value, rest) := by
  induction items generalizing fuel with
  | nil =>
      obtain ⟨fuel, rfl⟩ : ∃ k, fuel = k + 1 := ⟨fuel - 1, by omega⟩
      simp [readMore]
  | cons x items ih =>
      obtain ⟨first, others⟩ := List.forall_mem_cons.1 reads
      rw [List.length_cons] at enough
      obtain ⟨fuel, rfl⟩ : ∃ k, fuel = k + 1 := ⟨fuel - 1, by omega⟩
      rw [List.flatMap_cons, List.append_assoc, List.cons_append, readMore, if_neg closes.comma.symm,
        if_pos rfl, first.back (closes.ended write items rest), Option.bind_some]
      simp only [ih others (Nat.lt_of_succ_lt_succ enough)]
      rfl

/-- **A sequence is read again.** -/
theorem readItems_writeItems (closes : Closes close) {items : List α}
    (reads : ∀ x ∈ items, Reads close write read value x) (rest : GoString) :
    readItems close read (writeItems close write items ++ rest) = some (items.map value, rest) := by
  cases items with
  | nil => simp [writeItems, readItems]
  | cons x items =>
      obtain ⟨first, others⟩ := List.forall_mem_cons.1 reads
      obtain ⟨b, s, opens, other⟩ := first.opens
      have back := first.back (closes.ended write items rest)
      have shape : writeItems close write (x :: items) ++ rest =
          b :: (s ++ ((items.flatMap fun y => 0x2C :: write y) ++ close :: rest)) := by
        rw [writeItems, opens]
        simp
      have long :
          items.length < ((items.flatMap fun y => 0x2C :: write y) ++ close :: rest).length := by
        rw [List.length_append, List.length_cons, List.length_flatMap]
        have each := List.length_le_sum_of_one_le (items.map fun y => (0x2C :: write y).length) ?_
        · rw [List.length_map] at each
          omega
        · simp
      rw [opens, List.cons_append] at back
      rw [shape, readItems, if_neg other, back, Option.bind_some]
      simp only [readMore_items closes others long rest]
      rfl

/-- An item is shorter than the sequence it is in. -/
theorem length_lt_writeItems (close : UInt8) (write : α → GoString) {items : List α} {x : α}
    (member : x ∈ items) : (write x).length < (writeItems close write items).length := by
  cases items with
  | nil => cases member
  | cons y items =>
      rw [writeItems, List.length_append, List.length_append, List.length_flatMap,
        List.length_singleton]
      rcases List.mem_cons.1 member with rfl | later
      · omega
      · have within := List.le_sum_of_mem
          (List.mem_map_of_mem (f := fun y => (0x2C :: write y).length) later)
        rw [List.length_cons] at within
        omega

end Sequences

/-! ## Documents -/

/-- A document.  There are no fractions, and nothing is null. -/
inductive Value
  | text (s : GoString)
  | number (n : Int)
  | array (items : List Value)
  | object (members : List (GoString × Value))

/-- The members of an object, in the order they are written. -/
abbrev Members := List (GoString × Value)

mutual

def Value.write : Value → GoString
  | .text s => writeText s
  | .number n => itoa n
  | .array items => 0x5B :: writeArray items
  | .object members => 0x7B :: writeObject members

def writeArray : List Value → GoString
  | [] => [0x5D]
  | value :: items => value.write ++ writeMoreValues items

def writeMoreValues : List Value → GoString
  | [] => [0x5D]
  | value :: items => 0x2C :: value.write ++ writeMoreValues items

def writeObject : Members → GoString
  | [] => [0x7D]
  | (name, value) :: members =>
      writeText name ++ 0x3A :: value.write ++ writeMoreMembers members

def writeMoreMembers : Members → GoString
  | [] => [0x7D]
  | (name, value) :: members =>
      0x2C :: (writeText name ++ 0x3A :: value.write) ++ writeMoreMembers members

end

def writeMember (member : GoString × Value) : GoString :=
  writeText member.1 ++ 0x3A :: member.2.write

theorem writeArray_eq (items : List Value) : writeArray items = writeItems 0x5D Value.write items := by
  have more : ∀ items, writeMoreValues items =
      (items.flatMap fun value => 0x2C :: value.write) ++ [0x5D] := by
    intro items
    induction items with
    | nil => rfl
    | cons value items ih => simp [writeMoreValues, ih]
  cases items with
  | nil => rfl
  | cons value items => simp [writeArray, writeItems, more]

theorem writeObject_eq (members : Members) :
    writeObject members = writeItems 0x7D writeMember members := by
  have more : ∀ members, writeMoreMembers members =
      (members.flatMap fun member => 0x2C :: writeMember member) ++ [0x7D] := by
    intro members
    induction members with
    | nil => rfl
    | cons member members ih => simp [writeMoreMembers, writeMember, ih]
  cases members with
  | nil => rfl
  | cons member members => simp [writeObject, writeItems, writeMember, more]

/-- One member, for a reader of its value. -/
def readMember (read : GoString → Option (Value × GoString)) (s : GoString) :
    Option ((GoString × Value) × GoString) :=
  (readText s).bind fun name =>
    match name.2 with
    | [] => none
    | b :: s => if b = 0x3A then (read s).map fun (value, rest) => ((name.1, value), rest) else none

/-- A document of at most `fuel` levels. -/
def readValue : Nat → GoString → Option (Value × GoString)
  | 0, _ => none
  | _ + 1, [] => none
  | fuel + 1, b :: s =>
      if b = 0x22 then (readBody s).map fun (s, rest) => (.text s, rest)
      else if b = 0x5B then
        (readItems 0x5D (readValue fuel) s).map fun (items, rest) => (.array items, rest)
      else if b = 0x7B then
        (readItems 0x7D (readMember (readValue fuel)) s).map fun (members, rest) =>
          (.object members, rest)
      else (readInt (b :: s)).map fun (n, rest) => (.number n, rest)

/-- A text that is one document and nothing else. -/
def parse (s : GoString) : Option Value :=
  (readValue s.length s).bind fun read => if read.2 = [] then some read.1 else none

mutual

/-- The document with each of its texts made valid. -/
def Value.toValid : Value → Value
  | .text s => .text (Runes.toValid s)
  | .number n => .number n
  | .array items => .array (itemsToValid items)
  | .object members => .object (membersToValid members)

def itemsToValid : List Value → List Value
  | [] => []
  | value :: items => value.toValid :: itemsToValid items

def membersToValid : Members → Members
  | [] => []
  | (name, value) :: members => (toValid name, value.toValid) :: membersToValid members

end

theorem itemsToValid_eq (items : List Value) : itemsToValid items = items.map Value.toValid := by
  induction items with
  | nil => rfl
  | cons value items ih => rw [itemsToValid, ih, List.map_cons]

theorem membersToValid_eq (members : Members) :
    membersToValid members = members.map fun (name, value) => (toValid name, value.toValid) := by
  induction members with
  | nil => rfl
  | cons member members ih => rw [membersToValid, ih, List.map_cons]

/-! ### There and back -/

theorem closes_bracket : Closes 0x5D := ⟨rfl, by decide⟩
theorem closes_brace : Closes 0x7D := ⟨rfl, by decide⟩

/-- An integer starts like no other document. -/
theorem itoa_starts (n : Int) :
    ∃ b s, itoa n = b :: s ∧ b ≠ 0x22 ∧ b ≠ 0x5B ∧ b ≠ 0x7B ∧ b ≠ 0x5D := by
  have read := readInt_itoa n ended_nil
  rw [List.append_nil] at read
  cases shape : itoa n with
  | nil =>
      rw [shape] at read
      cases read
  | cons b s =>
      rw [shape] at read
      refine ⟨b, s, rfl, ?_, ?_, ?_, ?_⟩ <;> rintro rfl <;> cases read

/-- No document starts with a closing bracket. -/
theorem write_starts (value : Value) : ∃ b s, value.write = b :: s ∧ b ≠ 0x5D := by
  cases value with
  | text s => exact ⟨0x22, writeBody s ++ [0x22], by rw [Value.write, writeText]; rfl, by decide⟩
  | number n =>
      obtain ⟨b, s, shape, -, -, -, other⟩ := itoa_starts n
      exact ⟨b, s, by rw [Value.write, shape], other⟩
  | array items => exact ⟨0x5B, writeArray items, by rw [Value.write], by decide⟩
  | object members => exact ⟨0x7B, writeObject members, by rw [Value.write], by decide⟩

theorem readMember_writeMember {read : GoString → Option (Value × GoString)}
    {member : GoString × Value} {rest : GoString}
    (back : read (member.2.write ++ rest) = some (member.2.toValid, rest)) :
    readMember read (writeMember member ++ rest) =
      some ((toValid member.1, member.2.toValid), rest) := by
  rw [writeMember, List.append_assoc, readMember, readText_writeText, Option.bind_some]
  simp only [List.cons_append, if_true, back]
  rfl

/-- By induction on the fuel: what is inside brackets is shorter than what is outside. -/
theorem readValue_write {fuel : Nat} {value : Value} (enough : value.write.length ≤ fuel)
    {rest : GoString} (ended : Ended rest) :
    readValue fuel (value.write ++ rest) = some (value.toValid, rest) := by
  induction fuel generalizing value rest with
  | zero =>
      obtain ⟨b, s, shape, -⟩ := write_starts value
      rw [shape, List.length_cons] at enough
      omega
  | succ fuel ih =>
      cases value with
      | text s =>
          have back := readBody_writeBody s rest
          rw [Value.write, writeText, List.cons_append, List.cons_append, List.append_assoc,
            List.singleton_append, readValue, if_pos rfl, back, Value.toValid]
          rfl
      | number n =>
          obtain ⟨b, s, shape, quote, bracket, brace, -⟩ := itoa_starts n
          have back := readInt_itoa n ended
          rw [shape, List.cons_append] at back
          rw [Value.write, shape, List.cons_append, readValue, if_neg quote, if_neg bracket,
            if_neg brace, back, Value.toValid]
          rfl
      | array items =>
          rw [Value.write, writeArray_eq, List.length_cons] at enough
          have reads : ∀ value ∈ items,
              Reads 0x5D Value.write (readValue fuel) Value.toValid value := by
            intro value member
            have shorter := length_lt_writeItems 0x5D Value.write member
            exact ⟨fun ended => ih (by omega) ended, write_starts value⟩
          rw [Value.write, writeArray_eq, List.cons_append, readValue, if_neg (by decide),
            if_pos rfl, readItems_writeItems closes_bracket reads, Value.toValid, itemsToValid_eq]
          rfl
      | object members =>
          rw [Value.write, writeObject_eq, List.length_cons] at enough
          have reads : ∀ member ∈ members, Reads 0x7D writeMember (readMember (readValue fuel))
              (fun member => (toValid member.1, member.2.toValid)) member := by
            intro member among
            have shorter := length_lt_writeItems 0x7D writeMember among
            rw [writeMember, List.length_append, List.length_cons] at shorter
            refine ⟨fun ended => readMember_writeMember (ih (by omega) ended), ?_⟩
            exact ⟨0x22, _, rfl, by decide⟩
          rw [Value.write, writeObject_eq, List.cons_append, readValue, if_neg (by decide),
            if_neg (by decide), if_pos rfl, readItems_writeItems closes_brace reads, Value.toValid,
            membersToValid_eq]
          rfl

/-- **A document is read again**, each text made valid. -/
theorem parse_write (value : Value) : parse value.write = some value.toValid := by
  have back := readValue_write (Nat.le_refl value.write.length) ended_nil
  rw [List.append_nil] at back
  rw [parse, back]
  rfl

/-! ## Lengths -/

theorem length_writeAscii_le : ∀ b : UInt8, (writeAscii b).length ≤ 6 := by decide +kernel

/-- An escape takes six bytes and stands for at least one. -/
theorem length_writeBody_le (s : GoString) : (writeBody s).length ≤ 6 * s.length := by
  induction s using rune_induction with
  | nil => exact Nat.le_refl 0
  | char c s ih =>
      rw [List.length_append]
      rcases encodeChar_cases c with ⟨b, low, shape⟩ | high
      · have one := length_writeAscii_le b
        rw [shape, List.singleton_append, writeBody_ascii low, List.length_append,
          List.length_singleton]
        omega
      · have some_ := List.length_pos_iff.2 (encodeChar_ne_nil c)
        have rune : (writeRune c.toNat (String.utf8EncodeChar c)).length ≤
            6 * (String.utf8EncodeChar c).length := by
          have escape : 6 ≤ 6 * (String.utf8EncodeChar c).length := by omega
          rw [writeRune]
          split_ifs
          · exact Nat.le_trans (by decide) escape
          · exact escape
          · exact escape
          · omega
        rw [writeBody_high (encodeChar_ne_nil c) high (decodeRune_encodeChar c s),
          List.length_append]
        omega
  | error b s bad ih =>
      rw [writeBody_error bad, List.length_append, List.length_cons]
      simp only [List.length_cons, List.length_nil]
      omega

theorem length_writeText_le (s : GoString) : (writeText s).length ≤ 6 * s.length + 2 := by
  have body := length_writeBody_le s
  rw [writeText, List.length_append, List.length_cons, List.length_singleton]
  omega

theorem length_encodeDigits {chars : List Char} (digits : ∀ c ∈ chars, c.isDigit = true) :
    (chars.flatMap String.utf8EncodeChar).length = chars.length := by
  induction chars with
  | nil => rfl
  | cons c chars ih =>
      obtain ⟨digit, digits⟩ := List.forall_mem_cons.1 digits
      obtain ⟨b, encoded, -⟩ := encodeChar_digit digit
      rw [List.flatMap_cons, encoded, List.length_append, ih digits, List.length_singleton,
        List.length_cons, Nat.add_comm]

theorem length_itoa_le {n : Int} {k : Nat} (some_ : 0 < k) (small : n.natAbs < 10 ^ k) :
    (itoa n).length ≤ k + 1 := by
  have natural : ∀ m < 10 ^ k, (lit m.repr).length ≤ k := by
    intro m below
    rw [lit_eq, Nat.repr_eq_ofList_toDigits, String.toList_ofList, length_encodeDigits fun c member =>
      Nat.isDigit_of_mem_toDigits (by decide) (by decide) member]
    exact (Nat.length_toDigits_le_iff (by decide) some_).2 below
  rw [itoa, Int.repr_eq_if]
  split_ifs with sign
  · exact Nat.le_succ_of_le (natural n.toNat (by omega))
  · rw [lit_eq, String.toList_append, List.flatMap_append, List.length_append, ← lit_eq, ← lit_eq]
    have rest := natural (-n).toNat (by omega)
    have dash : (lit "-").length = 1 := by decide
    omega

theorem length_writeItems_le {α : Type} (close : UInt8) (write : α → GoString) (items : List α) :
    (writeItems close write items).length ≤ (items.map fun x => (write x).length + 1).sum + 1 := by
  cases items with
  | nil => exact Nat.le_refl 1
  | cons x items =>
      rw [writeItems, List.length_append, List.length_append, List.length_flatMap,
        List.length_singleton, List.map_cons, List.sum_cons]
      simp only [List.length_cons]
      omega

end KubeAutopsy.Theory.Json
