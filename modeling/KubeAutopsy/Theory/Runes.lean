/-
# KubeAutopsy.Theory.Runes — reading a string rune by rune, and writing it again

`decodeRune` and the encoding of characters undo each other: behind the encoding of a
character it reads that character (`decodeRune_encodeChar`), and when it reads anything but
the error of one byte, the string starts with the encoding of a character
(`decodeRune_cases`).  So every string is put together of characters and of bytes that are no
part of one, and `rune_induction` is the induction over those.

The runes of a valid string are its characters (`runes_encode`), and those of an ASCII string
its bytes (`runes_ascii`).  `toValid` writes the rune error for what is no character, as
encoders do that have to emit valid text.
-/
import KubeAutopsy.Theory.Utf8

namespace KubeAutopsy.Theory.Runes

open KubeAutopsy.Theory.Bytes (GoString)
open KubeAutopsy.Theory.Utf8

set_option autoImplicit false

/-! ## One rune -/

/-- The encoding of a rune; what is no character is written as the rune error. -/
def encodeRune (r : Nat) : GoString :=
  String.utf8EncodeChar (Char.ofNat (if r.isValidChar then r else runeError))

theorem encodeRune_toNat (c : Char) : encodeRune c.toNat = String.utf8EncodeChar c := by
  have valid : c.toNat.isValidChar := c.valid
  rw [encodeRune, if_pos valid, Char.ofNat_toNat]

theorem encodeRune_runeError : encodeRune runeError = [0xEF, 0xBF, 0xBD] := by decide

section Bytes

variable {a b c d : UInt8}

theorem between_iff {low high : UInt8} :
    (low ≤ a && a ≤ high) = true ↔ low.toNat ≤ a.toNat ∧ a.toNat ≤ high.toNat := by
  simp only [Bool.and_eq_true, decide_eq_true_eq, UInt8.le_iff_toNat_le]

theorem cont_iff : cont b = true ↔ 0x80 ≤ b.toNat ∧ b.toNat ≤ 0xBF := between_iff

/-- The byte after the first is any continuation byte, but for a least one after the start `x`
and a greatest one after the start `y`. -/
theorem second_iff {x y low high : UInt8} (differ : x ≠ y) (above : 0x80 ≤ low.toNat)
    (below : high.toNat ≤ 0xBF) :
    (if a = x then low ≤ b && b ≤ 0xBF else if a = y then 0x80 ≤ b && b ≤ high else cont b) = true ↔
      0x80 ≤ b.toNat ∧ b.toNat ≤ 0xBF ∧ (a = x → low.toNat ≤ b.toNat) ∧
        (a = y → b.toNat ≤ high.toNat) := by
  split_ifs with first second
  · have other : a ≠ y := fun same => differ (first.symm.trans same)
    rw [between_iff]
    constructor
    · rintro ⟨least, most⟩
      exact ⟨by omega, most, fun _ => least, fun same => absurd same other⟩
    · rintro ⟨-, most, least, -⟩
      exact ⟨least first, most⟩
  · rw [between_iff]
    constructor
    · rintro ⟨least, most⟩
      exact ⟨least, by omega, fun same => absurd same first, fun _ => most⟩
    · rintro ⟨least, -, -, most⟩
      exact ⟨least, most second⟩
  · simp only [cont_iff, first, second, false_imp_iff, and_true]

theorem second3_iff : second3 a b = true ↔ 0x80 ≤ b.toNat ∧ b.toNat ≤ 0xBF ∧
    (a = 0xE0 → 0xA0 ≤ b.toNat) ∧ (a = 0xED → b.toNat ≤ 0x9F) :=
  second_iff (by decide) (by decide) (by decide)

theorem second4_iff : second4 a b = true ↔ 0x80 ≤ b.toNat ∧ b.toNat ≤ 0xBF ∧
    (a = 0xF0 → 0x90 ≤ b.toNat) ∧ (a = 0xF4 → b.toNat ≤ 0x8F) :=
  second_iff (by decide) (by decide) (by decide)

end Bytes

/-- The bytes of a character, by their number, and its value. -/
inductive Encodes : GoString → Nat → Prop
  | one {a : UInt8} (first : a.toNat ≤ 0x7F) : Encodes [a] a.toNat
  | two {a b : UInt8} (first : 0xC2 ≤ a.toNat ∧ a.toNat ≤ 0xDF) (second : cont b = true) :
      Encodes [a, b] (a.toNat % 32 * 64 + low6 b)
  | three {a b c : UInt8} (first : 0xE0 ≤ a.toNat ∧ a.toNat ≤ 0xEF) (second : second3 a b = true)
      (third : cont c = true) : Encodes [a, b, c] (a.toNat % 16 * 4096 + low6 b * 64 + low6 c)
  | four {a b c d : UInt8} (first : 0xF0 ≤ a.toNat ∧ a.toNat ≤ 0xF4) (second : second4 a b = true)
      (third : cont c = true) (fourth : cont d = true) :
      Encodes [a, b, c, d] (a.toNat % 8 * 262144 + low6 b * 4096 + low6 c * 64 + low6 d)

/-- A character is read, whatever is behind it. -/
theorem Encodes.decodeRune {bytes : GoString} {r : Nat} (encodes : Encodes bytes r) (s : GoString) :
    decodeRune (bytes ++ s) = (r, bytes.length) := by
  have ascii : ∀ a : UInt8, a < 0x80 ↔ a.toNat ≤ 0x7F := fun a =>
    UInt8.lt_iff_toNat_lt.trans Nat.lt_succ_iff
  cases encodes with
  | one first => simp [Utf8.decodeRune, ascii, first]
  | two first second =>
      rename_i a b
      have high : ¬ a < 0x80 := by rw [ascii]; omega
      have lead : (0xC2 ≤ a && a ≤ 0xDF) = true := between_iff.2 first
      simp only [List.cons_append, Utf8.decodeRune, if_neg high, if_pos lead, if_pos second]
      rfl
  | three first second third =>
      rename_i a b c
      have high : ¬ a < 0x80 := by rw [ascii]; omega
      have lead2 : ¬ (0xC2 ≤ a && a ≤ 0xDF) = true := by
        rw [between_iff]
        show ¬ (0xC2 ≤ a.toNat ∧ a.toNat ≤ 0xDF)
        omega
      have lead : (0xE0 ≤ a && a ≤ 0xEF) = true := between_iff.2 first
      simp only [List.cons_append, Utf8.decodeRune, if_neg high, if_neg lead2, if_pos lead, second,
        third, Bool.and_self, if_true]
      rfl
  | four first second third fourth =>
      rename_i a b c d
      have high : ¬ a < 0x80 := by rw [ascii]; omega
      have lead2 : ¬ (0xC2 ≤ a && a ≤ 0xDF) = true := by
        rw [between_iff]
        show ¬ (0xC2 ≤ a.toNat ∧ a.toNat ≤ 0xDF)
        omega
      have lead3 : ¬ (0xE0 ≤ a && a ≤ 0xEF) = true := by
        rw [between_iff]
        show ¬ (0xE0 ≤ a.toNat ∧ a.toNat ≤ 0xEF)
        omega
      have lead : (0xF0 ≤ a && a ≤ 0xF4) = true := between_iff.2 first
      simp only [List.cons_append, Utf8.decodeRune, if_neg high, if_neg lead2, if_neg lead3,
        if_pos lead, second, third, fourth, Bool.and_self, if_true]
      rfl

/-- What is read is a character, or one byte that is not the start of one. -/
theorem decodeRune_cases (a : UInt8) (s : GoString) :
    decodeRune (a :: s) = (runeError, 1) ∨
      ∃ bytes r rest, a :: s = bytes ++ rest ∧ Encodes bytes r := by
  unfold decodeRune
  dsimp only
  split_ifs with one two three four
  · exact .inr ⟨[a], _, s, rfl, .one (Nat.lt_succ_iff.1 (UInt8.lt_iff_toNat_lt.1 one))⟩
  · match s with
    | [] => exact .inl rfl
    | b :: s =>
        dsimp only
        split_ifs with second
        · exact .inr ⟨[a, b], _, s, rfl, .two (between_iff.1 two) second⟩
        · exact .inl rfl
  · match s with
    | [] => exact .inl rfl
    | [_] => exact .inl rfl
    | b :: c :: s =>
        dsimp only
        split_ifs with others
        · obtain ⟨second, third⟩ := Bool.and_eq_true_iff.1 others
          exact .inr ⟨[a, b, c], _, s, rfl, .three (between_iff.1 three) second third⟩
        · exact .inl rfl
  · match s with
    | [] => exact .inl rfl
    | [_] => exact .inl rfl
    | [_, _] => exact .inl rfl
    | b :: c :: d :: s =>
        dsimp only
        split_ifs with others
        · obtain ⟨front, fourth⟩ := Bool.and_eq_true_iff.1 others
          obtain ⟨second, third⟩ := Bool.and_eq_true_iff.1 front
          exact .inr ⟨[a, b, c, d], _, s, rfl, .four (between_iff.1 four) second third fourth⟩
        · exact .inl rfl
  · exact .inl rfl

/-! ## Characters -/

/-- The bytes of a value. -/
def spell (v : Nat) : GoString :=
  if v ≤ 127 then [UInt8.ofNat v]
  else if v ≤ 2047 then [UInt8.ofNat (v / 64 % 32 + 192), UInt8.ofNat (v % 64 + 128)]
  else if v ≤ 65535 then
    [UInt8.ofNat (v / 4096 % 16 + 224), UInt8.ofNat (v / 64 % 64 + 128), UInt8.ofNat (v % 64 + 128)]
  else
    [UInt8.ofNat (v / 262144 % 8 + 240), UInt8.ofNat (v / 4096 % 64 + 128),
      UInt8.ofNat (v / 64 % 64 + 128), UInt8.ofNat (v % 64 + 128)]

theorem spell_toNat (c : Char) : spell c.toNat = String.utf8EncodeChar c := rfl

theorem toNat_byte {n : Nat} (small : n < 256) : (UInt8.ofNat n).toNat = n :=
  UInt8.toNat_ofNat_of_lt' small

theorem eq_byte {a : UInt8} {n : Nat} (same : a.toNat = n) : a = UInt8.ofNat n := by
  rw [← same, UInt8.ofNat_toNat]

theorem toNat_of_byte_eq {n : Nat} {a : UInt8} (small : n < 256) (same : UInt8.ofNat n = a) :
    n = a.toNat := by
  rw [← same, toNat_byte small]

theorem cont_byte (v : Nat) : cont (UInt8.ofNat (v % 64 + 128)) = true := by
  rw [cont_iff, toNat_byte (by omega)]
  omega

theorem low6_byte (v : Nat) : low6 (UInt8.ofNat (v % 64 + 128)) = v % 64 := by
  rw [low6, toNat_byte (by omega)]
  omega

theorem encodes_spell {v : Nat} (valid : v.isValidChar) : Encodes (spell v) v := by
  rw [spell]
  split_ifs with one two three
  · have encodes := Encodes.one (a := UInt8.ofNat v) (by rw [toNat_byte (by omega)]; omega)
    rwa [toNat_byte (by omega)] at encodes
  · have encodes := Encodes.two (a := UInt8.ofNat (v / 64 % 32 + 192))
      (by rw [toNat_byte (by omega)]; omega) (cont_byte v)
    rw [toNat_byte (by omega), low6_byte] at encodes
    convert encodes using 1
    omega
  · have second : second3 (UInt8.ofNat (v / 4096 % 16 + 224)) (UInt8.ofNat (v / 64 % 64 + 128)) =
        true := by
      rw [second3_iff, toNat_byte (by omega)]
      refine ⟨by omega, by omega, fun same => ?_, fun same => ?_⟩
      · have : v / 4096 % 16 + 224 = 0xE0 := toNat_of_byte_eq (by omega) same
        omega
      · have : v / 4096 % 16 + 224 = 0xED := toNat_of_byte_eq (by omega) same
        omega
    have encodes := Encodes.three (by rw [toNat_byte (by omega)]; omega) second (cont_byte v)
    rw [toNat_byte (by omega), low6_byte, low6_byte] at encodes
    convert encodes using 1
    omega
  · have second : second4 (UInt8.ofNat (v / 262144 % 8 + 240)) (UInt8.ofNat (v / 4096 % 64 + 128)) =
        true := by
      rw [second4_iff, toNat_byte (by omega)]
      refine ⟨by omega, by omega, fun same => ?_, fun same => ?_⟩
      · have : v / 262144 % 8 + 240 = 0xF0 := toNat_of_byte_eq (by omega) same
        omega
      · have : v / 262144 % 8 + 240 = 0xF4 := toNat_of_byte_eq (by omega) same
        omega
    have encodes := Encodes.four (by rw [toNat_byte (by omega)]; omega) second (cont_byte (v / 64))
      (cont_byte v)
    rw [toNat_byte (by omega), low6_byte, low6_byte, low6_byte] at encodes
    convert encodes using 1
    omega

theorem Encodes.spelled {bytes : GoString} {r : Nat} (encodes : Encodes bytes r) :
    r.isValidChar ∧ bytes = spell r := by
  rw [Nat.isValidChar, spell]
  cases encodes with
  | one first =>
      refine ⟨by omega, ?_⟩
      rw [if_pos first, UInt8.ofNat_toNat]
  | two first second =>
      rename_i a b
      rw [cont_iff] at second
      have b6 : low6 b = b.toNat % 64 := rfl
      refine ⟨by omega, ?_⟩
      rw [if_neg (by omega), if_pos (by omega), List.cons.injEq, List.cons.injEq]
      exact ⟨eq_byte (by omega), eq_byte (by omega), rfl⟩
  | three first second third =>
      rename_i a b c
      obtain ⟨low, high, overlong, surrogate⟩ := second3_iff.1 second
      have e0 : a.toNat = 0xE0 → 0xA0 ≤ b.toNat := fun same => overlong (eq_byte same)
      have ed : a.toNat = 0xED → b.toNat ≤ 0x9F := fun same => surrogate (eq_byte same)
      rw [cont_iff] at third
      have b6 : low6 b = b.toNat % 64 := rfl
      have c6 : low6 c = c.toNat % 64 := rfl
      refine ⟨by omega, ?_⟩
      rw [if_neg (by omega), if_neg (by omega), if_pos (by omega), List.cons.injEq,
        List.cons.injEq, List.cons.injEq]
      exact ⟨eq_byte (by omega), eq_byte (by omega), eq_byte (by omega), rfl⟩
  | four first second third fourth =>
      rename_i a b c d
      obtain ⟨low, high, overlong, beyond⟩ := second4_iff.1 second
      have f0 : a.toNat = 0xF0 → 0x90 ≤ b.toNat := fun same => overlong (eq_byte same)
      have f4 : a.toNat = 0xF4 → b.toNat ≤ 0x8F := fun same => beyond (eq_byte same)
      rw [cont_iff] at third fourth
      have b6 : low6 b = b.toNat % 64 := rfl
      have c6 : low6 c = c.toNat % 64 := rfl
      have d6 : low6 d = d.toNat % 64 := rfl
      refine ⟨by omega, ?_⟩
      rw [if_neg (by omega), if_neg (by omega), if_neg (by omega), List.cons.injEq,
        List.cons.injEq, List.cons.injEq, List.cons.injEq]
      exact ⟨eq_byte (by omega), eq_byte (by omega), eq_byte (by omega), eq_byte (by omega), rfl⟩

/-- The bytes of a character are its encoding. -/
theorem Encodes.char {bytes : GoString} {r : Nat} (encodes : Encodes bytes r) :
    ∃ c : Char, bytes = String.utf8EncodeChar c := by
  obtain ⟨valid, rfl⟩ := encodes.spelled
  have value : (Char.ofNat r).toNat = r := by rw [Char.toNat_ofNat, if_pos valid]
  exact ⟨Char.ofNat r, by rw [← spell_toNat, value]⟩

/-- **Reading undoes writing.** -/
theorem decodeRune_encodeChar (c : Char) (s : GoString) :
    decodeRune (String.utf8EncodeChar c ++ s) = (c.toNat, (String.utf8EncodeChar c).length) :=
  (encodes_spell c.valid).decodeRune s

theorem encodeChar_ne_nil (c : Char) : String.utf8EncodeChar c ≠ [] := by
  obtain ⟨b, rest, shape, -⟩ := encodeChar_eq c
  rw [shape]
  exact List.cons_ne_nil b rest

/-- **A string is put together of characters and bytes that start none.** -/
@[elab_as_elim]
theorem rune_induction {P : GoString → Prop} (nil : P [])
    (char : ∀ c s, P s → P (String.utf8EncodeChar c ++ s))
    (error : ∀ b s, decodeRune (b :: s) = (runeError, 1) → P s → P (b :: s)) (s : GoString) :
    P s := by
  induction length : s.length using Nat.strong_induction_on generalizing s with
  | _ n ih =>
      cases s with
      | nil => exact nil
      | cons b s =>
          rw [List.length_cons] at length
          rcases decodeRune_cases b s with bad | ⟨bytes, r, rest, whole, encodes⟩
          · exact error b s bad (ih s.length (by omega) s rfl)
          · obtain ⟨c, rfl⟩ := encodes.char
            have positive := List.length_pos_iff.2 (encodeChar_ne_nil c)
            have total := congrArg List.length whole
            rw [List.length_cons, List.length_append] at total
            rw [whole]
            exact char c rest (ih rest.length (by omega) rest rfl)

/-! ## All runes -/

theorem decodeRune_wide (b : UInt8) (s : GoString) : 0 < (decodeRune (b :: s)).2 := by
  rcases decodeRune_cases b s with bad | ⟨bytes, r, rest, whole, encodes⟩
  · rw [bad]
    exact Nat.one_pos
  · rw [whole, encodes.decodeRune]
    cases encodes <;> simp

/-- Fuel for each byte is fuel enough. -/
theorem runesFrom_eq {n m : Nat} {s : GoString} (enough : s.length ≤ n) (enough' : s.length ≤ m) :
    runesFrom n s = runesFrom m s := by
  induction n generalizing m s with
  | zero =>
      obtain rfl := List.length_eq_zero_iff.1 (Nat.le_zero.1 enough)
      cases m <;> rfl
  | succ n ih =>
      cases s with
      | nil => cases m <;> rfl
      | cons b s =>
          rw [List.length_cons] at enough enough'
          obtain ⟨m, rfl⟩ : ∃ k, m = k + 1 := ⟨m - 1, by omega⟩
          have wide := decodeRune_wide b s
          have short : ((b :: s).drop (decodeRune (b :: s)).2).length ≤ s.length := by
            rw [List.length_drop, List.length_cons]
            omega
          rw [runesFrom, runesFrom, ih (m := m) (by omega) (by omega)]

theorem runes_append_of_decodeRune {bytes s : GoString} {r : Nat} (present : bytes ≠ [])
    (read : decodeRune (bytes ++ s) = (r, bytes.length)) : runes (bytes ++ s) = r :: runes s := by
  obtain ⟨b, bytes, rfl⟩ := List.exists_cons_of_ne_nil present
  rw [List.cons_append] at read ⊢
  rw [runes, List.length_cons, runesFrom, read, ← List.cons_append, List.drop_left]
  rw [runesFrom_eq (m := s.length) (by simp) (Nat.le_refl _)]
  rfl

@[simp] theorem runes_encodeChar (c : Char) (s : GoString) :
    runes (String.utf8EncodeChar c ++ s) = c.toNat :: runes s :=
  runes_append_of_decodeRune (encodeChar_ne_nil c) (decodeRune_encodeChar c s)

theorem runes_error {b : UInt8} {s : GoString} (bad : decodeRune (b :: s) = (runeError, 1)) :
    runes (b :: s) = runeError :: runes s := by
  have read : decodeRune ([b] ++ s) = (runeError, [b].length) := bad
  exact runes_append_of_decodeRune (List.cons_ne_nil b []) read

theorem length_runes_le (s : GoString) : (runes s).length ≤ s.length := by
  induction s using rune_induction with
  | nil => exact Nat.le_refl 0
  | char c s ih =>
      have some_ := List.length_pos_iff.2 (encodeChar_ne_nil c)
      rw [runes_encodeChar, List.length_cons, List.length_append]
      omega
  | error b s bad ih =>
      rw [runes_error bad, List.length_cons, List.length_cons]
      omega

theorem length_runes_pos {s : GoString} (some_ : 1 ≤ s.length) : 1 ≤ (runes s).length := by
  cases s with
  | nil => exact absurd some_ (by decide)
  | cons b s =>
      rw [runes, List.length_cons, runesFrom, List.length_cons]
      exact Nat.succ_pos _

/-- **The runes of a valid string are its characters.** -/
theorem runes_encode (chars : List Char) :
    runes (chars.flatMap String.utf8EncodeChar) = chars.map Char.toNat := by
  induction chars with
  | nil => rfl
  | cons c chars ih => rw [List.flatMap_cons, runes_encodeChar, ih, List.map_cons]

theorem runes_ascii {s : GoString} (ascii : ∀ b ∈ s, b < 0x80) : runes s = s.map UInt8.toNat := by
  induction s with
  | nil => rfl
  | cons b s ih =>
      obtain ⟨low, rest⟩ := List.forall_mem_cons.1 ascii
      have one : Encodes [b] b.toNat := .one (Nat.lt_succ_iff.1 (UInt8.lt_iff_toNat_lt.1 low))
      have first := runes_append_of_decodeRune (List.cons_ne_nil b []) (one.decodeRune s)
      rw [List.singleton_append] at first
      rw [first, ih rest, List.map_cons]

/-! ## Made valid -/

/-- The string with every byte that is no part of a character replaced. -/
def toValid (s : GoString) : GoString := (runes s).flatMap encodeRune

theorem toValid_encodeChar (c : Char) (s : GoString) :
    toValid (String.utf8EncodeChar c ++ s) = String.utf8EncodeChar c ++ toValid s := by
  rw [toValid, runes_encodeChar, List.flatMap_cons, encodeRune_toNat]
  rfl

theorem toValid_error {b : UInt8} {s : GoString} (bad : decodeRune (b :: s) = (runeError, 1)) :
    toValid (b :: s) = encodeRune runeError ++ toValid s := by
  rw [toValid, runes_error bad, List.flatMap_cons]
  rfl

theorem toValid_of_valid {s : GoString} (valid : Valid s) : toValid s = s := by
  obtain ⟨chars, rfl⟩ := valid
  induction chars with
  | nil => rfl
  | cons c chars ih => rw [List.flatMap_cons, toValid_encodeChar, ih]

theorem valid_toValid (s : GoString) : Valid (toValid s) :=
  ⟨(runes s).map fun r => Char.ofNat (if r.isValidChar then r else runeError), by
    rw [toValid, List.flatMap_map]
    rfl⟩

theorem toValid_toValid (s : GoString) : toValid (toValid s) = toValid s :=
  toValid_of_valid (valid_toValid s)

/-- A byte that was replaced counts as the character it was replaced by. -/
theorem runes_toValid (s : GoString) : runes (toValid s) = runes s := by
  induction s using rune_induction with
  | nil => rfl
  | char c s ih => rw [toValid_encodeChar, runes_encodeChar, runes_encodeChar, ih]
  | error b s bad ih =>
      have replaced := runes_encodeChar (Char.ofNat runeError) (toValid s)
      rw [toValid_error bad, runes_error bad, ← ih]
      exact replaced

end KubeAutopsy.Theory.Runes
