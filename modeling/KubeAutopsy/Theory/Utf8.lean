/-
# KubeAutopsy.Theory.Utf8 — reading a byte string rune by rune

`decodeRune` reads the first rune of a byte string and its width: a byte that does
not start a well-formed sequence (a stray continuation byte, a truncated or
overlong sequence, a surrogate, a value beyond the last code point) is the rune
error of width one.  `runes` is the whole string read that way, which is how a
range loop over a string sees it.

`Valid` strings are the encodings of sequences of characters.  They are cut in two by a
rule about one byte: before any byte that starts a rune (`Valid.cut`), and so around any
ASCII byte (`Valid.around`); at any other place at most three bytes of a character are
left over (`Valid.split`).
-/
import KubeAutopsy.Theory.Bytes

namespace KubeAutopsy.Theory.Utf8

open KubeAutopsy.Theory.Bytes (GoString lit)

set_option autoImplicit false

def runeError : Nat := 0xFFFD

/-- A continuation byte. -/
def cont (b : UInt8) : Bool := 0x80 ≤ b && b ≤ 0xBF

/-- The value of a continuation byte. -/
def low6 (b : UInt8) : Nat := b.toNat % 64

/-- The byte after a three-byte start that avoids overlong forms and surrogates. -/
def second3 (b0 b1 : UInt8) : Bool :=
  if b0 = 0xE0 then 0xA0 ≤ b1 && b1 ≤ 0xBF
  else if b0 = 0xED then 0x80 ≤ b1 && b1 ≤ 0x9F
  else cont b1

/-- The byte after a four-byte start that avoids overlong forms and values past the
last code point. -/
def second4 (b0 b1 : UInt8) : Bool :=
  if b0 = 0xF0 then 0x90 ≤ b1 && b1 ≤ 0xBF
  else if b0 = 0xF4 then 0x80 ≤ b1 && b1 ≤ 0x8F
  else cont b1

/-- The first rune and its width in bytes. -/
def decodeRune : GoString → Nat × Nat
  | [] => (runeError, 0)
  | b0 :: rest =>
      if b0 < 0x80 then (b0.toNat, 1)
      else if 0xC2 ≤ b0 && b0 ≤ 0xDF then
        match rest with
        | b1 :: _ => if cont b1 then (b0.toNat % 32 * 64 + low6 b1, 2) else (runeError, 1)
        | _ => (runeError, 1)
      else if 0xE0 ≤ b0 && b0 ≤ 0xEF then
        match rest with
        | b1 :: b2 :: _ =>
            if second3 b0 b1 && cont b2 then (b0.toNat % 16 * 4096 + low6 b1 * 64 + low6 b2, 3)
            else (runeError, 1)
        | _ => (runeError, 1)
      else if 0xF0 ≤ b0 && b0 ≤ 0xF4 then
        match rest with
        | b1 :: b2 :: b3 :: _ =>
            if second4 b0 b1 && cont b2 && cont b3 then
              (b0.toNat % 8 * 262144 + low6 b1 * 4096 + low6 b2 * 64 + low6 b3, 4)
            else (runeError, 1)
        | _ => (runeError, 1)
      else (runeError, 1)

/-- The runes of at most `fuel` steps. -/
def runesFrom : Nat → GoString → List Nat
  | 0, _ => []
  | _ + 1, [] => []
  | fuel + 1, b :: rest =>
      (decodeRune (b :: rest)).1 :: runesFrom fuel ((b :: rest).drop (decodeRune (b :: rest)).2)

/-- Every rune is at least one byte wide, so the length is fuel enough. -/
def runes (s : GoString) : List Nat := runesFrom s.length s

/-! ## Valid strings -/

/-- Whether a byte can start a rune: its top two bits are not those of a continuation byte. -/
def runeStart (b : UInt8) : Bool := b &&& 0xC0 != 0x80

theorem runeStart_ofNat : ∀ n < 256,
    runeStart (UInt8.ofNat n) = !decide (128 ≤ n ∧ n < 192) := by
  decide +kernel

/-- The encoding of a sequence of characters. -/
def Valid (s : GoString) : Prop := ∃ chars : List Char, s = chars.flatMap String.utf8EncodeChar

theorem valid_nil : Valid [] := ⟨[], rfl⟩

theorem Valid.append {s t : GoString} (first : Valid s) (second : Valid t) : Valid (s ++ t) := by
  obtain ⟨chars, rfl⟩ := first
  obtain ⟨more, rfl⟩ := second
  exact ⟨chars ++ more, List.flatMap_append.symm⟩

theorem lit_eq (s : String) : lit s = s.toList.flatMap String.utf8EncodeChar := by
  have same : s.toList.utf8Encode = s.toUTF8 := String.utf8Encode_toList
  unfold lit
  rw [← same, List.utf8Encode, List.data_toByteArray]

theorem valid_lit (s : String) : Valid (lit s) := ⟨s.toList, lit_eq s⟩

theorem runeStart_first {n : Nat} (lt : n < 256) (outside : n < 128 ∨ 192 ≤ n) :
    runeStart (UInt8.ofNat n) = true := by
  rw [runeStart_ofNat n lt, Bool.not_eq_true', decide_eq_false_iff_not]
  omega

theorem runeStart_later (n : Nat) : runeStart (UInt8.ofNat (n % 64 + 128)) = false := by
  rw [runeStart_ofNat _ (by omega), Bool.not_eq_false', decide_eq_true_eq]
  omega

theorem not_ascii {n : Nat} (lt : n < 256) (high : 128 ≤ n) : ¬ UInt8.ofNat n < 0x80 := by
  rw [UInt8.lt_iff_toNat_lt, UInt8.toNat_ofNat_of_lt' lt]
  exact Nat.not_lt.2 high

/-- A character is one byte that starts a rune and at most three that do not. -/
theorem encodeChar_eq (c : Char) :
    ∃ b rest, String.utf8EncodeChar c = b :: rest ∧ runeStart b = true ∧
      (∀ r ∈ rest, runeStart r = false) ∧ rest.length ≤ 3 ∧ (b < 0x80 → rest = []) := by
  unfold String.utf8EncodeChar
  dsimp only
  split
  · exact ⟨_, _, rfl, runeStart_first (by omega) (by omega), by simp, by simp, fun _ => rfl⟩
  · split
    · refine ⟨_, _, rfl, runeStart_first (by omega) (by omega), ?_, by simp, fun ascii => ?_⟩
      · exact List.forall_mem_singleton.2 (runeStart_later _)
      · exact absurd ascii (not_ascii (by omega) (by omega))
    · split
      · refine ⟨_, _, rfl, runeStart_first (by omega) (by omega), ?_, by simp, fun ascii => ?_⟩
        · refine List.forall_mem_cons.2 ⟨runeStart_later _, ?_⟩
          exact List.forall_mem_singleton.2 (runeStart_later _)
        · exact absurd ascii (not_ascii (by omega) (by omega))
      · refine ⟨_, _, rfl, runeStart_first (by omega) (by omega), ?_, by simp, fun ascii => ?_⟩
        · refine List.forall_mem_cons.2 ⟨runeStart_later _, ?_⟩
          refine List.forall_mem_cons.2 ⟨runeStart_later _, ?_⟩
          exact List.forall_mem_singleton.2 (runeStart_later _)
        · exact absurd ascii (not_ascii (by omega) (by omega))

/-- What a valid string is cut into at any place: the front is short of a character by the bytes
`owed`, none of which starts a rune, and behind these the string is valid again. -/
theorem Valid.split {s t : GoString} (valid : Valid (s ++ t)) :
    ∃ owed rest, t = owed ++ rest ∧ Valid (s ++ owed) ∧ Valid rest ∧ owed.length ≤ 3 ∧
      ∀ b ∈ owed, runeStart b = false := by
  obtain ⟨chars, whole⟩ := valid
  induction chars generalizing s with
  | nil =>
      obtain ⟨rfl, rfl⟩ := List.append_eq_nil_iff.1 whole
      exact ⟨[], [], rfl, valid_nil, valid_nil, by simp, by simp⟩
  | cons c chars ih =>
      rw [List.flatMap_cons] at whole
      rcases List.append_eq_append_iff.1 whole with ⟨owed, encoding, rfl⟩ | ⟨later, rfl, tail⟩
      · -- The cut is within the first character, or just before or after it.
        obtain ⟨b, others, shape, -, continuing, short, -⟩ := encodeChar_eq c
        cases s with
        | nil =>
            refine ⟨[], _, rfl, valid_nil, ⟨c :: chars, ?_⟩, by simp, by simp⟩
            rw [List.flatMap_cons, encoding]
            rfl
        | cons a s =>
            rw [shape, List.cons_append, List.cons.injEq] at encoding
            obtain ⟨rfl, rfl⟩ := encoding
            refine ⟨owed, _, rfl, ⟨[c], ?_⟩, ⟨chars, rfl⟩, ?_, ?_⟩
            · rw [List.flatMap_singleton, shape]
              rfl
            · rw [List.length_append] at short
              omega
            · exact fun r member => continuing r (List.mem_append_right _ member)
      · obtain ⟨owed, rest, rfl, front, valid, short, continuing⟩ := ih tail.symm
        refine ⟨owed, rest, rfl, ?_, valid, short, continuing⟩
        rw [List.append_assoc]
        refine Valid.append ⟨[c], ?_⟩ front
        rw [List.flatMap_singleton]

/-- **A valid string may be cut before any byte that starts a rune.** -/
theorem Valid.cut {s t : GoString} (valid : Valid (s ++ t))
    (starts : ∀ b ∈ t.head?, runeStart b = true) : Valid s ∧ Valid t := by
  obtain ⟨owed, rest, rfl, front, back, -, continuing⟩ := valid.split
  cases owed with
  | nil =>
      rw [List.append_nil] at front
      exact ⟨front, back⟩
  | cons b owed =>
      have one := starts b (by simp)
      rw [continuing b List.mem_cons_self] at one
      cases one

/-- A place where a string may be cut: at its ends, or before a byte that starts a rune. -/
def Aligned (s : GoString) (n : Nat) : Prop :=
  n = 0 ∨ n = s.length ∨ ∃ b, s[n]? = some b ∧ runeStart b = true

theorem Valid.take {s : GoString} (valid : Valid s) {n : Nat} (aligned : Aligned s n) :
    Valid (s.take n) := by
  rcases aligned with rfl | rfl | ⟨b, here, starts⟩
  · exact valid_nil
  · rwa [List.take_length]
  · obtain ⟨inside, rfl⟩ := List.getElem?_eq_some_iff.1 here
    have halves : s.take n ++ s[n] :: s.drop (n + 1) = s := by
      rw [← List.drop_eq_getElem_cons inside, List.take_append_drop]
    rw [← halves] at valid
    refine (valid.cut ?_).1
    intro b first
    obtain rfl := Option.some.inj first
    exact starts


theorem Valid.head {b : UInt8} {s : GoString} (valid : Valid (b :: s)) : runeStart b = true := by
  obtain ⟨chars, whole⟩ := valid
  cases chars with
  | nil => cases whole
  | cons c chars =>
      obtain ⟨first, others, shape, starts, -⟩ := encodeChar_eq c
      rw [List.flatMap_cons, shape, List.cons_append, List.cons.injEq] at whole
      rwa [whole.1]

/-- From within a character the next one starts after at most three bytes. -/
theorem Valid.next {s t : GoString} (valid : Valid (s ++ t)) (long : 3 < t.length)
    (inside : ∀ b ∈ t.head?, runeStart b = false) :
    ∃ k b, 0 < k ∧ k ≤ 3 ∧ t[k]? = some b ∧ runeStart b = true := by
  obtain ⟨owed, rest, rfl, -, back, short, -⟩ := valid.split
  cases rest with
  | nil =>
      rw [List.append_nil] at long
      omega
  | cons b rest =>
      refine ⟨owed.length, b, ?_, short, by simp, back.head⟩
      rw [List.length_pos_iff]
      rintro rfl
      have continues := inside b rfl
      rw [back.head] at continues
      cases continues

/-- An ASCII byte is a character of its own. -/
theorem Valid.tail {b : UInt8} {s : GoString} (valid : Valid (b :: s)) (ascii : b < 0x80) : Valid s := by
  obtain ⟨chars, whole⟩ := valid
  cases chars with
  | nil => cases whole
  | cons c chars =>
      obtain ⟨first, others, shape, -, -, -, alone⟩ := encodeChar_eq c
      rw [List.flatMap_cons, shape, List.cons_append, List.cons.injEq] at whole
      obtain ⟨rfl, rfl⟩ := whole
      rw [alone ascii]
      exact ⟨chars, rfl⟩

theorem runeStart_of_ascii {b : UInt8} (ascii : b < 0x80) : runeStart b = true := by
  rw [← UInt8.ofNat_toNat (x := b)]
  exact runeStart_first b.toNat_lt (.inl (UInt8.lt_iff_toNat_lt.1 ascii))

/-- Both sides of an ASCII byte are valid. -/
theorem Valid.around {s t : GoString} {b : UInt8} (valid : Valid (s ++ b :: t)) (ascii : b < 0x80) :
    Valid s ∧ Valid t := by
  obtain ⟨front, back⟩ := valid.cut (by simpa using runeStart_of_ascii ascii)
  exact ⟨front, back.tail ascii⟩

/-- The pieces of a valid string between ASCII separators are valid. -/
theorem Valid.splitOn {sep : UInt8} (ascii : sep < 0x80) {s piece : GoString} (valid : Valid s)
    (member : piece ∈ s.splitOn sep) : Valid piece := by
  induction length : s.length using Nat.strong_induction_on generalizing s with
  | _ n ih =>
      by_cases found : sep ∈ s
      · obtain ⟨front, back, rfl, absent⟩ := List.eq_append_cons_of_mem found
        rw [List.splitOn_append_cons_self_of_not_mem absent] at member
        obtain ⟨first, others⟩ := valid.around ascii
        rcases List.mem_cons.1 member with rfl | later
        · exact first
        · refine ih back.length ?_ others later rfl
          rw [← length, List.length_append, List.length_cons]
          omega
      · rw [List.splitOn_eq_singleton found, List.mem_singleton] at member
        rwa [member]

end KubeAutopsy.Theory.Utf8
