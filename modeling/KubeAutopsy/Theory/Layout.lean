/-
# KubeAutopsy.Theory.Layout — records in memory, and packed readers of them

A compiler puts each member of a record at the next offset its type may stand at and leaves
a gap before it where it has to (`place`, `layout`).  A packed reader takes one field after
the other and has to be told of every gap (`Format.field`, `Format.blank`).

`Reads format memory a` says that the reader sees the value `a` in `memory`, whatever is
behind it.  It is built up along the members: a member that needs no gap (`Reads.place`),
one behind a gap (`Reads.placeBehind`), the gap at the end (`Reads.pad`).  What is left to
check for a record is that the blanks of its reader are as long as the gaps.
-/
import Mathlib.Data.List.DropRight
import Mathlib.Tactic.Ring

namespace KubeAutopsy.Theory.Layout

set_option autoImplicit false

/-! ## Values of a fixed size -/

/-- The low `w` bytes of `n`, the least significant first. -/
def leBytes : Nat → Nat → List UInt8
  | 0, _ => []
  | w + 1, n => UInt8.ofNat n :: leBytes w (n / 256)

def ofLEBytes : List UInt8 → Nat
  | [] => 0
  | b :: rest => b.toNat + 256 * ofLEBytes rest

@[simp] theorem length_leBytes (w n : Nat) : (leBytes w n).length = w := by
  induction w generalizing n with
  | zero => rfl
  | succ w ih => simp [leBytes, ih]

theorem ofLEBytes_leBytes {w n : Nat} (small : n < 256 ^ w) : ofLEBytes (leBytes w n) = n := by
  induction w generalizing n with
  | zero =>
      have zero : n = 0 := by simpa using small
      rw [zero]
      rfl
  | succ w ih =>
      have high : n / 256 < 256 ^ w :=
        (Nat.div_lt_iff_lt_mul (by decide)).2 (Nat.pow_succ .. ▸ small)
      have low : (UInt8.ofNat n).toNat = n % 256 := UInt8.toNat_ofNat'
      show (UInt8.ofNat n).toNat + 256 * ofLEBytes (leBytes w (n / 256)) = n
      rw [low, ih high]
      omega

/-- A type whose values all take the same number of bytes, as they are stored and as they
are read. -/
class Stored (α : Type) where
  size : Nat
  align : Nat
  bytes : α → List UInt8
  decode : List UInt8 → α
  length_bytes : ∀ a, (bytes a).length = size
  /-- What is stored is read back, whatever is behind it. -/
  decode_bytes : ∀ a rest, decode (bytes a ++ rest) = a

attribute [simp] Stored.length_bytes

/-- A type whose values are numbers of `w` bytes, stored at multiples of `w`. -/
@[reducible] def Stored.word {α : Type} (w : Nat) (number : α → Nat) (value : Nat → α)
    (small : ∀ a, number a < 256 ^ w) (back : ∀ a, value (number a) = a) : Stored α where
  size := w
  align := w
  bytes a := leBytes w (number a)
  decode input := value (ofLEBytes (input.take w))
  length_bytes a := length_leBytes w (number a)
  decode_bytes a rest := by
    rw [List.take_left' (length_leBytes w (number a)), ofLEBytes_leBytes (small a), back]

instance : Stored UInt32 :=
  .word 4 UInt32.toNat UInt32.ofNat UInt32.toNat_lt (fun _ => UInt32.ofNat_toNat)

instance : Stored UInt64 :=
  .word 8 UInt64.toNat UInt64.ofNat UInt64.toNat_lt (fun _ => UInt64.ofNat_toNat)

instance : Stored Int8 :=
  .word 1 (fun a => a.toUInt8.toNat) (fun n => (UInt8.ofNat n).toInt8)
    (fun a => a.toUInt8.toNat_lt) (fun a => by rw [UInt8.ofNat_toNat, Int8.toInt8_toUInt8])

instance : Stored Int16 :=
  .word 2 (fun a => a.toUInt16.toNat) (fun n => (UInt16.ofNat n).toInt16)
    (fun a => a.toUInt16.toNat_lt) (fun a => by rw [UInt16.ofNat_toNat, Int16.toInt16_toUInt16])

instance : Stored Int64 :=
  .word 8 (fun a => a.toUInt64.toNat) (fun n => (UInt64.ofNat n).toInt64)
    (fun a => a.toUInt64.toNat_lt) (fun a => by rw [UInt64.ofNat_toNat, Int64.toInt64_toUInt64])

/-- Every byte but zero is read as true. -/
instance : Stored Bool :=
  .word 1 Bool.toNat (fun n => decide (n ≠ 0)) (by decide) (by decide)

section Array

variable {α : Type} [Stored α]

theorem length_flatMap_bytes (as : List α) :
    (as.flatMap Stored.bytes).length = as.length * Stored.size α := by
  induction as with
  | nil => simp
  | cons a as ih =>
      rw [List.flatMap_cons, List.length_append, Stored.length_bytes, ih, List.length_cons]
      ring

/-- Whole elements are dropped from an array. -/
theorem drop_flatMap_bytes (as : List α) (i : Nat) :
    (as.flatMap Stored.bytes).drop (i * Stored.size α) = (as.drop i).flatMap Stored.bytes := by
  induction i generalizing as with
  | zero => simp
  | succ i ih =>
      cases as with
      | nil => simp
      | cons a as =>
          rw [Nat.succ_mul, Nat.add_comm, ← List.drop_drop, List.flatMap_cons,
            List.drop_left' (Stored.length_bytes a), ih, List.drop_succ_cons]

instance {n : Nat} : Stored (Vector α n) where
  size := n * Stored.size α
  align := Stored.align α
  bytes as := as.toList.flatMap Stored.bytes
  decode input := Vector.ofFn fun i => Stored.decode (input.drop (i * Stored.size α))
  length_bytes as := by rw [length_flatMap_bytes, Vector.length_toList]
  decode_bytes as rest := by
    ext i inside
    have within : i < as.toList.length := by simpa using inside
    have short : i * Stored.size α ≤ (as.toList.flatMap Stored.bytes).length := by
      rw [length_flatMap_bytes]
      exact Nat.mul_le_mul_right _ within.le
    rw [Vector.getElem_ofFn, List.drop_append_of_le_length short, drop_flatMap_bytes,
      List.drop_eq_getElem_cons within, List.flatMap_cons, List.append_assoc, Stored.decode_bytes]
    exact Vector.getElem_toList _

end Array

/-! ## Records in memory -/

/-- How far it is from `offset` to the next multiple of `align`. -/
def padding (offset align : Nat) : Nat := (align - offset % align) % align

def zeros (n : Nat) : List UInt8 := List.replicate n 0

/-- A member of a record with its value. -/
structure Member where
  align : Nat
  bytes : List UInt8

def member {α : Type} [Stored α] (a : α) : Member := ⟨Stored.align α, Stored.bytes a⟩

/-- The next member, behind the members placed so far. -/
def place (memory : List UInt8) (m : Member) : List UInt8 :=
  memory ++ zeros (padding memory.length m.align) ++ m.bytes

/-- The memory of a record: its members in order, and a gap up to a multiple of the largest
alignment. -/
def layout (members : List Member) : List UInt8 :=
  let memory := members.foldl place []
  memory ++ zeros (padding memory.length ((members.map Member.align).foldl max 1))

/-! ## Packed readers -/

/-- A reader of a fixed number of bytes. -/
structure Format (α : Type) where
  size : Nat
  decode : List UInt8 → α

section Reader

variable {α β : Type}

def Format.start (make : α) : Format α := ⟨0, fun _ => make⟩

/-- The next field is the constructor's next argument. -/
def Format.field (α : Type) [Stored α] (f : Format (α → β)) : Format β :=
  ⟨f.size + Stored.size α, fun input => f.decode input (Stored.decode (input.drop f.size))⟩

/-- The next `n` bytes are skipped. -/
def Format.blank (n : Nat) (f : Format α) : Format α := ⟨f.size + n, f.decode⟩

inductive ReadError where
  | eof
  | unexpectedEOF
  deriving DecidableEq, Repr

/-- Read one value off an input, and what is behind it.  An input that is too short is an
error, another one if there is nothing at all. -/
def Format.read (f : Format α) (input : List UInt8) : Except ReadError (α × List UInt8) :=
  if input.length < f.size then .error (if input = [] then .eof else .unexpectedEOF)
  else .ok (f.decode (input.take f.size), input.drop f.size)

/-- The reader takes `memory` and sees `a` in it, whatever is behind it. -/
structure Reads (f : Format α) (memory : List UInt8) (a : α) : Prop where
  size : memory.length = f.size
  decode : ∀ rest, f.decode (memory ++ rest) = a

theorem Reads.start (make : α) : Reads (Format.start make) [] make := ⟨rfl, fun _ => rfl⟩

theorem Reads.blank {f : Format α} {memory gap : List UInt8} {a : α} (reads : Reads f memory a) :
    Reads (f.blank gap.length) (memory ++ gap) a where
  size := by rw [List.length_append, reads.size]; rfl
  decode rest := by
    rw [List.append_assoc]
    exact reads.decode (gap ++ rest)

variable [Stored β] {f : Format (β → α)} {memory : List UInt8} {make : β → α}

theorem Reads.field (reads : Reads f memory make) (b : β) :
    Reads (f.field β) (memory ++ Stored.bytes b) (make b) where
  size := by rw [List.length_append, Stored.length_bytes, reads.size]; rfl
  decode rest := by
    have here : (memory ++ Stored.bytes b ++ rest).drop f.size = Stored.bytes b ++ rest := by
      rw [List.append_assoc, List.drop_left' reads.size]
    show f.decode (memory ++ Stored.bytes b ++ rest)
      (Stored.decode ((memory ++ Stored.bytes b ++ rest).drop f.size)) = make b
    rw [here, Stored.decode_bytes, List.append_assoc, reads.decode]

/-- A gap of a record is a blank of its reader. -/
theorem Reads.pad {f : Format α} {a : α} {align : Nat} (n : Nat) (reads : Reads f memory a)
    (gap : padding f.size align = n) :
    Reads (f.blank n) (memory ++ zeros (padding memory.length align)) a := by
  have length : (zeros (padding memory.length align)).length = n := by
    rw [zeros, List.length_replicate, reads.size, gap]
  rw [← length]
  exact reads.blank

theorem Reads.placeBehind (n : Nat) (reads : Reads f memory make) (b : β)
    (gap : padding f.size (Stored.align β) = n) :
    Reads ((f.blank n).field β) (Layout.place memory (member b)) (make b) :=
  (reads.pad n gap).field b

theorem Reads.place (reads : Reads f memory make) (b : β)
    (aligned : padding f.size (Stored.align β) = 0) :
    Reads (f.field β) (Layout.place memory (member b)) (make b) :=
  reads.placeBehind 0 b aligned

/-- A reader that sees a value in a memory takes exactly this memory off an input. -/
theorem Reads.read {f : Format α} {a : α} (reads : Reads f memory a) (rest : List UInt8) :
    f.read (memory ++ rest) = .ok (a, rest) := by
  have enough : ¬ (memory ++ rest).length < f.size := by
    rw [List.length_append, reads.size]
    omega
  have whole := reads.decode []
  rw [List.append_nil] at whole
  rw [Format.read, if_neg enough, List.take_left' reads.size, List.drop_left' reads.size, whole]

end Reader

/-! ## Strings in a fixed buffer -/

/-- `text` is what stands in `memory` before its first zero byte. -/
def BeforeNul (memory text : List UInt8) : Prop :=
  0 ∉ text ∧ (memory = text ∨ ∃ rest, memory = text ++ 0 :: rest)

end KubeAutopsy.Theory.Layout
