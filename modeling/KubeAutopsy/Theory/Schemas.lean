/-
# KubeAutopsy.Theory.Schemas — what a structural schema accepts

The part of OpenAPI schemas that structural schemas are made of: strings by their number of
code points, their values or their format, integers by their width, lists by their number of
items, and objects by their members.  Members the schema does not name are dropped by the
server and do not matter.

An encoder leaves empty members out, so which members a document has depends on the values.
`present` is the object with some of its fields left out, and `lookup_present` looks a field up
without asking which of the others are there.
-/
import KubeAutopsy.Theory.Json

namespace KubeAutopsy.Theory.Schemas

open KubeAutopsy.Theory.Bytes (GoString lit)
open KubeAutopsy.Theory.Json
open KubeAutopsy.Theory.Utf8 (runes)

set_option autoImplicit false

/-! ## Schemas -/

/-- `type: string` with the keywords that are used for one. -/
structure Text where
  minLength : Nat := 0
  maxLength : Option Nat := none
  enum : Option (List GoString) := none
  format : GoString → Bool := fun _ => true

def Text.accepts (text : Text) (s : GoString) : Bool :=
  text.minLength ≤ (runes s).length && text.maxLength.all ((runes s).length ≤ ·) &&
    text.enum.all (·.contains s) && text.format s

/-- The integers of a two's complement format. -/
def fitsIn (bits : Nat) (n : Int) : Bool := -2 ^ (bits - 1) ≤ n && n < 2 ^ (bits - 1)

inductive Schema
  | string (text : Text)
  | integer (bits : Nat)
  | array (maxItems : Option Nat) (items : Schema)
  | object (properties : List (GoString × Schema)) (required : List GoString)

mutual

def Schema.accepts : Schema → Value → Bool
  | .string text, .text s => text.accepts s
  | .integer bits, .number n => fitsIn bits n
  | .array maxItems items, .array values =>
      maxItems.all (values.length ≤ ·) && values.all fun value => items.accepts value
  | .object properties required, .object members =>
      required.all (fun name => (members.lookup name).isSome) && acceptsMembers properties members
  | _, _ => false

def acceptsMembers : List (GoString × Schema) → Members → Bool
  | [], _ => true
  | (name, schema) :: properties, members =>
      (members.lookup name).all (fun value => schema.accepts value) &&
        acceptsMembers properties members

end

/-! ## Fields that may be left out -/

/-- The members for the fields that are there. -/
def present (fields : List (GoString × Option Value)) : Members :=
  fields.filterMap fun (name, value) => value.map (name, ·)

theorem present_cons (name : GoString) (value : Option Value)
    (fields : List (GoString × Option Value)) :
    present ((name, value) :: fields) = (value.map (name, ·)).toList ++ present fields := by
  cases value with
  | none => rfl
  | some value => rfl

theorem lookup_present_none {fields : List (GoString × Option Value)} {name : GoString}
    (absent : name ∉ fields.map Prod.fst) : (present fields).lookup name = none := by
  induction fields with
  | nil => rfl
  | cons field fields ih =>
      obtain ⟨other, value⟩ := field
      rw [List.map_cons, List.mem_cons, not_or] at absent
      obtain ⟨differs, absent⟩ := absent
      rw [present_cons]
      cases value with
      | none => exact ih absent
      | some value =>
          have skipped : (name == other) = false := by simpa using differs
          simpa [List.lookup_cons, skipped] using ih absent

/-- A field is looked up by its own value alone. -/
theorem lookup_present {fields : List (GoString × Option Value)} {name : GoString}
    {value : Option Value} (distinct : (fields.map Prod.fst).Nodup)
    (at_ : fields.lookup name = some value) : (present fields).lookup name = value := by
  induction fields with
  | nil => cases at_
  | cons field fields ih =>
      obtain ⟨other, here⟩ := field
      rw [List.map_cons, List.nodup_cons] at distinct
      rw [present_cons]
      by_cases same : name = other
      · subst same
        have found : some here = some value := by simpa [List.lookup_cons] using at_
        cases found
        cases value with
        | none => exact lookup_present_none distinct.1
        | some value => simp
      · have skipped : (name == other) = false := by simpa using same
        have later := ih distinct.2 (by simpa [List.lookup_cons, skipped] using at_)
        cases here with
        | none => exact later
        | some here => simpa [List.lookup_cons, skipped] using later

/-- One property of an object whose fields may be left out. -/
def Satisfies (fields : List (GoString × Option Value)) (property : GoString × Schema) : Prop :=
  ∃ value, fields.lookup property.1 = some value ∧ ∀ v ∈ value, property.2.accepts v = true

theorem acceptsMembers_present {fields : List (GoString × Option Value)}
    (distinct : (fields.map Prod.fst).Nodup) {properties : List (GoString × Schema)}
    (satisfies : ∀ property ∈ properties, Satisfies fields property) :
    acceptsMembers properties (present fields) = true := by
  induction properties with
  | nil => rfl
  | cons property properties ih =>
      obtain ⟨⟨value, at_, accepted⟩, others⟩ := List.forall_mem_cons.1 satisfies
      rw [acceptsMembers, lookup_present distinct at_, ih others, Bool.and_true]
      cases value with
      | none => rfl
      | some value => exact accepted value rfl

/-- **An object is accepted field by field.** -/
theorem accepts_present {fields : List (GoString × Option Value)}
    (distinct : (fields.map Prod.fst).Nodup) {properties : List (GoString × Schema)}
    {required : List GoString}
    (there : ∀ name ∈ required, ∃ value, fields.lookup name = some (some value))
    (satisfies : ∀ property ∈ properties, Satisfies fields property) :
    (Schema.object properties required).accepts (.object (present fields)) = true := by
  rw [Schema.accepts, acceptsMembers_present distinct satisfies, Bool.and_true, List.all_eq_true]
  intro name member
  obtain ⟨value, at_⟩ := there name member
  rw [lookup_present distinct at_]
  rfl

/-! ## Lengths -/

/-- What a field adds to the text of its object. -/
def fieldLength : GoString × Option Value → Nat
  | (_, none) => 0
  | (name, some value) => (writeText name).length + value.write.length + 2

theorem length_write_present (fields : List (GoString × Option Value)) :
    (Value.object (present fields)).write.length ≤ (fields.map fieldLength).sum + 2 := by
  have members : ((present fields).map fun member => (writeMember member).length + 1).sum =
      (fields.map fieldLength).sum := by
    induction fields with
    | nil => rfl
    | cons field fields ih =>
        obtain ⟨name, value⟩ := field
        rw [present_cons, List.map_append, List.sum_append, ih, List.map_cons, List.sum_cons]
        cases value with
        | none => rfl
        | some value =>
            have one : (writeMember (name, value)).length + 1 = fieldLength (name, some value) := by
              simp only [writeMember, fieldLength, List.length_append, List.length_cons]
              omega
            simp [one]
  have items := length_writeItems_le 0x7D writeMember (present fields)
  rw [Value.write, writeObject_eq, List.length_cons]
  omega

/-- The text of a field whose value is short. -/
theorem fieldLength_le {name : GoString} {value : Option Value} {n k : Nat} (named : name.length ≤ n)
    (short : ∀ v ∈ value, v.write.length ≤ k) : fieldLength (name, value) ≤ 6 * n + k + 4 := by
  cases value with
  | none => exact Nat.zero_le _
  | some value =>
      have text := length_writeText_le name
      have written := short value rfl
      rw [fieldLength]
      omega

end KubeAutopsy.Theory.Schemas
