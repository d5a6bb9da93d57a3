/-
# KubeAutopsy.Controller.Metrics — the values a metric's label takes

`sanitizeLabelValue`, `labelLimiter` and its `bound` of `internal/controller/metrics.go`.  The
tables of `unicode.IsPrint` beyond Latin-1 are a parameter.

A sanitized value is the encoding of printable characters (`clean_sanitizeLabelValue`), and
none of those is changed by sanitizing it again (`Clean.sanitize_eq`).  The limiter is an
`Admitted` set of sanitized values: `bound` admits a value while there is room (`bound_cases`),
and what it returns for one only depends on whether it is admitted in the end (`calls_eq`).
-/
import KubeAutopsy.Theory.Admission
import KubeAutopsy.Theory.Runes

namespace KubeAutopsy.Controller.Metrics

open KubeAutopsy.Theory.Admission
open KubeAutopsy.Theory.Bytes (GoString lit truncate_eq_take)
open KubeAutopsy.Theory.Runes
open KubeAutopsy.Theory.Utf8

set_option autoImplicit false

/-! ## The code -/

def maxLabelCardinality : Nat := 100

def overflowLabel : GoString := lit "other"

def unknownLabel : GoString := lit "unknown"

def maxLabelValueLength : Nat := 64

/-- `unicode.IsPrint`, which is known for the runes of Latin-1. -/
structure Unicode where
  isPrint : Nat → Bool
  latin1 : ∀ r ≤ 0xFF, isPrint r =
    (decide (0x20 ≤ r ∧ r ≤ 0x7E) || decide (0xA1 ≤ r ∧ r ≠ 0xAD))

/-- Tables that end with Latin-1. -/
def latin1Tables : Unicode where
  isPrint r := decide (r ≤ 0xFF) && (decide (0x20 ≤ r ∧ r ≤ 0x7E) || decide (0xA1 ≤ r ∧ r ≠ 0xAD))
  latin1 r low := by rw [decide_eq_true low, Bool.true_and]

section Code

variable (unicode : Unicode)

def sanitizeLabelValue (value : GoString) : GoString :=
  if value = [] then unknownLabel
  else
    let value := if value.length > maxLabelValueLength then value.take maxLabelValueLength else value
    let out := (runes value).flatMap fun r =>
      if r = runeError then lit "_"
      else if unicode.isPrint r then encodeRune r
      else lit "_"
    if out ≠ [] then out else unknownLabel

abbrev LabelLimiter := Admitted GoString maxLabelCardinality

def newLabelLimiter : LabelLimiter := .empty

/-- The label for a value, and the limiter after the call. -/
def bound (l : LabelLimiter) (value : GoString) : GoString × LabelLimiter :=
  let value := sanitizeLabelValue unicode value
  if value = unknownLabel then (value, l)
  else if value ∈ l.seen then (value, l)
  else if full : l.seen.card ≥ maxLabelCardinality then (overflowLabel, l)
  else (value, l.add value (Nat.lt_of_not_le full))

/-- The limiter after a sequence of calls. -/
def after (l : LabelLimiter) (values : List GoString) : LabelLimiter :=
  values.foldl (fun l value => (bound unicode l value).2) l

/-- A sequence of calls, each with its label. -/
def calls : LabelLimiter → List GoString → List (GoString × GoString)
  | _, [] => []
  | l, value :: values =>
      let (label, l) := bound unicode l value
      (value, label) :: calls l values

end Code

/-! ## Sanitized values -/

section Sanitize

variable {unicode : Unicode}

/-- What the exposition of the metrics needs of a label. -/
structure Exposable (unicode : Unicode) (label : GoString) : Prop where
  nonempty : label ≠ []
  valid : Valid label
  short : label.length ≤ maxLabelValueLength
  printable : ∀ r ∈ runes label, unicode.isPrint r = true

/-- A character that is written as it is. -/
def Plain (unicode : Unicode) (c : Char) : Prop :=
  unicode.isPrint c.toNat = true ∧ c.toNat ≠ runeError

/-- The label is some plain characters, and not too many. -/
def Clean (unicode : Unicode) (label : GoString) : Prop :=
  label ≠ [] ∧ label.length ≤ maxLabelValueLength ∧
    ∃ chars : List Char, (∀ c ∈ chars, Plain unicode c) ∧
      label = chars.flatMap String.utf8EncodeChar

theorem Clean.exposable {label : GoString} (clean : Clean unicode label) :
    Exposable unicode label := by
  obtain ⟨nonempty, short, chars, plain, rfl⟩ := clean
  refine ⟨nonempty, ⟨chars, rfl⟩, short, ?_⟩
  rw [runes_encode]
  intro r member
  obtain ⟨c, inside, rfl⟩ := List.mem_map.1 member
  exact (plain c inside).1

theorem plain_ascii {c : Char} (ascii : 0x20 ≤ c.toNat ∧ c.toNat ≤ 0x7E) : Plain unicode c := by
  constructor
  · rw [unicode.latin1 c.toNat (by omega), decide_eq_true ascii, Bool.true_or]
  · rw [runeError]
    omega

theorem clean_of_ascii {chars : List Char} (nonempty : chars.flatMap String.utf8EncodeChar ≠ [])
    (short : (chars.flatMap String.utf8EncodeChar).length ≤ maxLabelValueLength)
    (ascii : chars.all (fun c => decide (0x20 ≤ c.toNat ∧ c.toNat ≤ 0x7E)) = true) :
    Clean unicode (chars.flatMap String.utf8EncodeChar) := by
  refine ⟨nonempty, short, chars, ?_, rfl⟩
  intro c member
  exact plain_ascii (of_decide_eq_true (List.all_eq_true.1 ascii c member))

theorem clean_unknownLabel : Clean unicode unknownLabel := by
  have spelled : unknownLabel = "unknown".toList.flatMap String.utf8EncodeChar := by decide
  rw [spelled]
  exact clean_of_ascii (by decide) (by decide) (by decide)

theorem clean_overflowLabel : Clean unicode overflowLabel := by
  have spelled : overflowLabel = "other".toList.flatMap String.utf8EncodeChar := by decide
  rw [spelled]
  exact clean_of_ascii (by decide) (by decide) (by decide)

/-- What `sanitizeLabelValue` writes for a rune. -/
def written (unicode : Unicode) (r : Nat) : GoString :=
  if r = runeError then lit "_"
  else if unicode.isPrint r then encodeRune r
  else lit "_"

theorem written_of_plain {c : Char} (plain : Plain unicode c) :
    written unicode c.toNat = String.utf8EncodeChar c := by
  rw [written, if_neg plain.2, if_pos plain.1, encodeRune_toNat]

variable (unicode)

/-- What is written for a character is one plain character, and not a longer one. -/
theorem written_char (c : Char) :
    ∃ d, Plain unicode d ∧ written unicode c.toNat = String.utf8EncodeChar d ∧
      (String.utf8EncodeChar d).length ≤ (String.utf8EncodeChar c).length := by
  by_cases plain : Plain unicode c
  · exact ⟨c, plain, written_of_plain plain, Nat.le_refl _⟩
  · refine ⟨'_', plain_ascii (by decide), ?_, List.length_pos_iff.2 (encodeChar_ne_nil c)⟩
    rw [written]
    split_ifs with error print
    · rfl
    · exact absurd ⟨print, error⟩ plain
    · rfl

theorem written_runes (value : GoString) :
    ∃ chars : List Char, (∀ c ∈ chars, Plain unicode c) ∧
      (runes value).flatMap (written unicode) = chars.flatMap String.utf8EncodeChar ∧
      (chars.flatMap String.utf8EncodeChar).length ≤ value.length := by
  induction value using rune_induction with
  | nil => exact ⟨[], by simp, rfl, Nat.le_refl 0⟩
  | char c s ih =>
      obtain ⟨chars, plain, same, short⟩ := ih
      obtain ⟨d, plainHere, here, shortHere⟩ := written_char unicode c
      refine ⟨d :: chars, List.forall_mem_cons.2 ⟨plainHere, plain⟩, ?_, ?_⟩
      · rw [runes_encodeChar, List.flatMap_cons, here, same, List.flatMap_cons]
      · rw [List.flatMap_cons, List.length_append, List.length_append]
        omega
  | error b s bad ih =>
      obtain ⟨chars, plain, same, short⟩ := ih
      refine ⟨'_' :: chars, List.forall_mem_cons.2 ⟨plain_ascii (by decide), plain⟩, ?_, ?_⟩
      · rw [runes_error bad, List.flatMap_cons, same, written, if_pos rfl, List.flatMap_cons]
        rfl
      · have one : (String.utf8EncodeChar '_').length = 1 := rfl
        rw [List.flatMap_cons, List.length_append, List.length_cons, one]
        omega

theorem sanitizeLabelValue_eq {value : GoString} (nonempty : value ≠ []) :
    sanitizeLabelValue unicode value =
      if (runes (value.take maxLabelValueLength)).flatMap (written unicode) ≠ [] then
        (runes (value.take maxLabelValueLength)).flatMap (written unicode)
      else unknownLabel := by
  rw [sanitizeLabelValue, if_neg nonempty, truncate_eq_take]
  rfl

theorem clean_sanitizeLabelValue (value : GoString) :
    Clean unicode (sanitizeLabelValue unicode value) := by
  by_cases empty : value = []
  · rw [sanitizeLabelValue, if_pos empty]
    exact clean_unknownLabel
  · rw [sanitizeLabelValue_eq unicode empty]
    split_ifs with some
    · obtain ⟨chars, plain, same, short⟩ := written_runes unicode (value.take maxLabelValueLength)
      rw [same] at some ⊢
      exact ⟨some, short.trans (List.length_take_le _ _), chars, plain, rfl⟩
    · exact clean_unknownLabel

variable {unicode} in
/-- **A clean label is not changed.** -/
theorem Clean.sanitize_eq {label : GoString} (clean : Clean unicode label) :
    sanitizeLabelValue unicode label = label := by
  obtain ⟨nonempty, short, chars, plain, rfl⟩ := clean
  have same : (runes (chars.flatMap String.utf8EncodeChar)).flatMap (written unicode) =
      chars.flatMap String.utf8EncodeChar := by
    rw [runes_encode, List.flatMap_map]
    exact List.flatMap_congr fun c member => written_of_plain (plain c member)
  rw [sanitizeLabelValue_eq unicode nonempty, List.take_of_length_le short, same, if_pos nonempty]

end Sanitize

/-! ## Sequences of calls -/

section Calls

variable (unicode : Unicode)

/-- What the limiter says of a sanitized value: its own name if it is admitted. -/
def labelOf (l : LabelLimiter) (name : GoString) : GoString :=
  if name = unknownLabel ∨ name ∈ l.seen then name else overflowLabel

/-- **Everything a call can do**: nothing for an unknown value, and for any other ask for
admission and return what the limiter then says. -/
theorem bound_cases (l : LabelLimiter) (value : GoString) :
    (sanitizeLabelValue unicode value = unknownLabel ∧ bound unicode l value = (unknownLabel, l)) ∨
      (sanitizeLabelValue unicode value ≠ unknownLabel ∧
        bound unicode l value =
          (labelOf (l.accept (sanitizeLabelValue unicode value)) (sanitizeLabelValue unicode value),
            l.accept (sanitizeLabelValue unicode value))) := by
  rw [bound]
  generalize sanitizeLabelValue unicode value = name
  by_cases unknown : name = unknownLabel
  · left
    rw [if_pos unknown, unknown]
    exact ⟨rfl, rfl⟩
  right
  refine ⟨unknown, ?_⟩
  rw [if_neg unknown]
  by_cases seen : name ∈ l.seen
  · rw [if_pos seen, Admitted.accept_of_mem seen, labelOf, if_pos (.inr seen)]
  rw [if_neg seen]
  by_cases full : maxLabelCardinality ≤ l.seen.card
  · have refused : ¬ (name = unknownLabel ∨ name ∈ l.seen) := not_or.2 ⟨unknown, seen⟩
    rw [dif_pos full, Admitted.accept_of_full (l.bounded.antisymm full), labelOf, if_neg refused]
  · have room := Nat.lt_of_not_le full
    have added : name ∈ (l.add name room).seen := Finset.mem_insert_self name l.seen
    rw [dif_neg full, Admitted.accept_of_room seen room, labelOf, if_pos (.inr added)]

/-- The names that ask for admission. -/
def arrivals (values : List GoString) : List GoString :=
  (values.map (sanitizeLabelValue unicode)).filter (· ≠ unknownLabel)

theorem arrivals_cons (value : GoString) (values : List GoString) :
    arrivals unicode (value :: values) =
      if sanitizeLabelValue unicode value = unknownLabel then arrivals unicode values
      else sanitizeLabelValue unicode value :: arrivals unicode values := by
  simp [arrivals, List.filter_cons]

theorem after_eq (l : LabelLimiter) (values : List GoString) :
    after unicode l values = l.acceptAll (arrivals unicode values) := by
  induction values generalizing l with
  | nil => rfl
  | cons value values ih =>
      rw [after, List.foldl_cons, ← after, ih, arrivals_cons]
      rcases bound_cases unicode l value with ⟨unknown, same⟩ | ⟨known, same⟩
      · rw [same, if_pos unknown]
      · rw [same, if_neg known, Admitted.acceptAll_cons]

/-- **A call returns what the limiter says at the end of any later call.** -/
theorem bound_fst (l : LabelLimiter) (value : GoString) (later : List GoString) :
    (bound unicode l value).1 =
      labelOf (after unicode (bound unicode l value).2 later) (sanitizeLabelValue unicode value) := by
  rw [after_eq]
  rcases bound_cases unicode l value with ⟨unknown, same⟩ | ⟨known, same⟩
  · rw [same, labelOf, if_pos (.inl unknown), unknown]
  · rw [same]
    simp only [labelOf, Admitted.accept_decides]

theorem calls_cons (l : LabelLimiter) (value : GoString) (values : List GoString) :
    calls unicode l (value :: values) =
      (value, (bound unicode l value).1) :: calls unicode (bound unicode l value).2 values := rfl

/-- **Every label of a sequence of calls is what the limiter says at its end.** -/
theorem calls_eq (l : LabelLimiter) (values : List GoString) :
    calls unicode l values =
      values.map fun value =>
        (value, labelOf (after unicode l values) (sanitizeLabelValue unicode value)) := by
  induction values generalizing l with
  | nil => rfl
  | cons value values ih =>
      rw [calls_cons, ih, bound_fst unicode l value values]
      rfl

theorem calls_append (l : LabelLimiter) (first second : List GoString) :
    calls unicode l (first ++ second) =
      calls unicode l first ++ calls unicode (after unicode l first) second := by
  induction first generalizing l with
  | nil => rfl
  | cons value first ih =>
      rw [List.cons_append, calls_cons, calls_cons, ih]
      rfl

/-- **No more labels than names admitted, and the two that need no admission.** -/
theorem card_labels_le (values : List GoString) :
    ((calls unicode newLabelLimiter values).map Prod.snd).toFinset.card ≤ maxLabelCardinality + 2 := by
  let final := after unicode newLabelLimiter values
  have among : ((calls unicode newLabelLimiter values).map Prod.snd).toFinset ⊆
      insert unknownLabel (insert overflowLabel final.seen) := by
    intro label member
    rw [List.mem_toFinset, calls_eq, List.map_map, List.mem_map] at member
    obtain ⟨value, -, rfl⟩ := member
    show labelOf final (sanitizeLabelValue unicode value) ∈ _
    rw [labelOf]
    split_ifs with admitted
    · rcases admitted with unknown | seen
      · simp [unknown]
      · simp [seen]
    · simp
  calc
    _ ≤ (insert unknownLabel (insert overflowLabel final.seen)).card := Finset.card_le_card among
    _ ≤ (insert overflowLabel final.seen).card + 1 := Finset.card_insert_le _ _
    _ ≤ final.seen.card + 1 + 1 := Nat.add_le_add_right (Finset.card_insert_le _ _) 1
    _ ≤ maxLabelCardinality + 2 := Nat.add_le_add_right final.bounded 2

/-- **Values of one sanitized form share a label**, whichever call came first. -/
theorem calls_share {l : LabelLimiter} {values : List GoString} {call other : GoString × GoString}
    (first : call ∈ calls unicode l values) (second : other ∈ calls unicode l values)
    (same : sanitizeLabelValue unicode call.1 = sanitizeLabelValue unicode other.1) :
    call.2 = other.2 := by
  rw [calls_eq, List.mem_map] at first second
  obtain ⟨value, -, rfl⟩ := first
  obtain ⟨value', -, rfl⟩ := second
  exact congrArg (labelOf _) same

/-- A name that is admitted was returned by a call. -/
theorem exists_call_of_seen {values : List GoString} {name : GoString}
    (seen : name ∈ (after unicode newLabelLimiter values).seen) :
    name ≠ unknownLabel ∧ ∃ call ∈ calls unicode newLabelLimiter values,
      sanitizeLabelValue unicode call.1 = name ∧ call.2 = name := by
  have arrived : name ∈ arrivals unicode values := by
    rw [after_eq] at seen
    rcases Admitted.mem_of_mem_acceptAll seen with none | arrived
    · cases none
    · exact arrived
  rw [arrivals, List.mem_filter, List.mem_map, decide_eq_true_eq] at arrived
  obtain ⟨⟨value, member, rfl⟩, known⟩ := arrived
  refine ⟨known, (value, sanitizeLabelValue unicode value), ?_, rfl, rfl⟩
  rw [calls_eq, List.mem_map]
  refine ⟨value, member, ?_⟩
  rw [labelOf, if_pos (.inr seen)]

/-- **A name collapses only in a full limiter.** -/
theorem full_of_collapsed {l : LabelLimiter} {value : GoString}
    (collapsed : (bound unicode l value).1 = overflowLabel)
    (other : sanitizeLabelValue unicode value ≠ overflowLabel) :
    l.seen.card = maxLabelCardinality := by
  rcases bound_cases unicode l value with ⟨-, same⟩ | ⟨-, same⟩
  · rw [same] at collapsed
    have differ : unknownLabel ≠ overflowLabel := by decide
    exact absurd collapsed differ
  · apply Admitted.full_of_refused
    intro admitted
    rw [same, labelOf, if_pos (.inr admitted)] at collapsed
    exact other collapsed

/-- The calls before one are those of the values before it. -/
theorem calls_split {l : LabelLimiter} {values : List GoString}
    {before later : List (GoString × GoString)} {value label : GoString}
    (whole : calls unicode l values = before ++ (value, label) :: later) :
    before = calls unicode l (before.map Prod.fst) ∧
      label = (bound unicode (after unicode l (before.map Prod.fst)) value).1 := by
  have named (l : LabelLimiter) (values : List GoString) :
      (calls unicode l values).map Prod.fst = values := by
    rw [calls_eq, List.map_map]
    exact List.map_id values
  have shape : values = before.map Prod.fst ++ value :: later.map Prod.fst := by
    rw [← named l values, whole, List.map_append, List.map_cons]
  rw [shape, calls_append, calls_cons] at whole
  have long : (calls unicode l (before.map Prod.fst)).length = before.length := by
    rw [← List.length_map (f := Prod.fst), named, List.length_map]
  obtain ⟨front, back⟩ := List.append_inj whole long
  exact ⟨front.symm, (congrArg Prod.snd (List.cons.inj back).1).symm⟩

/-- **The labels of a metric are bounded and safe to expose**, over every sequence of calls. -/
theorem calls_bounded (values : List GoString) :
    ((calls unicode newLabelLimiter values).map Prod.snd).toFinset.card ≤ maxLabelCardinality + 2 ∧
      (calls unicode newLabelLimiter values).Pairwise (fun call later =>
        call.2 = sanitizeLabelValue unicode call.1 →
        sanitizeLabelValue unicode later.1 = sanitizeLabelValue unicode call.1 →
          later.2 = sanitizeLabelValue unicode call.1) ∧
      (∀ before value later,
        calls unicode newLabelLimiter values = before ++ (value, overflowLabel) :: later →
        sanitizeLabelValue unicode value ≠ overflowLabel →
          ∃ admitted : Finset GoString, admitted.card = maxLabelCardinality ∧
            ∀ name ∈ admitted, name ≠ unknownLabel ∧
              ∃ call ∈ before, sanitizeLabelValue unicode call.1 = name ∧ call.2 = name) ∧
      (∀ call ∈ calls unicode newLabelLimiter values, Exposable unicode call.2) ∧
      (∀ call ∈ calls unicode newLabelLimiter values,
        ∀ other ∈ calls unicode newLabelLimiter values,
          sanitizeLabelValue unicode call.1 = sanitizeLabelValue unicode other.1 → call.2 = other.2) ∧
      (∀ value, sanitizeLabelValue unicode (sanitizeLabelValue unicode value) =
        sanitizeLabelValue unicode value) := by
  refine ⟨card_labels_le unicode values, ?_, ?_, ?_, ?_, ?_⟩
  · apply List.pairwise_of_forall_mem_list
    intro call first later second own same
    rw [← calls_share unicode first second same.symm, own]
  · intro before value later whole other
    obtain ⟨front, collapsed⟩ := calls_split unicode whole
    refine ⟨_, full_of_collapsed unicode collapsed.symm other, ?_⟩
    intro name seen
    rw [front]
    exact exists_call_of_seen unicode seen
  · intro call member
    rw [calls_eq, List.mem_map] at member
    obtain ⟨value, -, rfl⟩ := member
    show Exposable unicode (labelOf _ (sanitizeLabelValue unicode value))
    rw [labelOf]
    split_ifs
    · exact (clean_sanitizeLabelValue unicode value).exposable
    · exact clean_overflowLabel.exposable
  · intro call first other second same
    exact calls_share unicode first second same
  · intro value
    exact (clean_sanitizeLabelValue unicode value).sanitize_eq

end Calls

theorem calls_bounded_control :
    (lit "java\n", lit "java_") ∈ calls latin1Tables newLabelLimiter [lit "java\n", [], lit "java\t"] ∧
      ∀ label, (lit "java\t", label) ∈ calls latin1Tables newLabelLimiter [lit "java\n", [], lit "java\t"] →
        label = lit "java_" := by
  refine ⟨by decide, fun label second => ?_⟩
  obtain ⟨-, -, -, -, shared, -⟩ := calls_bounded latin1Tables [lit "java\n", [], lit "java\t"]
  have same : sanitizeLabelValue latin1Tables (lit "java\t") =
      sanitizeLabelValue latin1Tables (lit "java\n") := by decide
  exact shared _ second (lit "java\n", lit "java_") (by decide) same

end KubeAutopsy.Controller.Metrics
