/-
# KubeAutopsy.Agent.Names — report names and label values

`sanitizeName`, `reportNamePrefix` and `labelValue` of `internal/agent/reporter.go`.
All three read their input rune by rune and write one ASCII byte for each rune.

What they write is made of letters that a name or a label's value may have (`nameRune_keeps`,
`valueRune_keeps`), so trimming frames it, and a name that is one already is written as it is
(`sanitizeName_eq_self`, `labelValue_eq_self`).  The API server accepts what they return:
`reportNamePrefix_accepted`, `labelValue_accepted`.
-/
import KubeAutopsy.Theory.Runes
import KubeAutopsy.Theory.ObjectNames

namespace KubeAutopsy.Agent

open KubeAutopsy.Theory.Bytes (GoString lit truncate_eq_take)
open KubeAutopsy.Theory.Utf8 (runes)
open KubeAutopsy.Theory.Runes
open KubeAutopsy.Theory.ObjectNames

set_option autoImplicit false

def generatedNameBaseLimit : Nat := 63 - 5
def maxLabelValueLength : Nat := 63

/-- `strings.TrimRight(s, cutset)` for an ASCII cutset. -/
def trimRight (cutset s : GoString) : GoString :=
  (s.reverse.dropWhile (· ∈ cutset)).reverse

/-- `strings.Trim(s, cutset)` for an ASCII cutset. -/
def trim (cutset s : GoString) : GoString :=
  trimRight cutset (s.dropWhile (· ∈ cutset))

/-- `strings.TrimSuffix`. -/
def trimSuffix (s tail : GoString) : GoString :=
  if tail <:+ s then s.take (s.length - tail.length) else s

def isLower (r : Nat) : Bool := decide (0x61 ≤ r ∧ r ≤ 0x7A)
def isUpper (r : Nat) : Bool := decide (0x41 ≤ r ∧ r ≤ 0x5A)
def isDigit (r : Nat) : Bool := decide (0x30 ≤ r ∧ r ≤ 0x39)

/-- `unicode.ToLower`.  Two runes beyond ASCII lower into it, the dotted capital I
and the Kelvin sign; the lower case of any other rune beyond ASCII is beyond ASCII
again, where the caller makes no difference, so those are left as they are. -/
def toLower (r : Nat) : Nat :=
  if isUpper r then r + 32
  else if r = 0x130 then 0x69
  else if r = 0x212A then 0x6B
  else r

def sanitizeName (name : GoString) : GoString :=
  let mapped := (runes name).map fun rune =>
    let r := toLower rune
    if isLower r || isDigit r || r = 0x2D || r = 0x2E then UInt8.ofNat r else 0x2D
  trim (lit "-.") mapped

def reportNamePrefix (podName containerName : GoString) : GoString :=
  let base := sanitizeName (podName ++ lit "-" ++ containerName)
  let base := if base = [] then lit "podcrashreport" else base
  let base := if base.length > generatedNameBaseLimit - 1 then base.take (generatedNameBaseLimit - 1)
    else base
  trimRight (lit "-.") base ++ lit "-"

def labelValue (s : GoString) : GoString :=
  let out := (runes s).map fun r =>
    if isLower r || isUpper r || isDigit r || r = 0x2D || r = 0x5F || r = 0x2E then UInt8.ofNat r
    else 0x2D
  let out := if out.length > maxLabelValueLength then out.take maxLabelValueLength else out
  trim (lit "-_.") out

/-! ## Letters -/

/-- What both write for a rune: the rune if it is kept, and a dash for any other. -/
def keepByte (keep : Nat → Bool) (r : Nat) : UInt8 := if keep r then UInt8.ofNat r else dash

/-- The runes that are kept are some letters of ASCII, the dash among them. -/
structure Keeps (keep : Nat → Bool) (letter : UInt8 → Prop) : Prop where
  ascii : ∀ r, keep r = true → r < 0x80
  letters : ∀ b : UInt8, keep b.toNat = true ↔ letter b
  dashed : letter dash

namespace Keeps

variable {keep : Nat → Bool} {letter : UInt8 → Prop}

theorem keepByte_letter (keeps : Keeps keep letter) (r : Nat) : letter (keepByte keep r) := by
  rw [keepByte]
  split_ifs with kept
  · have low := keeps.ascii r kept
    rw [← keeps.letters, toNat_byte (by omega)]
    exact kept
  · exact keeps.dashed

theorem map_letters (keeps : Keeps keep letter) (s : GoString) (change : Nat → Nat) :
    ∀ b ∈ (runes s).map fun r => keepByte keep (change r), letter b := by
  intro b member
  obtain ⟨r, -, rfl⟩ := List.mem_map.1 member
  exact keeps.keepByte_letter (change r)

/-- **Letters are written as they are**, if nothing changes them before. -/
theorem map_eq_self (keeps : Keeps keep letter) {s : GoString} (letters : ∀ b ∈ s, letter b)
    {change : Nat → Nat} (fixed : ∀ b, letter b → change b.toNat = b.toNat) :
    (runes s).map (fun r => keepByte keep (change r)) = s := by
  have kept : ∀ b ∈ s, keep b.toNat = true := fun b member => (keeps.letters b).2 (letters b member)
  have ascii : ∀ b ∈ s, b < 0x80 := fun b member =>
    UInt8.lt_iff_toNat_lt.2 (keeps.ascii b.toNat (kept b member))
  have same : ∀ b ∈ s, keepByte keep (change b.toNat) = b := by
    intro b member
    rw [fixed b (letters b member), keepByte, if_pos (kept b member), UInt8.ofNat_toNat]
  rw [runes_ascii ascii, List.map_map]
  exact (List.map_congr_left same).trans s.map_id

end Keeps

theorem isLower_toNat (b : UInt8) : isLower b.toNat = lower b := by
  simp [isLower, lower, UInt8.le_iff_toNat_le]

theorem isUpper_toNat (b : UInt8) : isUpper b.toNat = upper b := by
  simp [isUpper, upper, UInt8.le_iff_toNat_le]

theorem isDigit_toNat (b : UInt8) : isDigit b.toNat = digit b := by
  simp [isDigit, digit, UInt8.le_iff_toNat_le]

/-- The runes of a lower-cased name that `sanitizeName` keeps. -/
def nameRune (r : Nat) : Bool := isLower r || isDigit r || r = 0x2D || r = 0x2E

/-- The runes that `labelValue` keeps. -/
def valueRune (r : Nat) : Bool :=
  isLower r || isUpper r || isDigit r || r = 0x2D || r = 0x5F || r = 0x2E

theorem nameRune_keeps : Keeps nameRune fun b => alphanumeric b = true ∨ b ∈ [dash, dot] where
  ascii r kept := by
    simp only [nameRune, isLower, isDigit, Bool.or_eq_true, decide_eq_true_eq] at kept
    omega
  letters b := by
    simp [nameRune, isLower_toNat, isDigit_toNat, alphanumeric, dash, dot, ← UInt8.toNat_inj,
      or_assoc]
  dashed := .inr List.mem_cons_self

theorem valueRune_keeps :
    Keeps valueRune fun b => anyAlphanumeric b = true ∨ b ∈ [dash, underscore, dot] where
  ascii r kept := by
    simp only [valueRune, isLower, isUpper, isDigit, Bool.or_eq_true, decide_eq_true_eq] at kept
    omega
  letters b := by
    simp [valueRune, isLower_toNat, isUpper_toNat, isDigit_toNat, anyAlphanumeric, dash,
      underscore, dot, ← UInt8.toNat_inj, or_assoc]
  dashed := .inr List.mem_cons_self

/-- No letter of a name has a lower case of its own. -/
theorem toLower_toNat {b : UInt8} (letter : alphanumeric b = true ∨ b ∈ [dash, dot]) :
    toLower b.toNat = b.toNat := by
  have kept := (nameRune_keeps.letters b).2 letter
  simp only [nameRune, isLower, isDigit, Bool.or_eq_true, decide_eq_true_eq] at kept
  have other : isUpper b.toNat = false := decide_eq_false (by omega)
  rw [toLower, other, if_neg Bool.false_ne_true, if_neg (by omega), if_neg (by omega)]

/-! ## Report names -/

theorem sanitizeName_eq (name : GoString) :
    sanitizeName name =
      (((runes name).map fun r => keepByte nameRune (toLower r)).dropWhile
        (· ∈ [dash, dot])).rdropWhile (· ∈ [dash, dot]) := rfl

theorem sanitizeName_framed (name : GoString) :
    (sanitizeName name = [] ∨ Framed alphanumeric (sanitizeName name)) ∧
      ∀ b ∈ sanitizeName name, alphanumeric b = true ∨ b ∈ [dash, dot] := by
  have written := nameRune_keeps.map_letters name toLower
  rw [sanitizeName_eq]
  refine ⟨trim_framed (nameKinds written), fun b member => written b ?_⟩
  exact (List.dropWhile_suffix _).subset ((List.rdropWhile_prefix _ _).subset member)

/-- **A name needs no sanitizing.** -/
theorem sanitizeName_eq_self {s : GoString} (framed : Framed alphanumeric s)
    (letters : ∀ b ∈ s, alphanumeric b = true ∨ b ∈ [dash, dot]) : sanitizeName s = s := by
  rw [sanitizeName_eq, nameRune_keeps.map_eq_self letters fun b letter => toLower_toNat letter]
  exact framed.trim_eq (nameKinds letters)

/-- The name that `reportNamePrefix` shortens. -/
def reportNameBase (podName containerName : GoString) : GoString :=
  let base := sanitizeName (podName ++ lit "-" ++ containerName)
  if base = [] then lit "podcrashreport" else base

theorem reportNamePrefix_eq (podName containerName : GoString) :
    reportNamePrefix podName containerName =
      ((reportNameBase podName containerName).take (generatedNameBaseLimit - 1)).rdropWhile
        (· ∈ [dash, dot]) ++ [dash] := by
  rw [← truncate_eq_take]
  rfl

theorem reportNameBase_framed (podName containerName : GoString) :
    Framed alphanumeric (reportNameBase podName containerName) ∧
      ∀ b ∈ reportNameBase podName containerName, alphanumeric b = true ∨ b ∈ [dash, dot] := by
  obtain ⟨framed, letters⟩ := sanitizeName_framed (podName ++ lit "-" ++ containerName)
  rw [reportNameBase]
  split_ifs with empty
  · have all : (lit "podcrashreport").all alphanumeric = true := by decide
    exact ⟨by decide, fun b member => .inl (List.all_eq_true.1 all b member)⟩
  · exact ⟨framed.resolve_left empty, letters⟩

theorem reportNameBase_of_dotted {podName containerName : GoString} (pod : Dotted podName)
    (container : Dotted containerName) :
    reportNameBase podName containerName = podName ++ [dash] ++ containerName := by
  have joined := pod.join container
  have same : sanitizeName (podName ++ lit "-" ++ containerName) =
      podName ++ [dash] ++ containerName :=
    sanitizeName_eq_self joined.framed joined.letters
  rw [reportNameBase, same]
  exact if_neg joined.framed.ne_nil

/-- What `reportNamePrefix` returns is framed up to the dash behind it. -/
theorem reportNamePrefix_shape (podName containerName : GoString) :
    ∃ front, reportNamePrefix podName containerName = front ++ [dash] ∧ Framed alphanumeric front ∧
      (∀ b ∈ front, alphanumeric b = true ∨ b ∈ [dash, dot]) ∧
      front.length ≤ generatedNameBaseLimit - 1 ∧
      (Dotted podName → Dotted containerName → Dotted front) := by
  obtain ⟨framed, letters⟩ := reportNameBase_framed podName containerName
  have positive : 0 < generatedNameBaseLimit - 1 := by decide
  refine ⟨_, reportNamePrefix_eq podName containerName, framed.shorten (nameKinds letters) positive,
    ?_, ?_, ?_⟩
  · intro b member
    exact letters b (List.mem_of_mem_take ((List.rdropWhile_prefix _ _).subset member))
  · exact (List.rdropWhile_prefix _ _).length_le.trans (List.length_take_le _ _)
  · intro pod container
    rw [reportNameBase_of_dotted pod container]
    exact (pod.join container).shorten positive

/-- **Report names are accepted.**  The prefix is short enough for the API server to keep it
whole, and for the names of a pod and of a container of it, any suffix the server generates
makes it the name of an object. -/
theorem reportNamePrefix_accepted (podName containerName : GoString) :
    (reportNamePrefix podName containerName).length ≤ generatedNameBaseLimit ∧
      (∀ b ∈ reportNamePrefix podName containerName, alphanumeric b = true ∨ b ∈ [dash, dot]) ∧
      (reportNamePrefix podName containerName).head?.any alphanumeric = true ∧
      (∃ front last, reportNamePrefix podName containerName = front ++ [last, dash] ∧
        alphanumeric last = true) ∧
      (Subdomain podName → Label containerName →
        ∀ suffix : GoString, suffix.length = 5 → (∀ b ∈ suffix, alphanumeric b = true) →
          Subdomain (reportNamePrefix podName containerName ++ suffix) ∧
            (reportNamePrefix podName containerName ++ suffix).length ≤ 63) := by
  obtain ⟨front, shape, framed, letters, short, dotted⟩ :=
    reportNamePrefix_shape podName containerName
  have limit : generatedNameBaseLimit = 58 := rfl
  rw [shape]
  refine ⟨?_, ?_, ?_, ?_, ?_⟩
  · rw [List.length_append, List.length_singleton]
    omega
  · intro b member
    rw [List.mem_append, List.mem_singleton] at member
    rcases member with inside | rfl
    · exact letters b inside
    · exact .inr List.mem_cons_self
  · rw [List.head?_append_of_ne_nil _ framed.ne_nil]
    exact framed.first
  · refine ⟨front.dropLast, front.getLast framed.ne_nil, ?_, ?_⟩
    · conv_lhs => rw [← List.dropLast_append_getLast framed.ne_nil]
      rw [List.append_assoc, List.singleton_append]
    · exact framed.edge_last (List.getLast?_eq_some_getLast framed.ne_nil)
  · intro pod container suffix five generated
    have nonempty : suffix ≠ [] := List.ne_nil_of_length_pos (by omega)
    have part : Part suffix :=
      ⟨framed_of_forall nonempty generated, fun b member => .inl (generated b member)⟩
    have name : Dotted (front ++ [dash] ++ suffix) :=
      (dotted (dotted_iff.1 pod.1) container.1.dotted).join part.dotted
    have total : (front ++ [dash] ++ suffix).length ≤ 63 := by
      simp only [List.length_append, List.length_singleton]
      omega
    exact ⟨⟨dotted_iff.2 name, by omega⟩, total⟩

theorem reportNamePrefix_accepted_web :
    Subdomain (lit "web.0") ∧ Label (lit "app") ∧
      Subdomain (reportNamePrefix (lit "web.0") (lit "app") ++ lit "x7f2q") :=
  ⟨by decide, by decide,
    ((reportNamePrefix_accepted (lit "web.0") (lit "app")).2.2.2.2 (by decide) (by decide)
      (lit "x7f2q") (by decide) (List.all_eq_true.1 (by decide))).1⟩

example : reportNamePrefix (lit "Web.0-") (lit "app") = lit "web.0--app-" := by decide

/-! ## Label values -/

theorem labelValue_eq (s : GoString) :
    labelValue s =
      ((((runes s).map fun r => keepByte valueRune r).take maxLabelValueLength).dropWhile
        (· ∈ [dash, underscore, dot])).rdropWhile (· ∈ [dash, underscore, dot]) := by
  rw [← truncate_eq_take]
  rfl

theorem labelValue_labelValue (s : GoString) : LabelValue (labelValue s) := by
  have written : ∀ b ∈ ((runes s).map fun r => keepByte valueRune r).take maxLabelValueLength,
      anyAlphanumeric b = true ∨ b ∈ [dash, underscore, dot] := fun b member =>
    valueRune_keeps.map_letters s id b (List.mem_of_mem_take member)
  rw [labelValue_eq]
  refine (trim_framed (valueKinds written)).imp_right fun framed => ⟨framed, ?_, ?_⟩
  · intro b member
    exact written b ((List.dropWhile_suffix _).subset ((List.rdropWhile_prefix _ _).subset member))
  · exact (List.rdropWhile_prefix _ _).length_le.trans
      ((List.dropWhile_suffix _).length_le.trans (List.length_take_le _ _))

theorem labelValue_eq_self {s : GoString} (value : LabelValue s) : labelValue s = s := by
  rcases value with rfl | ⟨framed, letters, short⟩
  · rfl
  · have same : (runes s).map (fun r => keepByte valueRune r) = s :=
      valueRune_keeps.map_eq_self letters fun _ _ => rfl
    have whole : s.take maxLabelValueLength = s := List.take_of_length_le short
    rw [labelValue_eq, same, whole]
    exact framed.trim_eq (valueKinds letters)

/-- **Label values are accepted**, and one that is accepted already is not changed. -/
theorem labelValue_accepted (s : GoString) :
    LabelValue (labelValue s) ∧ labelValue (labelValue s) = labelValue s ∧
      (LabelValue s → labelValue s = s) :=
  ⟨labelValue_labelValue s, labelValue_eq_self (labelValue_labelValue s), labelValue_eq_self⟩

theorem labelValue_accepted_release :
    LabelValue (lit "v1.2_rc-3") ∧ labelValue (lit "v1.2_rc-3") = lit "v1.2_rc-3" :=
  ⟨by decide, (labelValue_accepted (lit "v1.2_rc-3")).2.2 (by decide)⟩

example : labelValue (lit "_a b_") = lit "a-b" := by decide

end KubeAutopsy.Agent
