/-
# KubeAutopsy.Agent.LogTruncate — the bounds on what a report carries of a log

`truncateLines` of `internal/agent/logcapture.go`.  What it returns is within the limits of
the schema whatever it is given (`truncateLines_bounds`).

Two limits make it drop lines.  The limit on their number drops the oldest.  The limit on
their bytes ends the loop over them, which goes from the oldest to the newest, so it drops
the newest: these survive exactly when the lines within the first limit fit the second
(`truncateLines_newest_iff`).  Equal texts do not say which line was kept, so that is stated
of a run that keeps each line's number (`truncateEntries`), whose texts are what the code
returns (`truncateEntries_text`).
-/
import KubeAutopsy.Agent.LogTail
import KubeAutopsy.Theory.Utf8

namespace KubeAutopsy.Agent

open KubeAutopsy.Theory.Bytes (GoString lit)
open KubeAutopsy.Theory.Utf8

set_option autoImplicit false

/-! ## The code -/

def maxLogTotalBytes : Nat := 64 * 1024

def truncationMarker : GoString := lit "…[truncated]"

/-- `autopsy.MaxLogLines`. -/
def maxLogLines : Nat := 200

/-- The loop of `trimToValidUTF8`: back to a byte that starts a rune. -/
def runeLimit (s : GoString) : Nat → Nat
  | 0 => 0
  | limit + 1 => if s[limit + 1]?.any (!runeStart ·) then runeLimit s limit else limit + 1

def trimToValidUTF8 (s : GoString) (limit : Nat) : GoString :=
  if s.length ≤ limit then s else s.take (runeLimit s limit)

/-- A line as it is kept. -/
def shorten (line : GoString) : GoString :=
  if line.length > maxLogLineBytes then trimToValidUTF8 line maxLogLineBytes ++ truncationMarker
  else line

/-- The loop over the lines. -/
def fill (budget : Nat) : Nat → List GoString → List GoString
  | _, [] => []
  | total, line :: lines =>
      if total + (shorten line).length > budget then [truncationMarker]
      else shorten line :: fill budget (total + (shorten line).length) lines

section Limits

variable {α : Type}

def dropped (lines : List α) : Bool := decide (lines.length > maxLogLines)

def recent (lines : List α) : List α :=
  if dropped lines then lines.drop (lines.length - (maxLogLines - 1)) else lines

/-- Room is reserved for the marker that stands for dropped lines. -/
def budget (lines : List α) : Nat :=
  if dropped lines then maxLogTotalBytes - truncationMarker.length else maxLogTotalBytes

end Limits

def truncateLines (lines : List GoString) : List GoString :=
  if lines.length = 0 then lines
  else if dropped lines then truncationMarker :: fill (budget lines) 0 (recent lines)
  else fill (budget lines) 0 (recent lines)

/-! ## The same run with the numbers of the lines -/

inductive OutputLine where
  | line (index : Nat) (text : GoString)
  | marker
  deriving DecidableEq, Repr

def OutputLine.text : OutputLine → GoString
  | .line _ text => text
  | .marker => truncationMarker

def OutputLine.index : OutputLine → Option Nat
  | .line index _ => some index
  | .marker => none

/-- A line that is kept. -/
def keep (line : GoString × Nat) : OutputLine := .line line.2 (shorten line.1)

def fillEntries (budget : Nat) : Nat → List (GoString × Nat) → List OutputLine
  | _, [] => []
  | total, line :: lines =>
      if total + (shorten line.1).length > budget then [.marker]
      else keep line :: fillEntries budget (total + (shorten line.1).length) lines

def truncateEntries (lines : List GoString) : List OutputLine :=
  if lines.length = 0 then []
  else if dropped lines then .marker :: fillEntries (budget lines) 0 (recent lines.zipIdx)
  else fillEntries (budget lines) 0 (recent lines.zipIdx)

theorem fillEntries_text (budget total : Nat) (lines : List (GoString × Nat)) :
    (fillEntries budget total lines).map OutputLine.text = fill budget total (lines.map Prod.fst) := by
  induction lines generalizing total with
  | nil => rfl
  | cons line lines ih =>
      by_cases full : total + (shorten line.1).length > budget
      · simp [fillEntries, fill, if_pos full, OutputLine.text]
      · simp [fillEntries, fill, if_neg full, ih, keep, OutputLine.text]

theorem recent_zipIdx (lines : List GoString) : (recent lines.zipIdx).map Prod.fst = recent lines := by
  have texts : lines.zipIdx.map Prod.fst = lines := by simp
  unfold recent dropped
  rw [List.length_zipIdx]
  split
  · rw [List.map_drop, texts]
  · exact texts

theorem truncateEntries_text (lines : List GoString) :
    (truncateEntries lines).map OutputLine.text = truncateLines lines := by
  unfold truncateEntries truncateLines
  by_cases empty : lines.length = 0
  · rw [if_pos empty, if_pos empty, List.length_eq_zero_iff.1 empty]
    rfl
  · rw [if_neg empty, if_neg empty]
    split
    · rw [List.map_cons, fillEntries_text, recent_zipIdx]
      rfl
    · rw [fillEntries_text, recent_zipIdx]

/-! ## Shortened lines -/

theorem truncationMarker_length : truncationMarker.length = 14 := by decide +kernel

theorem runeLimit_le (s : GoString) (limit : Nat) : runeLimit s limit ≤ limit := by
  induction limit with
  | zero => exact Nat.le_refl 0
  | succ limit ih =>
      rw [runeLimit]
      split <;> omega

theorem runeLimit_aligned {s : GoString} {limit : Nat} (inside : limit < s.length) :
    Aligned s (runeLimit s limit) := by
  induction limit with
  | zero => exact .inl rfl
  | succ limit ih =>
      rw [runeLimit]
      split
      · exact ih (by omega)
      · rename_i starts
        rw [List.getElem?_eq_getElem inside, Option.any_some] at starts
        refine .inr (.inr ⟨s[limit + 1], List.getElem?_eq_getElem inside, ?_⟩)
        simpa using starts

theorem runeLimit_longest {s : GoString} {limit n : Nat} (inside : limit < s.length)
    (short : n ≤ limit) (aligned : Aligned s n) : n ≤ runeLimit s limit := by
  induction limit with
  | zero => omega
  | succ limit ih =>
      rw [runeLimit]
      split
      · rename_i continuing
        by_cases here : n = limit + 1
        · subst here
          rcases aligned with zero | whole | ⟨b, found, starts⟩
          · omega
          · omega
          · rw [found, Option.any_some, starts] at continuing
            cases continuing
        · exact ih (by omega) (by omega)
      · exact short

/-- The longest start of a string within a limit that ends where the string may be cut. -/
structure LongestAligned (limit : Nat) (s head : GoString) : Prop where
  starts : head <+: s
  within : head.length ≤ limit
  aligned : Aligned s head.length
  longest : ∀ n ≤ limit, Aligned s n → n ≤ head.length

theorem trimToValidUTF8_spec {s : GoString} {limit : Nat} (long : limit < s.length) :
    LongestAligned limit s (trimToValidUTF8 s limit) := by
  have short : runeLimit s limit ≤ limit := runeLimit_le s limit
  have length : (s.take (runeLimit s limit)).length = runeLimit s limit := by
    rw [List.length_take]
    omega
  rw [trimToValidUTF8, if_neg (by omega)]
  refine ⟨List.take_prefix _ _, by omega, ?_, ?_⟩
  · rw [length]
    exact runeLimit_aligned long
  · intro n within aligned
    rw [length]
    exact runeLimit_longest long within aligned

/-- What a line becomes: itself, or the longest start of it that is short enough, and the
marker. -/
theorem shorten_spec (line : GoString) :
    (line.length ≤ maxLogLineBytes ∧ shorten line = line) ∨
      (maxLogLineBytes < line.length ∧
        ∃ head, LongestAligned maxLogLineBytes line head ∧ shorten line = head ++ truncationMarker) := by
  by_cases long : line.length > maxLogLineBytes
  · exact .inr ⟨long, _, trimToValidUTF8_spec long, if_pos long⟩
  · exact .inl ⟨by omega, if_neg long⟩

theorem shorten_length (line : GoString) :
    (shorten line).length ≤ maxLogLineBytes + truncationMarker.length := by
  rcases shorten_spec line with ⟨short, same⟩ | ⟨-, head, longest, same⟩
  · rw [same]
    omega
  · have := longest.within
    rw [same, List.length_append]
    omega

theorem shorten_valid {line : GoString} (valid : Valid line) : Valid (shorten line) := by
  rcases shorten_spec line with ⟨-, same⟩ | ⟨-, head, longest, same⟩
  · rwa [same]
  · rw [same]
    refine Valid.append ?_ (valid_lit _)
    rw [List.prefix_iff_eq_take.1 longest.starts]
    exact valid.take longest.aligned

/-! ## How far the loop comes -/

/-- The bytes of lines as they are kept. -/
def size (lines : List GoString) : Nat := (lines.map fun line => (shorten line).length).sum

theorem size_cons (line : GoString) (lines : List GoString) :
    size (line :: lines) = (shorten line).length + size lines := by
  simp [size]

/-- **The loop keeps the lines up to the first that does not fit.** -/
theorem fillEntries_spec {budget total : Nat} (within : total ≤ budget)
    (lines : List (GoString × Nat)) :
    ∃ m ≤ lines.length,
      fillEntries budget total lines =
        (lines.take m).map keep ++ (if m < lines.length then [.marker] else []) ∧
      total + size ((lines.take m).map Prod.fst) ≤ budget ∧
      (m < lines.length ↔ budget < total + size (lines.map Prod.fst)) := by
  induction lines generalizing total with
  | nil => exact ⟨0, Nat.le_refl 0, rfl, by simpa [size] using within, by simp [size, within]⟩
  | cons line lines ih =>
      rw [List.map_cons, size_cons]
      by_cases full : total + (shorten line.1).length > budget
      · refine ⟨0, by simp, ?_, by simpa [size] using within, ?_⟩
        · simp [fillEntries, if_pos full]
        · simp only [List.length_cons]
          omega
      · obtain ⟨m, inside, same, fits, cut⟩ := ih (Nat.not_lt.1 full)
        refine ⟨m + 1, by simpa using inside, ?_, ?_, ?_⟩
        · rw [fillEntries, if_neg full, same]
          simp
        · rw [List.take_succ_cons, List.map_cons, size_cons]
          omega
        · rw [List.length_cons]
          omega

/-! ## What is returned -/

/-- The marker for dropped lines, if there are any. -/
def markerIf {α : Type} (marker : α) (present : Prop) [Decidable present] : List α :=
  if present then [marker] else []

theorem recent_eq_drop {α : Type} (lines : List α) :
    recent lines = lines.drop (lines.length - (recent lines).length) := by
  unfold recent
  split
  · rename_i long
    have := of_decide_eq_true long
    rw [List.length_drop, Nat.sub_sub_self]
    omega
  · simp

theorem recent_length {α : Type} (lines : List α) :
    (recent lines).length = if dropped lines then maxLogLines - 1 else lines.length := by
  unfold recent
  split
  · rename_i long
    have := of_decide_eq_true long
    rw [List.length_drop]
    omega
  · rfl

theorem length_le_of_not_dropped {α : Type} {lines : List α} (kept : ¬ dropped lines = true) :
    lines.length ≤ maxLogLines := by
  simpa [dropped] using kept

theorem length_recent_zipIdx (lines : List GoString) :
    (recent lines.zipIdx).length = (recent lines).length := by
  rw [← recent_zipIdx lines, List.length_map]

/-- **The run, told by how many of the recent lines it keeps.** -/
theorem truncateEntries_eq (lines : List GoString) :
    ∃ m ≤ (recent lines).length,
      truncateEntries lines = markerIf .marker (dropped lines = true) ++
        ((recent lines.zipIdx).take m).map keep ++ markerIf .marker (m < (recent lines).length) ∧
      size ((recent lines).take m) ≤ budget lines ∧
      (m < (recent lines).length ↔ budget lines < size (recent lines)) := by
  have texts := recent_zipIdx lines
  have length := length_recent_zipIdx lines
  obtain ⟨m, inside, same, fits, cut⟩ :=
    fillEntries_spec (Nat.zero_le (budget lines)) (recent lines.zipIdx)
  rw [List.map_take, texts, Nat.zero_add] at fits
  rw [texts, Nat.zero_add] at cut
  rw [length] at inside same cut
  refine ⟨m, inside, ?_, fits, cut⟩
  unfold truncateEntries markerIf
  by_cases empty : lines.length = 0
  · obtain rfl := List.length_eq_zero_iff.1 empty
    obtain rfl : m = 0 := by simpa [recent, dropped] using inside
    rfl
  · rw [if_neg empty, same]
    split <;> simp

theorem truncateLines_eq (lines : List GoString) :
    ∃ m ≤ (recent lines).length,
      truncateLines lines = markerIf truncationMarker (dropped lines = true) ++
        ((recent lines).take m).map shorten ++ markerIf truncationMarker (m < (recent lines).length) ∧
      size ((recent lines).take m) ≤ budget lines ∧
      (m < (recent lines).length ↔ budget lines < size (recent lines)) := by
  obtain ⟨m, inside, same, fits, cut⟩ := truncateEntries_eq lines
  have marker : ∀ (present : Prop) [Decidable present],
      (markerIf .marker present).map OutputLine.text = markerIf truncationMarker present := by
    intro present _
    unfold markerIf
    split <;> rfl
  have kept : (((recent lines.zipIdx).take m).map keep).map OutputLine.text =
      ((recent lines).take m).map shorten := by
    rw [← recent_zipIdx lines, ← List.map_take, List.map_map, List.map_map]
    rfl
  refine ⟨m, inside, ?_, fits, cut⟩
  rw [← truncateEntries_text, same, List.map_append, List.map_append, marker, marker, kept]

theorem markerIf_length {α : Type} (marker : α) (present : Prop) [Decidable present] :
    (markerIf marker present).length = if present then 1 else 0 := by
  unfold markerIf
  split <;> rfl

theorem mem_markerIf {α : Type} {marker entry : α} {present : Prop} [Decidable present]
    (member : entry ∈ markerIf marker present) : entry = marker := by
  unfold markerIf at member
  split at member
  · exact List.mem_singleton.1 member
  · cases member

theorem markerIf_cases {α : Type} (marker : α) (present : Prop) [Decidable present] :
    markerIf marker present = [] ∨ markerIf marker present = [marker] := by
  unfold markerIf
  split
  · exact .inr rfl
  · exact .inl rfl

/-- The bytes of entries. -/
def bytes (entries : List GoString) : Nat := (entries.map List.length).sum

theorem bytes_append (front back : List GoString) : bytes (front ++ back) = bytes front + bytes back := by
  simp [bytes]

theorem bytes_shorten (lines : List GoString) : bytes (lines.map shorten) = size lines := by
  rw [bytes, size, List.map_map]
  rfl

theorem bytes_markerIf (present : Prop) [Decidable present] :
    bytes (markerIf truncationMarker present) = if present then truncationMarker.length else 0 := by
  unfold markerIf
  split <;> simp [bytes]

/-- What an entry may be of a line. -/
def Shortened (entry line : GoString) : Prop :=
  entry = line ∨ ∃ head, head <+: line ∧ head.length ≤ maxLogLineBytes ∧ entry = head ++ truncationMarker

theorem shorten_shortened (line : GoString) : Shortened (shorten line) line := by
  rcases shorten_spec line with ⟨-, same⟩ | ⟨-, head, longest, same⟩
  · exact .inl same
  · exact .inr ⟨head, longest.starts, longest.within, same⟩

theorem mem_truncateLines {lines : List GoString} {entry : GoString}
    (member : entry ∈ truncateLines lines) :
    entry = truncationMarker ∨ ∃ line ∈ lines, entry = shorten line := by
  obtain ⟨m, -, same, -, -⟩ := truncateLines_eq lines
  rw [same, List.mem_append, List.mem_append] at member
  rcases member with (front | kept) | back
  · exact .inl (mem_markerIf front)
  · obtain ⟨line, inside, rfl⟩ := List.mem_map.1 kept
    refine .inr ⟨line, ?_, rfl⟩
    have late : line ∈ recent lines := List.mem_of_mem_take inside
    rw [recent_eq_drop] at late
    exact List.mem_of_mem_drop late
  · exact .inl (mem_markerIf back)

theorem truncateLines_valid {lines : List GoString} (valid : ∀ line ∈ lines, Valid line) :
    ∀ entry ∈ truncateLines lines, Valid entry := by
  intro entry member
  rcases mem_truncateLines member with rfl | ⟨line, inside, rfl⟩
  · exact valid_lit _
  · exact shorten_valid (valid line inside)

theorem size_of_short {lines : List GoString} (short : ∀ line ∈ lines, line.length ≤ maxLogLineBytes) :
    lines.map shorten = lines ∧ size lines = bytes lines := by
  have same : lines.map shorten = lines := by
    conv_rhs => rw [← List.map_id lines]
    apply List.map_congr_left
    intro line member
    exact if_neg (Nat.not_lt.2 (short line member))
  refine ⟨same, ?_⟩
  rw [← bytes_shorten, same]

/-! ### Within the bounds -/

/-- The marker in front takes the place of the one line dropped beyond the limit. -/
theorem length_truncateLines_le (lines : List GoString) :
    (truncateLines lines).length ≤ maxLogLines := by
  obtain ⟨m, inside, same, -⟩ := truncateLines_eq lines
  have count := recent_length lines
  have limit : maxLogLines = 200 := rfl
  rw [same, List.length_append, List.length_append, markerIf_length, markerIf_length,
    List.length_map, List.length_take]
  by_cases long : dropped lines = true
  · rw [if_pos long] at count ⊢
    split <;> omega
  · have := length_le_of_not_dropped long
    rw [if_neg long] at count ⊢
    split <;> omega

theorem length_le_of_mem_truncateLines {lines : List GoString} {entry : GoString}
    (member : entry ∈ truncateLines lines) :
    entry.length ≤ maxLogLineBytes + truncationMarker.length := by
  rcases mem_truncateLines member with rfl | ⟨line, -, rfl⟩
  · omega
  · exact shorten_length line

theorem marker_add_budget (lines : List GoString) :
    (if dropped lines = true then truncationMarker.length else 0) + budget lines =
      maxLogTotalBytes := by
  unfold budget
  split
  · decide +kernel
  · exact Nat.zero_add _

theorem bytes_truncateLines_le (lines : List GoString) :
    bytes (truncateLines lines) ≤ maxLogTotalBytes + truncationMarker.length := by
  obtain ⟨m, inside, same, fits, -⟩ := truncateLines_eq lines
  have room := marker_add_budget lines
  have back : (if m < (recent lines).length then truncationMarker.length else 0) ≤
      truncationMarker.length := by
    split
    · exact Nat.le_refl _
    · exact Nat.zero_le _
  rw [same, bytes_append, bytes_append, bytes_markerIf, bytes_markerIf, bytes_shorten]
  omega

theorem truncateLines_of_small {lines : List GoString} (few : lines.length ≤ maxLogLines)
    (short : ∀ line ∈ lines, line.length ≤ maxLogLineBytes) (small : bytes lines ≤ maxLogTotalBytes) :
    truncateLines lines = lines := by
  obtain ⟨m, inside, same, -, cut⟩ := truncateLines_eq lines
  have all : ¬ dropped lines = true := by
    simpa [dropped] using few
  obtain ⟨unchanged, total⟩ := size_of_short short
  have whole : recent lines = lines := if_neg all
  have enough : budget lines = maxLogTotalBytes := if_neg all
  rw [whole] at inside same cut
  have complete : ¬ m < lines.length := by
    rw [cut]
    omega
  rw [same, markerIf, if_neg all, markerIf, if_neg complete, List.take_of_length_le (by omega),
    unchanged]
  simp

/-- **Within the bounds, whatever is given.**  What is kept is a run of the lines, each
unchanged or cut, and valid lines stay valid; lines that are within the bounds are returned
as they are. -/
theorem truncateLines_bounds (lines : List GoString) :
    (truncateLines lines).length ≤ maxLogLines ∧
    (∀ entry ∈ truncateLines lines,
      entry.length ≤ maxLogLineBytes + truncationMarker.length ∧ entry.length ≤ 4096) ∧
    bytes (truncateLines lines) ≤ maxLogTotalBytes + truncationMarker.length ∧
    (∃ front kept back j m, truncateLines lines = front ++ kept ++ back ∧
      (front = [] ∨ front = [truncationMarker]) ∧ (back = [] ∨ back = [truncationMarker]) ∧
      List.Forall₂ Shortened kept ((lines.drop j).take m)) ∧
    ((∀ line ∈ lines, Valid line) → ∀ entry ∈ truncateLines lines, Valid entry) ∧
    (lines.length ≤ maxLogLines → (∀ line ∈ lines, line.length ≤ maxLogLineBytes) →
      bytes lines ≤ maxLogTotalBytes → truncateLines lines = lines) := by
  refine ⟨length_truncateLines_le lines, ?_, bytes_truncateLines_le lines, ?_, truncateLines_valid,
    truncateLines_of_small⟩
  · intro entry member
    have short := length_le_of_mem_truncateLines member
    have limit : maxLogLineBytes + truncationMarker.length ≤ 4096 := by decide +kernel
    exact ⟨short, Nat.le_trans short limit⟩
  · obtain ⟨m, -, same, -, -⟩ := truncateLines_eq lines
    refine ⟨_, _, _, lines.length - (recent lines).length, m, same, markerIf_cases _ _,
      markerIf_cases _ _, ?_⟩
    rw [← recent_eq_drop, List.forall₂_map_left_iff, List.forall₂_same]
    exact fun line _ => shorten_shortened line

/-- Lines of one width. -/
def wideLines (n width : Nat) : List GoString := List.replicate n (List.replicate width 121)

theorem wideLines_length {n width : Nat} : ∀ line ∈ wideLines n width, line.length = width := by
  intro line member
  rw [List.eq_of_mem_replicate member, List.length_replicate]

theorem wideLines_valid {n width : Nat} : ∀ line ∈ wideLines n width, Valid line := by
  intro line member
  refine ⟨List.replicate width 'y', ?_⟩
  rw [List.eq_of_mem_replicate member, List.flatMap_replicate]
  have letter : String.utf8EncodeChar 'y' = [121] := by decide
  rw [letter, List.flatten_replicate_singleton]

theorem bytes_wideLines (n width : Nat) : bytes (wideLines n width) = n * width := by
  rw [bytes, wideLines, List.map_replicate, List.sum_replicate, List.length_replicate, smul_eq_mul]

/-- 33 lines as long as a line may be are over the limit on bytes, and what comes back is not. -/
theorem truncateLines_bounds_wide :
    maxLogTotalBytes + truncationMarker.length < bytes (wideLines 33 2048) ∧
      bytes (truncateLines (wideLines 33 2048)) ≤ maxLogTotalBytes + truncationMarker.length ∧
      ∀ entry ∈ truncateLines (wideLines 33 2048), Valid entry := by
  obtain ⟨-, -, small, -, valid, -⟩ := truncateLines_bounds (wideLines 33 2048)
  refine ⟨?_, small, valid wideLines_valid⟩
  rw [bytes_wideLines]
  decide +kernel

/-! ## The newest lines -/

/-- What has become of the newest line. -/
structure Newest (line text : GoString) : Prop where
  short : line.length ≤ maxLogLineBytes → text = line
  long : maxLogLineBytes < line.length →
    ∃ head, LongestAligned maxLogLineBytes line head ∧ text = head ++ truncationMarker

theorem newest_shorten (line : GoString) : Newest line (shorten line) := by
  rcases shorten_spec line with ⟨short, same⟩ | ⟨long, cut⟩
  · exact ⟨fun _ => same, fun other => absurd other (Nat.not_lt.2 short)⟩
  · exact ⟨fun other => absurd long (Nat.not_lt.2 other), fun _ => cut⟩

/-- The newest line is the last entry, and what is missing are the oldest lines. -/
structure NewestKept (lines : List GoString) (entries : List OutputLine) : Prop where
  last : ∃ line text, lines.getLast? = some line ∧
    entries.getLast? = some (.line (lines.length - 1) text) ∧ Newest line text
  oldest : ∃ k, entries.filterMap OutputLine.index = List.range' k (lines.length - k)

/-- Lines that do not fit end with the marker. -/
theorem truncateEntries_full {lines : List GoString} (full : budget lines < size (recent lines)) :
    (truncateEntries lines).getLast? = some .marker := by
  obtain ⟨m, -, same, -, cut⟩ := truncateEntries_eq lines
  have marker : markerIf OutputLine.marker (m < (recent lines).length) = [.marker] :=
    if_pos (cut.2 full)
  rw [same, marker, List.getLast?_concat]

/-- Lines that fit are all there. -/
theorem truncateEntries_fits {lines : List GoString} (fits : size (recent lines) ≤ budget lines) :
    truncateEntries lines = markerIf .marker (dropped lines = true) ++
      (lines.zipIdx.drop (lines.length - (recent lines).length)).map keep := by
  obtain ⟨m, inside, same, -, cut⟩ := truncateEntries_eq lines
  have complete : ¬ m < (recent lines).length := by
    rw [cut]
    omega
  have length := length_recent_zipIdx lines
  have all : (recent lines.zipIdx).take m = recent lines.zipIdx := List.take_of_length_le (by omega)
  have marker : markerIf OutputLine.marker (m < (recent lines).length) = [] := if_neg complete
  rw [same, all, marker, List.append_nil, recent_eq_drop lines.zipIdx, length, List.length_zipIdx]

theorem not_newestKept {lines : List GoString} (full : budget lines < size (recent lines)) :
    ¬ NewestKept lines (truncateEntries lines) := by
  rintro ⟨⟨line, text, -, last, -⟩, -⟩
  rw [truncateEntries_full full] at last
  cases last

theorem newestKept_of_fits {lines : List GoString} (nonempty : lines ≠ [])
    (fits : size (recent lines) ≤ budget lines) : NewestKept lines (truncateEntries lines) := by
  have some_line : 0 < lines.length := List.length_pos_iff.2 nonempty
  have some_recent : 0 < (recent lines).length := by
    rw [recent_length]
    split
    · decide
    · exact some_line
  rw [truncateEntries_fits fits]
  constructor
  · have last := List.getLast?_eq_some_getLast nonempty
    refine ⟨lines.getLast nonempty, _, last, ?_, newest_shorten _⟩
    rw [List.getLast?_append, List.getLast?_map, List.getLast?_drop, List.length_zipIdx,
      if_neg (by omega), List.getLast?_zipIdx, last, Nat.zero_add]
    rfl
  · refine ⟨lines.length - (recent lines).length, ?_⟩
    have front :
        (markerIf OutputLine.marker (dropped lines = true)).filterMap OutputLine.index = [] := by
      rcases markerIf_cases OutputLine.marker (dropped lines = true) with none | one
      · rw [none]
        rfl
      · rw [one]
        rfl
    have indices : ∀ kept : List (GoString × Nat),
        (kept.map keep).filterMap OutputLine.index = kept.map Prod.snd := by
      intro kept
      rw [List.filterMap_map, ← List.filterMap_eq_map]
      rfl
    rw [List.filterMap_append, front, List.nil_append, indices, List.map_drop, List.zipIdx_map_snd,
      List.drop_range', Nat.zero_add, Nat.mul_one]

/-- **The newest lines are kept if they fit.**  Of the lines within the limit on their
number, either all fit the limit on bytes, and the newest is the last entry; or it is not. -/
theorem truncateLines_newest_iff (lines : List GoString) (nonempty : lines ≠ []) :
    (truncateEntries lines).map OutputLine.text = truncateLines lines ∧
      (NewestKept lines (truncateEntries lines) ↔ size (recent lines) ≤ budget lines) := by
  refine ⟨truncateEntries_text lines, ?_⟩
  constructor
  · intro kept
    by_contra full
    exact not_newestKept (Nat.lt_of_not_le full) kept
  · exact newestKept_of_fits nonempty

theorem truncateLines_newest_iff_short :
    NewestKept [lit "starting", lit "Killed"] (truncateEntries [lit "starting", lit "Killed"]) :=
  (truncateLines_newest_iff [lit "starting", lit "Killed"] (by decide)).2.2 (by decide +kernel)

theorem size_wideLines {n width : Nat} (short : width ≤ maxLogLineBytes) :
    size (wideLines n width) = n * width := by
  have lines : ∀ line ∈ wideLines n width, line.length ≤ maxLogLineBytes :=
    fun line member => (wideLines_length line member).trans_le short
  rw [(size_of_short lines).2, bytes_wideLines]

theorem wideLines_full {n width : Nat} (few : n ≤ maxLogLines) (short : width ≤ maxLogLineBytes)
    (large : maxLogTotalBytes < n * width) :
    budget (wideLines n width) < size (recent (wideLines n width)) := by
  have all : ¬ dropped (wideLines n width) = true := by
    simpa [dropped, wideLines] using few
  rw [budget, if_neg all, recent, if_neg all, size_wideLines short]
  exact large

/-- Of 33 lines as long as a line may be, the last entry is not the newest but the marker. -/
theorem wideLines_newest_lost :
    (truncateLines (wideLines 33 2048)).getLast? = some truncationMarker ∧
      (wideLines 33 2048).getLast? = some (List.replicate 2048 121) ∧
      ¬ NewestKept (wideLines 33 2048) (truncateEntries (wideLines 33 2048)) := by
  have full := wideLines_full (n := 33) (by decide) (Nat.le_refl maxLogLineBytes) (by decide)
  refine ⟨?_, ?_, not_newestKept full⟩
  · rw [← truncateEntries_text, List.getLast?_map]
    exact congrArg (Option.map OutputLine.text) (truncateEntries_full full)
  · rw [wideLines, List.getLast?_replicate]
    rfl

end KubeAutopsy.Agent
