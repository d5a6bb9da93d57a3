/-
# KubeAutopsy.Agent.LogText — what of a log ends up in a report is valid text

`CaptureLogTail` of `internal/agent/logcapture.go`: the tail of a log file, parsed and
truncated.  Parsing and truncating keep valid UTF-8 valid (`parseLogLines_valid`,
`truncateLines_valid`).  The tail of a valid file does too, except where the loop stops
within a character of a line that is all it has seen: that fragment is kept, and it starts
in the middle of a character (`captured_valid_iff`).  With no such place in the files an
attempt finds, what it captures is valid (`LogCapturer.attempt_valid`).
-/
import KubeAutopsy.Agent.LogAttempts
import KubeAutopsy.Agent.LogFraming

namespace KubeAutopsy.Agent

open KubeAutopsy.Api
open KubeAutopsy.Api.Files
open KubeAutopsy.Theory.Bytes (GoString lit itoa cut eq_of_cut)
open KubeAutopsy.Theory.Fragments
open KubeAutopsy.Theory.Lines
open KubeAutopsy.Theory.Slices
open KubeAutopsy.Theory.Utf8

set_option autoImplicit false

/-! ## Parsing -/

theorem trimSuffix_newline_valid {s : GoString} (valid : Valid s) : Valid (trimSuffix s (lit "\n")) := by
  unfold trimSuffix
  split
  · rename_i ends
    obtain ⟨front, rfl⟩ := ends
    rw [List.length_append, Nat.add_sub_cancel, List.take_left]
    have shape : front ++ lit "\n" = front ++ 10 :: [] := by rfl
    rw [shape] at valid
    exact (valid.around (by decide)).1
  · exact valid

theorem cut_space_valid {s before after : GoString} (valid : Valid s)
    (found : cut (lit " ") s = some (before, after)) : Valid before ∧ Valid after := by
  rw [eq_of_cut found, spaceByte] at valid
  exact valid.around (by decide)

theorem cutAfter_space_valid {s : GoString} (valid : Valid s) : Valid (cutAfter (lit " ") s) := by
  unfold cutAfter
  split
  · rename_i found
    exact (cut_space_valid valid found).2
  · exact valid_nil

theorem parseCRILogLine_valid {d : Decoders} {line : GoString} {cri : CRILogLine} (valid : Valid line)
    (parsed : parseCRILogLine d line = some cri) : Valid cri.message := by
  obtain ⟨timestamp, rest, behind, first, second, message, -, -⟩ := parseCRILogLine_eq_some parsed
  rw [message]
  exact cutAfter_space_valid (cut_space_valid (cut_space_valid valid first).2 second).2

theorem parseDockerLogLine_valid {d : Decoders} {line log : GoString}
    (parsed : parseDockerLogLine d line = some log) : Valid log := by
  unfold parseDockerLogLine at parsed
  split at parsed
  · cases parsed
  split at parsed
  · cases parsed
  rename_i entry found
  split at parsed
  · cases parsed
  split at parsed
  · cases parsed
  rename_i text present
  obtain rfl := Option.some.inj parsed
  exact trimSuffix_newline_valid (d.unmarshal_valid line entry text found present)

theorem classify_valid (d : Decoders) {line : GoString} (valid : Valid line) :
    Valid (classify d line).text := by
  unfold classify
  cases docker : parseDockerLogLine d line with
  | some log => exact parseDockerLogLine_valid docker
  | none =>
      cases found : parseCRILogLine d line with
      | none => exact valid
      | some cri => exact parseCRILogLine_valid valid found

/-- **Parsing keeps valid lines valid.** -/
theorem parseLogLines_valid (d : Decoders) {raw : List GoString} (valid : ∀ line ∈ raw, Valid line) :
    ∀ line ∈ parseLogLines d raw, Valid line := by
  intro line member
  rw [parseLogLines_eq] at member
  obtain ⟨out, inside, rfl⟩ := List.mem_map.1 member
  have text : out.2 ∈ textsOf out.1 (parsed d raw) :=
    List.mem_map.2 ⟨out, List.mem_filter.2 ⟨inside, by simp⟩, rfl⟩
  rw [textsOf_parsed] at text
  refine groups_closed valid_nil (fun s t => Valid.append) (by simp) ?_ out.2 text
  intro piece belongs
  obtain ⟨p, among, rfl⟩ := List.mem_map.1 belongs
  obtain ⟨line, given, rfl⟩ := List.mem_map.1 (List.mem_filter.1 among).1
  exact classify_valid d (valid line given)

/-! ## The tail of a valid file -/

/-- The place where the loop stops at its limit is within a character, and from there on
the file is one line. -/
structure CutsRune (n : Nat) (content : GoString) : Prop where
  long : readLimit n < content.length
  alone : newline ∉ (content.drop (content.length - readLimit n)).dropLast
  continues : ∃ b, content[content.length - readLimit n]? = some b ∧ runeStart b = false

theorem readLimit_large (n : Nat) : 8192 ≤ readLimit n := by
  unfold readLimit readCap tailChunkSize
  omega

variable {n : Nat} {content : GoString} {place : Nat}

theorem linesOf_valid (valid : Valid content) : ∀ line ∈ linesOf newline content, Valid line := by
  intro line member
  exact valid.splitOn (by decide) (mem_splitOn_of_mem_linesOf newline member)

/-- A text of one line is valid with the line. -/
theorem line_valid {s line : GoString} (valid : Valid s) (shape : s = line ∨ s = line ++ [newline]) :
    Valid line := by
  rcases shape with rfl | rfl
  · exact valid
  · exact (valid.around (by decide)).1

theorem count_le_one {s : GoString} (absent : newline ∉ s.dropLast) : s.count newline ≤ 1 := by
  by_cases empty : s = []
  · rw [empty]
    decide
  · rw [← List.dropLast_append_getLast empty, List.count_append, List.count_eq_zero.2 absent]
    have := List.count_le_length (a := newline) (l := [s.getLast empty])
    simpa using this

/-- If the loop has seen one newline at most, its limit has stopped it. -/
theorem Stops.limited (stops : Stops n content place) (positive : 1 ≤ n) (inside : 0 < place)
    (few : (content.drop place).count newline ≤ 1) : content.length - place = readLimit n := by
  rcases stops.why with start | counted | capped
  · omega
  · omega
  · exact capped

theorem tailFrom_valid (stops : Stops n content place) (positive : 1 ≤ n) (valid : Valid content)
    (whole : ¬ CutsRune n content) : ∀ line ∈ tailFrom n content place, Valid line := by
  have lines := linesOf_valid valid
  rcases Nat.eq_zero_or_pos place with rfl | inside
  · intro line member
    have among : line ∈ (linesOf newline content).rtake n := by
      simpa [tailFrom, uncut] using member
    exact lines line (List.mem_of_mem_drop among)
  obtain ⟨front, last, first, rest, seen, same, alone, others⟩ := stops.inside positive inside
  intro line member
  by_cases single : rest = []
  · rw [alone single, List.mem_singleton] at member
    subst member
    rw [single] at seen
    obtain ⟨one, shape⟩ := linesOf_eq_singleton newline seen
    have limit := stops.limited positive inside (count_le_one one)
    have large := readLimit_large n
    have here : place < content.length := by omega
    have at_limit : content.length - readLimit n = place := by omega
    have starts : runeStart content[place] = true := by
      by_contra continues
      refine whole ⟨by omega, by rwa [at_limit], content[place], ?_, by simpa using continues⟩
      rw [at_limit, List.getElem?_eq_getElem here]
    refine line_valid ?_ shape
    have halves : Valid (content.take place ++ content.drop place) := by
      rwa [List.take_append_drop]
    refine (halves.cut ?_).2
    intro b head
    rw [List.drop_eq_getElem_cons here] at head
    obtain rfl := Option.some.inj head
    exact starts
  · rw [others single] at member
    refine lines line ?_
    rw [same]
    exact List.mem_append_right _ (List.mem_cons_of_mem _ (List.mem_of_mem_drop member))

/-- A text that starts within a character, of which the next starts soon. -/
structure StartsInside (s : GoString) : Prop where
  continues : ∃ b tail, s = b :: tail ∧ runeStart b = false
  next : ∃ k, 0 < k ∧ k ≤ 3 ∧ Aligned s k
  long : maxLogLineBytes < s.length

/-- The fragment that is kept where a character is cut. -/
theorem tailFrom_cut (stops : Stops n content place) (positive : 1 ≤ n) (valid : Valid content)
    (cuts : CutsRune n content) :
    ∃ first, tailFrom n content place = [first] ∧ StartsInside first := by
  obtain ⟨long, absent, b, here, continues⟩ := cuts
  have bounded := stops.bounded
  have large := readLimit_large n
  have inside : 0 < place := by omega
  -- With at most one newline to see, the loop goes on to its limit.
  have limit : content.length - place = readLimit n := by
    refine stops.limited positive inside ?_
    have fewer : (content.drop place).count newline ≤
        (content.drop (content.length - readLimit n)).count newline := by
      apply List.Sublist.count_le
      have later : place = content.length - readLimit n + (place - (content.length - readLimit n)) := by
        omega
      rw [later, ← List.drop_drop]
      exact List.drop_sublist _ _
    exact Nat.le_trans fewer (count_le_one absent)
  have at_limit : content.length - readLimit n = place := by omega
  rw [at_limit] at absent here
  obtain ⟨front, last, first, rest, seen, -, alone, -⟩ := stops.inside positive inside
  have length : (content.drop place).length = readLimit n := by
    rw [List.length_drop, limit]
  have nonempty : content.drop place ≠ [] := by
    rw [← List.length_pos_iff]
    omega
  obtain ⟨line, one⟩ := linesOf_of_absent newline nonempty absent
  obtain ⟨rfl, rfl⟩ := List.cons.inj (seen.symm.trans one)
  obtain ⟨-, shape⟩ := linesOf_eq_singleton newline one
  refine ⟨first, alone rfl, ?_⟩
  have starts : first <+: content.drop place := by
    rcases shape with same | same
    · rw [same]
    · rw [same]
      exact List.prefix_append _ _
  have size : readLimit n ≤ first.length + 1 := by
    rcases shape with same | same <;> rw [same] at length
    · omega
    · rw [List.length_append, List.length_singleton] at length
      omega
  have same : ∀ k < first.length, first[k]? = (content.drop place)[k]? := by
    intro k within
    obtain ⟨behind, whole⟩ := starts
    rw [← whole, List.getElem?_append_left within]
  have head : first[0]? = some b := by
    rw [same 0 (by omega), List.getElem?_drop]
    exact here
  refine ⟨?_, ?_, ?_⟩
  · cases first with
    | nil => cases head
    | cons c tail =>
        obtain rfl := Option.some.inj head
        exact ⟨c, tail, rfl, continues⟩
  · have halves : Valid (content.take place ++ content.drop place) := by
      rwa [List.take_append_drop]
    obtain ⟨k, c, positive, short, found, next⟩ := halves.next (by omega) (by
      intro c first_byte
      rw [List.head?_eq_getElem?, ← same 0 (by omega), head] at first_byte
      obtain rfl := Option.some.inj first_byte
      exact continues)
    exact ⟨k, positive, short, .inr (.inr ⟨c, by rw [same k (by omega), found], next⟩)⟩
  · unfold maxLogLineBytes
    omega

/-! ## A fragment that starts within a character -/

theorem runeStart_digit {b : UInt8} (high : b ≤ 57) : runeStart b = true := by
  have below : (57 : UInt8) < 0x80 := by decide
  exact runeStart_of_ascii (UInt8.lt_of_le_of_lt high below)

/-- It has no framing. -/
theorem classify_continues (d : Decoders) {b : UInt8} {tail : GoString} (continues : runeStart b = false) :
    classify d (b :: tail) = ⟨.unframed, true, b :: tail⟩ := by
  have docker : parseDockerLogLine d (b :: tail) = none := by
    refine parseDockerLogLine_cons d tail ?_
    rintro rfl
    exact absurd continues (by decide)
  have cri : parseCRILogLine d (b :: tail) = none := by
    cases parsed : parseCRILogLine d (b :: tail) with
    | none => rfl
    | some cri =>
        obtain ⟨timestamp, rest, -, first, -, -, accepted, -⟩ := parseCRILogLine_eq_some parsed
        obtain ⟨c, digits, rfl, -, high⟩ := d.timeParse_digit timestamp accepted
        obtain ⟨rfl, -⟩ := List.cons.inj (eq_of_cut first)
        rw [runeStart_digit high] at continues
        cases continues
  unfold classify
  rw [docker, cri]

theorem parseLogLines_continues (d : Decoders) {b : UInt8} {tail : GoString}
    (continues : runeStart b = false) : parseLogLines d [b :: tail] = [b :: tail] := by
  rw [parseLogLines_eq, parsed, List.map_singleton, classify_continues d continues]
  rfl

theorem truncateLines_singleton (line : GoString) : truncateLines [line] = [shorten line] := by
  have short := shorten_length line
  have fits : ¬ 0 + (shorten line).length > maxLogTotalBytes := by
    rw [truncationMarker_length] at short
    unfold maxLogLineBytes at short
    unfold maxLogTotalBytes
    omega
  show fill maxLogTotalBytes 0 [line] = _
  rw [fill, if_neg fits]
  rfl

/-- Truncating does not make it valid. -/
theorem StartsInside.shorten {s : GoString} (inside : StartsInside s) : ¬ Valid (shorten s) := by
  obtain ⟨⟨b, tail, rfl, continues⟩, ⟨k, positive, short, aligned⟩, long⟩ := inside
  intro valid
  rcases shorten_spec (b :: tail) with ⟨within, -⟩ | ⟨-, head, longest, same⟩
  · omega
  · have reaches : k ≤ head.length := longest.longest k (by unfold maxLogLineBytes; omega) aligned
    rw [same] at valid
    cases head with
    | nil =>
        rw [List.length_nil] at reaches
        omega
    | cons c head =>
        obtain ⟨rfl, -⟩ := List.cons_prefix_cons.1 longest.starts
        rw [List.cons_append] at valid
        rw [valid.head] at continues
        cases continues

/-! ## From the file to the report -/

section Capture

variable {openFile : Path → Except GoError LogFile} {path : Path} {file : LogFile}

/-- Where a character is cut, what is captured is not valid. -/
theorem captured_invalid (d : Decoders) (stops : Stops n content place) (positive : 1 ≤ n)
    (valid : Valid content) (cuts : CutsRune n content) :
    ∃ line ∈ truncateLines (parseLogLines d (tailFrom n content place)), ¬ Valid line := by
  obtain ⟨first, alone, inside⟩ := tailFrom_cut stops positive valid cuts
  obtain ⟨b, tail, rfl, continues⟩ := inside.continues
  rw [alone, parseLogLines_continues d continues, truncateLines_singleton]
  exact ⟨_, List.mem_cons_self, inside.shorten⟩

theorem readCap_small (few : n ≤ maxLogLines) : readCap n < 2 ^ 63 := by
  unfold maxLogLines at few
  unfold readCap maxLogLineBytes tailChunkSize
  omega

/-- **When the captured lines are valid.**  For a file with valid content: unless the read
limit falls into a character of a line that is longer than it. -/
theorem captured_valid_iff (d : Decoders) (opened : openFile path = .ok file) (has : file.Has content)
    (valid : Valid content) (positive : 1 ≤ n) (few : n ≤ maxLogLines) :
    ∃ raw, tailFile openFile path n = .ok raw ∧
      ((∀ line ∈ truncateLines (parseLogLines d raw), Valid line) ↔ ¬ CutsRune n content) := by
  obtain ⟨place, stops, ends⟩ := tailFile_from opened has positive (readCap_small few)
  refine ⟨_, ends, ?_, ?_⟩
  · intro all cuts
    obtain ⟨line, member, invalid⟩ := captured_invalid d stops positive valid cuts
    exact invalid (all line member)
  · intro whole
    exact truncateLines_valid (parseLogLines_valid d (tailFrom_valid stops positive valid whole))

theorem captured_valid_iff_ready :
    ∃ raw, tailFile (onlyFile (lit "ready\n")) [] 1 = .ok raw ∧
      ∀ line ∈ truncateLines (parseLogLines utcDecoders raw), Valid line := by
  have opened : onlyFile (lit "ready\n") [] = .ok (fixedFile (lit "ready\n")) := rfl
  obtain ⟨raw, ends, same⟩ := captured_valid_iff (n := 1) utcDecoders opened (fixedFile_has _)
    (valid_lit _) (by decide) (by decide)
  exact ⟨raw, ends, same.2 fun cuts => absurd cuts.long (by decide +kernel)⟩

def euros (k : Nat) : GoString := (List.replicate k (lit "€")).flatten

theorem euros_succ (k : Nat) : euros (k + 1) = 0xE2 :: 0x82 :: 0xAC :: euros k := by
  have euro : lit "€" = [0xE2, 0x82, 0xAC] := by decide +kernel
  rw [euros, List.replicate_succ, List.flatten_cons, euro]
  rfl

theorem length_euros (k : Nat) : (euros k).length = 3 * k := by
  induction k with
  | zero => rfl
  | succ k ih =>
      rw [euros_succ]
      simp only [List.length_cons, ih]
      omega

theorem newline_not_mem_euros (k : Nat) : newline ∉ euros k := by
  induction k with
  | zero => exact List.not_mem_nil
  | succ k ih =>
      rw [euros_succ]
      simp only [List.mem_cons, not_or]
      exact ⟨by decide, by decide, by decide, ih⟩

theorem euros_valid (k : Nat) : Valid (euros k) := by
  induction k with
  | zero => exact valid_nil
  | succ k ih => exact (valid_lit "€").append ih

def stdoutHeader : GoString := lit "2026-01-02T03:04:05.678901234Z stdout F "

/-- A record with a message of three-byte characters and one byte more. -/
def euroRecord (k : Nat) : GoString := stdoutHeader ++ (euros k ++ [120, newline])

theorem euroRecord_valid (k : Nat) : Valid (euroRecord k) :=
  (valid_lit _).append ((euros_valid k).append (valid_lit "x\n"))

theorem length_euroRecord (k : Nat) : (euroRecord k).length = 42 + 3 * k := by
  have header : stdoutHeader.length = 40 := by decide +kernel
  rw [euroRecord, List.length_append, List.length_append, length_euros, header]
  show 40 + (3 * k + 2) = _
  omega

/-- With a message of 16 KiB the limit for one line falls behind the first byte of it. -/
theorem euroRecord_cuts : CutsRune 1 (euroRecord 5461) := by
  have limit : readLimit 1 = 16384 := by decide
  have length := length_euroRecord 5461
  have shape : euroRecord 5461 =
      (stdoutHeader ++ [0xE2]) ++ (0x82 :: 0xAC :: (euros 5460 ++ [120, newline])) := by
    rw [euroRecord, euros_succ 5460, List.append_assoc]
    rfl
  have front : (stdoutHeader ++ [0xE2]).length = 41 := by decide +kernel
  have place : (euroRecord 5461).length - readLimit 1 = 41 := by omega
  have behind : (euroRecord 5461).drop 41 = 0x82 :: 0xAC :: (euros 5460 ++ [120, newline]) := by
    rw [shape, ← front, List.drop_left]
  constructor
  · omega
  · rw [place, behind]
    have split : (0x82 :: 0xAC :: (euros 5460 ++ [120, newline]) : GoString) =
        (0x82 :: 0xAC :: (euros 5460 ++ [120])) ++ [newline] := by
      simp
    rw [split, List.dropLast_concat]
    simp only [List.mem_cons, List.mem_append, not_or]
    exact ⟨by decide, by decide, newline_not_mem_euros _, by decide, List.not_mem_nil⟩
  · refine ⟨0x82, ?_, by decide⟩
    rw [place, shape, List.getElem?_append_right (by rw [front]), front]
    rfl

/-- **A valid log whose captured line is not valid.** -/
theorem euroRecord_invalid :
    Valid (euroRecord 5461) ∧ ∃ raw, tailFile (onlyFile (euroRecord 5461)) [] 1 = .ok raw ∧
      ∃ line ∈ truncateLines (parseLogLines utcDecoders raw), ¬ Valid line := by
  have opened : onlyFile (euroRecord 5461) [] = .ok (fixedFile (euroRecord 5461)) := rfl
  obtain ⟨place, stops, ends⟩ := tailFile_from (n := 1) opened (fixedFile_has _) (by decide) (by decide)
  exact ⟨euroRecord_valid _, _, ends,
    captured_invalid utcDecoders stops (by decide) (euroRecord_valid _) euroRecord_cuts⟩

end Capture

/-! ## The attempts -/

/-- The files that open have fixed and valid content, and no character of them is cut. -/
def Readable (n : Nat) (files : NodeFiles) : Prop :=
  ∀ path file, files.openFile path = .ok file →
    ∃ content, file.Has content ∧ Valid content ∧ ¬ CutsRune n content

/-- **What is captured of readable files is valid text.** -/
theorem LogCapturer.attempt_valid {lc : LogCapturer} {n : Nat} (set : lc.tailLines = n)
    (few : n ≤ maxLogLines) {podMeta : PodMeta} {files : NodeFiles} (readable : Readable n files)
    {k : Nat} {lines : List GoString} (read : lc.attempt podMeta files k = .ok lines) :
    ∀ line ∈ lines, Valid line := by
  obtain ⟨logFile, raw, -, ends, rfl⟩ := LogCapturer.attempt_eq_ok read
  rw [set] at ends
  have positive : 1 ≤ n := by
    by_contra none_
    rw [tailFile, if_pos (by omega)] at ends
    cases ends
  cases opens : files.openFile logFile with
  | error err =>
      unfold tailFile at ends
      rw [if_neg (by omega), opens] at ends
      cases ends
  | ok file =>
      obtain ⟨content, has, valid, whole⟩ := readable logFile file opens
      obtain ⟨place, stops, tail⟩ := tailFile_from opens has positive (readCap_small few)
      rw [tail] at ends
      obtain rfl := Except.ok.inj ends
      exact truncateLines_valid
        (parseLogLines_valid lc.decoders (tailFrom_valid stops positive valid whole))

end KubeAutopsy.Agent
