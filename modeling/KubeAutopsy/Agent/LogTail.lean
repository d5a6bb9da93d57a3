/-
# KubeAutopsy.Agent.LogTail — reading the last lines of a log file

`tailFile` of `internal/agent/logcapture.go`.  The loop walks backwards through the file in
chunks until it has seen enough newlines, has come to the start of the file, or has read
its cap; what it collected is split into lines, and a first line that may be cut is dropped
unless it is the only one.  Index and slice expressions are those of `Theory.Slices`, so a
result is also a proof that none of them was out of range.

For a file with fixed content the loop leaves exactly a suffix of it (`Scanned`).  With
`tailSpan` the bytes from the newline before the last lines to the end,

* `tailFile_agrees`: the tail is the one of the whole file when the span is within the cap,
  and a part of it otherwise;
* `tailFile_exact_iff`: when exactly it is the whole one.
-/
import KubeAutopsy.Agent.LogCapture
import KubeAutopsy.Theory.Lines
import KubeAutopsy.Theory.Slices

namespace KubeAutopsy.Agent

open KubeAutopsy.Api
open KubeAutopsy.Api.Files
open KubeAutopsy.Theory.Bytes (GoString lit itoa)
open KubeAutopsy.Theory.Lines
open KubeAutopsy.Theory.Slices

set_option autoImplicit false

def maxLogLineBytes : Nat := 2048
def tailChunkSize : Nat := 8192

def newline : UInt8 := 10

/-- The variables of the loop of `tailFile`. -/
structure Scan where
  remaining : Nat
  read : Int := 0
  lineCount : Int := 0
  chunks : List GoString := []

/-- The loop goes on. -/
def Scan.more (lines maxReadBytes : Int) (s : Scan) : Prop :=
  s.remaining > 0 ∧ s.lineCount ≤ lines ∧ s.read < maxReadBytes

instance (lines maxReadBytes : Int) (s : Scan) : Decidable (s.more lines maxReadBytes) :=
  inferInstanceAs (Decidable (_ ∧ _))

def Scan.readSize (s : Scan) : Nat :=
  if tailChunkSize > s.remaining then s.remaining else tailChunkSize

def Scan.offset (s : Scan) : Nat := s.remaining - s.readSize

def Scan.next (s : Scan) (chunk : GoString) : Scan where
  remaining := s.offset
  read := s.read + chunk.length
  lineCount := s.lineCount + chunk.count newline
  chunks := s.chunks ++ [chunk]

theorem Scan.offset_lt {lines maxReadBytes : Int} {s : Scan} (more : s.more lines maxReadBytes) :
    s.offset < s.remaining := by
  have some_ := more.1
  unfold offset readSize tailChunkSize
  split <;> omega

def tailLoop (file : LogFile) (lines maxReadBytes : Int) (s : Scan) : Except (Stop GoError) Scan :=
  if _ : s.more lines maxReadBytes then
    match file.readAt s.offset s.readSize with
    | .error err =>
        .error (.failed (.wrap (lit "failed to read chunk at offset " ++ itoa s.offset) err))
    | .ok chunk => tailLoop file lines maxReadBytes (s.next chunk)
  else .ok s
termination_by s.remaining
decreasing_by exact Scan.offset_lt (by assumption)

/-- The cap on what is read, in the arithmetic of 64-bit integers. -/
def maxReadBytes (lines : Int) : Int :=
  Int.bmod (lines * maxLogLineBytes * 2 + tailChunkSize) (2 ^ 64)

/-- Remove the empty line behind a final newline. -/
def dropFinalEmpty (allLines : List GoString) : Except (Stop GoError) (List GoString) :=
  if allLines.length > 0 then do
    let last ← elementAt allLines ((allLines.length : Int) - 1)
    if last = [] then sliceTo allLines ((allLines.length : Int) - 1) else return allLines
  else return allLines

/-- Drop a first line the loop may have stopped in, unless it is all there is. -/
def dropFragment (remaining : Nat) (allLines : List GoString) : Except (Stop GoError) (List GoString) :=
  if remaining > 0 ∧ allLines.length > 1 then sliceFrom allLines 1 else return allLines

def keepLast (lines : Int) (allLines : List GoString) : Except (Stop GoError) (List GoString) :=
  if (allLines.length : Int) ≤ lines then return allLines
  else sliceFrom allLines ((allLines.length : Int) - lines)

/-- What `tailFile` makes of the bytes it collected. -/
def lastLines (lines : Int) (remaining : Nat) (collected : GoString) :
    Except (Stop GoError) (List GoString) := do
  let allLines ← dropFinalEmpty (collected.splitOn newline)
  let allLines ← dropFragment remaining allLines
  keepLast lines allLines

def tailFile (openFile : Path → Except GoError LogFile) (path : Path) (lines : Int) :
    Except (Stop GoError) (List GoString) :=
  if lines < 1 then
    .error (.failed (.text (lit "tail line count must be at least 1, got " ++ itoa lines)))
  else
    match openFile path with
    | .error err => .error (.failed (.wrap (lit "failed to open " ++ path.text) err))
    | .ok file =>
        match file.stat with
        | .error err => .error (.failed (.wrap (lit "failed to stat " ++ path.text) err))
        | .ok stat =>
            if !stat.isRegular then
              .error (.failed (.text (path.text ++ lit " is not a regular file")))
            else if stat.size = 0 then .ok []
            else do
              let s ← tailLoop file lines (maxReadBytes lines) { remaining := stat.size }
              lastLines lines s.remaining s.chunks.reverse.flatten

/-! ## The loop -/

/-- The loop has collected the file from `remaining` on, in whole chunks unless it came to
the start. -/
structure Scanned (content : GoString) (s : Scan) : Prop where
  within : s.remaining ≤ content.length
  collected : s.chunks.reverse.flatten = content.drop s.remaining
  read : s.read = content.length - s.remaining
  lineCount : s.lineCount = (content.drop s.remaining).count newline
  chunked : s.remaining = 0 ∨ tailChunkSize ∣ content.length - s.remaining

theorem Scanned.start (content : GoString) : Scanned content { remaining := content.length } := by
  constructor <;> simp

theorem Scanned.next {content : GoString} {s : Scan} (scanned : Scanned content s) :
    Scanned content (s.next ((content.drop s.offset).take s.readSize)) := by
  have within := scanned.within
  have size : s.readSize ≤ s.remaining := by
    unfold Scan.readSize
    split <;> omega
  have place : s.offset + s.readSize = s.remaining := by
    unfold Scan.offset
    omega
  have length : ((content.drop s.offset).take s.readSize).length = s.readSize := by
    rw [List.length_take, List.length_drop]
    omega
  -- The new chunk stands right before what was collected.
  have joined : (content.drop s.offset).take s.readSize ++ content.drop s.remaining =
      content.drop s.offset := by
    rw [← place, ← List.drop_drop, List.take_append_drop]
  constructor
  · show s.offset ≤ content.length
    omega
  · show (s.chunks ++ [_]).reverse.flatten = _
    rw [List.reverse_append, List.reverse_singleton, List.flatten_append, List.flatten_singleton,
      scanned.collected]
    exact joined
  · show s.read + _ = _
    rw [scanned.read, length]
    show _ = (content.length : Int) - s.offset
    omega
  · show s.lineCount + _ = _
    rw [scanned.lineCount]
    show _ = ((content.drop s.offset).count newline : Int)
    have counted := congrArg (List.count newline) joined
    rw [List.count_append] at counted
    omega
  · show s.offset = 0 ∨ tailChunkSize ∣ content.length - s.offset
    have chunked := scanned.chunked
    unfold Scan.readSize tailChunkSize at *
    split at place <;> omega

/-- `limit` is the cap in whole chunks, and no more than that is ever read. -/
theorem tailLoop_spec {file : LogFile} {content : GoString} (has : file.Has content) (lines : Int)
    {cap limit : Nat} (whole : tailChunkSize ∣ limit) (enough : cap ≤ limit) {s : Scan}
    (scanned : Scanned content s) (bounded : s.read ≤ limit) :
    ∃ t, tailLoop file lines cap s = .ok t ∧ Scanned content t ∧ ¬ t.more lines cap ∧
      t.read ≤ limit := by
  induction remaining : s.remaining using Nat.strong_induction_on generalizing s with
  | _ r ih =>
      unfold tailLoop
      split
      · rename_i more
        rw [has.readAt]
        refine ih _ ?_ scanned.next ?_ rfl
        · rw [← remaining]
          exact Scan.offset_lt more
        · -- Before this chunk whole chunks were read, and less than the cap.
          obtain ⟨some_, -, below⟩ := more
          have read := scanned.read
          have chunked := scanned.chunked
          have within := scanned.within
          show s.read + _ ≤ _
          rw [List.length_take]
          unfold Scan.readSize tailChunkSize at *
          split <;> omega
      · rename_i stopped
        exact ⟨s, rfl, scanned, stopped, bounded⟩

/-! ## The lines of what was collected -/

/-- The cap as a number. -/
def readCap (n : Nat) : Nat := n * maxLogLineBytes * 2 + tailChunkSize

/-- The cap in whole chunks: what is read when it stops the loop. -/
def readLimit (n : Nat) : Nat := tailChunkSize * ((readCap n + tailChunkSize - 1) / tailChunkSize)

theorem maxReadBytes_eq {n : Nat} (small : readCap n < 2 ^ 63) : maxReadBytes n = readCap n := by
  unfold maxReadBytes readCap at *
  unfold maxLogLineBytes tailChunkSize at *
  rw [Int.bmod_eq_of_le] <;> omega

theorem dropFinalEmpty_splitOn (s : GoString) :
    dropFinalEmpty (s.splitOn newline) = .ok (linesOf newline s) := by
  have some_ : 0 < (s.splitOn newline).length := by
    rw [length_splitOn]
    omega
  obtain ⟨last, found⟩ : ∃ last, (s.splitOn newline).getLast? = some last :=
    ⟨_, List.getLast?_eq_some_getLast (List.splitOn_ne_nil _ _)⟩
  unfold dropFinalEmpty linesOf
  rw [if_pos some_, elementAt_last found, found]
  show (if last = [] then _ else _) = _
  by_cases empty : last = []
  · rw [if_pos empty, sliceTo_last some_, if_pos (by rw [empty])]
  · rw [if_neg empty, if_neg (by simpa using empty)]
    rfl

/-- The lines that are left when the first may be cut. -/
def uncut (remaining : Nat) (allLines : List GoString) : List GoString :=
  if remaining > 0 ∧ allLines.length > 1 then allLines.tail else allLines

theorem dropFragment_eq (remaining : Nat) (allLines : List GoString) :
    dropFragment remaining allLines = .ok (uncut remaining allLines) := by
  unfold dropFragment uncut
  split
  · exact sliceFrom_one (by omega)
  · rfl

theorem keepLast_eq (n : Nat) (allLines : List GoString) :
    keepLast n allLines = .ok (allLines.rtake n) := by
  unfold keepLast
  split
  · rename_i few
    show Except.ok _ = _
    rw [List.rtake, Nat.sub_eq_zero_of_le (by omega), List.drop_zero]
  · rename_i many
    exact sliceFrom_sub (by omega)

theorem lastLines_eq (n remaining : Nat) (s : GoString) :
    lastLines n remaining s = .ok ((uncut remaining (linesOf newline s)).rtake n) := by
  unfold lastLines
  rw [dropFinalEmpty_splitOn]
  show (dropFragment remaining (linesOf newline s) >>= keepLast n) = _
  rw [dropFragment_eq]
  show keepLast n _ = _
  rw [keepLast_eq]

theorem tailLoop_in_range (file : LogFile) (lines maxReadBytes : Int) (s : Scan) :
    tailLoop file lines maxReadBytes s ≠ .error .outOfRange := by
  induction remaining : s.remaining using Nat.strong_induction_on generalizing s with
  | _ r ih =>
      unfold tailLoop
      split
      · rename_i more
        split
        · nofun
        · exact ih _ (remaining ▸ Scan.offset_lt more) _ rfl
      · nofun

/-- **No index of `tailFile` is out of range**, whatever the calls on the file are answered. -/
theorem tailFile_in_range (openFile : Path → Except GoError LogFile) (path : Path) (lines : Int) :
    tailFile openFile path lines ≠ .error .outOfRange := by
  unfold tailFile
  split
  · nofun
  · rename_i some_
    split
    · nofun
    · rename_i file opened
      split
      · nofun
      · split
        · nofun
        · split
          · nofun
          · rename_i stat _ _ _
            obtain ⟨n, rfl⟩ := Int.eq_ofNat_of_zero_le (Int.le_of_lt (by omega : 0 < lines))
            cases scanned : tailLoop file n (maxReadBytes n) { remaining := stat.size } with
            | error stop =>
                intro ends
                obtain rfl : stop = .outOfRange := Except.error.inj ends
                exact tailLoop_in_range _ _ _ _ scanned
            | ok s =>
                show lastLines n s.remaining s.chunks.reverse.flatten ≠ _
                rw [lastLines_eq]
                nofun

/-- **`tailFile` on a file with fixed content.** -/
theorem tailFile_eq {openFile : Path → Except GoError LogFile} {path : Path} {file : LogFile}
    {content : GoString} (opened : openFile path = .ok file) (has : file.Has content) {n : Nat}
    (positive : 1 ≤ n) {t : Scan} (scanned : Scanned content t)
    (ends : tailLoop file n (maxReadBytes n) { remaining := content.length } = .ok t) :
    tailFile openFile path n =
      .ok ((uncut t.remaining (linesOf newline (content.drop t.remaining))).rtake n) := by
  unfold tailFile
  rw [if_neg (by omega), opened]
  dsimp only
  rw [has.stat]
  dsimp only
  rw [if_neg (by simp)]
  split
  · -- The loop has nothing to read either.
    rename_i empty
    obtain rfl := List.length_eq_zero_iff.1 empty
    simp [uncut, linesOf_nil]
  · rw [ends]
    show lastLines n t.remaining t.chunks.reverse.flatten = _
    rw [scanned.collected, lastLines_eq]

/-! ## Where the loop stops -/

/-- The place from which on `tailFile` knows the file, and why it is there. -/
structure Stops (n : Nat) (content : GoString) (place : Nat) : Prop where
  within : place ≤ content.length
  bounded : content.length - place ≤ readLimit n
  why : place = 0 ∨ n < (content.drop place).count newline ∨ content.length - place = readLimit n

theorem tailLoop_stops {file : LogFile} {content : GoString} (has : file.Has content) {n : Nat}
    (small : readCap n < 2 ^ 63) :
    ∃ t, tailLoop file n (maxReadBytes n) { remaining := content.length } = .ok t ∧
      Scanned content t ∧ Stops n content t.remaining ∧ t.read < readCap n + tailChunkSize := by
  have whole : tailChunkSize ∣ readLimit n := Nat.dvd_mul_right _ _
  have enough : readCap n ≤ readLimit n := by
    unfold readLimit tailChunkSize
    omega
  have least : readLimit n < readCap n + tailChunkSize := by
    unfold readLimit tailChunkSize
    omega
  rw [maxReadBytes_eq small]
  obtain ⟨t, ends, scanned, stopped, bounded⟩ := tailLoop_spec has n whole enough
    (Scanned.start content) (Int.natCast_nonneg _)
  have within := scanned.within
  have read := scanned.read
  refine ⟨t, ends, scanned, ⟨within, by omega, ?_⟩, by omega⟩
  by_cases begun : t.remaining = 0
  · exact .inl begun
  by_cases counted : n < (content.drop t.remaining).count newline
  · exact .inr (.inl counted)
  -- The cap has stopped it, and it stops at whole chunks.
  have capped : readCap n ≤ t.read := by
    by_contra below
    refine stopped ⟨by omega, ?_, by omega⟩
    rw [scanned.lineCount]
    omega
  have chunked := scanned.chunked
  refine .inr (.inr ?_)
  unfold readLimit tailChunkSize at *
  omega

/-! ## How far back the last lines reach -/

/-- The lines before the last `n`, as they stand in the file. -/
def earlier (n : Nat) (content : GoString) : GoString :=
  [newline].intercalate
    ((linesOf newline content).take ((linesOf newline content).length - n))

/-- The bytes from the newline before the last `n` lines, if there is one, to the end. -/
def tailSpan (n : Nat) (content : GoString) : Nat := content.length - (earlier n content).length

/-- The last `n` lines are the whole file, or there is a newline before them. -/
inductive Span (n : Nat) (content : GoString) : Prop
  | few (lines : (linesOf newline content).length ≤ n) (span : tailSpan n content = content.length)
  | many (before rest : GoString) (whole : content = before ++ newline :: rest)
      (lines : linesOf newline rest = (linesOf newline content).rtake n)
      (more : n < (linesOf newline content).length) (span : tailSpan n content = rest.length + 1)

theorem span (n : Nat) (positive : 1 ≤ n) (content : GoString) : Span n content := by
  by_cases few : (linesOf newline content).length ≤ n
  · refine .few few ?_
    unfold tailSpan earlier
    rw [Nat.sub_eq_zero_of_le few, List.take_zero, List.intercalate_nil]
    rfl
  · have more : n < (linesOf newline content).length := Nat.lt_of_not_le few
    obtain ⟨rest, whole, lines⟩ := linesOf_behind newline (s := content)
      (j := (linesOf newline content).length - n) (by omega) (by omega)
    refine .many (earlier n content) rest whole lines more ?_
    have length := congrArg List.length whole
    rw [List.length_append, List.length_cons] at length
    unfold tailSpan
    show content.length - ([newline].intercalate _).length = _
    omega

variable {n : Nat} {content : GoString} {place : Nat}

/-- What `tailFile` returns when it knows the file from `place` on. -/
def tailFrom (n : Nat) (content : GoString) (place : Nat) : List GoString :=
  (uncut place (linesOf newline (content.drop place))).rtake n

/-- What is seen from a place within the file: the end of one line and all lines behind it,
and which of these is returned. -/
theorem Stops.inside (stops : Stops n content place) (positive : 1 ≤ n) (inside : 0 < place) :
    ∃ front last first rest, linesOf newline (content.drop place) = first :: rest ∧
      linesOf newline content = front ++ (last ++ first) :: rest ∧
      (rest = [] → tailFrom n content place = [first]) ∧
      (rest ≠ [] → tailFrom n content place = rest.rtake n) := by
  have nonempty : content.drop place ≠ [] := by
    intro empty
    have length := congrArg List.length empty
    rw [List.length_drop, List.length_nil] at length
    rcases stops.why with start | counted | capped
    · omega
    · rw [empty, List.count_nil] at counted
      omega
    · unfold readLimit readCap maxLogLineBytes tailChunkSize at capped
      omega
  obtain ⟨front, last, first, rest, -, seen, whole⟩ :=
    linesOf_append newline (content.take place) nonempty
  rw [List.take_append_drop] at whole
  refine ⟨front, last, first, rest, seen, whole, ?_, ?_⟩
  · intro alone
    unfold tailFrom uncut
    rw [seen, alone, if_neg (by simp)]
    exact rtake_of_length_le positive
  · intro others
    have many : (first :: rest).length > 1 := by
      have := List.length_pos_iff.2 others
      rw [List.length_cons]
      omega
    unfold tailFrom uncut
    rw [seen, if_pos ⟨inside, many⟩, List.tail_cons]

/-- The last lines are all seen if they are within what the loop reads. -/
theorem Stops.exact (stops : Stops n content place) (positive : 1 ≤ n)
    (fits : tailSpan n content ≤ readLimit n) :
    tailFrom n content place = (linesOf newline content).rtake n := by
  rcases Nat.eq_zero_or_pos place with rfl | inside
  · simp [tailFrom, uncut]
  have within := stops.within
  -- One line more than was asked for is at least begun.
  have many : n < (linesOf newline (content.drop place)).length := by
    rcases stops.why with start | counted | capped
    · omega
    · exact counted.trans_le (count_le_length_linesOf newline _)
    · cases span n positive content with
      | few lines span => omega
      | many before rest whole lines more span =>
          have reaches : place ≤ before.length := by
            have length := congrArg List.length whole
            rw [List.length_append, List.length_cons] at length
            omega
          have shape : content.drop place = before.drop place ++ newline :: rest := by
            rw [whole, List.drop_append_of_le_length reaches]
          rw [shape, linesOf_append_cons, List.length_append, lines, length_rtake, length_splitOn]
          omega
  obtain ⟨front, last, first, rest, seen, whole, -, others⟩ := stops.inside positive inside
  rw [seen, List.length_cons] at many
  have suffix : rest <:+ linesOf newline content := by
    rw [whole]
    exact (List.suffix_cons _ _).trans (List.suffix_append _ _)
  rw [others (List.length_pos_iff.1 (by omega))]
  exact rtake_of_suffix suffix (by omega)

/-- Whatever is seen is a part of the last lines. -/
theorem Stops.part (stops : Stops n content place) (positive : 1 ≤ n) :
    (tailFrom n content place).length ≤ n ∧
      (tailFrom n content place <:+ (linesOf newline content).rtake n ∨
        ∃ last fragment, (linesOf newline content).getLast? = some last ∧ fragment <:+ last ∧
          tailFrom n content place = [fragment]) := by
  constructor
  · unfold tailFrom
    rw [length_rtake]
    omega
  rcases Nat.eq_zero_or_pos place with rfl | inside
  · left
    simp [tailFrom, uncut]
  obtain ⟨front, last, first, rest, seen, whole, alone, others⟩ := stops.inside positive inside
  by_cases single : rest = []
  · right
    refine ⟨last ++ first, first, ?_, List.suffix_append _ _, alone single⟩
    rw [whole, single, List.getLast?_append_cons]
    rfl
  · left
    rw [others single]
    apply rtake_suffix_rtake
    rw [whole]
    exact (List.suffix_cons _ _).trans (List.suffix_append _ _)

/-- Where the loop stops when the last lines reach back further than it reads: at the limit,
within the last lines. -/
theorem Stops.beyond (stops : Stops n content place) (positive : 1 ≤ n)
    (large : readLimit n < tailSpan n content) :
    0 < place ∧ content.length - place = readLimit n ∧
      (linesOf newline (content.drop place)).length ≤ ((linesOf newline content).rtake n).length := by
  have bounded := stops.bounded
  have short : tailSpan n content ≤ content.length := Nat.sub_le _ _
  have inside : 0 < place := by omega
  -- The lines seen are among the last ones, and so is every newline seen.
  have seen : (linesOf newline (content.drop place)).length ≤
        ((linesOf newline content).rtake n).length ∧
      (content.drop place).count newline ≤ n := by
    have counted := count_le_length_linesOf newline (content.drop place)
    cases span n positive content with
    | few lines span =>
        have fewer := length_linesOf_suffix newline (List.drop_suffix place content)
        rw [length_rtake]
        omega
    | many before rest whole lines more span =>
        have suffix : content.drop place <:+ rest := by
          have under : rest <:+ content := by
            rw [whole]
            exact (List.suffix_cons _ _).trans (List.suffix_append _ _)
          refine List.suffix_of_suffix_length_le (List.drop_suffix _ _) under ?_
          rw [List.length_drop]
          omega
        have fewer := length_linesOf_suffix newline suffix
        rw [lines, length_rtake] at fewer
        rw [length_rtake]
        omega
  refine ⟨inside, ?_, seen.1⟩
  rcases stops.why with start | counted | capped
  · omega
  · omega
  · exact capped

/-- A last line that exactly fills what the loop reads is kept although the loop may have
stopped in it. -/
def FillsLimit (n : Nat) (content : GoString) : Prop :=
  n = 1 ∧ 1 < (linesOf newline content).length ∧ tailSpan n content = readLimit n + 1

theorem Stops.exact_beyond (stops : Stops n content place) (positive : 1 ≤ n)
    (large : readLimit n < tailSpan n content) :
    tailFrom n content place = (linesOf newline content).rtake n ↔ FillsLimit n content := by
  obtain ⟨inside, limit, fewer⟩ := stops.beyond positive large
  obtain ⟨-, -, first, rest, seen, -, alone, others⟩ := stops.inside positive inside
  have within := stops.within
  have nonempty : content.drop place ≠ [] := by
    intro empty
    rw [empty, linesOf_nil] at seen
    cases seen
  rw [seen, List.length_cons] at fewer
  by_cases single : rest = []
  · subst single
    rw [alone rfl, ← seen]
    cases span n positive content with
    | few lines span =>
        -- The lines of a proper part of the file are not those of the whole file.
        rw [rtake_of_length_le lines]
        constructor
        · intro same
          have whole := eq_of_linesOf_eq newline (List.drop_suffix place content) nonempty same
          have length := congrArg List.length whole
          rw [List.length_drop] at length
          omega
        · rintro ⟨rfl, more, -⟩
          omega
    | many before tail whole lines more span =>
        have under : tail <:+ content := by
          rw [whole]
          exact (List.suffix_cons _ _).trans (List.suffix_append _ _)
        have suffix : content.drop place <:+ tail := by
          refine List.suffix_of_suffix_length_le (List.drop_suffix _ _) under ?_
          rw [List.length_drop]
          omega
        rw [← lines]
        constructor
        · intro same
          have all := congrArg List.length (eq_of_linesOf_eq newline suffix nonempty same)
          have one := congrArg List.length (same.symm.trans seen)
          rw [lines, length_rtake, List.length_cons, List.length_nil] at one
          rw [List.length_drop] at all
          exact ⟨by omega, by omega, by omega⟩
        · rintro ⟨rfl, -, fills⟩
          rw [suffix.eq_of_length (by rw [List.length_drop]; omega)]
  · rw [others single]
    have some_ := List.length_pos_iff.2 single
    constructor
    · intro same
      have lengths := congrArg List.length same
      rw [length_rtake] at lengths
      omega
    · rintro ⟨rfl, -, -⟩
      rw [length_rtake] at fewer
      omega

/-! ## The tail of a file -/

section Tail

variable {openFile : Path → Except GoError LogFile} {path : Path} {file : LogFile}

/-- **Chunked and whole-file tail agree.**  The loop ends, reads less than one chunk more
than its cap, and no index is out of range.  If the last `n` lines with the newline before
them are within the cap, they are what is returned; otherwise it is the last ones of these,
or the end of the last one. -/
theorem tailFile_agrees (opened : openFile path = .ok file) (has : file.Has content)
    (positive : 1 ≤ n) (small : readCap n < 2 ^ 63) :
    ∃ t out, tailLoop file n (maxReadBytes n) { remaining := content.length } = .ok t ∧
      t.read < readCap n + tailChunkSize ∧ tailFile openFile path n = .ok out ∧
      (tailSpan n content ≤ readCap n → out = (linesOf newline content).rtake n) ∧
      (readCap n < tailSpan n content →
        out.length ≤ n ∧
          (out <:+ (linesOf newline content).rtake n ∨
            ∃ last fragment, (linesOf newline content).getLast? = some last ∧
              fragment <:+ last ∧ out = [fragment])) := by
  obtain ⟨t, ends, scanned, stops, read⟩ := tailLoop_stops has small
  refine ⟨t, tailFrom n content t.remaining, ends, read, tailFile_eq opened has positive scanned ends,
    ?_, fun _ => stops.part positive⟩
  intro fits
  apply stops.exact positive
  unfold readLimit tailChunkSize
  omega

/-- A file with that content. -/
def fixedFile (content : GoString) : LogFile :=
  ⟨.ok ⟨true, content.length⟩, fun offset size => .ok ((content.drop offset).take size)⟩

theorem fixedFile_has (content : GoString) : (fixedFile content).Has content :=
  ⟨rfl, fun _ _ => rfl⟩

/-- Every path opens it. -/
def onlyFile (content : GoString) : Path → Except GoError LogFile := fun _ => .ok (fixedFile content)

theorem tailFile_agrees_twoLines :
    ∃ out, tailFile (onlyFile (lit "one\ntwo\n")) [] 1 = .ok out ∧ out = [lit "two"] := by
  have opened : onlyFile (lit "one\ntwo\n") [] = .ok (fixedFile (lit "one\ntwo\n")) := rfl
  obtain ⟨-, out, -, -, ends, exact_, -⟩ :=
    tailFile_agrees (n := 1) opened (fixedFile_has _) (by decide) (by decide)
  exact ⟨out, ends, exact_ (by decide)⟩

/-- Where the loop stops decides what `tailFile` returns. -/
theorem tailFile_from (opened : openFile path = .ok file) (has : file.Has content)
    (positive : 1 ≤ n) (small : readCap n < 2 ^ 63) :
    ∃ place, Stops n content place ∧ tailFile openFile path n = .ok (tailFrom n content place) := by
  obtain ⟨t, ends, scanned, stops, -⟩ := tailLoop_stops has small
  exact ⟨t.remaining, stops, tailFile_eq opened has positive scanned ends⟩

/-- **When the cap costs no lines**: the last `n` lines with the newline before them are
within the cap, taken in whole chunks; or one line is asked for and it fills these exactly. -/
theorem tailFile_exact_iff (opened : openFile path = .ok file) (has : file.Has content)
    (positive : 1 ≤ n) (small : readCap n < 2 ^ 63) :
    tailFile openFile path n = .ok ((linesOf newline content).rtake n) ↔
      tailSpan n content ≤ readLimit n ∨ FillsLimit n content := by
  obtain ⟨place, stops, ends⟩ := tailFile_from opened has positive small
  rw [ends, Except.ok.injEq]
  by_cases fits : tailSpan n content ≤ readLimit n
  · simp [fits, stops.exact positive fits]
  · rw [stops.exact_beyond positive (by omega)]
    simp [fits]

theorem tailFile_exact_iff_twoLines :
    tailFile (onlyFile (lit "one\ntwo\n")) [] 1 = .ok [lit "two"] := by
  have opened : onlyFile (lit "one\ntwo\n") [] = .ok (fixedFile (lit "one\ntwo\n")) := rfl
  exact (tailFile_exact_iff (n := 1) opened (fixedFile_has _) (by decide) (by decide)).2
    (.inl (by decide))

/-- A log of `k` lines of one width. -/
def evenLines (width k : Nat) : GoString :=
  (List.replicate k (List.replicate width 120 ++ [newline])).flatten

theorem evenLines_succ (width k : Nat) :
    evenLines width (k + 1) = List.replicate width 120 ++ newline :: evenLines width k := by
  simp [evenLines, List.replicate_succ]

theorem linesOf_evenLines (width k : Nat) :
    linesOf newline (evenLines width k) = List.replicate k (List.replicate width 120) := by
  have absent : newline ∉ List.replicate width (120 : UInt8) := by
    rw [List.mem_replicate]
    exact fun member => absurd member.2 (by decide)
  induction k with
  | zero => exact linesOf_nil newline
  | succ k ih =>
      rw [evenLines_succ, linesOf_append_cons, ih, List.splitOn_eq_singleton absent]
      rfl

theorem length_evenLines (width k : Nat) : (evenLines width k).length = k * (width + 1) := by
  induction k with
  | zero => simp [evenLines]
  | succ k ih =>
      rw [evenLines_succ, List.length_append, List.length_cons, ih, List.length_replicate]
      ring

theorem tailSpan_evenLines (width k : Nat) : tailSpan k (evenLines width k) = k * (width + 1) := by
  unfold tailSpan earlier
  rw [linesOf_evenLines, List.length_replicate, Nat.sub_self, List.take_zero, List.intercalate_nil,
    length_evenLines]
  rfl

/-- **Long lines exceed the cap.**  For the last fifty lines of a log of fifty, each of the
16 KiB the runtime splits at, something else is returned. -/
theorem longLines_cut :
    (∀ line ∈ linesOf newline (evenLines 16384 50), line.length ≤ 16 * 1024) ∧
      tailFile (onlyFile (evenLines 16384 50)) [] 50 ≠
        .ok ((linesOf newline (evenLines 16384 50)).rtake 50) := by
  constructor
  · intro line member
    rw [linesOf_evenLines, List.mem_replicate] at member
    rw [member.2, List.length_replicate]
  · have opened : onlyFile (evenLines 16384 50) [] = .ok (fixedFile (evenLines 16384 50)) := rfl
    obtain ⟨place, stops, ends⟩ :=
      tailFile_from (n := 50) opened (fixedFile_has _) (by decide) (by decide)
    have large : readLimit 50 < tailSpan 50 (evenLines 16384 50) := by
      rw [tailSpan_evenLines]
      decide
    intro whole
    have same := Except.ok.inj (ends.symm.trans whole)
    have fills := (stops.exact_beyond (by decide) large).1 same
    exact absurd fills.1 (by decide)

end Tail

end KubeAutopsy.Agent
