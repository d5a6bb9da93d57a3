/-
# KubeAutopsy.Controller.Slack — the text of a Slack notification

The Slack branch of `Send` in `internal/controller/webhook.go`, `escapeSlackText` and
`slackLogBlock`.  Index and slice expressions are the checked ones, so a text is returned only
if none of them is out of range.  The format of a time is a parameter.

`slackLogBlock_eq` is the block without the indices: what is left of the escaped text from
some place on, from the next character on, from the next line on if there is one.  Whatever
the report holds, the text fits and has no markup in what it takes from the report
(`slackText_bounded`).  With the header and the lines as short as the API server keeps them,
there always is a next line (`logBlock_lines`).
-/
import KubeAutopsy.Api.Types
import KubeAutopsy.Theory.Escape
import KubeAutopsy.Theory.Slices

namespace KubeAutopsy.Controller.Slack

open KubeAutopsy.Api
open KubeAutopsy.Theory.Bytes (GoString lit itoa cut eq_of_cut cut_byte cut_absent)
open KubeAutopsy.Theory.Escape
open KubeAutopsy.Theory.Slices
open KubeAutopsy.Theory.Utf8

set_option autoImplicit false

/-! ## The code -/

def slackMaxTextBytes : Nat := 30000

def slackTruncationMarker : GoString := lit "…[earlier lines truncated]\n"

def escapeByte (b : UInt8) : GoString :=
  if b = 0x26 then lit "&amp;"
  else if b = 0x3C then lit "&lt;"
  else if b = 0x3E then lit "&gt;"
  else [b]

def escapeSlackText (s : GoString) : GoString := s.flatMap escapeByte

/-- The loop that moves the cut to a byte that starts a rune, with at most `n` rounds. -/
def runeCut (escaped : GoString) : Nat → Int → Except (Stop Empty) Int
  | 0, at_ => .ok at_
  | n + 1, at_ =>
      if at_ < escaped.length then do
        if runeStart (← elementAt escaped at_) then .ok at_ else runeCut escaped n (at_ + 1)
      else .ok at_

/-- `strings.IndexByte`. -/
def indexByte (s : GoString) (b : UInt8) : Int := if b ∈ s then s.idxOf b else -1

/-- The last statement before the return: on to the next line, if something is behind the
line break. -/
def lineCut (trimmed : GoString) : Except (Stop Empty) GoString :=
  let i := indexByte trimmed 0x0A
  if i ≥ 0 ∧ i < (trimmed.length : Int) - 1 then sliceFrom trimmed (i + 1) else .ok trimmed

def slackLogBlock (escaped : GoString) (budget : Int) : Except (Stop Empty) GoString :=
  if budget ≤ slackTruncationMarker.length then .ok []
  else if escaped.length ≤ budget then .ok escaped
  else do
    let keep := budget - slackTruncationMarker.length
    let trimmed ← sliceFrom escaped (← runeCut escaped escaped.length (escaped.length - keep))
    return slackTruncationMarker ++ (← lineCut trimmed)

/-- The layout of `time.RFC3339`, in UTC. -/
structure TimeFormat where
  rfc3339 : Int → GoString
  valid : ∀ t, Valid (rfc3339 t)

def megabytes (bytes : Int) : GoString := itoa (bytes.tdiv (1024 * 1024))

section Text

variable (fmt : TimeFormat) (report : PodCrashReport)

-- The three parts of the header around the names of the two processes.

def headerBefore : GoString :=
  lit ":rotating_light: *Pod Crash Detected*\n" ++
  lit "*Pod:* " ++ report.spec.namespace_ ++ lit "/" ++ report.spec.podName ++
    lit " (container: " ++ report.spec.containerName ++ lit ")\n" ++
  lit "*Node:* " ++ report.spec.nodeName ++ lit "\n" ++
  lit "*Reason:* " ++ report.spec.terminationReason.text ++
    lit " (exit code: " ++ itoa report.spec.exitCode ++ lit ")\n" ++
  lit "*OOM Context:* " ++ report.status.diagnostics.oomContext.text ++ lit "\n" ++
  lit "*Trigger Process:* "

def headerBetween : GoString :=
  lit " (PID: " ++ itoa report.status.diagnostics.triggerPID ++ lit ")\n" ++
  lit "*Victim Process:* "

def headerAfter : GoString :=
  lit " (PID: " ++ itoa report.status.diagnostics.oomVictimPID ++ lit ")\n" ++
  lit "*Victim RSS:* " ++ megabytes report.status.diagnostics.victimRSSBytes ++
    lit " MB (scope limit: " ++ megabytes report.status.diagnostics.oomScopeLimitBytes ++
    lit " MB)\n" ++
  lit "*Time:* " ++ fmt.rfc3339 report.spec.timestamp

def slackHeader : GoString :=
  headerBefore report ++ escapeSlackText report.status.diagnostics.triggerComm ++
  headerBetween report ++ escapeSlackText report.status.diagnostics.oomVictimComm ++
  headerAfter fmt report

def fenceOpen : GoString := lit "\n*Last log lines:*\n```\n"
def fenceClose : GoString := lit "\n```"

/-- `strings.Join` of the log lines. -/
def logText : GoString := [0x0A].intercalate report.status.diagnostics.lastLogLines

def logBudget : Int :=
  slackMaxTextBytes - (slackHeader fmt report).length - (fenceOpen ++ fenceClose).length

/-- A block is left out if it is empty. -/
def logSection (block : GoString) : GoString :=
  if block ≠ [] then fenceOpen ++ block ++ fenceClose else []

def slackText (includeLogs : Bool) : Except (Stop Empty) GoString :=
  if includeLogs ∧ report.status.diagnostics.lastLogLines.length > 0 then do
    let block ← slackLogBlock (escapeSlackText (logText report)) (logBudget fmt report)
    return slackHeader fmt report ++ logSection block
  else return slackHeader fmt report

end Text

/-! ## Escaped text -/

theorem keeps_newline : Keeps escapeByte 0x0A := ⟨rfl, by decide +kernel⟩

theorem asciiOnly_escapeByte : AsciiOnly escapeByte where
  ascii b low := by
    rw [escapeByte]
    split_ifs
    · exact valid_lit _
    · exact valid_lit _
    · exact valid_lit _
    · exact valid_ascii low
  other b high := by
    have plain : ∀ c : UInt8, ¬ c < 0x80 → escapeByte c = [c] := by decide +kernel
    exact plain b high

theorem length_escapeByte : ∀ b, (escapeByte b).length ≤ 5 := by
  decide +kernel

/-- What a reader makes of the entities. -/
def unescapeSlackText : GoString → GoString
  | 0x26 :: 0x61 :: 0x6D :: 0x70 :: 0x3B :: rest => 0x26 :: unescapeSlackText rest
  | 0x26 :: 0x6C :: 0x74 :: 0x3B :: rest => 0x3C :: unescapeSlackText rest
  | 0x26 :: 0x67 :: 0x74 :: 0x3B :: rest => 0x3E :: unescapeSlackText rest
  | b :: rest => b :: unescapeSlackText rest
  | [] => []

theorem unescape_escapeByte (b : UInt8) (rest : GoString) :
    unescapeSlackText (escapeByte b ++ rest) = b :: unescapeSlackText rest := by
  rw [escapeByte]
  split_ifs with amp lt gt
  · subst amp
    rfl
  · subst lt
    rfl
  · subst gt
    rfl
  · rw [List.singleton_append, unescapeSlackText]
    all_goals
      intro _ same
      exact absurd same amp

theorem unescape_escapeSlackText (s : GoString) : unescapeSlackText (escapeSlackText s) = s := by
  induction s with
  | nil => rfl
  | cons b s ih =>
      have parts : escapeSlackText (b :: s) = escapeByte b ++ escapeSlackText s := rfl
      rw [parts, unescape_escapeByte, ih]

/-! ## The block without indices -/

/-- From the next line on, if there is one. -/
def fromLine (s : GoString) : GoString :=
  match cut [0x0A] s with
  | some (_, after) => if after = [] then s else after
  | none => s

/-- At most `keep` bytes of the end, from a character on, and from a line on if there is
one. -/
def keptEnd (escaped : GoString) (keep : Nat) : GoString :=
  fromLine ((escaped.drop (escaped.length - keep)).dropWhile (!runeStart ·))

theorem runeCut_eq (escaped : GoString) {n low : Nat} (inside : low ≤ escaped.length)
    (enough : escaped.length ≤ low + n) :
    ∃ high : Nat, runeCut escaped n low = .ok (high : Int) ∧ high ≤ escaped.length ∧
      escaped.drop high = (escaped.drop low).dropWhile (!runeStart ·) := by
  induction n generalizing low with
  | zero =>
      have ended : escaped.drop low = [] := List.drop_eq_nil_of_le (by omega)
      exact ⟨low, rfl, inside, by rw [ended]; rfl⟩
  | succ n ih =>
      by_cases more : low < escaped.length
      · have here : ((low : Nat) : Int) < escaped.length := by omega
        rw [runeCut, if_pos here, elementAt_of_lt more, List.drop_eq_getElem_cons more]
        cases starts : runeStart escaped[low] with
        | true =>
            refine ⟨low, by simp [starts, bind, Except.bind], inside, ?_⟩
            rw [List.dropWhile_cons_of_neg (by simp [starts]), List.drop_eq_getElem_cons more]
        | false =>
            obtain ⟨high, run, within, rest⟩ := ih (Nat.succ_le_of_lt more) (by omega)
            refine ⟨high, ?_, within, ?_⟩
            · simpa [starts, bind, Except.bind] using run
            · rw [rest, List.dropWhile_cons_of_pos (by simp [starts])]
      · have past : ¬ ((low : Nat) : Int) < escaped.length := by omega
        have ended : escaped.drop low = [] := List.drop_eq_nil_of_le (by omega)
        exact ⟨low, by rw [runeCut, if_neg past], inside, by rw [ended]; rfl⟩

/-- The line break that is looked for is the one the text is cut at. -/
theorem lineCut_eq (s : GoString) : lineCut s = .ok (fromLine s) := by
  rw [lineCut]
  by_cases found : (0x0A : UInt8) ∈ s
  · obtain ⟨before, after, rfl, absent⟩ := List.eq_append_cons_of_mem found
    have index : indexByte (before ++ 0x0A :: after) 0x0A = before.length := by
      rw [indexByte, if_pos found, List.idxOf_append_of_notMem absent, List.idxOf_cons_self]
      rfl
    rw [index, fromLine, cut_byte absent]
    cases after with
    | nil =>
        have last : ¬ ((before.length : Int) ≥ 0 ∧
            (before.length : Int) < ((before ++ [(0x0A : UInt8)]).length : Int) - 1) := by
          rw [List.length_append]
          simp
        rw [if_neg last]
        rfl
    | cons b after =>
        have early : (before.length : Int) ≥ 0 ∧
            (before.length : Int) < ((before ++ 0x0A :: b :: after).length : Int) - 1 := by
          rw [List.length_append, List.length_cons, List.length_cons]
          omega
        have place : (before.length : Int) + 1 = ((before.length + 1 : Nat) : Int) := rfl
        rw [if_pos early, place, sliceFrom_of_le (by simp), List.drop_append]
        simp
  · rw [indexByte, if_neg found, fromLine, cut_absent found]
    rfl

/-- **The block, without an index that could be out of range.** -/
theorem slackLogBlock_eq (escaped : GoString) (budget : Int) :
    slackLogBlock escaped budget =
      .ok (if budget ≤ slackTruncationMarker.length then []
        else if escaped.length ≤ budget then escaped
        else slackTruncationMarker ++
          keptEnd escaped (budget - slackTruncationMarker.length).toNat) := by
  rw [slackLogBlock]
  split_ifs with small whole
  · rfl
  · rfl
  · have start : (escaped.length : Int) - (budget - slackTruncationMarker.length) =
        ((escaped.length - (budget - slackTruncationMarker.length).toNat : Nat) : Int) := by
      omega
    obtain ⟨high, run, within, rest⟩ := runeCut_eq escaped
      (Nat.sub_le escaped.length (budget - slackTruncationMarker.length).toNat)
      (Nat.le_add_left escaped.length _)
    simp only [start, run, sliceFrom_of_le within, lineCut_eq, bind, Except.bind, pure, Except.pure,
      rest, keptEnd]

theorem fromLine_suffix (s : GoString) : fromLine s <:+ s := by
  rw [fromLine]
  split
  · rename_i before after found
    split
    · exact List.suffix_rfl
    · rw [eq_of_cut found, ← List.append_assoc]
      exact List.suffix_append _ _
  · exact List.suffix_rfl

theorem keptEnd_suffix_drop (escaped : GoString) (keep : Nat) :
    keptEnd escaped keep <:+ escaped.drop (escaped.length - keep) :=
  (fromLine_suffix _).trans (List.dropWhile_suffix _)

theorem keptEnd_suffix (escaped : GoString) (keep : Nat) : keptEnd escaped keep <:+ escaped :=
  (keptEnd_suffix_drop escaped keep).trans (List.drop_suffix _ _)

theorem length_keptEnd_le (escaped : GoString) (keep : Nat) :
    (keptEnd escaped keep).length ≤ keep := by
  have short := (keptEnd_suffix_drop escaped keep).length_le
  rw [List.length_drop] at short
  omega

theorem fromLine_valid {s : GoString} (valid : Valid s) : Valid (fromLine s) := by
  rw [fromLine]
  split
  · rename_i before after found
    split
    · exact valid
    · rw [eq_of_cut found] at valid
      exact (valid.around (by decide)).2
  · exact valid

/-- What is left from a byte on that starts a rune is valid. -/
theorem keptEnd_valid {escaped : GoString} (valid : Valid escaped) (keep : Nat) :
    Valid (keptEnd escaped keep) := by
  apply fromLine_valid
  obtain ⟨front, whole⟩ := (List.dropWhile_suffix (!runeStart ·)).trans
    (List.drop_suffix (escaped.length - keep) escaped)
  rw [← whole] at valid
  refine (valid.cut ?_).2
  intro b first
  have stopped := List.head?_dropWhile_not (!runeStart ·) (escaped.drop (escaped.length - keep))
  rw [Option.mem_def.1 first] at stopped
  simpa using stopped

/-- A block is empty or within the budget. -/
theorem slackLogBlock_bounded (escaped : GoString) (budget : Int) :
    ∃ block, slackLogBlock escaped budget = .ok block ∧
      (block = [] ∨ (block.length : Int) ≤ budget) := by
  refine ⟨_, slackLogBlock_eq escaped budget, ?_⟩
  split_ifs with small whole
  · exact .inl rfl
  · exact .inr whole
  · have short := length_keptEnd_le escaped (budget - slackTruncationMarker.length).toNat
    rw [List.length_append]
    omega

/-! ## No markup -/

def entities : List GoString := [lit "&amp;", lit "&lt;", lit "&gt;"]

/-- Nothing in the text is markup: no angle bracket, and no ampersand but the one that starts
an entity. -/
structure Neutral (s : GoString) : Prop where
  less : 0x3C ∉ s
  greater : 0x3E ∉ s
  ampersand : ∀ t, t <:+ s → t.head? = some 0x26 → ∃ entity ∈ entities, entity <+: t

theorem Neutral.suffix {s t : GoString} (neutral : Neutral s) (suffix : t <:+ s) : Neutral t where
  less inside := neutral.less (suffix.subset inside)
  greater inside := neutral.greater (suffix.subset inside)
  ampersand u tail := neutral.ampersand u (tail.trans suffix)

theorem neutral_nil : Neutral [] where
  less := by simp
  greater := by simp
  ampersand t suffix first := by
    rw [List.suffix_nil.1 suffix] at first
    cases first

theorem Neutral.append {s t : GoString} (first : Neutral s) (second : Neutral t) :
    Neutral (s ++ t) where
  less := by simp [first.less, second.less]
  greater := by simp [first.greater, second.greater]
  ampersand u suffix head := by
    obtain ⟨before, whole⟩ := suffix
    rcases List.append_eq_append_iff.1 whole with ⟨front, rfl, rfl⟩ | ⟨front, -, rfl⟩
    · cases front with
      | nil => exact second.ampersand t List.suffix_rfl head
      | cons b front =>
          obtain ⟨entity, known, starts⟩ :=
            first.ampersand (b :: front) (List.suffix_append _ _) head
          exact ⟨entity, known, starts.trans (List.prefix_append _ _)⟩
    · exact second.ampersand u (List.suffix_append _ _) head

theorem neutral_of_tails {s : GoString} (less : 0x3C ∉ s) (greater : 0x3E ∉ s)
    (ampersand : ∀ t ∈ s.tails, t.head? = some 0x26 → ∃ entity ∈ entities, entity <+: t) :
    Neutral s :=
  ⟨less, greater, fun t suffix => ampersand t ((List.mem_tails t s).2 suffix)⟩

theorem neutral_escapeByte (b : UInt8) : Neutral (escapeByte b) := by
  have all : ∀ b, 0x3C ∉ escapeByte b ∧ 0x3E ∉ escapeByte b ∧
      ∀ t ∈ (escapeByte b).tails, t.head? = some 0x26 → ∃ entity ∈ entities, entity <+: t := by
    decide +kernel
  obtain ⟨less, greater, ampersand⟩ := all b
  exact neutral_of_tails less greater ampersand

theorem neutral_escapeSlackText (s : GoString) : Neutral (escapeSlackText s) := by
  induction s with
  | nil => exact neutral_nil
  | cons b s ih => exact (neutral_escapeByte b).append ih

theorem neutral_marker : Neutral slackTruncationMarker := by
  apply neutral_of_tails <;> decide +kernel

/-- A block of escaped text has no markup, wherever it was cut. -/
theorem neutral_slackLogBlock {escaped block : GoString} {budget : Int} (neutral : Neutral escaped)
    (made : slackLogBlock escaped budget = .ok block) : Neutral block := by
  rw [slackLogBlock_eq] at made
  obtain rfl := Except.ok.inj made
  split_ifs
  · exact neutral_nil
  · exact neutral
  · exact neutral_marker.append (neutral.suffix (keptEnd_suffix _ _))

theorem valid_slackLogBlock {escaped block : GoString} {budget : Int} (valid : Valid escaped)
    (made : slackLogBlock escaped budget = .ok block) : Valid block := by
  rw [slackLogBlock_eq] at made
  obtain rfl := Except.ok.inj made
  split_ifs
  · exact valid_nil
  · exact valid
  · exact (valid_lit _).append (keptEnd_valid valid _)

/-! ## The whole text -/

/-- The strings of a report that the text takes over are valid. -/
structure StringsValid (report : PodCrashReport) : Prop where
  namespace_ : Valid report.spec.namespace_
  podName : Valid report.spec.podName
  containerName : Valid report.spec.containerName
  nodeName : Valid report.spec.nodeName
  triggerComm : Valid report.status.diagnostics.triggerComm
  oomVictimComm : Valid report.status.diagnostics.oomVictimComm
  lastLogLines : ∀ line ∈ report.status.diagnostics.lastLogLines, Valid line

section Whole

variable {fmt : TimeFormat} {report : PodCrashReport}

theorem valid_itoa (n : Int) : Valid (itoa n) := valid_lit _

theorem valid_escapeSlackText {s : GoString} (valid : Valid s) : Valid (escapeSlackText s) :=
  valid_flatMap asciiOnly_escapeByte valid

theorem valid_reason (reason : TerminationReason) : Valid reason.text := by
  cases reason <;> exact valid_lit _

theorem valid_context (context : OOMContext) : Valid context.text := by
  cases context
  · exact valid_nil
  · exact valid_lit _
  · exact valid_lit _

theorem valid_headerBefore (valid : StringsValid report) : Valid (headerBefore report) :=
  (valid_lit _).append (valid_lit _)
    |>.append valid.namespace_ |>.append (valid_lit _)
    |>.append valid.podName |>.append (valid_lit _)
    |>.append valid.containerName |>.append (valid_lit _) |>.append (valid_lit _)
    |>.append valid.nodeName |>.append (valid_lit _) |>.append (valid_lit _)
    |>.append (valid_reason _) |>.append (valid_lit _)
    |>.append (valid_itoa _) |>.append (valid_lit _) |>.append (valid_lit _)
    |>.append (valid_context _) |>.append (valid_lit _) |>.append (valid_lit _)

theorem valid_headerBetween : Valid (headerBetween report) :=
  (valid_lit _).append (valid_itoa _) |>.append (valid_lit _) |>.append (valid_lit _)

theorem valid_headerAfter : Valid (headerAfter fmt report) :=
  (valid_lit _).append (valid_itoa _) |>.append (valid_lit _) |>.append (valid_lit _)
    |>.append (valid_itoa _) |>.append (valid_lit _)
    |>.append (valid_itoa _) |>.append (valid_lit _) |>.append (valid_lit _)
    |>.append (fmt.valid _)

theorem valid_slackHeader (valid : StringsValid report) : Valid (slackHeader fmt report) :=
  (valid_headerBefore valid).append (valid_escapeSlackText valid.triggerComm)
    |>.append valid_headerBetween
    |>.append (valid_escapeSlackText valid.oomVictimComm)
    |>.append valid_headerAfter

theorem valid_intercalate {lines : List GoString} (valid : ∀ line ∈ lines, Valid line) :
    Valid ([0x0A].intercalate lines) := by
  induction lines with
  | nil => exact valid_nil
  | cons line lines ih =>
      obtain ⟨head, tail⟩ := List.forall_mem_cons.1 valid
      cases lines with
      | nil => simpa using head
      | cons next lines =>
          rw [List.intercalate_cons_cons]
          exact (head.append (valid_ascii (by decide))).append (ih tail)

theorem valid_logSection {block : GoString} (valid : Valid block) : Valid (logSection block) := by
  rw [logSection]
  split
  · exact ((valid_lit _).append valid).append (valid_lit _)
  · exact valid_nil

/-- A block within its budget leaves room for the fence. -/
theorem length_slackText_le {block : GoString}
    (bounded : block = [] ∨ (block.length : Int) ≤ logBudget fmt report) :
    (slackHeader fmt report ++ logSection block).length ≤
      max slackMaxTextBytes (slackHeader fmt report).length := by
  rw [List.length_append, logSection]
  rcases bounded with rfl | bounded
  · simp
  · rw [logBudget, List.length_append] at bounded
    split
    · rw [List.length_append, List.length_append]
      omega
    · simp

/-- The header, and a section of a block that `slackLogBlock` made of the log. -/
theorem slackText_eq (fmt : TimeFormat) (report : PodCrashReport) (includeLogs : Bool) :
    ∃ block, slackText fmt report includeLogs = .ok (slackHeader fmt report ++ logSection block) ∧
      (block = [] ∨
        slackLogBlock (escapeSlackText (logText report)) (logBudget fmt report) = .ok block) := by
  rw [slackText]
  split
  · obtain ⟨block, made, -⟩ :=
      slackLogBlock_bounded (escapeSlackText (logText report)) (logBudget fmt report)
    exact ⟨block, by rw [made]; rfl, .inr made⟩
  · refine ⟨[], ?_, .inl rfl⟩
    show Except.ok (slackHeader fmt report) = Except.ok (slackHeader fmt report ++ [])
    rw [List.append_nil]

theorem slackText_logged {block : GoString}
    (logged : report.status.diagnostics.lastLogLines ≠ [])
    (made : slackLogBlock (escapeSlackText (logText report)) (logBudget fmt report) = .ok block) :
    slackText fmt report true = .ok (slackHeader fmt report ++ logSection block) := by
  rw [slackText, if_pos ⟨rfl, List.length_pos_iff.2 logged⟩, made]
  rfl

end Whole

/-- **The text fits, is valid, and has no markup in what it takes from a workload.** -/
theorem slackText_bounded (fmt : TimeFormat) (report : PodCrashReport) (includeLogs : Bool) :
    (∃ block,
      slackText fmt report includeLogs = .ok (headerBefore report ++
        escapeSlackText report.status.diagnostics.triggerComm ++ headerBetween report ++
        escapeSlackText report.status.diagnostics.oomVictimComm ++ headerAfter fmt report ++
        logSection block) ∧
      (slackHeader fmt report ++ logSection block).length ≤
        max slackMaxTextBytes (slackHeader fmt report).length ∧
      (StringsValid report → Valid (slackHeader fmt report ++ logSection block)) ∧
      Neutral (escapeSlackText report.status.diagnostics.triggerComm) ∧
      Neutral (escapeSlackText report.status.diagnostics.oomVictimComm) ∧
      Neutral block) ∧
    ∀ escaped budget, ∃ block, slackLogBlock escaped budget = .ok block ∧
      (block = [] ∨ (block.length : Int) ≤ budget) := by
  refine ⟨?_, slackLogBlock_bounded⟩
  obtain ⟨block, text, origin⟩ := slackText_eq fmt report includeLogs
  refine ⟨block, text, ?_, ?_, neutral_escapeSlackText _, neutral_escapeSlackText _, ?_⟩
  · rcases origin with rfl | made
    · simp [logSection]
    · obtain ⟨made', same, bounded⟩ :=
        slackLogBlock_bounded (escapeSlackText (logText report)) (logBudget fmt report)
      obtain rfl := Except.ok.inj (same.symm.trans made)
      exact length_slackText_le bounded
  · intro valid
    refine (valid_slackHeader valid).append (valid_logSection ?_)
    rcases origin with rfl | made
    · exact valid_nil
    · exact valid_slackLogBlock
        (valid_escapeSlackText (valid_intercalate valid.lastLogLines)) made
  · rcases origin with rfl | made
    · exact neutral_nil
    · exact neutral_slackLogBlock (neutral_escapeSlackText _) made

/-! ## Whole lines -/

/-- The last `k` lines of a text. -/
def lastLines (text : GoString) (k : Nat) : GoString :=
  [0x0A].intercalate ((text.splitOn 0x0A).drop ((text.splitOn 0x0A).length - k))

section Lines

variable {text : GoString}

/-- At most three bytes are skipped to the next character. -/
theorem dropWhile_valid {escaped : GoString} (valid : Valid escaped) (n : Nat) :
    ∃ skipped, escaped.drop n = skipped ++ (escaped.drop n).dropWhile (!runeStart ·) ∧
      skipped.length ≤ 3 := by
  have whole := valid
  rw [← List.take_append_drop n escaped] at whole
  obtain ⟨owed, rest, parts, -, back, short, continuing⟩ := whole.split
  refine ⟨owed, ?_, short⟩
  have stops : rest.dropWhile (!runeStart ·) = rest := by
    cases rest with
    | nil => rfl
    | cons b rest => exact List.dropWhile_cons_of_neg (by simp [back.head])
  rw [parts, List.dropWhile_append_of_pos fun b member => by simp [continuing b member], stops]

/-- A piece of an escaped text that starts within a line of at most `m` bytes and is longer
goes on with the next line. -/
theorem fromLine_lines {m : Nat} {front rest : GoString}
    (whole : escapeSlackText text = front ++ rest)
    (bounded : ∀ line ∈ text.splitOn 0x0A, (escapeSlackText line).length ≤ m)
    (long : m + 1 < rest.length) :
    ∃ k, 1 ≤ k ∧ k ≤ (text.splitOn 0x0A).length ∧
      fromLine rest = escapeSlackText (lastLines text k) := by
  obtain ⟨pieces, last, first, others, before, tail, both⟩ :=
    Theory.Lines.splitOn_append (0x0A : UInt8) front rest
  have lines : (text.splitOn 0x0A).map escapeSlackText = pieces ++ (last ++ first) :: others := by
    rw [← both, ← whole]
    exact (splitOn_flatMap keeps_newline text).symm
  -- The line the piece starts in ends before the piece does.
  have near : first.length ≤ m := by
    have member : last ++ first ∈ (text.splitOn 0x0A).map escapeSlackText := by
      rw [lines]
      exact List.mem_append_right _ List.mem_cons_self
    obtain ⟨line, here, same⟩ := List.mem_map.1 member
    have short := bounded line here
    rw [same, List.length_append] at short
    omega
  have broken : (0x0A : UInt8) ∈ rest := by
    by_contra absent
    rw [List.splitOn_eq_singleton absent] at tail
    rw [← (List.cons.inj tail).1] at near
    omega
  obtain ⟨line, after, rfl, absent⟩ := List.eq_append_cons_of_mem broken
  rw [List.splitOn_append_cons_self_of_not_mem absent] at tail
  obtain ⟨rfl, rfl⟩ := List.cons.inj tail
  have more : after ≠ [] := by
    rintro rfl
    rw [List.length_append, List.length_singleton] at long
    omega
  have total := congrArg List.length lines
  rw [List.length_map, List.length_append, List.length_cons] at total
  have some_ := List.length_pos_iff.2 (List.splitOn_ne_nil (0x0A : UInt8) after)
  refine ⟨(after.splitOn 0x0A).length, some_, by omega, ?_⟩
  have place : (text.splitOn 0x0A).length - (after.splitOn 0x0A).length = pieces.length + 1 := by
    omega
  have behind : ((text.splitOn 0x0A).drop (pieces.length + 1)).map escapeSlackText =
      after.splitOn 0x0A := by
    rw [List.map_drop, lines, List.drop_append]
    simp
  rw [fromLine, cut_byte absent, lastLines, place]
  show (if after = [] then _ else after) =
    List.flatMap escapeByte ([0x0A].intercalate ((text.splitOn 0x0A).drop (pieces.length + 1)))
  rw [if_neg more, flatMap_intercalate, List.flatMap_singleton, keeps_newline.itself]
  exact (List.intercalate_splitOn (0x0A : UInt8)).symm.trans (congrArg _ behind.symm)

/-- An end that is longer than every line, and a character and a line break more, shows whole
lines. -/
theorem keptEnd_lines {m keep : Nat} (valid : Valid text)
    (bounded : ∀ line ∈ text.splitOn 0x0A, (escapeSlackText line).length ≤ m)
    (room : m + 5 ≤ keep) (over_ : keep ≤ (escapeSlackText text).length) :
    ∃ k, 1 ≤ k ∧ k ≤ (text.splitOn 0x0A).length ∧
      keptEnd (escapeSlackText text) keep = escapeSlackText (lastLines text k) := by
  obtain ⟨skipped, parts, three⟩ := dropWhile_valid (valid_escapeSlackText valid)
    ((escapeSlackText text).length - keep)
  have long := congrArg List.length parts
  rw [List.length_drop, List.length_append] at long
  have whole := List.take_append_drop ((escapeSlackText text).length - keep) (escapeSlackText text)
  rw [parts, ← List.append_assoc] at whole
  exact fromLine_lines whole.symm bounded (by omega)

end Lines

/-- **A block is the whole log, or a marker and the last lines of it.** -/
theorem logBlock_lines (fmt : TimeFormat) (report : PodCrashReport)
    (header : (slackHeader fmt report).length ≤ 8000)
    (logged : report.status.diagnostics.lastLogLines ≠ [])
    (valid : ∀ line ∈ report.status.diagnostics.lastLogLines, Valid line)
    (short : ∀ line ∈ (logText report).splitOn 0x0A, codePoints line ≤ 4096) :
    ∃ block, slackText fmt report true = .ok (slackHeader fmt report ++ logSection block) ∧
      (block = escapeSlackText (logText report) ∧ unescapeSlackText block = logText report ∨
        ∃ k, 1 ≤ k ∧ k ≤ ((logText report).splitOn 0x0A).length ∧
          block = slackTruncationMarker ++ escapeSlackText (lastLines (logText report) k) ∧
          unescapeSlackText (escapeSlackText (lastLines (logText report) k)) =
            lastLines (logText report) k) := by
  have text : Valid (logText report) := valid_intercalate valid
  have bounded : ∀ line ∈ (logText report).splitOn 0x0A,
      (escapeSlackText line).length ≤ 20480 := by
    intro line member
    have points := short line member
    have bytes := length_flatMap_le asciiOnly_escapeByte (by decide) length_escapeByte
      (text.splitOn (by decide) member)
    rw [escapeSlackText]
    omega
  have marker : slackTruncationMarker.length = 29 := by decide +kernel
  have fence : (fenceOpen ++ fenceClose).length = 27 := by decide +kernel
  have budget : (21973 : Int) ≤ logBudget fmt report := by
    rw [logBudget, fence, slackMaxTextBytes]
    omega
  have made := slackLogBlock_eq (escapeSlackText (logText report)) (logBudget fmt report)
  rw [if_neg (by omega)] at made
  refine ⟨_, slackText_logged logged made, ?_⟩
  by_cases whole : ((escapeSlackText (logText report)).length : Int) ≤ logBudget fmt report
  · rw [if_pos whole]
    exact .inl ⟨rfl, unescape_escapeSlackText _⟩
  · have room : 20480 + 5 ≤ (logBudget fmt report - slackTruncationMarker.length).toNat := by omega
    obtain ⟨k, positive, within, lines⟩ := keptEnd_lines text bounded room (by omega)
    rw [if_neg whole, lines]
    exact .inr ⟨k, positive, within, rfl, unescape_escapeSlackText _⟩

/-- A clock that stands still. -/
def epoch : TimeFormat := ⟨fun _ => lit "1970-01-01T00:00:00Z", fun _ => valid_lit _⟩

/-- A report with a name and a line that are markup. -/
def markup : PodCrashReport :=
  { status := { diagnostics :=
    { triggerComm := lit "<!channel>", lastLogLines := [lit "a < b && c", lit "<!here>"] } } }

theorem logBlock_lines_markup : ∃ block,
    slackText epoch markup true = .ok (slackHeader epoch markup ++ logSection block) ∧
      (block = escapeSlackText (logText markup) ∧ unescapeSlackText block = logText markup ∨
        ∃ k, 1 ≤ k ∧ k ≤ ((logText markup).splitOn 0x0A).length ∧
          block = slackTruncationMarker ++ escapeSlackText (lastLines (logText markup) k) ∧
          unescapeSlackText (escapeSlackText (lastLines (logText markup) k)) =
            lastLines (logText markup) k) := by
  have valid : ∀ line ∈ markup.status.diagnostics.lastLogLines, Valid line := by
    intro line member
    simp only [markup, List.mem_cons, List.not_mem_nil, or_false] at member
    obtain rfl | rfl := member <;> exact valid_lit _
  exact logBlock_lines epoch markup (by decide +kernel) (by decide) valid (by decide +kernel)

end KubeAutopsy.Controller.Slack
