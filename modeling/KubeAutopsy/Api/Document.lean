/-
# KubeAutopsy.Api.Document — what a report says as JSON, and its schema

`document` is the JSON of a report's specification and status under the field tags of
`api/v1alpha1/types.go`, with what `omitempty` leaves out left out.  The metadata, which the
server completes and checks by itself, is no part of it.  `crd` is the schema of
`deploy/base/crd.yaml` for the two.  A write that the schema refuses is lost with everything in it, and so
is one that is larger than the store takes, so the program has to stay within both.

`document_accepted` and `length_document_le` say so of every report whose fields fit.  That
they do fit is up to the writers.
-/
import KubeAutopsy.Api.Types
import KubeAutopsy.Theory.Schemas

namespace KubeAutopsy.Api

open KubeAutopsy.Theory.Bytes (GoString lit)
open KubeAutopsy.Theory.Clock (second)
open KubeAutopsy.Theory.Json
open KubeAutopsy.Theory.Runes
open KubeAutopsy.Theory.Schemas
open KubeAutopsy.Theory.Utf8

set_option autoImplicit false

/-! ## The document -/

/-- A time in nanoseconds from 1970 on, with a year of four digits. -/
def Dated (t : Int) : Prop := 0 ≤ t ∧ t < 253402300800 * 1000000000

theorem dated_wholeSeconds {t : Int} (dated : Dated t) : Dated (wholeSeconds t) := by
  obtain ⟨past, soon⟩ := dated
  have positive : (0 : Int) < second := by decide
  unfold wholeSeconds
  exact ⟨mul_nonneg (Int.ediv_nonneg past positive.le) positive.le,
    (Int.ediv_mul_le t positive.ne').trans_lt soon⟩

/-- The text of a time, and the format `date-time` that the server checks it against. -/
structure DateTimes where
  rfc3339 : Int → GoString
  dateTime : GoString → Bool
  accepted : ∀ t, Dated t → dateTime (rfc3339 t) = true
  short : ∀ t, (rfc3339 t).length ≤ 64

def optionalText (s : GoString) : Option Value := if s = [] then none else some (.text s)
def optionalNumber (n : Int) : Option Value := if n = 0 then none else some (.number n)

def Phase.text : Phase → GoString
  | .unset => []
  | .pending => lit "Pending"
  | .processed => lit "Processed"

def RSSDissection.fields (d : RSSDissection) : List (GoString × Option Value) :=
  [(lit "anonRssBytes", optionalNumber d.anonRSSBytes),
    (lit "fileRssBytes", optionalNumber d.fileRSSBytes),
    (lit "shmemRssBytes", optionalNumber d.shmemRSSBytes),
    (lit "swapBytes", optionalNumber d.swapBytes),
    (lit "pageTablesBytes", optionalNumber d.pageTablesBytes)]

def optionalLines (lines : List GoString) : Option Value :=
  if lines = [] then none else some (.array (lines.map .text))

def DiagnosticData.fields (d : DiagnosticData) : List (GoString × Option Value) :=
  [(lit "oomScopeLimitBytes", optionalNumber d.oomScopeLimitBytes),
    (lit "victimRssBytes", optionalNumber d.victimRSSBytes),
    (lit "oomVictimPid", optionalNumber d.oomVictimPID),
    (lit "oomVictimComm", optionalText d.oomVictimComm),
    (lit "triggerPid", optionalNumber d.triggerPID),
    (lit "triggerComm", optionalText d.triggerComm),
    (lit "oomScore", optionalNumber d.oomScore),
    (lit "oomScoreAdj", optionalNumber d.oomScoreAdj),
    (lit "rssDissection", d.rssDissection.map fun rss => .object (present rss.fields)),
    (lit "oomContext", optionalText d.oomContext.text),
    (lit "lastLogLines", optionalLines d.lastLogLines)]

section Document

variable (times : DateTimes)

def PodCrashReportSpec.fields (spec : PodCrashReportSpec) : List (GoString × Option Value) :=
  [(lit "podName", some (.text spec.podName)),
    (lit "podUID", optionalText spec.podUID),
    (lit "namespace", some (.text spec.namespace_)),
    (lit "containerName", some (.text spec.containerName)),
    (lit "nodeName", some (.text spec.nodeName)),
    (lit "terminationReason", some (.text spec.terminationReason.text)),
    (lit "exitCode", some (.number spec.exitCode)),
    (lit "timestamp", some (.text (times.rfc3339 spec.timestamp)))]

/-- `omitempty` has no effect on a structure. -/
def PodCrashReportStatus.fields (status : PodCrashReportStatus) : List (GoString × Option Value) :=
  [(lit "diagnostics", some (.object (present status.diagnostics.fields))),
    (lit "phase", optionalText status.phase.text),
    (lit "notifiedAt", status.notifiedAt.map fun t => .text (times.rfc3339 t))]

def PodCrashReport.fields (report : PodCrashReport) : List (GoString × Option Value) :=
  [(lit "spec", some (.object (present (report.spec.fields times)))),
    (lit "status", some (.object (present (report.status.fields times))))]

def document (report : PodCrashReport) : Value := .object (present (report.fields times))

/-! ## The schema -/

def crdRSSDissection : Schema :=
  .object
    [(lit "anonRssBytes", .integer 64), (lit "fileRssBytes", .integer 64),
      (lit "pageTablesBytes", .integer 64), (lit "shmemRssBytes", .integer 64),
      (lit "swapBytes", .integer 64)]
    []

def crdDiagnostics : Schema :=
  .object
    [(lit "lastLogLines", .array (some 200) (.string { maxLength := some 4096 })),
      (lit "oomContext",
        .string { enum := some [lit "ContainerLimit", lit "NodeExhaustion"] }),
      (lit "oomScopeLimitBytes", .integer 64),
      (lit "oomScore", .integer 64),
      (lit "oomScoreAdj", .integer 32),
      (lit "oomVictimComm", .string {}),
      (lit "oomVictimPid", .integer 32),
      (lit "rssDissection", crdRSSDissection),
      (lit "triggerComm", .string {}),
      (lit "triggerPid", .integer 32),
      (lit "victimRssBytes", .integer 64)]
    []

def crdSpec : Schema :=
  .object
    [(lit "containerName", .string { maxLength := some 253, minLength := 1 }),
      (lit "exitCode", .integer 32),
      (lit "namespace", .string { maxLength := some 63, minLength := 1 }),
      (lit "nodeName", .string { maxLength := some 253 }),
      (lit "podName", .string { maxLength := some 253, minLength := 1 }),
      (lit "podUID", .string { maxLength := some 36 }),
      (lit "terminationReason", .string { enum := some [lit "OOMKilled", lit "Error"] }),
      (lit "timestamp", .string { format := times.dateTime })]
    [lit "containerName", lit "exitCode", lit "namespace", lit "nodeName", lit "podName",
      lit "terminationReason", lit "timestamp"]

def crdStatus : Schema :=
  .object
    [(lit "diagnostics", crdDiagnostics),
      (lit "notifiedAt", .string { format := times.dateTime }),
      (lit "phase", .string { enum := some [lit "Pending", lit "Processed"] })]
    []

def crd : Schema := .object [(lit "spec", crdSpec times), (lit "status", crdStatus times)] []

end Document

/-! ## Fields that fit -/

/-- A text with so many characters, and no more escapes. -/
structure TextFits (least most : Nat) (s : GoString) : Prop where
  enough : least ≤ (runes s).length
  short : (runes s).length ≤ most
  written : (Value.text s).write.length ≤ 6 * most + 2

structure RSSDissection.Fits (d : RSSDissection) : Prop where
  anonRSSBytes : fitsIn 64 d.anonRSSBytes = true
  fileRSSBytes : fitsIn 64 d.fileRSSBytes = true
  shmemRSSBytes : fitsIn 64 d.shmemRSSBytes = true
  swapBytes : fitsIn 64 d.swapBytes = true
  pageTablesBytes : fitsIn 64 d.pageTablesBytes = true

structure DiagnosticData.Fits (d : DiagnosticData) : Prop where
  oomScopeLimitBytes : fitsIn 64 d.oomScopeLimitBytes = true
  victimRSSBytes : fitsIn 64 d.victimRSSBytes = true
  oomVictimPID : fitsIn 32 d.oomVictimPID = true
  oomVictimComm : TextFits 0 16 d.oomVictimComm
  triggerPID : fitsIn 32 d.triggerPID = true
  triggerComm : TextFits 0 16 d.triggerComm
  oomScore : fitsIn 64 d.oomScore = true
  oomScoreAdj : fitsIn 32 d.oomScoreAdj = true
  rssDissection : ∀ rss ∈ d.rssDissection, rss.Fits
  count : d.lastLogLines.length ≤ 200
  lines : ∀ line ∈ d.lastLogLines, TextFits 0 4096 line
  bytes : ((d.lastLogLines.map Value.text).map fun line => line.write.length + 1).sum ≤ 393900

structure PodCrashReportSpec.Fits (spec : PodCrashReportSpec) : Prop where
  podName : TextFits 1 253 spec.podName
  podUID : TextFits 0 36 spec.podUID
  namespace_ : TextFits 1 63 spec.namespace_
  containerName : TextFits 1 253 spec.containerName
  nodeName : TextFits 0 253 spec.nodeName
  exitCode : fitsIn 32 spec.exitCode = true
  timestamp : Dated spec.timestamp

structure PodCrashReportStatus.Fits (status : PodCrashReportStatus) : Prop where
  diagnostics : status.diagnostics.Fits
  notifiedAt : ∀ t ∈ status.notifiedAt, Dated t

/-! ## Accepted -/

section Accepted

variable {times : DateTimes} {v : Value} {s : GoString} {n : Int}

theorem of_mem_optionalText (member : v ∈ optionalText s) : s ≠ [] ∧ v = .text s := by
  unfold optionalText at member
  split at member
  · cases member
  · rename_i some_
    cases member
    exact ⟨some_, rfl⟩

theorem of_mem_optionalNumber (member : v ∈ optionalNumber n) : v = .number n := by
  unfold optionalNumber at member
  split at member
  · cases member
  · cases member
    rfl

theorem accepts_bounded {least most : Nat} (fits : TextFits least most s) :
    (Schema.string { maxLength := some most, minLength := least }).accepts (.text s) = true := by
  simp [Schema.accepts, Text.accepts, fits.enough, fits.short]

theorem accepts_dateTime {t : Int} (dated : Dated t) :
    (Schema.string { format := times.dateTime }).accepts (.text (times.rfc3339 t)) = true := by
  simp [Schema.accepts, Text.accepts, times.accepted t dated]

theorem accepts_number {bits : Nat} (fits : fitsIn bits n = true) :
    ∀ v ∈ optionalNumber n, (Schema.integer bits).accepts v = true := by
  intro v member
  rw [of_mem_optionalNumber member, Schema.accepts, fits]

theorem accepts_comm : ∀ v ∈ optionalText s, (Schema.string {}).accepts v = true := by
  intro v member
  rw [(of_mem_optionalText member).2]
  simp [Schema.accepts, Text.accepts]

theorem spec_accepted {spec : PodCrashReportSpec} (fits : spec.Fits) :
    (crdSpec times).accepts (.object (present (spec.fields times))) = true := by
  have distinct : ((spec.fields times).map Prod.fst).Nodup := by
    simp only [PodCrashReportSpec.fields, List.map_cons, List.map_nil]
    decide
  refine accepts_present distinct ?_ ?_
  · simp only [List.forall_mem_cons]
    exact ⟨⟨_, rfl⟩, ⟨_, rfl⟩, ⟨_, rfl⟩, ⟨_, rfl⟩, ⟨_, rfl⟩, ⟨_, rfl⟩, ⟨_, rfl⟩, nofun⟩
  · simp only [List.forall_mem_cons]
    refine ⟨⟨_, rfl, ?_⟩, ⟨_, rfl, ?_⟩, ⟨_, rfl, ?_⟩, ⟨_, rfl, ?_⟩, ⟨_, rfl, ?_⟩, ⟨_, rfl, ?_⟩,
      ⟨_, rfl, ?_⟩, ⟨_, rfl, ?_⟩, nofun⟩
    · rintro v ⟨⟩
      exact accepts_bounded fits.containerName
    · rintro v ⟨⟩
      rw [Schema.accepts, fits.exitCode]
    · rintro v ⟨⟩
      exact accepts_bounded fits.namespace_
    · rintro v ⟨⟩
      exact accepts_bounded fits.nodeName
    · rintro v ⟨⟩
      exact accepts_bounded fits.podName
    · intro v member
      rw [(of_mem_optionalText member).2]
      exact accepts_bounded fits.podUID
    · rintro v ⟨⟩
      cases spec.terminationReason <;> decide +kernel
    · rintro v ⟨⟩
      exact accepts_dateTime fits.timestamp

theorem dissection_accepted {d : RSSDissection} (fits : d.Fits) :
    crdRSSDissection.accepts (.object (present d.fields)) = true := by
  have distinct : (d.fields.map Prod.fst).Nodup := by
    simp only [RSSDissection.fields, List.map_cons, List.map_nil]
    decide
  refine accepts_present distinct nofun ?_
  simp only [List.forall_mem_cons]
  exact ⟨⟨_, rfl, accepts_number fits.anonRSSBytes⟩, ⟨_, rfl, accepts_number fits.fileRSSBytes⟩,
    ⟨_, rfl, accepts_number fits.pageTablesBytes⟩, ⟨_, rfl, accepts_number fits.shmemRSSBytes⟩,
    ⟨_, rfl, accepts_number fits.swapBytes⟩, nofun⟩

theorem accepts_lines {lines : List GoString} (count : lines.length ≤ 200)
    (short : ∀ line ∈ lines, TextFits 0 4096 line) :
    ∀ v ∈ optionalLines lines,
      (Schema.array (some 200) (.string { maxLength := some 4096 })).accepts v = true := by
  intro v member
  unfold optionalLines at member
  split at member
  · cases member
  · cases member
    have each : (lines.map Value.text).all
        (fun line => (Schema.string { maxLength := some 4096 }).accepts line) = true := by
      rw [List.all_eq_true]
      intro value among
      obtain ⟨line, inside, rfl⟩ := List.mem_map.1 among
      exact accepts_bounded (short line inside)
    rw [Schema.accepts, each, List.length_map]
    simp [count]

theorem diagnostics_accepted {d : DiagnosticData} (fits : d.Fits) :
    crdDiagnostics.accepts (.object (present d.fields)) = true := by
  have distinct : (d.fields.map Prod.fst).Nodup := by
    simp only [DiagnosticData.fields, List.map_cons, List.map_nil]
    decide
  refine accepts_present distinct nofun ?_
  simp only [List.forall_mem_cons]
  refine ⟨⟨_, rfl, accepts_lines fits.count fits.lines⟩, ⟨_, rfl, ?_⟩,
    ⟨_, rfl, accepts_number fits.oomScopeLimitBytes⟩, ⟨_, rfl, accepts_number fits.oomScore⟩,
    ⟨_, rfl, accepts_number fits.oomScoreAdj⟩, ⟨_, rfl, accepts_comm⟩,
    ⟨_, rfl, accepts_number fits.oomVictimPID⟩, ⟨_, rfl, ?_⟩, ⟨_, rfl, accepts_comm⟩,
    ⟨_, rfl, accepts_number fits.triggerPID⟩, ⟨_, rfl, accepts_number fits.victimRSSBytes⟩, nofun⟩
  · intro v member
    obtain ⟨some_, rfl⟩ := of_mem_optionalText member
    cases context : d.oomContext with
    | unset =>
        rw [context] at some_
        exact absurd rfl some_
    | containerLimit => decide +kernel
    | nodeExhaustion => decide +kernel
  · intro v member
    obtain ⟨rss, there, rfl⟩ := Option.mem_map.1 member
    exact dissection_accepted (fits.rssDissection rss there)

theorem status_accepted {status : PodCrashReportStatus} (fits : status.Fits) :
    (crdStatus times).accepts (.object (present (status.fields times))) = true := by
  have distinct : ((status.fields times).map Prod.fst).Nodup := by
    simp only [PodCrashReportStatus.fields, List.map_cons, List.map_nil]
    decide
  refine accepts_present distinct nofun ?_
  simp only [List.forall_mem_cons]
  refine ⟨⟨_, rfl, ?_⟩, ⟨_, rfl, ?_⟩, ⟨_, rfl, ?_⟩, nofun⟩
  · rintro v ⟨⟩
    exact diagnostics_accepted fits.diagnostics
  · intro v member
    obtain ⟨t, there, rfl⟩ := Option.mem_map.1 member
    exact accepts_dateTime (fits.notifiedAt t there)
  · intro v member
    obtain ⟨some_, rfl⟩ := of_mem_optionalText member
    cases phase : status.phase with
    | unset =>
        rw [phase] at some_
        exact absurd rfl some_
    | pending => decide +kernel
    | processed => decide +kernel

/-- **What a report says is accepted** if its fields fit. -/
theorem document_accepted {report : PodCrashReport} (spec : report.spec.Fits)
    (status : report.status.Fits) :
    (crd times).accepts (document times report) = true := by
  have distinct : ((report.fields times).map Prod.fst).Nodup := by
    simp only [PodCrashReport.fields, List.map_cons, List.map_nil]
    decide
  refine accepts_present distinct nofun ?_
  simp only [List.forall_mem_cons]
  refine ⟨⟨_, rfl, ?_⟩, ⟨_, rfl, ?_⟩, nofun⟩
  · rintro v ⟨⟩
    exact spec_accepted spec
  · rintro v ⟨⟩
    exact status_accepted status

end Accepted

/-! ## Small -/

section Small

variable {times : DateTimes} {s : GoString} {n : Int}

theorem length_text_le {k : Nat} (short : s.length ≤ k) :
    (Value.text s).write.length ≤ 6 * k + 2 := by
  have written := length_writeText_le s
  rw [Value.write]
  omega

theorem length_number_le (fits : fitsIn 64 n = true) : (Value.number n).write.length ≤ 20 := by
  simp only [fitsIn, Bool.and_eq_true, decide_eq_true_eq] at fits
  rw [Value.write]
  exact length_itoa_le (k := 19) (by decide) (by omega)

theorem fitsIn_of_32 (fits : fitsIn 32 n = true) : fitsIn 64 n = true := by
  simp only [fitsIn, Bool.and_eq_true, decide_eq_true_eq] at fits ⊢
  omega

theorem length_optionalNumber_le (fits : fitsIn 64 n = true) :
    ∀ v ∈ optionalNumber n, v.write.length ≤ 20 := by
  intro v member
  rw [of_mem_optionalNumber member]
  exact length_number_le fits

theorem length_optionalText_le {k : Nat} (short : (Value.text s).write.length ≤ k) :
    ∀ v ∈ optionalText s, v.write.length ≤ k := by
  intro v member
  rw [(of_mem_optionalText member).2]
  exact short

/-- A text is written as what arrives of it is. -/
theorem write_text_toValid (s : GoString) : (Value.text (toValid s)).write = (Value.text s).write := by
  rw [Value.write, Value.write, writeText, writeText, writeBody_toValid]

/-- A text as it arrives: no character and no escape more than it had bytes. -/
theorem textFits_toValid {least most : Nat} (optional : least ≤ 1) (present : least ≤ s.length)
    (short : s.length ≤ most) : TextFits least most (toValid s) where
  enough := by
    rw [runes_toValid]
    rcases Nat.le_one_iff_eq_zero_or_eq_one.1 optional with rfl | rfl
    · exact Nat.zero_le _
    · exact length_runes_pos present
  short := by
    rw [runes_toValid]
    exact Nat.le_trans (length_runes_le s) short
  written := by
    rw [write_text_toValid]
    exact length_text_le short

/-- No field's name is longer. -/
theorem fieldLength_le_of_short {name : String} {value : Option Value} {k : Nat}
    (named : (lit name).length ≤ 18) (short : ∀ v ∈ value, v.write.length ≤ k) :
    fieldLength (lit name, value) ≤ k + 112 := by
  have field := fieldLength_le named short
  omega

/-- An object without large fields. -/
theorem length_object_le (fields : List (GoString × Option Value)) {k : Nat}
    (each : ∀ field ∈ fields, fieldLength field ≤ k) :
    (Value.object (present fields)).write.length ≤ fields.length * k + 2 := by
  have total := length_write_present fields
  have sum := List.sum_le_card_nsmul (fields.map fieldLength) k (List.forall_mem_map.2 each)
  rw [List.length_map, smul_eq_mul] at sum
  omega

theorem length_dissection_le {d : RSSDissection} (fits : d.Fits) :
    (Value.object (present d.fields)).write.length ≤ 5 * 132 + 2 := by
  refine length_object_le d.fields ?_
  simp only [RSSDissection.fields, List.forall_mem_cons]
  exact ⟨fieldLength_le_of_short (by decide) (length_optionalNumber_le fits.anonRSSBytes),
    fieldLength_le_of_short (by decide) (length_optionalNumber_le fits.fileRSSBytes),
    fieldLength_le_of_short (by decide) (length_optionalNumber_le fits.shmemRSSBytes),
    fieldLength_le_of_short (by decide) (length_optionalNumber_le fits.swapBytes),
    fieldLength_le_of_short (by decide) (length_optionalNumber_le fits.pageTablesBytes), nofun⟩

theorem sum_length_texts_le (lines : List GoString) :
    ((lines.map Value.text).map fun value => value.write.length + 1).sum ≤
      6 * (lines.map List.length).sum + 3 * lines.length := by
  induction lines with
  | nil => exact Nat.le_refl 0
  | cons line lines ih =>
      have here := length_text_le (Nat.le_refl line.length)
      simp only [List.map_cons, List.sum_cons, List.length_cons]
      omega

/-- Lines as they arrive are written in no more bytes. -/
theorem sum_length_texts_toValid_le (lines : List GoString) :
    (((lines.map toValid).map Value.text).map fun value => value.write.length + 1).sum ≤
      6 * (lines.map List.length).sum + 3 * lines.length := by
  have same : ((lines.map toValid).map Value.text).map (fun value => value.write.length + 1) =
      (lines.map Value.text).map fun value => value.write.length + 1 := by
    simp only [List.map_map]
    exact List.map_congr_left fun line _ => congrArg (List.length · + 1) (write_text_toValid line)
  rw [same]
  exact sum_length_texts_le lines

theorem length_lines_le {lines : List GoString}
    (bytes : ((lines.map Value.text).map fun line => line.write.length + 1).sum ≤ 393900) :
    ∀ v ∈ optionalLines lines, v.write.length ≤ 393902 := by
  intro v member
  unfold optionalLines at member
  split at member
  · cases member
  · cases member
    have items := length_writeItems_le 0x5D Value.write (lines.map .text)
    rw [Value.write, writeArray_eq, List.length_cons]
    omega

/-- All fields but the log lines are no longer than the memory breakdown. -/
theorem length_diagnostics_le {d : DiagnosticData} (fits : d.Fits) :
    (Value.object (present d.fields)).write.length ≤ 10 * 774 + 394016 := by
  have total := length_write_present d.fields
  have lines : fieldLength (lit "lastLogLines", optionalLines d.lastLogLines) ≤ 393902 + 112 :=
    fieldLength_le_of_short (by decide) (length_lines_le fits.bytes)
  have others : ∀ field ∈ d.fields.take 10, fieldLength field ≤ 774 := by
    have number : ∀ {name : String} {n : Int}, (lit name).length ≤ 18 → fitsIn 64 n = true →
        fieldLength (lit name, optionalNumber n) ≤ 774 := fun named fits =>
      Nat.le_trans (fieldLength_le_of_short named (length_optionalNumber_le fits)) (by decide)
    have text : ∀ {name : String} {s : GoString}, (lit name).length ≤ 18 →
        (Value.text s).write.length ≤ 6 * 16 + 2 → fieldLength (lit name, optionalText s) ≤ 774 :=
      fun named short =>
        Nat.le_trans (fieldLength_le_of_short named (length_optionalText_le short)) (by decide)
    simp only [DiagnosticData.fields, List.take_succ_cons, List.take_zero, List.forall_mem_cons]
    refine ⟨number (by decide) fits.oomScopeLimitBytes, number (by decide) fits.victimRSSBytes,
      number (by decide) (fitsIn_of_32 fits.oomVictimPID), text (by decide) fits.oomVictimComm.written,
      number (by decide) (fitsIn_of_32 fits.triggerPID), text (by decide) fits.triggerComm.written,
      number (by decide) fits.oomScore, number (by decide) (fitsIn_of_32 fits.oomScoreAdj),
      ?_, text (by decide) ?_, nofun⟩
    · refine fieldLength_le_of_short (by decide) fun v member => ?_
      obtain ⟨rss, there, rfl⟩ := Option.mem_map.1 member
      exact length_dissection_le (fits.rssDissection rss there)
    · cases d.oomContext <;> decide +kernel
  have sum := List.sum_le_card_nsmul ((d.fields.take 10).map fieldLength) 774
    (List.forall_mem_map.2 others)
  have split : (d.fields.map fieldLength).sum = ((d.fields.take 10).map fieldLength).sum +
      fieldLength (lit "lastLogLines", optionalLines d.lastLogLines) := by
    simp only [DiagnosticData.fields, List.take_succ_cons, List.take_zero, List.map_cons,
      List.map_nil, List.sum_cons, List.sum_nil, Nat.add_assoc, Nat.add_zero]
  have ten : ((d.fields.take 10).map fieldLength).length = 10 := by
    rw [List.length_map]
    rfl
  rw [ten, smul_eq_mul] at sum
  omega

theorem length_spec_le {spec : PodCrashReportSpec} (fits : spec.Fits) :
    (Value.object (present (spec.fields times))).write.length ≤ 8 * 1632 + 2 := by
  have text : ∀ {name : String} {s : GoString}, (lit name).length ≤ 18 →
      (Value.text s).write.length ≤ 6 * 253 + 2 → fieldLength (lit name, some (.text s)) ≤ 1632 := by
    intro name s named short
    refine fieldLength_le_of_short named fun v member => ?_
    cases member
    exact short
  refine length_object_le (spec.fields times) ?_
  simp only [PodCrashReportSpec.fields, List.forall_mem_cons]
  refine ⟨text (by decide) fits.podName.written, ?_,
    text (by decide) (Nat.le_trans fits.namespace_.written (by decide)),
    text (by decide) fits.containerName.written, text (by decide) fits.nodeName.written,
    text (by decide) (length_text_le ?_), ?_,
    text (by decide) (length_text_le (Nat.le_trans (times.short _) (by decide))), nofun⟩
  · exact Nat.le_trans
      (fieldLength_le_of_short (by decide) (length_optionalText_le fits.podUID.written)) (by decide)
  · cases spec.terminationReason <;> decide
  · refine Nat.le_trans (fieldLength_le_of_short (k := 20) (by decide) fun v member => ?_)
      (by decide)
    cases member
    exact length_number_le (fitsIn_of_32 fits.exitCode)

theorem length_status_le {status : PodCrashReportStatus} (fits : status.Fits) :
    (Value.object (present (status.fields times))).write.length ≤ 402880 := by
  have total : (Value.object (present (status.fields times))).write.length ≤
      ([_, _, _].map fieldLength).sum + 2 := length_write_present (status.fields times)
  have diagnostics : fieldLength
      (lit "diagnostics", some (.object (present status.diagnostics.fields))) ≤
        10 * 774 + 394016 + 112 := by
    refine fieldLength_le_of_short (by decide) fun v member => ?_
    cases member
    exact length_diagnostics_le fits.diagnostics
  have phase : fieldLength (lit "phase", optionalText status.phase.text) ≤ 6 * 9 + 2 + 112 := by
    refine fieldLength_le_of_short (by decide) (length_optionalText_le (length_text_le ?_))
    cases status.phase <;> decide
  have notified : fieldLength
      (lit "notifiedAt", status.notifiedAt.map fun t => .text (times.rfc3339 t)) ≤
        6 * 64 + 2 + 112 := by
    refine fieldLength_le_of_short (by decide) fun v member => ?_
    obtain ⟨t, -, rfl⟩ := Option.mem_map.1 member
    exact length_text_le (times.short t)
  simp only [List.map_cons, List.map_nil, List.sum_cons, List.sum_nil] at total
  omega

/-- **What a report says is short** if its fields fit, far below the mebibyte and a half that a
store for such objects takes. -/
theorem length_document_le {report : PodCrashReport} (spec : report.spec.Fits)
    (status : report.status.Fits) :
    (document times report).write.length ≤ 416384 := by
  have total : (document times report).write.length ≤ ([_, _].map fieldLength).sum + 2 :=
    length_write_present (report.fields times)
  have first : fieldLength (lit "spec", some (.object (present (report.spec.fields times)))) ≤
      8 * 1632 + 2 + 112 := by
    refine fieldLength_le_of_short (by decide) fun v member => ?_
    cases member
    exact length_spec_le spec
  have second : fieldLength (lit "status", some (.object (present (report.status.fields times)))) ≤
      402880 + 112 := by
    refine fieldLength_le_of_short (by decide) fun v member => ?_
    cases member
    exact length_status_le status
  simp only [List.map_cons, List.map_nil, List.sum_cons, List.sum_nil] at total
  omega

end Small

end KubeAutopsy.Api
