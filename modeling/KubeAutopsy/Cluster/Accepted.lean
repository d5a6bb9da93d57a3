/-
# KubeAutopsy.Cluster.Accepted — no write of the program is refused for what it says

The API server validates every write against the schema, and a store has a limit for one
object.  A refusal for either reason is not worth a retry and loses a whole report, so the
agent truncates and the types are chosen for it.  Here this is a property of whole runs:
the server of `Cluster.World` does not validate, and in every run in which the agents are
given what kernels, pods and log files can give them, it never would have refused.

A stored specification and stored diagnostics are those of the one event behind the report, as
they arrive, so they fit if that event does (`Given.spec`, `Given.diagnostics`).  What is left is
the time of the delivery, which the controller takes from its clock (`Settled.stamp`).
-/
import KubeAutopsy.Agent.LogTruncate
import KubeAutopsy.Agent.Tracer
import KubeAutopsy.Api.Document
import KubeAutopsy.Cluster.Telling

namespace KubeAutopsy.Cluster

open KubeAutopsy.Agent
open KubeAutopsy.Api
open KubeAutopsy.Controller
open KubeAutopsy.Theory.Bytes (GoString lit)
open KubeAutopsy.Theory.History (Versions)
open KubeAutopsy.Theory.Json (Value)
open KubeAutopsy.Theory.Program
open KubeAutopsy.Theory.Runes (toValid)
open KubeAutopsy.Theory.Schemas
open KubeAutopsy.Theory.Transition

set_option autoImplicit false

/-! ## What an agent is given -/

/-- A text of so many bytes. -/
def Sized (least most : Nat) (s : GoString) : Prop := least ≤ s.length ∧ s.length ≤ most

/-- The arguments of `CreateCrashReport` on a node: names that an API server admitted, an
event the reader made of a kernel record, and log lines from a capture, if any. -/
structure Given (r : Reporter) (event : CrashEvent) (podMeta : PodMeta) (logLines : List GoString) :
    Prop where
  podName : Sized 1 253 podMeta.podName
  podUID : Sized 0 36 podMeta.podUID
  namespace_ : Sized 1 63 podMeta.namespace_
  containerName : Sized 1 253 podMeta.containerName
  nodeName : Sized 0 253 r.nodeName
  event : ∃ pageSize record now, Dated now ∧ event = crashEvent pageSize record now
  logLines : logLines = [] ∨ ∃ lines, logLines = truncateLines lines

theorem fitsIn_int64 (n : Int64) : fitsIn 64 n.toInt = true := by
  have low := n.le_toInt
  have high := n.toInt_lt
  simp only [fitsIn, Bool.and_eq_true, decide_eq_true_eq]
  omega

theorem fitsIn_int32 (n : Int32) : fitsIn 32 n.toInt = true := by
  have low := n.le_toInt
  have high := n.toInt_lt
  simp only [fitsIn, Bool.and_eq_true, decide_eq_true_eq]
  omega

theorem length_parseComm_le {n : Nat} (comm : Vector Int8 n) :
    (parseComm comm.toList).length ≤ n := by
  have part := (List.takeWhile_sublist (l := comm.toList) fun c => decide (c ≠ 0)).length_le
  rw [Vector.length_toList] at part
  rw [parseComm, List.length_map]
  exact part

theorem Sized.fits {least most : Nat} {s : GoString} (sized : Sized least most s)
    (optional : least ≤ 1) : TextFits least most (toValid s) :=
  textFits_toValid optional sized.1 sized.2

section Given

variable {r : Reporter} {event : CrashEvent} {podMeta : PodMeta} {logLines : List GoString}

theorem Given.spec (given : Given r event podMeta logLines) :
    (newReport r event podMeta).spec.wire.Fits := by
  obtain ⟨pageSize, record, now, dated, rfl⟩ := given.event
  rw [newReport_spec]
  exact ⟨given.podName.fits (Nat.le_refl 1), given.podUID.fits (Nat.zero_le 1),
    given.namespace_.fits (Nat.le_refl 1), given.containerName.fits (Nat.le_refl 1),
    given.nodeName.fits (Nat.zero_le 1), rfl, dated_wholeSeconds dated⟩

/-- Lines from a capture are within the bounds of the schema and of the store. -/
theorem Given.lines (given : Given r event podMeta logLines) :
    logLines.length ≤ 200 ∧ (∀ line ∈ logLines, line.length ≤ 4096) ∧
      (logLines.map List.length).sum ≤ 65550 := by
  rcases given.logLines with rfl | ⟨lines, rfl⟩
  · exact ⟨by decide, nofun, by decide⟩
  · have entry : maxLogLineBytes + truncationMarker.length ≤ 4096 := by decide +kernel
    have total : maxLogTotalBytes + truncationMarker.length ≤ 65550 := by decide +kernel
    exact ⟨length_truncateLines_le lines,
      fun _ member => (length_le_of_mem_truncateLines member).trans entry,
      (bytes_truncateLines_le lines).trans total⟩

theorem textFits_comm {n : Nat} (comm : Vector Int8 n) :
    TextFits 0 n (toValid (parseComm comm.toList)) :=
  textFits_toValid (Nat.zero_le 1) (Nat.zero_le _) (length_parseComm_le comm)

theorem Given.diagnostics (given : Given r event podMeta logLines) :
    (diagnosticsOf event logLines).wire.Fits := by
  obtain ⟨count, short, bytes⟩ := given.lines
  obtain ⟨pageSize, record, now, -, rfl⟩ := given.event
  have rss : ∀ rss ∈ (diagnosticsOf (crashEvent pageSize record now) logLines).rssDissection,
      rss.Fits := by
    intro rss member
    unfold diagnosticsOf at member
    split at member
    · cases member
      exact ⟨fitsIn_int64 _, fitsIn_int64 _, fitsIn_int64 _, fitsIn_int64 _, fitsIn_int64 _⟩
    · cases member
  constructor
  · exact fitsIn_int64 _
  · unfold diagnosticsOf
    split
    · exact fitsIn_int64 _
    · rfl
  · exact fitsIn_int32 _
  · exact textFits_comm _
  · exact fitsIn_int32 _
  · exact textFits_comm _
  · exact fitsIn_int64 _
  · exact fitsIn_int32 _
  · exact rss
  · exact (List.length_map _).le.trans count
  · intro line member
    obtain ⟨raw, inside, rfl⟩ := List.mem_map.1 member
    exact textFits_toValid (Nat.zero_le 1) (Nat.zero_le _) (short raw inside)
  · have written := sum_length_texts_toValid_le logLines
    exact written.trans (by omega)

theorem FiledBy.fits (given : Given r event podMeta logLines) {v : PodCrashReport}
    (filed : FiledBy r event podMeta logLines v) :
    v.spec.Fits ∧ v.status.diagnostics.Fits := by
  obtain ⟨suffix, createdAt, admitted⟩ := filed.admitted
  have spec : v.spec = (newReport r event podMeta).spec.wire := congrArg Prod.snd admitted
  refine ⟨spec ▸ given.spec, ?_⟩
  rcases filed.diagnostics with none_ | written
  · rw [none_]
    have empty : TextFits 0 16 [] := ⟨by decide, by decide, by decide⟩
    exact ⟨by decide, by decide, by decide, empty, by decide, empty, by decide, by decide,
      nofun, by decide, nofun, by decide⟩
  · rw [written]
    exact given.diagnostics

end Given

/-! ## Ordinary runs -/

/-- The agents are given what nodes give them. -/
def Label.Given : Label → Prop
  | .report r event podMeta logLines => Cluster.Given r event podMeta logLines
  | _ => True

/-- Such a step, while the clock shows a date. -/
def ordinary (w : World) (l : Label) : Prop := l.Given ∧ Dated w.clock

def Job.Given : Job → Prop
  | .report r event podMeta logLines => Cluster.Given r event podMeta logLines
  | _ => True

structure Ordinary (w : World) : Prop where
  spawned : ∀ t ∈ w.threads, 0 ≤ t.spawnedAt
  given : ∀ t ∈ w.threads, t.job.Given
  stamped : ∀ v ∈ w.store.history, ∀ t ∈ v.status.notifiedAt, Dated t

section Step

variable {cfg : Config} {w w' : World} {l : Label}

theorem given_of_job {job : Job} (given : l.Given) (starts : l.job cfg w = some job) : job.Given := by
  cases l with
  | report r event podMeta logLines =>
      cases starts
      exact given
  | reconcile key =>
      obtain ⟨startedAt, -, rfl⟩ := Option.map_eq_some_iff.1 starts
      trivial
  | collect sorter =>
      obtain ⟨startedAt, -, rfl⟩ := Option.map_eq_some_iff.1 starts
      trivial
  | _ => cases starts

/-- A status write leaves a date, or what was there. -/
theorem stamped_of_patch (reached : Reach (system cfg) ordinary w) (kept : Ordinary w)
    (dated : Dated w.clock) {i : Nat} {t : Thread} {key : NamespacedName} {patch : StatusPatch}
    {k : WriteAnswer → M Unit} {old : PodCrashReport} (found : w.threads[i]? = some t)
    (next : t.prog = .op (.statusPatch key patch) k) (stored : w.store.current key = some old)
    (current : patch.current old = true) :
    ∀ at_ ∈ (patch.applyTo old.status).notifiedAt, Dated at_ := by
  have sound := sound_of_reach reached
  have member := List.mem_of_getElem? found
  rcases patch_cases sound found next stored current with
    ⟨-, diagnostics, written⟩ | ⟨r, v, n, -, -, settled, rfl⟩
  · rw [written]
    nofun
  · rw [processedPatch_notifiedAt]
    split
    · exact kept.stamped old (Store.mem_of_current stored)
    · rename_i changed
      rcases settled.stamp with rfl | ⟨at_, rfl, read⟩
      · exact absurd rfl changed
      · rintro _ ⟨⟩
        obtain ⟨since, until_⟩ := sound.told t member _ read
        exact dated_wholeSeconds
          ⟨(kept.spawned t member).trans since, lt_of_le_of_lt until_ dated.2⟩

theorem Ordinary.step (reached : Reach (system cfg) ordinary w) (kept : Ordinary w)
    (within : ordinary w l) (moved : Moved cfg w l w') : Ordinary w' := by
  cases moved with
  | idle clock store threads => exact ⟨threads ▸ kept.spawned, threads ▸ kept.given, store ▸ kept.stamped⟩
  | spawned starts =>
      refine ⟨fun t member => ?_, fun t member => ?_, kept.stamped⟩
      · rcases List.mem_append.1 member with before | new
        · exact kept.spawned t before
        · rw [List.mem_singleton.1 new]
          exact within.2.1
      · rcases List.mem_append.1 member with before | new
        · exact kept.given t before
        · rw [List.mem_singleton.1 new]
          exact given_of_job within.1 starts
  | @performed i choice t o k r store found alive next answered =>
      have here := List.mem_of_getElem? found
      refine ⟨fun t' member => ?_, fun t' member => ?_, ?_⟩
      · rcases mem_threads_advance member with before | rfl
        · exact kept.spawned t' before
        · exact kept.spawned t here
      · rcases mem_threads_advance member with before | rfl
        · exact kept.given t' before
        · exact kept.given t here
      · have push : ∀ {stored : PodCrashReport}, Store.Wrote w.store stored store →
            (∀ at_ ∈ stored.status.notifiedAt, Dated at_) →
            ∀ v ∈ store.history, ∀ at_ ∈ v.status.notifiedAt, Dated at_ := by
          intro stored wrote dated v member
          rw [wrote.history] at member
          rcases List.mem_cons.1 member with rfl | before
          · exact dated
          · exact kept.stamped v before
        obtain ⟨touches, -⟩ := respond_spec answered (le_refl w.clock)
        cases touches with
        | nothing => exact kept.stamped
        | created wrote fresh status =>
            refine push wrote ?_
            rw [status]
            nofun
        | patched patched =>
            rcases patched.effect with ⟨-, same⟩ | wrote
            · exact same ▸ kept.stamped
            · obtain ⟨old, stored, current, status, -⟩ := patched.base
              refine push wrote ?_
              rw [status]
              exact stamped_of_patch reached kept within.2 found next stored current
        | deleted versions gone =>
            have same : store.history = w.store.history := congrArg Versions.entries versions
            exact same ▸ kept.stamped

end Step

theorem ordinary_of_reach {cfg : Config} {w : World} (reached : Reach (system cfg) ordinary w) :
    Ordinary w := by
  refine reached.induction (I := Ordinary) (fun w start => ?_)
    fun w l w' reached kept within taken => kept.step reached within (moved_of_step taken)
  obtain ⟨empty, -, -, none_⟩ := start
  constructor <;> simp [empty, none_, Store.history, Store.empty, Versions.empty]

/-- **What every version of every report says is accepted.**  Whatever agents, controllers and
collectors do at the same time, and whichever answers get lost: as long as the agents are
given what nodes give them, the specification and the status of each version that is ever stored
are within the schema of the custom resource, and take less than half a mebibyte. -/
theorem stored_accepted (cfg : Config) (times : DateTimes) {w : World}
    (reached : Reach (system cfg) ordinary w) :
    ∀ v ∈ w.store.history, (crd times).accepts (document times v) = true ∧
      (document times v).write.length ≤ 416384 := by
  intro v member
  have kept := ordinary_of_reach reached
  obtain ⟨author, authored⟩ := authored_of_reach reached
  obtain ⟨t, r, event, podMeta, logLines, found, job, filed⟩ := authored.event member
  have given := kept.given t (List.mem_of_getElem? found)
  rw [job] at given
  obtain ⟨spec, diagnostics⟩ := filed.fits given
  have status : v.status.Fits := ⟨diagnostics, kept.stamped v member⟩
  exact ⟨document_accepted spec status, length_document_le spec status⟩

/-- A kernel record of which only the names are set. -/
def javaKilled : BpfOomEvent :=
  { fpid := 0, tpid := 0, oomScore := 0, oomScoreAdj := 0
    fcomm := Vector.replicate 16 0
    tcomm := (Vector.replicate 16 0).set 0 106
    scopeTotalPages := 0, anonRssPages := 0, fileRssPages := 0, shmemRssPages := 0, swapPages := 0
    pgtablesBytes := 0, cgroupName := Vector.replicate 128 0, isGlobalOom := false, rssValid := false }

def killedAt (now : Int) : CrashEvent := crashEvent 4096 javaKilled now

/-- A report is filed with a captured line, delivered and processed. -/
def filedAndDelivered : List Label :=
  [.report cartReporter (killedAt 0) cartMeta (truncateLines [lit "out of memory"]),
    .perform 0 (.named (lit "x7f2q") 0 true), .perform 0 .ack, .start, .tick 180000000000,
    .reconcile cartKey, .perform 1 (.cached 0), .perform 1 (.response (.response 200)),
    .perform 1 .go, .perform 1 .go, .perform 1 .ack]

/-- The one date of a clock that stands still. -/
def epochDates : DateTimes where
  rfc3339 _ := lit "1970-01-01T00:00:00Z"
  dateTime s := decide (s = lit "1970-01-01T00:00:00Z")
  accepted _ _ := by decide
  short _ := by decide

theorem given_cart : Given cartReporter (killedAt 0) cartMeta (truncateLines [lit "out of memory"]) where
  podName := ⟨by decide, by decide⟩
  podUID := ⟨by decide, by decide⟩
  namespace_ := ⟨by decide, by decide⟩
  containerName := ⟨by decide, by decide⟩
  nodeName := ⟨by decide, by decide⟩
  event := ⟨4096, javaKilled, 0, ⟨by decide, by decide⟩, rfl⟩
  logLines := .inr ⟨_, rfl⟩

instance : DecidablePred Dated := fun _ => inferInstanceAs (Decidable (_ ∧ _))

theorem stored_accepted_filedAndDelivered :
    ∃ (w : World) (v : PodCrashReport), w.store.current cartKey = some v ∧
      v.status.phase = .processed ∧ v.status.notifiedAt = some 180000000000 ∧
      (crd epochDates).accepts (document epochDates v) = true := by
  have all : ∀ l ∈ filedAndDelivered, l.Given := by
    simp only [filedAndDelivered, List.forall_mem_cons]
    exact ⟨given_cart, trivial, trivial, trivial, trivial, trivial, trivial, trivial, trivial,
      trivial, trivial, List.forall_mem_nil _⟩
  have dated : Within (system alerting) (fun w _ => Dated w.clock) quiet filedAndDelivered := by
    decide +kernel
  obtain ⟨w, reached, some_⟩ := exists_guarded (S := system alerting) quiet_initial
    (dated.and_labels all)
    (Q := fun w => ((w.store.current cartKey).any fun v =>
      decide (v.status.phase = .processed ∧ v.status.notifiedAt = some 180000000000)) = true)
    (by decide +kernel)
  simp only [Option.any_eq_true, decide_eq_true_eq] at some_
  obtain ⟨v, current, processed, notified⟩ := some_
  refine ⟨w, v, current, processed, notified, ?_⟩
  exact (stored_accepted alerting epochDates reached v (Store.mem_of_current current)).1

end KubeAutopsy.Cluster
