/-
# KubeAutopsy.Cluster.Retention — when retention overtakes a notification

The collector looks at the age and the number of the reports and at nothing else, so it
can delete a report while its notification is still `Owed`.  `owed_deleted_only` says
exactly when: the report was among the oldest of a listing over the cap, or it had
outlived its TTL before the process that still owes the notification was even started.
Without a cap and without such a downtime no owed report is deleted.

Both cases are runs of the system (`collector_deletes_owed`).
-/
import KubeAutopsy.Cluster.Monotone

namespace KubeAutopsy.Cluster

open KubeAutopsy.Api
open KubeAutopsy.Controller
open KubeAutopsy.Theory.Bytes (GoString lit)
open KubeAutopsy.Theory.Clock
open KubeAutopsy.Theory.Program
open KubeAutopsy.Theory.Sorting
open KubeAutopsy.Theory.Transition

set_option autoImplicit false

/-- A configuration the controller starts with (`Config.Validate`). -/
structure Validated (cfg : Config) : Prop where
  atLeast : hour ≤ cfg.gc.ttl
  atMost : cfg.gc.ttl ≤ 87600 * hour
  maxReports : 0 ≤ cfg.gc.maxReports

/-- The process that runs, started at `startedAt`, still has a notification to deliver. -/
structure Owed (cfg : Config) (w : World) (startedAt : Int) (v : PodCrashReport) : Prop where
  running : w.startedAt = some startedAt
  unprocessed : v.status.phase ≠ .processed
  unnotified : v.status.notifiedAt = none
  early : w.clock < webhookDeadline (cfg.reconciler startedAt) v

/-- Thread `i`, a pass of the collector, is about to delete `v`, which it listed as
`report`. -/
structure Deleting (w : World) (i : Nat) (sorter : SortSlice olderReport) (log : Log)
    (report v : PodCrashReport) : Prop where
  pass : ∃ t gc k, w.threads[i]? = some t ∧ t.job = .collect gc sorter ∧ t.log = log ∧
    t.prog = .op (.delete report) k
  stored : w.store.current report.key = some v

/-- The report is among the oldest of the listing, as many as are over the cap. -/
def OverCap (gc : GarbageCollector) (sorter : SortSlice olderReport) (t : Int)
    (reports : List PodCrashReport) (report : PodCrashReport) : Prop :=
  0 < gc.maxReports ∧ gc.maxReports < (unexpired gc t reports).length ∧
    report ∈ (unexpired gc t (sorter.sort reports)).take
      ((unexpired gc t reports).length - gc.maxReports).toNat

section Retention

variable {cfg : Config} {w : World}

theorem overCap_of_trimmed {gc : GarbageCollector} {sorter : SortSlice olderReport} {t : Int}
    {reports : List PodCrashReport} {report : PodCrashReport}
    (trimmed : report ∈ (unexpired gc t (sorter.sort reports)).take
      (gc.overCap (unexpired gc t (sorter.sort reports)).length).toNat) :
    OverCap gc sorter t reports report := by
  have live : (unexpired gc t (sorter.sort reports)).length = (unexpired gc t reports).length :=
    ((sorter.perm reports).filter _).length_eq
  unfold OverCap
  rw [live] at trimmed
  simp only [GarbageCollector.overCap] at trimmed
  split at trimmed
  · rename_i exceeds
    exact ⟨exceeds.1, exceeds.2, trimmed⟩
  · simp at trimmed

/-- A report that has expired but is still owed a notification outlived its TTL, up to the
retry window, before the process started. -/
theorem started_late {startedAt t : Int} {report v : PodCrashReport} (valid : Validated cfg)
    (owed : Owed cfg w startedAt v)
    (same : report.metadata.creationTimestamp = v.metadata.creationTimestamp) (past : t ≤ w.clock)
    (expired : cfg.gc.expired t report = true) :
    v.metadata.creationTimestamp + cfg.gc.ttl < startedAt + webhookRetryWindow := by
  have low := valid.atLeast
  have high := valid.atMost
  have longer : webhookRetryWindow ≤ hour := by decide
  have bounded : (87600 * hour : Int) < maxDuration := by decide
  have above : minDuration ≤ (0 : Int) := by decide
  have window : (0 : Int) ≤ webhookRetryWindow := by decide
  have old : cfg.gc.ttl < t - report.metadata.creationTimestamp := by
    refine (lt_sub_iff (by omega) (by omega)).1 ?_
    simpa [GarbageCollector.expired, GarbageCollector.age] using expired
  have early : w.clock < max v.metadata.creationTimestamp startedAt + webhookRetryWindow := by
    have := owed.early
    rwa [webhookDeadline_eq_max] at this
  omega

/-- **Retention deletes an owed report only** when a listing over the cap has it among
its oldest, or when it outlived its TTL, up to the retry window, before the process that
owes the notification started. -/
theorem owed_deleted_only (cfg : Config) (valid : Validated cfg)
    (reached : Reach (system cfg) anyStep w) {i : Nat} {sorter : SortSlice olderReport} {log : Log}
    {report v : PodCrashReport} {startedAt : Int} (deleting : Deleting w i sorter log report v)
    (owed : Owed cfg w startedAt v) :
    ∃ (reports : List PodCrashReport) (t : Int), Did log .list (.listed reports) ∧ Did log .now t ∧
      report ∈ reports ∧
      (OverCap cfg.gc sorter t reports report ∨
        (cfg.gc.expired t report = true ∧
          v.metadata.creationTimestamp + cfg.gc.ttl < startedAt + webhookRetryWindow)) := by
  have sound := sound_of_reach reached
  obtain ⟨thread, gc, k, found, job, rfl, next⟩ := deleting.pass
  have member := List.mem_of_getElem? found
  have allowed := sound.guarantee found next
  have configured := sound.configured thread member
  rw [job] at allowed configured
  obtain rfl : gc = cfg.gc := configured
  obtain ⟨reports, t, listed, read, inside, selected⟩ := allowed
  refine ⟨reports, t, listed, read, inside, ?_⟩
  rcases selected with expired | trimmed
  · obtain ⟨u, stored, rfl⟩ := sound.told thread member _ listed reports rfl report inside
    have current := deleting.stored
    rw [stripCachedLogLines_key] at current
    have same := (succeeds_current reached stored current).created
    refine .inr ⟨expired, started_late valid owed ?_ (sound.told thread member _ read).2 expired⟩
    rw [stripCachedLogLines_metadata, same]
  · exact .inl (overCap_of_trimmed trimmed)

end Retention

/-! ### Both cases happen -/

/-- Oldest first. -/
def byAge : SortSlice olderReport := .ofRank (fun r => r.metadata.creationTimestamp) fun _ _ => rfl

/-- Keep an hour, and at most one report. -/
def keepOne : Config := ⟨some ⟨false⟩, false, ⟨hour, 1⟩⟩

/-- Two crashes in one second, and a pass of the collector. -/
def burst : List Label :=
  [.report cartReporter cartEvent cartMeta [], .perform 0 (.named (lit "x7f2q") 0 true),
    .report cartReporter cartEvent cartMeta [], .perform 1 (.named (lit "b9k4d") 1000000000 true),
    .start, .collect byAge, .perform 2 (.cachedAll [0, 1]), .perform 2 .go]

/-- A crash while the controller is down for two hours, and the pass it starts with. -/
def downtime : List Label :=
  [.report cartReporter cartEvent cartMeta [], .perform 0 (.named (lit "x7f2q") 0 true),
    .tick 7200000000000, .start, .collect byAge, .perform 1 (.cachedAll [0]), .perform 1 .go]

/-- What the next delete of thread `i` would remove, when it is owed a notification. -/
def nextOwed (cfg : Config) (w : World) (i : Nat) : Option (PodCrashReport × PodCrashReport) :=
  match w.threads[i]?, w.startedAt with
  | some ⟨.collect _ _, _, _, _, .op (.delete report) _⟩, some startedAt =>
      match w.store.current report.key with
      | some v =>
          if v.status.phase ≠ .processed ∧ v.status.notifiedAt = none ∧
              w.clock < webhookDeadline (cfg.reconciler startedAt) v then some (report, v)
          else none
      | none => none
  | _, _ => none

theorem nextOwed_spec {cfg : Config} {w : World} {i : Nat} {report v : PodCrashReport}
    (next : nextOwed cfg w i = some (report, v)) :
    ∃ sorter log startedAt, Deleting w i sorter log report v ∧ Owed cfg w startedAt v := by
  unfold nextOwed at next
  split at next
  · rename_i gc sorter epoch spawnedAt log report' k startedAt found running
    split at next
    · rename_i v' stored
      split at next
      · rename_i owed
        cases next
        exact ⟨sorter, log, startedAt, ⟨⟨_, gc, k, found, rfl, rfl, rfl⟩, stored⟩,
          ⟨running, owed.1, owed.2.1, owed.2.2⟩⟩
      · cases next
    · cases next
  · cases next

/-- A run after which a pass of the collector can delete an owed report. -/
theorem owed_of_run (cfg : Config) (labels : List Label) (i : Nat)
    (ran : ((run (system cfg) quiet labels).any fun w =>
      (nextOwed cfg w i).isSome && (step cfg w (.perform i .ack)).isSome) = true) :
    ∃ (w : World) (sorter : SortSlice olderReport) (log : Log) (report v : PodCrashReport)
      (startedAt : Int),
      Reach (system cfg) anyStep w ∧ Deleting w i sorter log report v ∧ Owed cfg w startedAt v ∧
        (step cfg w (.perform i .ack)).isSome = true := by
  simp only [Option.any_eq_true, Bool.and_eq_true] at ran
  obtain ⟨w, reaches, owed, goes⟩ := ran
  obtain ⟨⟨report, v⟩, next⟩ := Option.isSome_iff_exists.1 owed
  obtain ⟨sorter, log, startedAt, deleting, owed⟩ := nextOwed_spec next
  exact ⟨w, sorter, log, report, v, startedAt, reach_of_run quiet_initial reaches, deleting, owed, goes⟩

theorem keepOne_validated : Validated keepOne := ⟨by decide, by decide, by decide⟩

theorem alerting_validated : Validated alerting := ⟨by decide, by decide, by decide⟩

theorem owed_deleted_only_burst :
    ∃ (w : World) (log : Log) (report v : PodCrashReport) (startedAt : Int)
      (sorter : SortSlice olderReport), Deleting w 2 sorter log report v ∧
      Owed keepOne w startedAt v ∧
      ∃ (reports : List PodCrashReport) (t : Int), Did log .list (.listed reports) ∧ Did log .now t ∧
        (OverCap keepOne.gc sorter t reports report ∨ keepOne.gc.expired t report = true) := by
  obtain ⟨w, sorter, log, report, v, startedAt, reached, deleting, owed, -⟩ :=
    owed_of_run keepOne burst 2 (by decide +kernel)
  obtain ⟨reports, t, listed, read, -, reason⟩ :=
    owed_deleted_only keepOne keepOne_validated reached deleting owed
  exact ⟨w, log, report, v, startedAt, sorter, deleting, owed, reports, t, listed, read,
    reason.imp_right And.left⟩

/-- **Retention does overtake a notification**, with a validated configuration: by the cap
within seconds of the crash, and by the TTL after a downtime, in the pass the controller
runs as it starts.  In both the delete goes through. -/
theorem collector_deletes_owed :
    (∃ (w : World) (i : Nat) (sorter : SortSlice olderReport) (log : Log)
      (report v : PodCrashReport) (startedAt : Int),
      Validated keepOne ∧ Reach (system keepOne) anyStep w ∧ Deleting w i sorter log report v ∧
        Owed keepOne w startedAt v ∧ (step keepOne w (.perform i .ack)).isSome = true) ∧
    (∃ (w : World) (i : Nat) (sorter : SortSlice olderReport) (log : Log)
      (report v : PodCrashReport) (startedAt : Int),
      Validated alerting ∧ Reach (system alerting) anyStep w ∧ Deleting w i sorter log report v ∧
        Owed alerting w startedAt v ∧ (step alerting w (.perform i .ack)).isSome = true) := by
  constructor
  · obtain ⟨w, sorter, log, report, v, startedAt, happens⟩ :=
      owed_of_run keepOne burst 2 (by decide +kernel)
    exact ⟨w, 2, sorter, log, report, v, startedAt, keepOne_validated, happens⟩
  · obtain ⟨w, sorter, log, report, v, startedAt, happens⟩ :=
      owed_of_run alerting downtime 1 (by decide +kernel)
    exact ⟨w, 1, sorter, log, report, v, startedAt, alerting_validated, happens⟩

end KubeAutopsy.Cluster
