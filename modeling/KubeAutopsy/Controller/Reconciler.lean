/-
# KubeAutopsy.Controller.Reconciler — one reconcile of one report

`internal/controller/reconciler.go`.  `reconcile` is the source's `Reconcile`, cut
where it hands a value on: `notify` is the delivery before the phase transition
and `process` is the transition and what follows it.

`reconcile_meets` says once what a reconcile can do, and everything the system
proves about the controller goes through it:

* a request is sent, and `CrashDetected` recorded, only for a version that is
  `Ready`: not processed, and either written by the agent or past the grace period;
* a request, an Event or a metric tells what a copy of the report says that the
  reconcile has seen (`Tells`);
* the one status write it issues is `processedPatch` of the version it read, and
  it is issued only once the notification is `Settled`: acknowledged, given up
  after the deadline, recorded before, or not configured;
* it ends without a status write only for one of the reasons in `Ends`.
-/
import KubeAutopsy.Api.Operations

namespace KubeAutopsy.Controller

open KubeAutopsy.Api
open KubeAutopsy.Theory.Bytes (GoString lit itoa)
open KubeAutopsy.Theory.Clock
open KubeAutopsy.Theory.Program

set_option autoImplicit false

def diagnosticsGracePeriod : Int := 2 * minute
def diagnosticsRequeueAfter : Int := 15 * second
def webhookRetryWindow : Int := 10 * minute

/-- The part of a `WebhookSender` that decides what a reconcile does. -/
structure WebhookSender where
  includeLogs : Bool
  deriving DecidableEq, Repr

structure PodCrashReportReconciler where
  webhookSender : Option WebhookSender
  /-- Whether `APIReader` is set. -/
  apiReader : Bool
  startedAt : Int
  deriving DecidableEq, Repr

/-- `(ctrl.Result, error)`. -/
structure Result where
  requeueAfter : Option Int := none
  err : Option GoError := none
  deriving DecidableEq, Repr

/-- Log lines are dropped as a report enters the cache. -/
def stripCachedLogLines (report : PodCrashReport) : PodCrashReport :=
  if report.status.diagnostics.lastLogLines = [] then report
  else
    { report with
      status := { report.status with
        diagnostics := { report.status.diagnostics with lastLogLines := [] } } }

section Strip

variable (report : PodCrashReport)

@[simp] theorem stripCachedLogLines_metadata :
    (stripCachedLogLines report).metadata = report.metadata := by
  unfold stripCachedLogLines; split <;> rfl

@[simp] theorem stripCachedLogLines_key : (stripCachedLogLines report).key = report.key := by
  simp [PodCrashReport.key]

@[simp] theorem stripCachedLogLines_phase :
    (stripCachedLogLines report).status.phase = report.status.phase := by
  unfold stripCachedLogLines; split <;> rfl

@[simp] theorem stripCachedLogLines_notifiedAt :
    (stripCachedLogLines report).status.notifiedAt = report.status.notifiedAt := by
  unfold stripCachedLogLines; split <;> rfl

end Strip

def webhookDeadline (r : PodCrashReportReconciler) (report : PodCrashReport) : Int :=
  let created := report.metadata.creationTimestamp
  let from_ := if r.startedAt > created then r.startedAt else created
  from_ + webhookRetryWindow

theorem webhookDeadline_eq_max (r : PodCrashReportReconciler) (report : PodCrashReport) :
    webhookDeadline r report =
      max report.metadata.creationTimestamp r.startedAt + webhookRetryWindow := by
  unfold webhookDeadline
  dsimp only
  split <;> omega

/-- `WebhookSender.Send`, from the request on. -/
def send (report : PodCrashReport) : M (Option GoError) := do
  match ← perform (Op.post report) with
  | .failed => return some (.webhook none)
  | .response code =>
      if code < 200 ∨ code ≥ 300 then return some (.webhook (some code))
      return none

def sendWebhook (r : PodCrashReportReconciler) (sender : WebhookSender) (report : PodCrashReport) :
    M (Option GoError) := do
  if sender.includeLogs && r.apiReader then
    match ← perform (Op.apiGet report.key) with
    | .refused _ => send report
    | .found full => send full
  else
    send report

def droppedNote (report : PodCrashReport) : GoString :=
  lit "Giving up on webhook delivery for pod " ++ report.spec.namespace_ ++ lit "/" ++
    report.spec.podName ++ lit " after 10m0s; this crash was not notified"

def crashNote (report : PodCrashReport) : GoString :=
  lit "Processed crash report for pod " ++ report.spec.namespace_ ++ lit "/" ++
    report.spec.podName ++ lit " (container: " ++ report.spec.containerName ++ lit ", reason: " ++
    report.spec.terminationReason.text ++ lit ", exit code: " ++
    itoa report.spec.exitCode ++ lit ")"

/-- The delivery that precedes the phase transition.  `.error` is what `Reconcile`
returns at once; `.ok` is the `notifiedAt` it goes on with. -/
def notify (r : PodCrashReportReconciler) (report : PodCrashReport) :
    M (Except Result (Option Int)) := do
  match r.webhookSender, report.status.notifiedAt with
  | some sender, none =>
      match ← sendWebhook r sender report with
      | some err =>
          let now ← perform Op.now
          if now < webhookDeadline r report then
            perform (Op.count (.webhookDeliveries .retry))
            return .error { err := some err }
          perform (Op.count (.webhookDeliveries .dropped))
          perform (Op.event ⟨report.key, .notificationDropped, droppedNote report⟩)
          return .ok none
      | none =>
          perform (Op.count (.webhookDeliveries .success))
          let now ← perform Op.now
          return .ok (some now)
  | _, notifiedAt => return .ok notifiedAt

/-- The patch that marks `report` processed. -/
def processedPatch (report : PodCrashReport) (notifiedAt : Option Int) : StatusPatch :=
  ({ base := report } : MergeFrom).data
    { report with
      status := { report.status with phase := .processed, notifiedAt := notifiedAt } }

section ProcessedPatch

variable (report : PodCrashReport) (notifiedAt : Option Int) (s : PodCrashReportStatus)

/-- The patch carries no diagnostics, so it cannot touch the stored ones. -/
theorem processedPatch_diagnostics :
    ((processedPatch report notifiedAt).applyTo s).diagnostics = s.diagnostics :=
  applyTo_diagnostics rfl s

theorem processedPatch_phase (unprocessed : report.status.phase ≠ .processed) :
    ((processedPatch report notifiedAt).applyTo s).phase = .processed :=
  applyTo_phase unprocessed s

theorem processedPatch_notifiedAt :
    ((processedPatch report notifiedAt).applyTo s).notifiedAt =
      if report.status.notifiedAt.map wholeSeconds = notifiedAt.map wholeSeconds then s.notifiedAt
      else notifiedAt.map wholeSeconds :=
  applyTo_notifiedAt _ _ s

end ProcessedPatch

/-- The metrics of a processed report. -/
def observeReport (report : PodCrashReport) : M Unit := do
  perform (Op.count (.reportsCreated report.spec.namespace_ report.spec.nodeName
    report.spec.terminationReason))
  if report.spec.terminationReason = .oomKilled then
    perform (Op.count (.oomEvents report.spec.namespace_ report.spec.nodeName))
    if let some dissection := report.status.diagnostics.rssDissection then
      perform (Op.count (.victimAnonRSS report.spec.namespace_ report.spec.containerName
        dissection.anonRSSBytes))
    if report.status.diagnostics.triggerComm ≠ [] then
      perform (Op.count (.triggerProcesses report.status.diagnostics.triggerComm))

/-- The phase transition and what follows it.  After the write the report is the
object the server returned. -/
def process (report : PodCrashReport) (notifiedAt : Option Int) : M Result := do
  match (← perform (Op.statusPatch report.key (processedPatch report notifiedAt))).result with
  | .error e =>
      return { err := some (.wrap (lit "failed to update PodCrashReport status") (.api e)) }
  | .ok updated =>
      perform (Op.event ⟨updated.key, .crashDetected, crashNote updated⟩)
      observeReport updated
      return {}

def reconcile (r : PodCrashReportReconciler) (req : NamespacedName) : M Result := do
  match ← perform (Op.get req) with
  | .refused e =>
      if e.isNotFound then return {}
      return { err := some (.wrap (lit "failed to get PodCrashReport") (.api e)) }
  | .found report =>
      if report.status.phase = .processed then return {}
      if report.status.phase = .unset then
        let now ← perform Op.now
        if sub now report.metadata.creationTimestamp < diagnosticsGracePeriod then
          return { requeueAfter := some diagnosticsRequeueAfter }
      match ← notify r report with
      | .error result => return result
      | .ok notifiedAt => process report notifiedAt

/-! ## What a reconcile can do -/

/-- Nothing has been sent to the webhook yet. -/
def NoPost (log : Log) : Prop := ∀ report answer, ¬ Did log (.post report) answer

/-- No status write has been issued yet. -/
def NoPatch (log : Log) : Prop := ∀ key patch answer, ¬ Did log (.statusPatch key patch) answer

theorem NoPost.cons {log : Log} {e : Entry Op Op.Resp} (none_ : NoPost log)
    (other : ∀ report, e.op ≠ .post report) : NoPost (e :: log) := fun report answer did =>
  none_ report answer ((did_cons_of_ne (other report)).1 did)

theorem NoPatch.cons {log : Log} {e : Entry Op Op.Resp} (none_ : NoPatch log)
    (other : ∀ key patch, e.op ≠ .statusPatch key patch) : NoPatch (e :: log) :=
  fun key patch answer did => none_ key patch answer ((did_cons_of_ne (other key patch)).1 did)

/-- `v` is the version this reconcile read, it is not processed, and when the agent
has not written it yet it was found past the grace period. -/
structure Ready (log : Log) (key : NamespacedName) (v : PodCrashReport) : Prop where
  read : Did log (.get key) (.found v)
  named : v.key = key
  unprocessed : v.status.phase ≠ .processed
  due : v.status.phase = .unset →
    ∃ t : Int, Did log .now t ∧ diagnosticsGracePeriod ≤ sub t v.metadata.creationTimestamp

theorem Ready.cons {log : Log} {key : NamespacedName} {v : PodCrashReport}
    (ready : Ready log key v) (e : Entry Op Op.Resp) : Ready (e :: log) key v where
  read := ready.read.cons e
  named := ready.named
  unprocessed := ready.unprocessed
  due unset := by
    obtain ⟨t, clock, past⟩ := ready.due unset
    exact ⟨t, clock.cons e, past⟩

/-- `Ready`, and nothing but reads, clock readings and counts performed so far. -/
structure Fresh (log : Log) (key : NamespacedName) (v : PodCrashReport) : Prop
    extends Ready log key v where
  only : ∀ v', Did log (.get key) (.found v') → v' = v
  noPost : NoPost log
  noPatch : NoPatch log

theorem Fresh.cons {log : Log} {key : NamespacedName} {v : PodCrashReport}
    (fresh : Fresh log key v) {e : Entry Op Op.Resp} (notGet : e.op ≠ .get key)
    (notPost : ∀ report, e.op ≠ .post report) (notPatch : ∀ key patch, e.op ≠ .statusPatch key patch) :
    Fresh (e :: log) key v where
  toReady := fresh.toReady.cons e
  only v' did := fresh.only v' ((did_cons_of_ne notGet).1 did)
  noPost := fresh.noPost.cons notPost
  noPatch := fresh.noPatch.cons notPatch

/-! ### What it tells -/

/-- A copy of the report of `key` that a reconcile has had in its hands. -/
inductive Saw (log : Log) (key : NamespacedName) : PodCrashReport → Prop
  | cached {v : PodCrashReport} (read : Did log (.get key) (.found v)) : Saw log key v
  | full {v : PodCrashReport} (got : Did log (.apiGet key) (.found v)) : Saw log key v
  | written {stored : PodCrashReport} {patch : StatusPatch}
      (did : Did log (.statusPatch key patch) (.acked stored)) : Saw log key stored

theorem Saw.of_suffix {log before : Log} {key : NamespacedName} {v : PodCrashReport}
    (saw : Saw before key v) (suffix : before <:+ log) : Saw log key v := by
  cases saw with
  | cached read => exact .cached (read.of_suffix suffix)
  | full got => exact .full (got.of_suffix suffix)
  | written did => exact .written (did.of_suffix suffix)

/-- The figures of a metric are those of `v`. -/
def MetricOf (v : PodCrashReport) : Metric → Prop
  | .reportsCreated namespace_ node reason =>
      namespace_ = v.spec.namespace_ ∧ node = v.spec.nodeName ∧ reason = v.spec.terminationReason
  | .oomEvents namespace_ node => namespace_ = v.spec.namespace_ ∧ node = v.spec.nodeName
  | .victimAnonRSS namespace_ container bytes =>
      namespace_ = v.spec.namespace_ ∧ container = v.spec.containerName ∧
        ∃ dissection, v.status.diagnostics.rssDissection = some dissection ∧
          bytes = dissection.anonRSSBytes
  | .triggerProcesses comm => comm = v.status.diagnostics.triggerComm
  | .webhookDeliveries _ => True
  | _ => False

/-- The operation tells the world outside what `v` says. -/
def TellsOf (v : PodCrashReport) : Op → Prop
  | .post report => report = v
  | .event record =>
      record.about = v.key ∧
        record.note =
          match record.reason with
          | .crashDetected => crashNote v
          | .notificationDropped => droppedNote v
  | .count metric => MetricOf v metric
  | _ => False

/-- The operation tells what a copy says that the reconcile of `key` has seen. -/
def Tells (log : Log) (key : NamespacedName) (o : Op) : Prop := ∃ v, Saw log key v ∧ TellsOf v o

/-! ### What it settles -/

/-- What may be sent for the version `v` that was read: that, or the full copy. -/
def CopyOf (log : Log) (key : NamespacedName) (v report : PodCrashReport) : Prop :=
  report = v ∨ Did log (.apiGet key) (.found report)

theorem CopyOf.of_suffix {log before : Log} {key : NamespacedName} {v report : PodCrashReport}
    (copy : CopyOf before key v report) (suffix : before <:+ log) : CopyOf log key v report :=
  copy.imp_right fun got => got.of_suffix suffix

theorem CopyOf.tells {log : Log} {key : NamespacedName} {v report : PodCrashReport}
    (copy : CopyOf log key v report) (read : Did log (.get key) (.found v)) :
    Tells log key (.post report) := by
  rcases copy with rfl | got
  · exact ⟨_, .cached read, rfl⟩
  · exact ⟨_, .full got, rfl⟩

/-- The alert was given up: a request for the version that was read failed, the clock read right
after it was not before the deadline, and the loss was counted and recorded as an Event. -/
def Dropped (r : PodCrashReportReconciler) (log : Log) (key : NamespacedName)
    (v : PodCrashReport) : Prop :=
  ∃ (read report : PodCrashReport) (answer : PostAnswer) (t : Int),
    Did log (.get key) (.found read) ∧ CopyOf log key read report ∧
    [⟨.event ⟨key, .notificationDropped, droppedNote read⟩, ()⟩,
      ⟨.count (.webhookDeliveries .dropped), ()⟩,
      ⟨.now, t⟩, ⟨.post report, answer⟩] <:+: log ∧
    answer.is2xx = false ∧ webhookDeadline r v ≤ t

/-- A request for the version that this reconcile read was answered with a 2xx status. -/
def Acked (log : Log) (key : NamespacedName) : Prop :=
  ∃ (read report : PodCrashReport) (answer : PostAnswer),
    Did log (.get key) (.found read) ∧ CopyOf log key read report ∧
    Did log (.post report) answer ∧ answer.is2xx = true

theorem Acked.of_suffix {log before : Log} {key : NamespacedName} (acked : Acked before key)
    (suffix : before <:+ log) : Acked log key := by
  obtain ⟨read, report, answer, did, copy, posted, ok⟩ := acked
  exact ⟨read, report, answer, did.of_suffix suffix, copy.of_suffix suffix, posted.of_suffix suffix, ok⟩

theorem Dropped.of_suffix {r : PodCrashReportReconciler} {log before : Log} {key : NamespacedName}
    {v : PodCrashReport}
    (dropped : Dropped r before key v) (suffix : before <:+ log) : Dropped r log key v := by
  obtain ⟨read, report, answer, t, did, copy, inside, failed⟩ := dropped
  exact ⟨read, report, answer, t, did.of_suffix suffix, copy.of_suffix suffix,
    inside.trans suffix.isInfix, failed⟩

/-- The deadline depends on the report only through its creation. -/
theorem Dropped.congr {r : PodCrashReportReconciler} {log : Log} {key : NamespacedName}
    {v v' : PodCrashReport}
    (dropped : Dropped r log key v)
    (same : v'.metadata.creationTimestamp = v.metadata.creationTimestamp) : Dropped r log key v' := by
  simpa only [Dropped, webhookDeadline, same] using dropped

/-- What was settled about the notification when the status write goes out, by the
`notifiedAt` it writes. -/
inductive Settled (r : PodCrashReportReconciler) (log : Log) (key : NamespacedName)
    (v : PodCrashReport) : Option Int → Prop
  | off (unset : r.webhookSender = none) : Settled r log key v v.status.notifiedAt
  | recorded {t : Int} (before : v.status.notifiedAt = some t) : Settled r log key v (some t)
  | acked {t : Int} (first : v.status.notifiedAt = none) (acked : Acked log key)
      (clock : Did log .now t) : Settled r log key v (some t)
  | dropped (first : v.status.notifiedAt = none) (dropped : Dropped r log key v) :
      Settled r log key v none

/-- A settled notification is never written back to nil. -/
theorem Settled.keeps {r : PodCrashReportReconciler} {log : Log} {key : NamespacedName}
    {v : PodCrashReport} {n : Option Int} (settled : Settled r log key v n)
    (changed : v.status.notifiedAt ≠ n) : n ≠ none := by
  cases settled with
  | off unset => exact absurd rfl changed
  | recorded before => simp
  | acked first acked clock => simp
  | dropped first dropped => exact absurd first changed

/-- The time that is written is the one that was read, or one from the clock. -/
theorem Settled.stamp {r : PodCrashReportReconciler} {log : Log} {key : NamespacedName}
    {v : PodCrashReport} {n : Option Int} (settled : Settled r log key v n) :
    n = v.status.notifiedAt ∨ ∃ t, n = some t ∧ Did log .now t := by
  cases settled with
  | off unset => exact .inl rfl
  | recorded before => exact .inl before.symm
  | acked first acked clock => exact .inr ⟨_, rfl, clock⟩
  | dropped first dropped => exact .inl first.symm

/-- The contract of a reconcile of `key`. -/
def contract (r : PodCrashReportReconciler) (key : NamespacedName) : Contract Op Op.Resp where
  rely := fun _ o answer =>
    match o, answer with
    | .get k, .found v => v.key = k
    | _, _ => True
  guarantee := fun log o =>
    match o with
    | .get k => k = key ∧ log = []
    | .post report =>
        NoPost log ∧ NoPatch log ∧
          ∃ v, Ready log key v ∧ v.status.notifiedAt = none ∧ CopyOf log key v report
    | .statusPatch k patch =>
        k = key ∧ NoPatch log ∧
          ∃ v n, Ready log key v ∧ Settled r log key v n ∧ patch = processedPatch v n
    | .event record => (∃ v, Ready log key v) ∧ Tells log key (.event record)
    | .count metric => Tells log key (.count metric)
    | .apiGet k => k = key
    | .now => True
    | _ => False

/-- A reconcile reads the report once, before anything else. -/
theorem read_unique {r : PodCrashReportReconciler} {key : NamespacedName} {log : Log}
    {v v' : PodCrashReport} (honest : Honest (contract r key) log)
    (first : Did log (.get key) (.found v)) (second : Did log (.get key) (.found v')) : v = v' := by
  obtain ⟨_, here, ⟨-, rfl⟩, -⟩ := honest.of_mem first
  obtain ⟨_, there, ⟨-, rfl⟩, -⟩ := honest.of_mem second
  have same := (List.suffix_of_suffix_length_le here there (Nat.le_refl 1)).eq_of_length rfl
  simpa using same

/-- How a reconcile can end: a request that was acknowledged was followed by the
status write, and without a status write the version it read was processed
already, or still within its grace period, or within its retry window. -/
structure Ends (r : PodCrashReportReconciler) (key : NamespacedName) (log : Log) : Prop where
  acked : Acked log key → ∃ patch answer, Did log (.statusPatch key patch) answer
  read : ∀ v, Did log (.get key) (.found v) →
    (∃ patch answer, Did log (.statusPatch key patch) answer) ∨
    v.status.phase = .processed ∨
    (v.status.phase = .unset ∧
      ∃ t : Int, Did log .now t ∧ sub t v.metadata.creationTimestamp < diagnosticsGracePeriod) ∨
    ∃ t : Int, Did log .now t ∧ t < webhookDeadline r v

section Meets

variable {r : PodCrashReportReconciler} {key : NamespacedName} {log : Log} {v : PodCrashReport}

theorem Ends.of_patch {patch : StatusPatch} {answer : WriteAnswer}
    (did : Did log (.statusPatch key patch) answer) : Ends r key log where
  acked _ := ⟨patch, answer, did⟩
  read _ _ := .inl ⟨patch, answer, did⟩

/-- A metric of a copy that was seen. -/
theorem counts_of_saw {metric : Metric} (saw : Saw log key v) (of : MetricOf v metric) :
    (contract r key).guarantee log (.count metric) :=
  ⟨v, saw, of⟩

theorem observeReport_meets {patch : StatusPatch}
    (did : Did log (.statusPatch key patch) (.acked v)) :
    Meets (contract r key) (fun log _ => Did log (.statusPatch key patch) (.acked v)) log
      (observeReport v) := by
  unfold observeReport
  refine ⟨counts_of_saw (.written did) ⟨rfl, rfl, rfl⟩, fun _ _ => ?_⟩
  replace did := did.cons ⟨.count (.reportsCreated v.spec.namespace_ v.spec.nodeName
    v.spec.terminationReason), ()⟩
  split
  · refine ⟨counts_of_saw (.written did) ⟨rfl, rfl⟩, fun _ _ => ?_⟩
    replace did := did.cons ⟨.count (.oomEvents v.spec.namespace_ v.spec.nodeName), ()⟩
    cases dissected : v.status.diagnostics.rssDissection with
    | none =>
        simp only []
        split
        · exact ⟨counts_of_saw (.written did) rfl, fun _ _ => did.cons _⟩
        · exact did
    | some dissection =>
        refine ⟨counts_of_saw (.written did) ⟨rfl, rfl, dissection, dissected, rfl⟩, fun _ _ => ?_⟩
        split
        · exact ⟨counts_of_saw (.written (did.cons _)) rfl, fun _ _ => (did.cons _).cons _⟩
        · exact did.cons _
  · exact did

theorem process_meets {n : Option Int} (ready : Ready log key v) (noPatch : NoPatch log)
    (settled : Settled r log key v n) :
    Meets (contract r key) (fun log _ => Ends r key log) log (process v n) := by
  unfold process
  rw [ready.named]
  refine meets_perform_bind.2 ⟨⟨rfl, noPatch, v, n, ready, settled, rfl⟩, fun answer _ => ?_⟩
  have did := did_self log (.statusPatch key (processedPatch v n)) answer
  cases answer with
  | lost => exact Ends.of_patch did
  | refused e => exact Ends.of_patch did
  | acked updated =>
      refine meets_perform_bind.2
        ⟨⟨⟨v, ready.cons _⟩, updated, .written did, rfl, rfl⟩, fun _ _ => ?_⟩
      refine meets_bind.2 ((observeReport_meets (did.cons _)).post_mono ?_)
      intro log _ kept
      exact Ends.of_patch kept

/-- Sending performs one request and reports whether it was answered with 2xx. -/
theorem send_meets {Q : Log → Option GoError → Prop} (report : PodCrashReport)
    (allowed : (contract r key).guarantee log (.post report))
    (failed : ∀ answer err, answer.is2xx = false → Q (⟨.post report, answer⟩ :: log) (some err))
    (acked : ∀ answer, answer.is2xx = true → Q (⟨.post report, answer⟩ :: log) none) :
    Meets (contract r key) Q log (send report) := by
  unfold send
  refine meets_perform_bind.2 ⟨allowed, fun answer _ => ?_⟩
  cases answer with
  | failed => exact failed .failed _ rfl
  | response code =>
      by_cases outside : code < 200 ∨ code ≥ 300
      · simp only [outside, if_true, meets_pure]
        refine failed _ _ ?_
        simp only [PostAnswer.is2xx, decide_eq_false_iff_not]
        omega
      · simp only [outside, if_false, meets_pure]
        refine acked _ ?_
        simp only [PostAnswer.is2xx, decide_eq_true_eq]
        omega

theorem sendWebhook_meets {Q : Log → Option GoError → Prop} (sender : WebhookSender)
    (fresh : Fresh log key v) (first : v.status.notifiedAt = none)
    (failed : ∀ before report answer err, Fresh before key v → CopyOf before key v report →
      answer.is2xx = false → Q (⟨.post report, answer⟩ :: before) (some err))
    (acked : ∀ before report answer, Fresh before key v → CopyOf before key v report →
      answer.is2xx = true → Q (⟨.post report, answer⟩ :: before) none) :
    Meets (contract r key) Q log (sendWebhook r sender v) := by
  have sends : ∀ before report, Fresh before key v → CopyOf before key v report →
      Meets (contract r key) Q before (send report) := by
    intro before report here copy
    exact send_meets report ⟨here.noPost, here.noPatch, v, here.toReady, first, copy⟩
      (fun answer err => failed before report answer err here copy)
      (fun answer => acked before report answer here copy)
  unfold sendWebhook
  split
  · rw [fresh.named]
    refine meets_perform_bind.2 ⟨rfl, fun answer _ => ?_⟩
    have next : Fresh (⟨.apiGet key, answer⟩ :: log) key v :=
      fresh.cons (by simp) (by simp) (by simp)
    cases answer with
    | refused e => exact sends _ _ next (.inl rfl)
    | found full => exact sends _ _ next (.inr (did_self _ _ _))
  · exact sends _ _ fresh (.inl rfl)

/-- No request was acknowledged. -/
def Unacked (log : Log) : Prop :=
  ∀ report answer, Did log (.post report) answer → answer.is2xx = false

theorem Unacked.cons {e : Entry Op Op.Resp} (unacked : Unacked log)
    (other : ∀ report, e.op ≠ .post report) : Unacked (e :: log) := fun report answer did =>
  unacked report answer ((did_cons_of_ne (other report)).1 did)

theorem NoPost.unacked (none_ : NoPost log) : Unacked log := fun report answer did =>
  absurd did (none_ report answer)

theorem NoPost.failed {report : PodCrashReport} {answer : PostAnswer} (none_ : NoPost log)
    (failed : answer.is2xx = false) : Unacked (⟨.post report, answer⟩ :: log) := by
  intro report' answer' did
  rcases List.mem_cons.1 did with same | before
  · cases same
    exact failed
  · exact absurd before (none_ _ _)

theorem Unacked.not_acked (unacked : Unacked log) : ¬ Acked log key := by
  rintro ⟨read, report, answer, -, -, did, ok⟩
  rw [unacked report answer did] at ok
  cases ok

/-- The delivery either ends the reconcile inside the retry window, or settles the
notification for the status write. -/
theorem notify_meets (fresh : Fresh log key v) :
    Meets (contract r key)
      (fun log result =>
        match result with
        | .error _ => Ends r key log
        | .ok n => Ready log key v ∧ NoPatch log ∧ Settled r log key v n)
      log (notify r v) := by
  unfold notify
  split
  · rename_i sender _ first
    refine meets_bind.2 (sendWebhook_meets sender fresh first ?_ ?_)
    · intro before report answer err here copy failed
      refine meets_perform_bind.2 ⟨trivial, fun t _ => ?_⟩
      have only : ∀ v', Did (⟨.now, t⟩ :: ⟨.post report, answer⟩ :: before) (.get key) (.found v') →
          v' = v := by
        intro v' did
        rw [did_cons_of_ne (by simp), did_cons_of_ne (by simp)] at did
        exact here.only v' did
      have ready : Ready (⟨.now, t⟩ :: ⟨.post report, answer⟩ :: before) key v :=
        (here.toReady.cons _).cons _
      by_cases early : t < webhookDeadline r v
      · simp only [early, if_true]
        refine meets_perform_bind.2 ⟨counts_of_saw (.cached ready.read) trivial, fun _ _ => ?_⟩
        have clock := did_self (⟨.post report, answer⟩ :: before) .now t
        have unacked : Unacked (⟨.now, t⟩ :: ⟨.post report, answer⟩ :: before) :=
          (here.noPost.failed failed).cons (by simp)
        refine ⟨fun acked => absurd acked (unacked.cons (by simp)).not_acked, fun v' did => ?_⟩
        · rw [did_cons_of_ne (by simp)] at did
          rw [only v' did]
          exact .inr (.inr (.inr ⟨t, clock.cons _, early⟩))
      · simp only [early, if_false]
        refine meets_perform_bind.2 ⟨counts_of_saw (.cached ready.read) trivial, fun _ _ => ?_⟩
        refine meets_perform_bind.2
          ⟨⟨⟨v, ready.cons _⟩, v, .cached (ready.cons _).read, rfl, rfl⟩, fun _ _ => ?_⟩
        refine ⟨(ready.cons _).cons _, ?_, .dropped first ?_⟩
        · exact (((here.noPatch.cons (by simp)).cons (by simp)).cons (by simp)).cons (by simp)
        · rw [here.named]
          exact ⟨v, report, answer, t, ((ready.cons _).cons _).read,
            copy.of_suffix (List.suffix_append [_, _, _, _] before),
            List.prefix_append [_, _, _, _] before |>.isInfix, failed, not_lt.1 early⟩
    · intro before report answer here copy ok
      refine meets_perform_bind.2
        ⟨counts_of_saw (.cached (here.read.cons _)) trivial, fun _ _ => ?_⟩
      refine meets_perform_bind.2 ⟨trivial, fun t _ => ?_⟩
      have ready := ((here.toReady.cons ⟨.post report, answer⟩).cons
        ⟨.count (.webhookDeliveries .success), ()⟩).cons ⟨.now, t⟩
      refine ⟨ready, ?_, .acked first ?_ (did_self _ _ _)⟩
      · exact ((here.noPatch.cons (by simp)).cons (by simp)).cons (by simp)
      · exact ⟨v, report, answer, ready.read, copy.of_suffix (List.suffix_append [_, _, _] before),
          ((did_self _ _ _).cons _).cons _, ok⟩
  · rename_i notFirst
    refine ⟨fresh.toReady, fresh.noPatch, ?_⟩
    cases sender : r.webhookSender with
    | none => exact .off sender
    | some s =>
        cases notified : v.status.notifiedAt with
        | none => exact absurd notified (notFirst s sender)
        | some t => exact .recorded notified

/-- **What a reconcile can do**, whatever it is answered. -/
theorem reconcile_meets (r : PodCrashReportReconciler) (key : NamespacedName) :
    Meets (contract r key) (fun log _ => Ends r key log) [] (reconcile r key) := by
  unfold reconcile
  refine meets_perform_bind.2 ⟨⟨rfl, rfl⟩, fun answer named => ?_⟩
  cases answer with
  | refused e =>
      have nothing : Ends r key [⟨.get key, .refused e⟩] :=
        ⟨by rintro ⟨_, _, _, did, -⟩; simp [Did] at did, by intro v did; simp [Did] at did⟩
      dsimp only
      split <;> exact nothing
  | found v =>
      dsimp only
      have only : ∀ v', Did [⟨.get key, .found v⟩] (.get key) (.found v') → v' = v := by
        intro v' did
        simpa [Did] using did
      have noPost : NoPost [⟨.get key, .found v⟩] := by intro _ _ did; simp [Did] at did
      have noPatch : NoPatch [⟨.get key, .found v⟩] := by intro _ _ _ did; simp [Did] at did
      have rest : ∀ log, Fresh log key v → Meets (contract r key) (fun log _ => Ends r key log) log
          (notify r v >>= fun result =>
            match result with
            | .error result => pure result
            | .ok notifiedAt => process v notifiedAt) := by
        intro log fresh
        refine meets_bind.2 ((notify_meets fresh).post_mono ?_)
        intro log result settled
        cases result with
        | error result => exact settled
        | ok n => exact process_meets settled.1 settled.2.1 settled.2.2
      by_cases processed : v.status.phase = .processed
      · simp only [processed, if_true]
        exact ⟨fun acked => absurd acked noPost.unacked.not_acked,
          fun v' did => .inr (.inl (only v' did ▸ processed))⟩
      · simp only [processed, if_false]
        by_cases unset : v.status.phase = .unset
        · simp only [unset, if_true]
          refine meets_perform_bind.2 ⟨trivial, fun t _ => ?_⟩
          by_cases young : sub t v.metadata.creationTimestamp < diagnosticsGracePeriod
          · simp only [young, if_true]
            refine ⟨fun acked => absurd acked (noPost.unacked.cons (by simp)).not_acked,
              fun v' did => ?_⟩
            rw [did_cons_of_ne (by simp)] at did
            rw [only v' did]
            exact .inr (.inr (.inl ⟨unset, t, did_self _ _ _, young⟩))
          · simp only [young, if_false]
            exact rest _
              { read := (did_self _ _ _).cons _
                named := named
                unprocessed := processed
                due := fun _ => ⟨t, did_self _ _ _, not_lt.1 young⟩
                only := fun v' did => only v' ((did_cons_of_ne (by simp)).1 did)
                noPost := noPost.cons (by simp)
                noPatch := noPatch.cons (by simp) }
        · simp only [unset, if_false]
          exact rest _
            { read := did_self _ _ _
              named := named
              unprocessed := processed
              due := fun h => absurd h unset
              only := only
              noPost := noPost
              noPatch := noPatch }

end Meets

end KubeAutopsy.Controller
