/-
# KubeAutopsy.Cluster.Delivery — a processed report was notified or visibly given up

With a webhook configured, the phase of a report is only ever moved to `Processed` by
a reconcile that settled the notification first.  `Delivered` is the invariant: every
version that is processed has evidence in the log of some reconcile, a request
acknowledged with a 2xx status or a request that failed at or after the deadline of
the process that made it, counted and recorded; and every version that records a
notification has an acknowledged request.

The evidence is in the logs, which only grow (`LogsGrow`), so it outlives the process
that produced it.
-/
import KubeAutopsy.Cluster.Monotone

namespace KubeAutopsy.Cluster

open KubeAutopsy.Api
open KubeAutopsy.Controller
open KubeAutopsy.Theory.Bytes (GoString lit)
open KubeAutopsy.Theory.Clock
open KubeAutopsy.Theory.History
open KubeAutopsy.Theory.Program
open KubeAutopsy.Theory.Transition

set_option autoImplicit false

/-! ## Evidence -/

/-- Some reconcile of `key` had its request for the version it read acknowledged. -/
def AckedFor (w : World) (key : NamespacedName) : Prop :=
  ∃ t ∈ w.threads, ∃ r, t.job = .reconcile r key ∧ Acked t.log key

/-- Some reconcile of `key` gave up the alert about `v`, visibly, no earlier than the
deadline of its process. -/
def DroppedFor (w : World) (key : NamespacedName) (v : PodCrashReport) : Prop :=
  ∃ t ∈ w.threads, ∃ r, t.job = .reconcile r key ∧ Dropped r t.log key v

/-- Every thread is still there, with a log that has only grown. -/
def LogsGrow (w w' : World) : Prop :=
  ∀ t ∈ w.threads, ∃ t' ∈ w'.threads, t'.job = t.job ∧ t.log <:+ t'.log

section Grow

variable {cfg : Config} {w w' : World} {l : Label} {key : NamespacedName} {v : PodCrashReport}

theorem AckedFor.grow (acked : AckedFor w key) (logs : LogsGrow w w') : AckedFor w' key := by
  obtain ⟨t, member, r, job, here⟩ := acked
  obtain ⟨t', member', job', suffix⟩ := logs t member
  exact ⟨t', member', r, job'.trans job, Acked.of_suffix here suffix⟩

theorem DroppedFor.grow (dropped : DroppedFor w key v) (logs : LogsGrow w w') : DroppedFor w' key v := by
  obtain ⟨t, member, r, job, here⟩ := dropped
  obtain ⟨t', member', job', suffix⟩ := logs t member
  exact ⟨t', member', r, job'.trans job, Dropped.of_suffix here suffix⟩

/-- Only the creation of the report matters. -/
theorem DroppedFor.congr {v' : PodCrashReport} (dropped : DroppedFor w key v)
    (same : v'.metadata.creationTimestamp = v.metadata.creationTimestamp) : DroppedFor w key v' := by
  obtain ⟨t, member, r, job, here⟩ := dropped
  exact ⟨t, member, r, job, Dropped.congr here same⟩

theorem Moved.logsGrow (moved : Moved cfg w l w') : LogsGrow w w' := by
  cases moved with
  | idle clock store threads =>
      exact fun t member => ⟨t, threads ▸ member, rfl, List.suffix_rfl⟩
  | spawned starts =>
      exact fun t member => ⟨t, List.mem_append_left _ member, rfl, List.suffix_rfl⟩
  | performed found alive next answered =>
      rename_i i choice t o k r store
      intro u member
      obtain ⟨j, at_⟩ := List.getElem?_of_mem member
      by_cases same : i = j
      · subst same
        obtain rfl : t = u := Option.some.inj (found.symm.trans at_)
        have bound : i < w.threads.length := (List.getElem?_eq_some_iff.1 at_).1
        refine ⟨{ t with log := ⟨o, r⟩ :: t.log, prog := k r }, ?_, rfl, List.suffix_cons _ _⟩
        exact List.mem_of_getElem? (i := i) (by simp [World.advance, bound])
      · refine ⟨u, ?_, rfl, List.suffix_rfl⟩
        exact List.mem_of_getElem? (i := j) (by simp [World.advance, List.getElem?_set_ne same, at_])

end Grow

/-! ## The invariant -/

/-- Every processed version, and every recorded notification, has its evidence. -/
structure Delivered (w : World) : Prop where
  processed : ∀ v ∈ w.store.history, v.status.phase = .processed →
    AckedFor w v.key ∨ DroppedFor w v.key v
  notified : ∀ v ∈ w.store.history, v.status.notifiedAt ≠ none → AckedFor w v.key

section Step

variable {cfg : Config} {w w' : World} {l : Label}

theorem Delivered.grow (delivered : Delivered w) (store : w'.store.history = w.store.history)
    (logs : LogsGrow w w') : Delivered w' where
  processed v member phase := by
    rcases delivered.processed v (store ▸ member) phase with acked | dropped
    · exact .inl (acked.grow logs)
    · exact .inr (dropped.grow logs)
  notified v member recorded := (delivered.notified v (store ▸ member) recorded).grow logs

/-- A version with evidence of its own joins the ones that have theirs. -/
theorem Delivered.push (delivered : Delivered w) {stored : PodCrashReport}
    (wrote : w'.store.history = stored :: w.store.history) (logs : LogsGrow w w')
    (processed : stored.status.phase = .processed →
      AckedFor w' stored.key ∨ DroppedFor w' stored.key stored)
    (notified : stored.status.notifiedAt ≠ none → AckedFor w' stored.key) : Delivered w' where
  processed v member phase := by
    rw [wrote] at member
    rcases List.mem_cons.1 member with rfl | before
    · exact processed phase
    · rcases delivered.processed v before phase with acked | dropped
      · exact .inl (acked.grow logs)
      · exact .inr (dropped.grow logs)
  notified v member recorded := by
    rw [wrote] at member
    rcases List.mem_cons.1 member with rfl | before
    · exact notified recorded
    · exact (delivered.notified v before recorded).grow logs

/-- The version a reconcile read is a stored one but for its log lines. -/
theorem Sound.read (sound : Sound cfg w) {t : Thread} (member : t ∈ w.threads) {key : NamespacedName}
    {v : PodCrashReport} (did : Did t.log (.get key) (.found v)) :
    ∃ u ∈ w.store.history, v = stripCachedLogLines u ∧ u.key = key :=
  sound.told t member _ did v rfl

/-- The evidence behind a status write of the controller. -/
theorem evidence_of_settled (sound : Sound cfg w) (linked : w.store.versions.Linked Succeeds)
    (delivered : Delivered w) {sender : WebhookSender} (on : cfg.webhookSender = some sender)
    {t : Thread} (member : t ∈ w.threads) {r : PodCrashReportReconciler} {key : NamespacedName}
    (job : t.job = .reconcile r key) {v old : PodCrashReport} {n : Option Int}
    (ready : Ready t.log key v) (settled : Settled r t.log key v n)
    (current : w.store.current key = some old) :
    AckedFor w key ∨ (n = none ∧ v.status.notifiedAt = none ∧ DroppedFor w key old) := by
  obtain ⟨u, stored, rfl, named⟩ := sound.read member ready.read
  cases settled with
  | off unset =>
      have configured := sound.configured t member
      rw [job] at configured
      obtain ⟨startedAt, rfl⟩ := configured
      simp [Config.reconciler, on] at unset
  | recorded before =>
      rw [stripCachedLogLines_notifiedAt] at before
      exact .inl (named ▸ delivered.notified u stored (by simp [before]))
  | acked first acked clock => exact .inl ⟨t, member, r, job, acked⟩
  | dropped first dropped =>
      have same : old.metadata.creationTimestamp = u.metadata.creationTimestamp :=
        (linked.of_current .refl stored (named ▸ Store.versions_current current)).created
      refine .inr ⟨rfl, first, t, member, r, job, Dropped.congr dropped ?_⟩
      rw [same, stripCachedLogLines_metadata]

theorem delivered_step (sound : Sound cfg w) (linked : w.store.versions.Linked Succeeds)
    {sender : WebhookSender} (on : cfg.webhookSender = some sender) (delivered : Delivered w)
    (moved : Moved cfg w l w') : Delivered w' := by
  have logs := moved.logsGrow
  cases moved with
  | idle clock store threads => exact delivered.grow (congrArg Store.history store) logs
  | spawned starts => exact delivered.grow rfl logs
  | performed found alive next answered =>
      rename_i i choice t o k r store
      obtain ⟨touches, -⟩ := respond_spec answered (le_refl w.clock)
      cases touches with
      | nothing => exact delivered.grow rfl logs
      | created wrote fresh status =>
          exact delivered.push wrote.history logs (by simp [status]) (by simp [status])
      | deleted versions gone => exact delivered.grow (congrArg Versions.entries versions) logs
      | patched patched =>
          rename_i key patch stored
          rcases patched.effect with ⟨-, same⟩ | wrote
          · exact delivered.grow (congrArg Store.history same) logs
          obtain ⟨old, current, applies, status, created⟩ := patched.base
          have named := Store.key_of_current current
          rcases patch_cases sound found next current applies with
            ⟨-, diagnostics, pending⟩ | ⟨r, v, n, job, ready, settled, rfl⟩
          · -- The agent's write neither processes nor notifies.
            rw [pending] at status
            exact delivered.push wrote.history logs (by simp [status]) (by simp [status])
          · have evidence := evidence_of_settled sound linked delivered on
              (List.mem_of_getElem? found) job ready settled current
            refine delivered.push wrote.history logs (fun _ => ?_) fun recorded => ?_
            · rw [patched.key]
              rcases evidence with acked | ⟨-, -, dropped⟩
              · exact .inl (acked.grow logs)
              · exact .inr ((dropped.congr created).grow logs)
            · rw [patched.key]
              rcases evidence with acked | ⟨rfl, first, -⟩
              · exact acked.grow logs
              · -- Giving up leaves `notifiedAt` as it was.
                rw [status, processedPatch_notifiedAt, first, if_pos rfl] at recorded
                have before := delivered.notified old (Store.mem_of_current current) recorded
                exact AckedFor.grow (named ▸ before) logs

end Step

theorem delivered_of_reach {cfg : Config} {G : World → Label → Prop} {w : World}
    {sender : WebhookSender} (on : cfg.webhookSender = some sender)
    (reached : Reach (system cfg) G w) : Delivered w := by
  refine reached.induction (I := Delivered) (fun w start => ?_)
    fun w l w' reached delivered _ taken =>
      delivered_step (sound_of_reach reached) (linked_of_reach reached) on delivered
        (moved_of_step taken)
  obtain ⟨empty, -⟩ := start
  constructor <;> simp [empty, Store.history, Store.empty, Versions.empty]

/-! ## The grace period and the deadline -/

section Times

variable {cfg : Config} {w : World} {t : Thread} {r : PodCrashReportReconciler}
  {key : NamespacedName} {v : PodCrashReport}

/-- An operation that tells someone about the crash. -/
def tells : Op → Prop
  | .post _ => True
  | .event record => record.reason = .crashDetected
  | _ => False

/-- Nobody is told from a version without a phase that is within its grace period. -/
theorem grace_of_tells (sound : Sound cfg w) (member : t ∈ w.threads)
    (job : t.job = .reconcile r key) {o : Op} {k : o.Resp → M Unit} (next : t.prog = .op o k)
    (telling : tells o) (read : Did t.log (.get key) (.found v)) (unset : v.status.phase = .unset) :
    diagnosticsGracePeriod ≤ sub w.clock v.metadata.creationTimestamp := by
  obtain ⟨honest, meets⟩ := sound.follows t member
  rw [job] at honest meets
  rw [next] at meets
  obtain ⟨v', ready⟩ : ∃ v', Ready t.log key v' := by
    cases o with
    | post report =>
        obtain ⟨-, -, v', ready, -⟩ := meets.1
        exact ⟨v', ready⟩
    | event record => exact meets.1.1
    | _ => exact telling.elim
  obtain rfl := read_unique honest read ready.read
  obtain ⟨now, clock, past⟩ := ready.due unset
  exact past.trans (sub_mono (sound.told t member _ clock).2)

theorem created_le_deadline (r : PodCrashReportReconciler) (v : PodCrashReport) :
    v.metadata.creationTimestamp + webhookRetryWindow ≤ webhookDeadline r v := by
  rw [webhookDeadline_eq_max]
  omega

/-- A reconcile spawned at or after the deadline cannot end early: it found the report
processed or it issued the status write. -/
theorem patched_of_late (sound : Sound cfg w) (member : t ∈ w.threads)
    (job : t.job = .reconcile r key) (ended : t.prog.ended = true)
    (read : Did t.log (.get key) (.found v)) (late : webhookDeadline r v ≤ t.spawnedAt) :
    v.status.phase = .processed ∨ ∃ patch answer, Did t.log (.statusPatch key patch) answer := by
  have done := sound.ends member job ended
  have after : ∀ {now : Int}, Did t.log .now now → webhookDeadline r v ≤ now :=
    fun clock => late.trans (sound.told t member _ clock).1
  have birth := created_le_deadline r v
  rcases done.read v read with patched | processed | ⟨-, now, clock, young⟩ | ⟨now, clock, early⟩
  · exact .inr patched
  · exact .inl processed
  · have shorter : diagnosticsGracePeriod ≤ webhookRetryWindow := by decide
    have := after clock
    rw [sub_lt_iff (by decide) (by decide)] at young
    omega
  · have := after clock
    omega

/-- A status write of the controller that was acknowledged stored a processed report. -/
theorem processed_of_acked (sound : Sound cfg w) (member : t ∈ w.threads)
    (job : t.job = .reconcile r key) {patch : StatusPatch} {stored : PodCrashReport}
    (did : Did t.log (.statusPatch key patch) (.acked stored)) :
    stored ∈ w.store.history ∧ stored.key = key ∧ stored.status.phase = .processed := by
  obtain ⟨here, named, old, status⟩ := sound.told t member _ did stored rfl
  obtain ⟨before, -, ⟨-, -, v, n, ready, -, rfl⟩, -⟩ := (sound.honest member job).of_mem did
  exact ⟨here, named, status ▸ processedPatch_phase v n old ready.unprocessed⟩

end Times

/-- **At-least-once delivery.**  With a webhook configured, in every reachable state: a
processed report was acknowledged, or given up visibly and not before its deadline;
nobody is being told about a version without a phase within its grace period; and a
reconcile that began at or after the deadline, read the report and had its status write
acknowledged has left it processed. -/
theorem delivered_or_dropped (cfg : Config) (sender : WebhookSender)
    (on : cfg.webhookSender = some sender) {w : World} (reached : Reach (system cfg) anyStep w) :
    (∀ key v, w.store.current key = some v → v.status.phase = .processed →
      AckedFor w key ∨ DroppedFor w key v) ∧
    (∀ t ∈ w.threads, ∀ r key, t.job = .reconcile r key →
      ∀ o k, t.prog = .op o k → tells o → ∀ v, Did t.log (.get key) (.found v) →
        v.status.phase = .unset →
        diagnosticsGracePeriod ≤ sub w.clock v.metadata.creationTimestamp) ∧
    (∀ t ∈ w.threads, ∀ r key, t.job = .reconcile r key → t.prog.ended = true →
      ∀ v, Did t.log (.get key) (.found v) → webhookDeadline r v ≤ t.spawnedAt →
        (∀ patch answer, Did t.log (.statusPatch key patch) answer → ∃ stored, answer = .acked stored) →
        ∀ stored, w.store.current key = some stored → stored.status.phase = .processed) := by
  have sound := sound_of_reach reached
  refine ⟨fun key v current phase => ?_, ?_, ?_⟩
  · have named := Store.key_of_current current
    exact named ▸ (delivered_of_reach on reached).processed v (Store.mem_of_current current) phase
  · exact fun t member r key job o k next telling v read unset =>
      grace_of_tells sound member job next telling read unset
  · intro t member r key job ended v read late acked stored current
    have later : ∀ {u : PodCrashReport}, u ∈ w.store.history → u.key = key →
        u.status.phase = .processed → stored.status.phase = .processed := by
      intro u here named phase
      exact (succeeds_current reached here (named ▸ current)).status.processed phase
    rcases patched_of_late sound member job ended read late with processed | ⟨patch, answer, did⟩
    · obtain ⟨u, here, rfl, named⟩ := sound.read member read
      exact later here named (by simpa using processed)
    · obtain ⟨written, rfl⟩ := acked patch answer did
      obtain ⟨here, named, phase⟩ := processed_of_acked sound member job did
      exact later here named phase

/-- An hour after the controller started, a request fails for the last time. -/
def givingUp : List Label :=
  [.report cartReporter cartEvent cartMeta [], .perform 0 (.named (lit "x7f2q") 0 true), .start,
    .tick 3600000000000, .reconcile cartKey, .perform 1 (.cached 0), .perform 1 .go,
    .perform 1 (.response (.response 503)), .perform 1 .go, .perform 1 .go, .perform 1 .go,
    .perform 1 .ack]

/-- The report ends up processed, and the loss is on record. -/
theorem delivered_or_dropped_givingUp :
    ∃ (w : World) (v : PodCrashReport), w.store.current cartKey = some v ∧
      v.status.phase = .processed ∧ v.status.notifiedAt = none ∧
      (AckedFor w cartKey ∨ DroppedFor w cartKey v) := by
  have ran : ((run (system alerting) quiet givingUp).any fun w => (w.store.current cartKey).any fun v =>
      decide (v.status.phase = .processed ∧ v.status.notifiedAt = none)) = true := by
    decide +kernel
  simp only [Option.any_eq_true, decide_eq_true_eq] at ran
  obtain ⟨w, reaches, v, current, phase, never⟩ := ran
  have reached := reach_of_run quiet_initial reaches
  exact ⟨w, v, current, phase, never,
    (delivered_or_dropped alerting ⟨false⟩ rfl reached).1 cartKey v current phase⟩

end KubeAutopsy.Cluster
