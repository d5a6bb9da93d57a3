/-
# KubeAutopsy.Agent.Budget — what one crash event may cost the API server and the agent

During an OOM storm every node's agent lists pods, reads logs, creates reports and retries.
`charge` says what an operation costs, by kind, and `eventBudget` what a worker may spend on one
event before it gives up: the attempts of its three retry loops, one creation, and the waits
between the attempts, with their length before jitter.  What a worker has left at each point of
its machine is `Point.left`.  A run of the agent spends at most the budget on every event it let
through, whatever it is answered (`load_bounded`), and an unlucky event spends all of it
(`load_bounded_unlucky`).
-/
import KubeAutopsy.Agent.Suppression
import KubeAutopsy.Theory.Cost

namespace KubeAutopsy.Agent

open KubeAutopsy.Api
open KubeAutopsy.Theory.Bytes (GoString lit)
open KubeAutopsy.Theory.Clock
open KubeAutopsy.Theory.Cost
open KubeAutopsy.Theory.Program
open KubeAutopsy.Theory.Refinement

set_option autoImplicit false

/-- What the operations of a worker use. -/
inductive Resource where
  | podLists | logTails | creations | statusWrites
  | waits
  /-- The length of the waits in nanoseconds, before jitter. -/
  | sleep
  /-- Any other request that leaves the agent. -/
  | others
  deriving DecidableEq, Repr

abbrev Load := Resource → Nat

/-- A wait of this length. -/
def pause (delay : Int) : Load := Pi.single .waits 1 + Pi.single .sleep delay.toNat

def charge : Op → Load
  | .listPods _ => Pi.single .podLists 1
  | .logFiles _ => Pi.single .logTails 1
  | .create _ => Pi.single .creations 1
  | .statusPatch _ _ => Pi.single .statusWrites 1
  | .wait delay | .sleep delay => pause delay
  | .get _ | .apiGet _ | .list | .delete _ | .post _ | .event _ => Pi.single .others 1
  | .now | .count _ | .logInfo _ => 0

/-! ## What is left at each point -/

/-- A loop of `steps` attempts from attempt `k` on, with a wait before each but the first. -/
def retrying (steps : Nat) (each : Load) (delay : Nat → Int) (k : Nat) : Load :=
  attempts each (fun k => pause (delay k)) (steps - 1 - k) k

section Retrying

variable {steps : Nat} {each : Load} {delay : Nat → Int} {k : Nat}

theorem retrying_of_lt (more : k + 1 < steps) :
    retrying steps each delay k = each + (pause (delay (k + 1)) + retrying steps each delay (k + 1)) :=
  attempts_of_lt more

theorem le_retrying : each + 0 ≤ retrying steps each delay k :=
  (add_zero each).le.trans (le_attempts _ k)

end Retrying

def Lookup.left : Lookup → Load
  | .listing k =>
      retrying resolveRetryBackoff.steps (Pi.single .podLists 1) resolveRetryBackoff.delay k
  | .waiting k =>
      pause (resolveRetryBackoff.delay k) +
        retrying resolveRetryBackoff.steps (Pi.single .podLists 1) resolveRetryBackoff.delay k
  | .found _ => 0
  | .failed _ => 0

def Capture.left : Capture → Load
  | .reading k => retrying logCaptureRetries (Pi.single .logTails 1) captureDelay k
  | .sleeping k =>
      pause (captureDelay k) + retrying logCaptureRetries (Pi.single .logTails 1) captureDelay k
  | .captured _ => 0
  | .failed => 0

def Filing.left : Filing → Load
  | .creating =>
      Pi.single .creations 1 +
        retrying statusWriteBackoff.steps (Pi.single .statusWrites 1) statusWriteBackoff.delay 0
  | .writing _ k =>
      retrying statusWriteBackoff.steps (Pi.single .statusWrites 1) statusWriteBackoff.delay k
  | .pausing _ k =>
      pause (statusWriteBackoff.delay k) +
        retrying statusWriteBackoff.steps (Pi.single .statusWrites 1) statusWriteBackoff.delay k
  | .written => 0
  | .failed _ => 0

/-- What a worker may still spend.  A stage that has not begun may cost it all of that stage. -/
def Point.left : Point → Load
  | .unsupported => Lookup.left (.listing 0) + (Capture.left (.reading 0) + Filing.left .creating)
  | .listing k => Lookup.left (.listing k) + (Capture.left (.reading 0) + Filing.left .creating)
  | .waiting k => Lookup.left (.waiting k) + (Capture.left (.reading 0) + Filing.left .creating)
  | .reading _ k => Capture.left (.reading k) + Filing.left .creating
  | .sleeping _ k => Capture.left (.sleeping k) + Filing.left .creating
  | .unread _ => Filing.left .creating
  | .creating _ _ => Filing.left .creating
  | .writing _ _ stored k => Filing.left (.writing stored k)
  | .pausing _ _ stored k => Filing.left (.pausing stored k)
  | .recording _ | .timing _ | .observing _ _ | .ended _ => 0

section Pays

variable {r : Reporter} {event : CrashEvent}

theorem looks_pays : Pays charge Lookup.left (Looks r event) := by
  intro q e q' step
  cases step with
  | refused => exact le_retrying
  | shown found named => exact le_retrying
  | nameless found nameless => exact le_retrying
  | absent absent last => exact le_retrying
  | pending absent pending more => exact (retrying_of_lt more).ge
  | waited => exact le_refl _
  | cancelled => exact (add_zero _).le.trans le_self_add

theorem captures_pays (lc : LogCapturer) (podMeta : PodMeta) :
    Pays charge Capture.left (Captures lc podMeta) := by
  intro q e q' step
  cases step with
  | read read => exact le_retrying
  | missed more => exact (retrying_of_lt more).ge
  | slept => exact le_refl _
  | gaveUp last => exact le_retrying

theorem files_pays (podMeta : PodMeta) (logLines : List GoString) :
    Pays charge Filing.left (Files r event podMeta logLines) := by
  intro q e q' step
  cases step with
  | uncreated failed => exact (add_zero _).le.trans le_self_add
  | created => exact le_refl _
  | written => exact le_retrying
  | unwritten failed => exact le_retrying
  | retried failed more => exact (retrying_of_lt more).ge
  | paused => exact le_refl _
  | stopped => exact (add_zero _).le.trans le_self_add

/-- A lookup has the log capture and the creation before it. -/
theorem left_lookup_point (capturer : Option LogCapturer) (q : Lookup) :
    (q.point capturer).left ≤ q.left + (Capture.left (.reading 0) + Filing.left .creating) := by
  cases q with
  | listing k => exact le_refl _
  | waiting k => exact le_refl _
  | found podMeta =>
      rw [Lookup.left, zero_add]
      dsimp only [Lookup.point]
      split
      · exact le_refl _
      · exact le_add_self
  | failed stage => exact zero_le

theorem left_capture_point (podMeta : PodMeta) (q : Capture) :
    (q.point podMeta).left = q.left + Filing.left .creating := by
  cases q with
  | captured logLines => exact (zero_add _).symm
  | failed => exact (zero_add _).symm
  | _ => rfl

theorem left_filing_point (podMeta : PodMeta) (logLines : List GoString) (q : Filing) :
    (q.point podMeta logLines).left = q.left := by
  cases q <;> rfl

/-- **What a step of a worker costs is off what it has left.** -/
theorem handles_pays (capturer : Option LogCapturer) :
    Pays charge Point.left (Handles r capturer event) := by
  intro q e q' step
  cases step with
  | counted => exact (zero_add _).le
  | looks step =>
      rename_i q q'
      have whole : (q.point capturer).left =
          q.left + (Capture.left (.reading 0) + Filing.left .creating) := by
        cases step <;> rfl
      calc charge e.op + (q'.point capturer).left
          ≤ charge e.op + (q'.left + (Capture.left (.reading 0) + Filing.left .creating)) :=
            add_le_add_right (left_lookup_point capturer q') _
        _ = charge e.op + q'.left + (Capture.left (.reading 0) + Filing.left .creating) :=
            (add_assoc _ _ _).symm
        _ ≤ (q.point capturer).left := whole ▸ add_le_add_left (looks_pays q e q' step) _
  | captures set step =>
      rw [left_capture_point, left_capture_point, ← add_assoc]
      exact add_le_add_left (captures_pays _ _ _ _ _ step) _
  | unread => exact (zero_add _).le
  | files step =>
      rw [left_filing_point, left_filing_point]
      exact files_pays _ _ _ _ _ step
  | recorded =>
      rename_i outcome answer
      cases outcome <;> exact le_refl _
  | timed => exact le_refl _
  | observed => exact le_refl _

end Pays

/-! ## One event -/

def eventBudget : Load
  | .podLists => 6
  | .logTails => 3
  | .creations => 1
  | .statusWrites => 4
  | .waits => 10
  | .sleep => 7200000000
  | .others => 0

theorem left_start (event : CrashEvent) : (Point.start event).left = eventBudget := by
  have whole : (Point.listing 0).left = eventBudget := by
    funext resource
    cases resource <;> decide +kernel
  unfold Point.start
  split
  · exact whole
  · exact whole

/-- **What a worker may spend on one event.** -/
theorem Works.spent_le {cfg : AgentConfig} {event : CrashEvent} {log : Log} {prog : M Unit}
    (works : Works cfg event log prog) : spent charge log ≤ eventBudget := by
  obtain ⟨q, ran, -⟩ := works
  have within := Ran.spent_le ran (handles_pays cfg.capturing)
  rw [left_start] at within
  exact le_self_add.trans within

/-! ## A run of the agent -/

namespace Run

open KubeAutopsy.Theory.Transition

/-- What all the workers have spent. -/
def Pool.load (p : Pool) : Load := (p.workers.map fun u => spent charge u.log).sum

/-- The events with a worker are among those that were received and not suppressed. -/
theorem Books.workers_le {cfg : AgentConfig} {ctxDone : Bool} {p : Pool} (books : Books cfg ctxDone p) :
    p.workers.length + p.suppressed.length ≤ p.received := by
  have counted := books.account.length_eq
  simp only [Pool.kills, List.length_map, List.length_append, List.length_range] at counted
  omega

/-- **The load of an agent is bounded**, in every reachable state and whatever the API server
answers: no event costs more than its budget, the agent has spent at most that on every event
it received and did not suppress, and no more events are worked on than the agent has slots. -/
theorem load_bounded (cfg : AgentConfig) {s : State} (reached : Reach (system cfg) anyStep s) :
    (∀ u ∈ s.pool.workers, spent charge u.log ≤ eventBudget) ∧
      s.pool.load ≤ (s.pool.received - s.pool.suppressed.length) • eventBudget ∧
      inside s.pool.workers ≤ cfg.maxConcurrentReports := by
  have books := books_of_reach reached
  have each : ∀ u ∈ s.pool.workers, spent charge u.log ≤ eventBudget :=
    fun u member => (books.works u member).spent_le
  refine ⟨each, ?_, ?_⟩
  · have total : s.pool.load ≤ s.pool.workers.length • eventBudget := by
      refine (List.sum_le_card_nsmul _ eventBudget ?_).trans (le_of_eq (by rw [List.length_map]))
      simpa using each
    have workers := books.workers_le
    exact total.trans (nsmul_le_nsmul_left (zero_le) (by omega))
  · have slots := books.slots
    have bounded := books.bounded
    omega

/-- The kubelet has not published the container's ID yet. -/
def unpublished : (o : Op) → o.Resp
  | .listPods _ => .listed [{ cartPod with containerStatuses :=
      [{ name := lit "app", containerID := [], restartCount := 0, state := { waiting := true } }] }]
  | o => offline o

/-- The ID is published and the report created; every other request is lost. -/
def halfServed : (o : Op) → o.Resp
  | .listPods _ => .listed [cartPod]
  | .create report => .acked report
  | o => offline o

/-- A kill whose container shows up in the last listing, whose logs have been removed, and whose
diagnostics cannot be written. -/
def unluckyKill : List Label :=
  accepted ++ List.replicate 10 (.pool (.perform 0 unpublished)) ++
    List.replicate 18 (.pool (.perform 0 halfServed)) ++ [.pool (.release 0), .pool (.finish 0)]

/-- It spends its whole budget, and nothing but that. -/
theorem load_bounded_unlucky :
    ∃ s : State, (∃ u ∈ s.pool.workers, u.phase = .finished ∧ spent charge u.log = eventBudget) ∧
      s.pool.load ≤ (s.pool.received - s.pool.suppressed.length) • eventBudget := by
  obtain ⟨s, reached, u, member, finished, podLists, logTails, creations, writes, waits, sleep⟩ :=
    exists_reached (S := system { nodeAgent with captureLogs := true }) unluckyKill
      (Q := fun s : State => ∃ u ∈ s.pool.workers, u.phase = .finished ∧
        spent charge u.log .podLists = 6 ∧ spent charge u.log .logTails = 3 ∧
        spent charge u.log .creations = 1 ∧ spent charge u.log .statusWrites = 4 ∧
        spent charge u.log .waits = 10 ∧ spent charge u.log .sleep = 7200000000)
      (attached_initial _) (by decide +kernel)
  obtain ⟨each, total, -⟩ := load_bounded _ reached
  refine ⟨s, ⟨u, member, finished, funext fun resource => ?_⟩, total⟩
  cases resource with
  | others => exact Nat.le_zero.1 (each u member .others)
  | _ => assumption

end Run

end KubeAutopsy.Agent
