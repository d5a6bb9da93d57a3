/-
# KubeAutopsy.Agent.Reporter — attributing a crash to a pod and writing its report

`internal/agent/reporter.go`.  A closure that the source retries becomes a function
on the variables it captures: `retryOnBackoff` threads them through the attempts.
The sleep between two attempts is `Op.wait`, given its delay before jitter.
-/
import KubeAutopsy.Agent.Names
import KubeAutopsy.Api.Operations
import KubeAutopsy.Theory.Refinement

namespace KubeAutopsy.Agent

open KubeAutopsy.Api
open KubeAutopsy.Theory.Bytes (GoString lit cut)
open KubeAutopsy.Theory.Clock
open KubeAutopsy.Theory.Program
open KubeAutopsy.Theory.Refinement

set_option autoImplicit false

/-! ## Crash events -/

structure CrashEvent where
  containerID : GoString
  oomScopeLimitBytes : Int := 0
  victimRSSBytes : Int := 0
  oomVictimPID : Int := 0
  oomVictimComm : GoString := []
  triggerPID : Int := 0
  triggerComm : GoString := []
  oomScore : Int := 0
  oomScoreAdj : Int := 0
  anonRSSBytes : Int := 0
  fileRSSBytes : Int := 0
  shmemRSSBytes : Int := 0
  swapBytes : Int := 0
  pageTablesBytes : Int := 0
  rssValid : Bool := false
  isGlobalOOM : Bool := false
  detectedAt : Int := 0
  deriving DecidableEq, Repr

structure Reporter where
  nodeName : GoString
  podOwnerReference : Bool
  deriving DecidableEq, Repr

/-! ## Retries -/

/-- The fields of `wait.Backoff` that decide what a caller sees. -/
structure Backoff where
  duration : Int
  factor : Int
  steps : Nat
  deriving DecidableEq, Repr

def resolveRetryBackoff : Backoff := ⟨200 * (second / 1000), 2, 6⟩
def statusWriteBackoff : Backoff := ⟨100 * (second / 1000), 2, 4⟩

section Retry

variable {σ : Type}

/-- The loop of `retryOnBackoff` from attempt `attempt` on, with `n` attempts left. -/
def retryFrom (factor : Int) (fn : σ → M (σ × Except GoError Bool)) :
    Nat → Nat → Int → σ → M (σ × Option GoError)
  | 0, _, _, s => return (s, none)
  | n + 1, attempt, delay, s => do
      let waited ← if attempt > 0 then perform (Op.wait delay) else pure WaitAnswer.elapsed
      match waited with
      | .cancelled => return (s, some .canceled)
      | .elapsed =>
          let delay := if attempt > 0 then delay * factor else delay
          match ← fn s with
          | (s, .error err) => return (s, some err)
          | (s, .ok true) => return (s, none)
          | (s, .ok false) => retryFrom factor fn n (attempt + 1) delay s

/-- What the loop does with the end of one attempt. -/
def resume (factor : Int) (fn : σ → M (σ × Except GoError Bool)) (n attempt : Nat) (delay : Int) :
    σ × Except GoError Bool → M (σ × Option GoError)
  | (s, .error err) => return (s, some err)
  | (s, .ok true) => return (s, none)
  | (s, .ok false) => retryFrom factor fn n (attempt + 1) delay s

theorem retryFrom_first (factor : Int) (fn : σ → M (σ × Except GoError Bool)) (n : Nat)
    (delay : Int) (s : σ) :
    retryFrom factor fn (n + 1) 0 delay s = fn s >>= resume factor fn n 0 delay := by
  rfl

theorem retryFrom_later {attempt : Nat} (later : attempt > 0) (factor : Int)
    (fn : σ → M (σ × Except GoError Bool)) (n : Nat) (delay : Int) (s : σ) :
    retryFrom factor fn (n + 1) attempt delay s =
      perform (Op.wait delay) >>= fun waited =>
        match waited with
        | .cancelled => return (s, some .canceled)
        | .elapsed => fn s >>= resume factor fn n attempt (delay * factor) := by
  unfold retryFrom
  simp only [later, if_true]
  rfl

/-- Run `fn` until it is done, fails, its attempts are used up or the context is
cancelled.  Running out of attempts is not an error here. -/
def retryOnBackoff (backoff : Backoff) (fn : σ → M (σ × Except GoError Bool)) (s : σ) :
    M (σ × Option GoError) :=
  retryFrom backoff.factor fn backoff.steps 0 backoff.duration s

/-- The sleep before attempt `k`, counted from 0; there is none before the first. -/
def Backoff.delay (backoff : Backoff) (k : Nat) : Int := backoff.duration * backoff.factor ^ (k - 1)

section Rule

variable {τ : Type} {step : Machine Op Op.Resp τ} {S : Nat → σ → Prop}
  {final : τ → σ × Option GoError → Prop} {backoff : Backoff}
  {fn : σ → M (σ × Except GoError Bool)}

/-- What attempt `k` may end in: `after` is where the machine waits for the next one, and an
attempt that has none behind it ends the loop. -/
def AttemptEnds (steps k : Nat) (after : Nat → τ) (S : Nat → σ → Prop)
    (final : τ → σ × Option GoError → Prop) (q : τ) : σ × Except GoError Bool → Prop
  | (s, .error err) => final q (s, some err)
  | (s, .ok true) => final q (s, none)
  | (s, .ok false) =>
      (k + 1 < steps → q = after (k + 1) ∧ S (k + 1) s) ∧ (k + 1 = steps → final q (s, none))

/-- The rest of an attempt: the loop ends with it, or waits for the next. -/
theorem attempt_refines {before after : Nat → τ} {n k : Nat} {delay : Int} {s : σ}
    (count : k + (n + 1) = backoff.steps)
    (attempted : Refines step (AttemptEnds backoff.steps k after S final) (before k) (fn s))
    (goesOn : ∀ s, 0 < n → S (k + 1) s →
      Refines step final (after (k + 1)) (retryFrom backoff.factor fn n (k + 1) delay s)) :
    Refines step final (before k) (fn s >>= resume backoff.factor fn n k delay) := by
  refine refines_bind.2 (attempted.mono ?_)
  rintro q ⟨s, err | done⟩ ended
  · exact ended
  · cases done with
    | true => exact ended
    | false =>
        obtain ⟨more, last⟩ := ended
        cases n with
        | zero => exact last count
        | succ n =>
            obtain ⟨rfl, holds⟩ := more (by omega)
            exact goesOn s (Nat.succ_pos n) holds

/-- **The rule for a retried closure**: `before k` and `after k` are where the machine is
before attempt `k` and before the wait for it, and `S k` holds of the closure's variables
there. -/
theorem retryOnBackoff_refines (before after : Nat → τ) (some_ : 0 < backoff.steps)
    (attempted : ∀ k s, k < backoff.steps → S k s →
      Refines step (AttemptEnds backoff.steps k after S final) (before k) (fn s))
    (elapsed : ∀ k, 0 < k → k < backoff.steps →
      step (after k) ⟨.wait (backoff.delay k), .elapsed⟩ (before k))
    (cancelled : ∀ k s, 0 < k → k < backoff.steps → S k s →
      ∃ q, step (after k) ⟨.wait (backoff.delay k), .cancelled⟩ q ∧ final q (s, some .canceled))
    {s : σ} (start : S 0 s) : Refines step final (before 0) (retryOnBackoff backoff fn s) := by
  -- From the second attempt on there is a wait in front, and the delay is that of the schedule.
  have later : ∀ n k s, k + 1 + n = backoff.steps → 0 < n → S (k + 1) s →
      Refines step final (after (k + 1))
        (retryFrom backoff.factor fn n (k + 1) (backoff.delay (k + 1)) s) := by
    intro n
    induction n with
    | zero => exact fun _ _ _ none_ => absurd none_ (Nat.lt_irrefl 0)
    | succ n ih =>
        intro k s count _ holds
        rw [retryFrom_later (Nat.succ_pos k)]
        intro answer
        cases answer with
        | cancelled =>
            obtain ⟨q, moved, ends⟩ := cancelled (k + 1) s (Nat.succ_pos k) (by omega) holds
            exact ⟨q, moved, ends⟩
        | elapsed =>
            refine ⟨_, elapsed (k + 1) (Nat.succ_pos k) (by omega), ?_⟩
            have next : backoff.delay (k + 1) * backoff.factor = backoff.delay (k + 1 + 1) := by
              simp only [Backoff.delay, Nat.add_sub_cancel]
              rw [mul_assoc, ← pow_succ]
            dsimp only
            rw [next]
            exact attempt_refines count (attempted _ s (by omega) holds)
              fun s some_ holds => ih (k + 1) s (by omega) some_ holds
  obtain ⟨n, steps⟩ : ∃ n, backoff.steps = n + 1 := ⟨backoff.steps - 1, by omega⟩
  have first : backoff.duration = backoff.delay (0 + 1) := by
    simp [Backoff.delay]
  unfold retryOnBackoff
  rw [steps, retryFrom_first, first]
  exact attempt_refines (by omega) (attempted 0 s some_ start)
    fun s some_ holds => later n 0 s (by omega) some_ holds

end Rule

end Retry

/-! ## Attribution -/

def containerIDsMatch (statusID cgroupID : GoString) : Bool :=
  if statusID = [] || cgroupID = [] then false
  else
    let id :=
      match cut (lit "://") statusID with
      | some (_, id) => id
      | none => statusID
    decide (id = cgroupID)

/-- The three status groups in the order they are searched. -/
def podStatuses (pod : Pod) : List ContainerStatus :=
  pod.containerStatuses ++ pod.initContainerStatuses ++ pod.ephemeralContainerStatuses

/-- The loop of `findContainerByID`. -/
def findStatus (containerID : GoString) : List ContainerStatus → GoString × Int
  | [] => ([], -1)
  | cs :: rest =>
      if containerIDsMatch cs.containerID containerID then (cs.name, cs.restartCount)
      else
        match cs.lastTerminated with
        | some last =>
            if containerIDsMatch last containerID then (cs.name, cs.restartCount - 1)
            else findStatus containerID rest
        | none => findStatus containerID rest

def findContainerByID (pod : Pod) (containerID : GoString) : GoString × Int :=
  findStatus containerID (podStatuses pod)

/-- The loop of `ResolvePodMeta` over one listing. -/
def findPod (containerID : GoString) : List Pod → Option PodMeta
  | [] => none
  | pod :: rest =>
      let found := findContainerByID pod containerID
      if found.1 ≠ [] then
        some { podName := pod.name, namespace_ := pod.namespace_, containerName := found.1,
               podUID := pod.uid, logFileIndex := found.2 }
      else findPod containerID rest

def anyContainerIDPending (pods : List Pod) : Bool :=
  pods.any fun pod => (podStatuses pod).any fun cs =>
    (cs.containerID = [] && !cs.state.terminated) || cs.state.waiting

def resolvePodMeta (r : Reporter) (event : CrashEvent) : M (Except GoError PodMeta) := do
  let attempt : Option PodMeta → M (Option PodMeta × Except GoError Bool) := fun found => do
    match ← perform (Op.listPods r.nodeName) with
    | .refused e => return (found, .error (.podList (.wrap (lit "on node " ++ r.nodeName) (.api e))))
    | .listed pods =>
        match findPod event.containerID pods with
        | some podMeta => return (some podMeta, .ok true)
        | none => return (found, .ok (!anyContainerIDPending pods))
  match ← retryOnBackoff resolveRetryBackoff attempt none with
  | (_, some err) => return .error err
  | (found, none) =>
      let missing : GoError := .text (lit "pod with container ID " ++ event.containerID ++
        lit " not found on node " ++ r.nodeName)
      match found with
      | some podMeta => if podMeta.podName = [] then return .error missing else return .ok podMeta
      | none => return .error missing

/-! ### The lookup as a machine -/

/-- Where a lookup is; `k` counts the listings it has made. -/
inductive Lookup where
  | listing (k : Nat)
  | waiting (k : Nat)
  | found (podMeta : PodMeta)
  | failed (stage : Stage)

/-- What a request and its answer make of a lookup. -/
inductive Looks (r : Reporter) (event : CrashEvent) : Machine Op Op.Resp Lookup
  | refused {k : Nat} {e : ApiError} :
      Looks r event (.listing k) ⟨.listPods r.nodeName, .refused e⟩ (.failed .listPods)
  | shown {k : Nat} {pods : List Pod} {podMeta : PodMeta}
      (found : findPod event.containerID pods = some podMeta) (named : podMeta.podName ≠ []) :
      Looks r event (.listing k) ⟨.listPods r.nodeName, .listed pods⟩ (.found podMeta)
  | nameless {k : Nat} {pods : List Pod} {podMeta : PodMeta}
      (found : findPod event.containerID pods = some podMeta) (nameless : podMeta.podName = []) :
      Looks r event (.listing k) ⟨.listPods r.nodeName, .listed pods⟩ (.failed .noPod)
  | absent {k : Nat} {pods : List Pod} (absent : findPod event.containerID pods = none)
      (last : anyContainerIDPending pods = false ∨ k + 1 = resolveRetryBackoff.steps) :
      Looks r event (.listing k) ⟨.listPods r.nodeName, .listed pods⟩ (.failed .noPod)
  | pending {k : Nat} {pods : List Pod} (absent : findPod event.containerID pods = none)
      (pending : anyContainerIDPending pods = true) (more : k + 1 < resolveRetryBackoff.steps) :
      Looks r event (.listing k) ⟨.listPods r.nodeName, .listed pods⟩ (.waiting (k + 1))
  | waited {k : Nat} :
      Looks r event (.waiting k) ⟨.wait (resolveRetryBackoff.delay k), .elapsed⟩ (.listing k)
  | cancelled {k : Nat} :
      Looks r event (.waiting k) ⟨.wait (resolveRetryBackoff.delay k), .cancelled⟩ (.failed .noPod)

/-- Where a lookup ends with this result. -/
def lookupEnds (q : Lookup) : Except GoError PodMeta → Prop
  | .ok podMeta => q = .found podMeta
  | .error err => q = .failed (if err.asPodList then .listPods else .noPod)

/-- **What `ResolvePodMeta` can do.** -/
theorem resolvePodMeta_refines (r : Reporter) (event : CrashEvent) :
    Refines (Looks r event) lookupEnds (.listing 0) (resolvePodMeta r event) := by
  unfold resolvePodMeta
  refine refines_bind.2 (retryOnBackoff_refines Lookup.listing Lookup.waiting
    (S := fun _ found => found = none) ?_ ?_ ?_ ?_ rfl)
  · decide
  · rintro k _ inside rfl
    refine refines_perform_bind.2 fun answer => ?_
    cases answer with
    | refused e => exact ⟨_, .refused, rfl⟩
    | listed pods =>
        dsimp only
        cases lookup : findPod event.containerID pods with
        | some podMeta =>
            by_cases nameless : podMeta.podName = []
            · refine ⟨_, .nameless lookup nameless, ?_⟩
              show Refines _ _ _ (if podMeta.podName = [] then _ else _)
              rw [if_pos nameless]
              rfl
            · refine ⟨_, .shown lookup nameless, ?_⟩
              show Refines _ _ _ (if podMeta.podName = [] then _ else _)
              rw [if_neg nameless]
              rfl
        | none =>
            cases waiting : anyContainerIDPending pods with
            | false => exact ⟨_, .absent lookup (.inl waiting), rfl⟩
            | true =>
                by_cases more : k + 1 < resolveRetryBackoff.steps
                · exact ⟨_, .pending lookup waiting more, fun _ => ⟨rfl, rfl⟩,
                    fun last => absurd more (by omega)⟩
                · exact ⟨_, .absent lookup (.inr (by omega)), fun other => absurd other more,
                    fun _ => rfl⟩
  · exact fun k _ _ => .waited
  · rintro k _ _ _ rfl
    exact ⟨_, .cancelled, rfl⟩

/-! ## Writing the report -/

def isRetryableStatusError : ApiError → Bool
  | .transport => true
  | .status .serverTimeout => true
  | .status .timeout => true
  | .status .tooManyRequests => true
  | .status .internalError => true
  | .status .serviceUnavailable => true
  | .status _ => false

def setOwnerReference (report : PodCrashReport) (podMeta : PodMeta) : PodCrashReport :=
  if podMeta.podName = [] ∨ podMeta.podUID = [] then report
  else
    { report with
      metadata := { report.metadata with
        ownerReferences :=
          [{ apiVersion := lit "v1", kind := lit "Pod", name := podMeta.podName,
             uid := podMeta.podUID, controller := false, blockOwnerDeletion := false }] } }

/-- The report as it is created, without a status. -/
def newReport (r : Reporter) (event : CrashEvent) (podMeta : PodMeta) : PodCrashReport :=
  let report : PodCrashReport :=
    { metadata :=
        { generateName := reportNamePrefix podMeta.podName podMeta.containerName
          namespace_ := podMeta.namespace_
          labels :=
            [(lit "autopsy.tty.se/pod", labelValue podMeta.podName),
              (lit "autopsy.tty.se/container", labelValue podMeta.containerName),
              (lit "autopsy.tty.se/node", labelValue r.nodeName),
              (lit "autopsy.tty.se/reason", TerminationReason.oomKilled.text)] }
      spec :=
        { podName := podMeta.podName
          podUID := podMeta.podUID
          namespace_ := podMeta.namespace_
          containerName := podMeta.containerName
          nodeName := r.nodeName
          terminationReason := .oomKilled
          exitCode := 137
          timestamp := event.detectedAt } }
  if r.podOwnerReference then setOwnerReference report podMeta else report

/-- The owner is metadata. -/
theorem newReport_spec (r : Reporter) (event : CrashEvent) (podMeta : PodMeta) :
    (newReport r event podMeta).spec =
      { podName := podMeta.podName, podUID := podMeta.podUID, namespace_ := podMeta.namespace_,
        containerName := podMeta.containerName, nodeName := r.nodeName,
        terminationReason := .oomKilled, exitCode := 137, timestamp := event.detectedAt } := by
  unfold newReport setOwnerReference
  split
  · split <;> rfl
  · rfl

/-- The diagnostics of an event.  Memory figures the kernel did not give are left out. -/
def diagnosticsOf (event : CrashEvent) (logLines : List GoString) : DiagnosticData where
  oomScopeLimitBytes := event.oomScopeLimitBytes
  victimRSSBytes := if event.rssValid then event.victimRSSBytes else 0
  oomVictimPID := event.oomVictimPID
  oomVictimComm := event.oomVictimComm
  triggerPID := event.triggerPID
  triggerComm := event.triggerComm
  oomScore := event.oomScore
  oomScoreAdj := event.oomScoreAdj
  rssDissection :=
    if event.rssValid then
      some { anonRSSBytes := event.anonRSSBytes
             fileRSSBytes := event.fileRSSBytes
             shmemRSSBytes := event.shmemRSSBytes
             swapBytes := event.swapBytes
             pageTablesBytes := event.pageTablesBytes }
    else none
  oomContext := if event.isGlobalOOM then .nodeExhaustion else .containerLimit
  lastLogLines := logLines

/-- The scope of the kill is always known, so no event's diagnostics are empty. -/
theorem diagnosticsOf_wire_ne_empty (event : CrashEvent) (logLines : List GoString) :
    (diagnosticsOf event logLines).wire ≠ {} := by
  intro empty
  have unset := congrArg DiagnosticData.oomContext empty
  simp only [DiagnosticData.wire, diagnosticsOf] at unset
  split at unset <;> cases unset

/-- The status write: the same locked patch at every attempt. -/
def diagnosticsPatch (stored : PodCrashReport) (diagnostics : DiagnosticData) : StatusPatch :=
  ({ base := stored, optimisticLock := true } : MergeFrom).data
    { stored with status := { diagnostics := diagnostics, phase := .pending } }

/-- Applied to the version it is locked on, the patch leaves exactly the diagnostics, as far
as JSON keeps them. -/
theorem diagnosticsPatch_applyTo (stored : PodCrashReport) (diagnostics : DiagnosticData) :
    (diagnosticsPatch stored diagnostics).applyTo stored.status.wire =
      { diagnostics := diagnostics.wire, phase := .pending } :=
  MergeFrom.data_applyTo_base { base := stored, optimisticLock := true } _

/-- Applied to the report as it was created. -/
theorem diagnosticsPatch_applyTo_created {stored : PodCrashReport} (empty : stored.status = {})
    (diagnostics : DiagnosticData) :
    (diagnosticsPatch stored diagnostics).applyTo stored.status =
      { diagnostics := diagnostics.wire, phase := .pending } := by
  have arrived : stored.status = stored.status.wire := by
    rw [empty]
    rfl
  rw [arrived, diagnosticsPatch_applyTo]

/-- The patch is refused by every other version. -/
theorem diagnosticsPatch_current {stored other : PodCrashReport} {diagnostics : DiagnosticData}
    (current : (diagnosticsPatch stored diagnostics).current other = true) :
    stored.metadata.resourceVersion = other.metadata.resourceVersion := by
  simpa [StatusPatch.current, diagnosticsPatch, MergeFrom.data] using current

def statusWriteError (podMeta : PodMeta) (report : PodCrashReport) (e : ApiError) : GoError :=
  .statusWrite (.wrap (podMeta.namespace_ ++ lit "/" ++ report.metadata.name) (.api e))

/-- One attempt of the status write; the state is `lastErr`. -/
def writeStatus (podMeta : PodMeta) (stored : PodCrashReport) (diagnostics : DiagnosticData)
    (lastErr : Option ApiError) : M (Option ApiError × Except GoError Bool) := do
  match (← perform (Op.statusPatch stored.key (diagnosticsPatch stored diagnostics))).result with
  | .error e =>
      if !isRetryableStatusError e then return (lastErr, .error (statusWriteError podMeta stored e))
      return (some e, .ok false)
  | .ok _ => return (none, .ok true)

/-- `none` is a nil error. -/
def createCrashReport (r : Reporter) (event : CrashEvent) (podMeta : PodMeta)
    (logLines : List GoString) : M (Option GoError) := do
  match (← perform (Op.create (newReport r event podMeta))).result with
  | .error e =>
      return some (.wrap (lit "failed to create PodCrashReport in " ++ podMeta.namespace_) (.api e))
  | .ok stored =>
      let diagnostics := diagnosticsOf event logLines
      match ← retryOnBackoff statusWriteBackoff (writeStatus podMeta stored diagnostics) none with
      | (_, some err) => return some err
      | (some e, none) => return some (statusWriteError podMeta stored e)
      | (none, none) => return none

/-! ### The creation as a machine -/

/-- Where `CreateCrashReport` is; `k` counts the attempts to write the status. -/
inductive Filing where
  | creating
  | writing (stored : PodCrashReport) (k : Nat)
  | pausing (stored : PodCrashReport) (k : Nat)
  | written
  | failed (stage : Stage)

/-- What a request and its answer make of a creation. -/
inductive Files (r : Reporter) (event : CrashEvent) (podMeta : PodMeta) (logLines : List GoString) :
    Machine Op Op.Resp Filing
  | uncreated {answer : WriteAnswer} (failed : answer.Failed) :
      Files r event podMeta logLines .creating ⟨.create (newReport r event podMeta), answer⟩
        (.failed .create)
  | created {stored : PodCrashReport} :
      Files r event podMeta logLines .creating ⟨.create (newReport r event podMeta), .acked stored⟩
        (.writing stored 0)
  | written {stored updated : PodCrashReport} {k : Nat} :
      Files r event podMeta logLines (.writing stored k)
        ⟨.statusPatch stored.key (diagnosticsPatch stored (diagnosticsOf event logLines)),
          .acked updated⟩ .written
  | unwritten {stored : PodCrashReport} {k : Nat} {answer : WriteAnswer} (failed : answer.Failed) :
      Files r event podMeta logLines (.writing stored k)
        ⟨.statusPatch stored.key (diagnosticsPatch stored (diagnosticsOf event logLines)), answer⟩
        (.failed .status)
  | retried {stored : PodCrashReport} {k : Nat} {answer : WriteAnswer} (failed : answer.Failed)
      (more : k + 1 < statusWriteBackoff.steps) :
      Files r event podMeta logLines (.writing stored k)
        ⟨.statusPatch stored.key (diagnosticsPatch stored (diagnosticsOf event logLines)), answer⟩
        (.pausing stored (k + 1))
  | paused {stored : PodCrashReport} {k : Nat} :
      Files r event podMeta logLines (.pausing stored k)
        ⟨.wait (statusWriteBackoff.delay k), .elapsed⟩ (.writing stored k)
  | stopped {stored : PodCrashReport} {k : Nat} :
      Files r event podMeta logLines (.pausing stored k)
        ⟨.wait (statusWriteBackoff.delay k), .cancelled⟩ (.failed .create)

/-- Where a creation ends with this error. -/
def filingEnds (q : Filing) : Option GoError → Prop
  | some err => q = .failed (if err.asStatusWrite then .status else .create)
  | none => q = .written

/-- **What `CreateCrashReport` can do.** -/
theorem createCrashReport_refines (r : Reporter) (event : CrashEvent) (podMeta : PodMeta)
    (logLines : List GoString) :
    Refines (Files r event podMeta logLines) filingEnds .creating
      (createCrashReport r event podMeta logLines) := by
  unfold createCrashReport
  refine refines_perform_bind.2 fun answer => ?_
  cases answer with
  | lost => exact ⟨_, .uncreated ⟨_, rfl⟩, rfl⟩
  | refused e => exact ⟨_, .uncreated ⟨_, rfl⟩, rfl⟩
  | acked stored =>
      refine ⟨_, .created, ?_⟩
      dsimp only [WriteAnswer.result]
      refine refines_bind.2 (retryOnBackoff_refines (Filing.writing stored) (Filing.pausing stored)
        (S := fun _ _ => True) ?_ ?_ ?_ ?_ trivial)
      · decide
      · intro k lastErr inside _
        refine refines_perform_bind.2 fun written => ?_
        cases failed : written.result with
        | ok updated =>
            cases written with
            | acked updated => exact ⟨_, .written, rfl⟩
            | lost => cases failed
            | refused e => cases failed
        | error e =>
            dsimp only
            cases isRetryableStatusError e with
            | false => exact ⟨_, .unwritten ⟨e, failed⟩, rfl⟩
            | true =>
                by_cases more : k + 1 < statusWriteBackoff.steps
                · exact ⟨_, .retried ⟨e, failed⟩ more, fun _ => ⟨rfl, trivial⟩,
                    fun last => absurd more (by omega)⟩
                · exact ⟨_, .unwritten ⟨e, failed⟩, fun other => absurd other more, fun _ => rfl⟩
      · exact fun k _ _ => .paused
      · intro k lastErr _ _ _
        exact ⟨_, .stopped, rfl⟩

/-- The contract of one `CreateCrashReport`: one creation, and after it was
acknowledged the one patch, locked on the version the creation returned. -/
def reportContract (r : Reporter) (event : CrashEvent) (podMeta : PodMeta)
    (logLines : List GoString) : Contract Op Op.Resp where
  rely := fun _ _ _ => True
  guarantee := fun log o =>
    match o with
    | .create report => log = [] ∧ report = newReport r event podMeta
    | .statusPatch key patch =>
        ∃ report stored, Did log (.create report) (.acked stored) ∧ key = stored.key ∧
          patch = diagnosticsPatch stored (diagnosticsOf event logLines)
    | .wait _ => True
    | _ => False

/-- What has been created at each point. -/
def Filing.Knows (log : Log) : Filing → Prop
  | .creating => log = []
  | .writing stored _ => ∃ report, Did log (.create report) (.acked stored)
  | .pausing stored _ => ∃ report, Did log (.create report) (.acked stored)
  | _ => True

theorem createCrashReport_meets (r : Reporter) (event : CrashEvent) (podMeta : PodMeta)
    (logLines : List GoString) :
    Meets (reportContract r event podMeta logLines) (fun _ _ => True) []
      (createCrashReport r event podMeta logLines) := by
  refine (createCrashReport_refines r event podMeta logLines).meets (I := Filing.Knows) rfl ?_
    fun _ _ _ _ _ => trivial
  intro log q o answer q' knows step
  cases step with
  | uncreated failed => exact ⟨⟨knows, rfl⟩, fun _ => trivial⟩
  | created => exact ⟨⟨knows, rfl⟩, fun _ => ⟨_, did_self _ _ _⟩⟩
  | written =>
      obtain ⟨report, did⟩ := knows
      exact ⟨⟨report, _, did, rfl, rfl⟩, fun _ => trivial⟩
  | unwritten failed =>
      obtain ⟨report, did⟩ := knows
      exact ⟨⟨report, _, did, rfl, rfl⟩, fun _ => trivial⟩
  | retried failed more =>
      obtain ⟨report, did⟩ := knows
      exact ⟨⟨report, _, did, rfl, rfl⟩, fun _ => ⟨report, did.cons _⟩⟩
  | paused =>
      obtain ⟨report, did⟩ := knows
      exact ⟨trivial, fun _ => ⟨report, did.cons _⟩⟩
  | stopped => exact ⟨trivial, fun _ => trivial⟩

end KubeAutopsy.Agent
