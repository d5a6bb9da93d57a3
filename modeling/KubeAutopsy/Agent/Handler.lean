/-
# KubeAutopsy.Agent.Handler — what a worker does with one crash event

`handleCrashEvent` of `internal/agent/agent.go`, and what the log of a worker says about its
event: what it asked the API server and was answered, and what it recorded at the end, which
is the stage it failed at or the line that the report was created.  Log lines other than that
one decide nothing and are left out.

`Ended` says how an event ended by the requests and their answers alone.  No log ends in two
ways (`Ended.unique`).
-/
import KubeAutopsy.Agent.LogAttempts
import KubeAutopsy.Agent.Reporter

namespace KubeAutopsy.Agent

open KubeAutopsy.Api
open KubeAutopsy.Theory.Bytes (GoString lit)
open KubeAutopsy.Theory.Clock
open KubeAutopsy.Theory.Program

set_option autoImplicit false

/-- What the agent is set up with: the fields of its configuration it reads, its node, its
log capturer, and the page size of the kernel. -/
structure AgentConfig where
  nodeName : GoString
  captureLogs : Bool
  capturer : LogCapturer
  podOwnerReference : Bool
  /-- The capacity of `slots`; a negative one is refused when the configuration is read. -/
  maxConcurrentReports : Nat
  /-- `ReportCooldown()`. -/
  reportCooldown : Int
  pageSize : Int64

def AgentConfig.reporter (cfg : AgentConfig) : Reporter := ⟨cfg.nodeName, cfg.podOwnerReference⟩

/-- The capturer, if it is used. -/
def AgentConfig.capturing (cfg : AgentConfig) : Option LogCapturer :=
  if cfg.captureLogs then some cfg.capturer else none

def reportCreated : GoString := lit "PodCrashReport created successfully"

/-- The log lines to attach; a capture that fails leaves the report without any. -/
def captureLogs (cfg : AgentConfig) (podMeta : PodMeta) : M (List GoString) := do
  if cfg.captureLogs then
    match ← cfg.capturer.captureLogTail podMeta with
    | .ok logLines => return logLines
    | .error _ =>
        perform (Op.count (.logCaptureFailures podMeta.namespace_))
        return []
  else return []

/-- `handleCrashEvent` up to its deferred function. -/
def recordCrash (cfg : AgentConfig) (event : CrashEvent) : M Unit := do
  match ← resolvePodMeta cfg.reporter event with
  | .error err =>
      if err.asPodList then perform (Op.count (.reportErrors .listPods))
      else perform (Op.count (.reportErrors .noPod))
  | .ok podMeta =>
      let logLines ← captureLogs cfg podMeta
      match ← createCrashReport cfg.reporter event podMeta logLines with
      | some err =>
          if err.asStatusWrite then perform (Op.count (.reportErrors .status))
          else perform (Op.count (.reportErrors .create))
      | none => perform (Op.logInfo reportCreated)

def handleCrashEvent (cfg : AgentConfig) (event : CrashEvent) : M Unit := do
  if !event.rssValid then perform (Op.count .unsupportedKernelEvents)
  recordCrash cfg event
  let now ← perform Op.now
  perform (Op.count (.captureLatency (sub now event.detectedAt)))

/-! ## What a log says -/

/-- The answers to the pod listings, newest first. -/
def listings (log : Log) : List PodsAnswer :=
  log.filterMap fun e =>
    match e with
    | ⟨.listPods _, answer⟩ => some answer
    | _ => none

/-- The creations, with their answers. -/
def creations (log : Log) : List (PodCrashReport × WriteAnswer) :=
  log.filterMap fun e =>
    match e with
    | ⟨.create report, answer⟩ => some (report, answer)
    | _ => none

/-- The answers to the status patches. -/
def writes (log : Log) : List WriteAnswer :=
  log.filterMap fun e =>
    match e with
    | ⟨.statusPatch _ _, answer⟩ => some answer
    | _ => none

/-- A wait was cut short. -/
def cutShort (log : Log) : Bool :=
  log.any fun e =>
    match e with
    | ⟨.wait _, answer⟩ => decide (answer = .cancelled)
    | _ => false

/-- How the handling of a crash event ends. -/
inductive Outcome where
  | reported
  | failed (stage : Stage)
  deriving DecidableEq, Repr

/-- The outcomes that were recorded. -/
def recorded (log : Log) : List Outcome :=
  log.filterMap fun e =>
    match e with
    | ⟨.count (.reportErrors stage), _⟩ => some (.failed stage)
    | ⟨.logInfo line, _⟩ => if line = reportCreated then some .reported else none
    | _ => none

/-- A listing in the log shows the container of the event in a pod. -/
def Found (r : Reporter) (event : CrashEvent) (log : Log) (podMeta : PodMeta) : Prop :=
  podMeta.podName ≠ [] ∧ ∃ pods, Did log (.listPods r.nodeName) (.listed pods) ∧
    findPod event.containerID pods = some podMeta

theorem Found.intro {r : Reporter} {event : CrashEvent} {log : Log} {podMeta : PodMeta} {pods : List Pod}
    (found : findPod event.containerID pods = some podMeta) (named : podMeta.podName ≠ []) :
    Found r event (⟨.listPods r.nodeName, .listed pods⟩ :: log) podMeta :=
  ⟨named, pods, did_self _ _ _, found⟩

theorem Found.cons {r : Reporter} {event : CrashEvent} {log : Log} {podMeta : PodMeta}
    (found : Found r event log podMeta) (e : Entry Op Op.Resp) : Found r event (e :: log) podMeta := by
  obtain ⟨named, pods, did, lookup⟩ := found
  exact ⟨named, pods, did.cons e, lookup⟩

theorem Found.of_suffix {r : Reporter} {event : CrashEvent} {log before : Log} {podMeta : PodMeta}
    (found : Found r event before podMeta) (suffix : before <:+ log) : Found r event log podMeta := by
  obtain ⟨named, pods, did, lookup⟩ := found
  exact ⟨named, pods, did.of_suffix suffix, lookup⟩

/-- One report was asked for, that of the event, for a pod that was found. -/
structure Filed (r : Reporter) (event : CrashEvent) (log : Log) (podMeta : PodMeta)
    (answer : WriteAnswer) : Prop where
  found : Found r event log podMeta
  asked : creations log = [(newReport r event podMeta, answer)]

/-- How the event ended, by the requests and their answers. -/
inductive Ended (r : Reporter) (event : CrashEvent) (log : Log) : Outcome → Prop
  /-- The API server refused to list the pods. -/
  | unlisted {e : ApiError} (unfiled : creations log = []) (refused : .refused e ∈ listings log) :
      Ended r event log (.failed .listPods)
  /-- The pods were listed, and no listing shows the container. -/
  | unowned (unfiled : creations log = []) (listed : listings log ≠ [])
      (absent : ∀ answer ∈ listings log, ∃ pods, answer = .listed pods ∧
        ∀ podMeta, findPod event.containerID pods = some podMeta → podMeta.podName = []) :
      Ended r event log (.failed .noPod)
  /-- The creation was not acknowledged. -/
  | uncreated {podMeta : PodMeta} {answer : WriteAnswer} (filed : Filed r event log podMeta answer)
      (failed : answer.Failed) : Ended r event log (.failed .create)
  /-- The report was created, and the agent was stopped before it was given its diagnostics. -/
  | stopped {podMeta : PodMeta} {stored : PodCrashReport}
      (filed : Filed r event log podMeta (.acked stored)) (stopped : cutShort log = true)
      (unwritten : ∀ answer ∈ writes log, answer.Failed) : Ended r event log (.failed .create)
  /-- The report was created, and no attempt to write its diagnostics was acknowledged. -/
  | unwritten {podMeta : PodMeta} {stored : PodCrashReport}
      (filed : Filed r event log podMeta (.acked stored)) (running : cutShort log = false)
      (tried : writes log ≠ []) (unwritten : ∀ answer ∈ writes log, answer.Failed) :
      Ended r event log (.failed .status)
  /-- The report was created and given the diagnostics of the event. -/
  | reported {podMeta : PodMeta} {stored updated : PodCrashReport} {logLines : List GoString}
      (filed : Filed r event log podMeta (.acked stored))
      (written : Did log (.statusPatch stored.key
        (diagnosticsPatch stored (diagnosticsOf event logLines))) (.acked updated)) :
      Ended r event log .reported

/-! ### No log ends in two ways -/

def refusedListing : PodsAnswer → Bool
  | .refused _ => true
  | .listed _ => false

def acknowledged : WriteAnswer → Bool
  | .acked _ => true
  | _ => false

theorem acknowledged_eq_false {answer : WriteAnswer} (failed : answer.Failed) :
    acknowledged answer = false := by
  obtain ⟨e, failed⟩ := failed
  cases answer with
  | acked stored => cases failed
  | lost => rfl
  | refused e => rfl

/-- The outcome of a log, computed. -/
def verdict (log : Log) : Outcome :=
  match creations log with
  | [] => .failed (if (listings log).any refusedListing then .listPods else .noPod)
  | (_, answer) :: _ =>
      if acknowledged answer then
        if (writes log).any acknowledged then .reported
        else .failed (if cutShort log then .create else .status)
      else .failed .create

section Verdict

variable {r : Reporter} {event : CrashEvent} {log : Log}

theorem verdict_unfiled (unfiled : creations log = []) :
    verdict log = .failed (if (listings log).any refusedListing then .listPods else .noPod) := by
  rw [verdict, unfiled]

theorem Filed.verdict {podMeta : PodMeta} {answer : WriteAnswer}
    (filed : Filed r event log podMeta answer) :
    Agent.verdict log =
      if acknowledged answer then
        if (writes log).any acknowledged then .reported
        else .failed (if cutShort log then .create else .status)
      else .failed .create := by
  rw [Agent.verdict, filed.asked]

theorem any_acknowledged_eq_false (unwritten : ∀ answer ∈ writes log, answer.Failed) :
    (writes log).any acknowledged = false :=
  List.any_eq_false.2 fun answer member =>
    Bool.not_eq_true _ ▸ acknowledged_eq_false (unwritten answer member)

theorem Ended.eq_verdict {outcome : Outcome} (ended : Ended r event log outcome) :
    outcome = verdict log := by
  cases ended with
  | unlisted unfiled refused =>
      have some_ : (listings log).any refusedListing = true := List.any_eq_true.2 ⟨_, refused, rfl⟩
      rw [verdict_unfiled unfiled, if_pos some_]
  | unowned unfiled listed absent =>
      have none_ : ¬ (listings log).any refusedListing = true := by
        intro refused
        obtain ⟨answer, member, is⟩ := List.any_eq_true.1 refused
        obtain ⟨pods, rfl, -⟩ := absent answer member
        cases is
      rw [verdict_unfiled unfiled, if_neg none_]
  | uncreated filed failed => rw [filed.verdict, acknowledged_eq_false failed, if_neg Bool.false_ne_true]
  | stopped filed stopped unwritten =>
      rw [filed.verdict, any_acknowledged_eq_false unwritten, stopped]
      rfl
  | unwritten filed running tried unwritten =>
      rw [filed.verdict, any_acknowledged_eq_false unwritten, running]
      rfl
  | reported filed written =>
      have some_ : (writes log).any acknowledged = true :=
        List.any_eq_true.2 ⟨_, List.mem_filterMap.2 ⟨_, written, rfl⟩, rfl⟩
      rw [filed.verdict, some_]
      rfl

/-- **No log ends in two ways.** -/
theorem Ended.unique {outcome other : Outcome} (one : Ended r event log outcome)
    (two : Ended r event log other) : outcome = other :=
  one.eq_verdict.trans two.eq_verdict.symm

end Verdict

/-! ### Reports that were created -/

/-- The report of the event was created, whether or not the agent was told. -/
def Created (log : Log) : Prop :=
  ∃ report answer, Did log (.create report) answer ∧ answer.applied = true

/-- The entry of a creation that took effect. -/
def isCreation : Entry Op Op.Resp → Bool
  | ⟨.create _, answer⟩ => answer.applied
  | _ => false

theorem did_create {log : Log} {report : PodCrashReport} {answer : WriteAnswer}
    (asked : (report, answer) ∈ creations log) : Did log (.create report) answer := by
  obtain ⟨⟨o, given⟩, member, is⟩ := List.mem_filterMap.1 asked
  cases o with
  | create other =>
      obtain ⟨rfl, rfl⟩ := Prod.mk.inj (Option.some.inj is)
      exact member
  | _ => cases is

theorem created_iff (log : Log) : Created log ↔ log.any isCreation = true := by
  rw [List.any_eq_true]
  constructor
  · rintro ⟨report, answer, did, applied⟩
    exact ⟨_, did, applied⟩
  · rintro ⟨⟨o, answer⟩, member, creation⟩
    cases o with
    | create report => exact ⟨report, answer, member, creation⟩
    | _ => cases creation

instance (log : Log) : Decidable (Created log) := decidable_of_iff _ (created_iff log).symm

end KubeAutopsy.Agent
