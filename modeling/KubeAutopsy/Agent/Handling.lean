/-
# KubeAutopsy.Agent.Handling — a worker as a machine

Where a worker can be in `handleCrashEvent` is a `Point`, and `Handles` says what each request
and its answer make of it.  It is put together of the machines of the lookup, of the log
capture and of the creation.  The program refines it (`handleCrashEvent_refines`), so what
holds of a worker is an invariant of the machine, with one case for each kind of step.

The first of them is what a worker knows at each point (`knows_of_ran`).  It ends with the
outcome it recorded, and that is how the event ended.
-/
import KubeAutopsy.Agent.Handler

namespace KubeAutopsy.Agent

open KubeAutopsy.Api
open KubeAutopsy.Api.Files
open KubeAutopsy.Theory.Bytes (GoString lit)
open KubeAutopsy.Theory.Clock
open KubeAutopsy.Theory.Program
open KubeAutopsy.Theory.Refinement

set_option autoImplicit false

/-! ## The machine -/

/-- What a worker does next.  `k` counts the attempts it has made. -/
inductive Point where
  | unsupported
  | listing (k : Nat)
  | waiting (k : Nat)
  | reading (podMeta : PodMeta) (k : Nat)
  | sleeping (podMeta : PodMeta) (k : Nat)
  | unread (podMeta : PodMeta)
  | creating (podMeta : PodMeta) (logLines : List GoString)
  | writing (podMeta : PodMeta) (logLines : List GoString) (stored : PodCrashReport) (k : Nat)
  | pausing (podMeta : PodMeta) (logLines : List GoString) (stored : PodCrashReport) (k : Nat)
  | recording (outcome : Outcome)
  | timing (outcome : Outcome)
  | observing (outcome : Outcome) (now : Int)
  | ended (outcome : Outcome)

def Point.start (event : CrashEvent) : Point := if event.rssValid then .listing 0 else .unsupported

/-- A pod that was found is reported, with the end of its log if that is captured. -/
def Lookup.point (capturer : Option LogCapturer) : Lookup → Point
  | .listing k => .listing k
  | .waiting k => .waiting k
  | .found podMeta => if capturer.isSome then .reading podMeta 0 else .creating podMeta []
  | .failed stage => .recording (.failed stage)

def Capture.point (podMeta : PodMeta) : Capture → Point
  | .reading k => .reading podMeta k
  | .sleeping k => .sleeping podMeta k
  | .captured logLines => .creating podMeta logLines
  | .failed => .unread podMeta

def Filing.point (podMeta : PodMeta) (logLines : List GoString) : Filing → Point
  | .creating => .creating podMeta logLines
  | .writing stored k => .writing podMeta logLines stored k
  | .pausing stored k => .pausing podMeta logLines stored k
  | .written => .recording .reported
  | .failed stage => .recording (.failed stage)

/-- The operation that records an outcome. -/
def Outcome.op : Outcome → Op
  | .reported => .logInfo reportCreated
  | .failed stage => .count (.reportErrors stage)

/-- What a request and its answer make of a worker. -/
inductive Handles (r : Reporter) (capturer : Option LogCapturer) (event : CrashEvent) :
    Machine Op Op.Resp Point
  | counted : Handles r capturer event .unsupported ⟨.count .unsupportedKernelEvents, ()⟩ (.listing 0)
  | looks {q q' : Lookup} {e : Entry Op Op.Resp} (step : Looks r event q e q') :
      Handles r capturer event (q.point capturer) e (q'.point capturer)
  | captures {lc : LogCapturer} {podMeta : PodMeta} {q q' : Capture} {e : Entry Op Op.Resp}
      (set : capturer = some lc) (step : Captures lc podMeta q e q') :
      Handles r capturer event (q.point podMeta) e (q'.point podMeta)
  | unread {podMeta : PodMeta} :
      Handles r capturer event (.unread podMeta)
        ⟨.count (.logCaptureFailures podMeta.namespace_), ()⟩ (.creating podMeta [])
  | files {podMeta : PodMeta} {logLines : List GoString} {q q' : Filing} {e : Entry Op Op.Resp}
      (step : Files r event podMeta logLines q e q') :
      Handles r capturer event (q.point podMeta logLines) e (q'.point podMeta logLines)
  | recorded {outcome : Outcome} {answer : outcome.op.Resp} :
      Handles r capturer event (.recording outcome) ⟨outcome.op, answer⟩ (.timing outcome)
  | timed {outcome : Outcome} {now : Int} :
      Handles r capturer event (.timing outcome) ⟨.now, now⟩ (.observing outcome now)
  | observed {outcome : Outcome} {now : Int} :
      Handles r capturer event (.observing outcome now)
        ⟨.count (.captureLatency (sub now event.detectedAt)), ()⟩ (.ended outcome)

/-! ## The program refines it -/

section Refines

variable {r : Reporter} {capturer : Option LogCapturer} {event : CrashEvent}

theorem captureLogs_refines (cfg : AgentConfig) (podMeta : PodMeta) :
    Refines (Handles r cfg.capturing event) (fun q logLines => q = .creating podMeta logLines)
      ((Lookup.found podMeta).point cfg.capturing) (captureLogs cfg podMeta) := by
  unfold captureLogs AgentConfig.capturing
  by_cases on : cfg.captureLogs
  · rw [if_pos on, if_pos on]
    refine refines_bind.2 (((captureLogTail_refines cfg.capturer podMeta).lift (Capture.point podMeta)
      fun _ _ _ step => .captures rfl step).mono ?_)
    rintro q (err | logLines) ⟨_, rfl, rfl⟩
    · exact fun _ => ⟨_, .unread, rfl⟩
    · rfl
  · rw [if_neg on, if_neg on]
    rfl

/-- The outcome that is recorded is the one the worker has come to. -/
theorem record_refines (outcome : Outcome) {o : Op} (is : outcome.op = o) :
    Refines (Handles r capturer event) (fun q _ => ∃ outcome, q = .timing outcome)
      (.recording outcome) (perform o) := by
  subst is
  exact fun answer => ⟨_, .recorded, outcome, rfl⟩

theorem recordCrash_refines (cfg : AgentConfig) (event : CrashEvent) :
    Refines (Handles cfg.reporter cfg.capturing event) (fun q _ => ∃ outcome, q = .timing outcome)
      (.listing 0) (recordCrash cfg event) := by
  unfold recordCrash
  refine refines_bind.2 (((resolvePodMeta_refines cfg.reporter event).lift
    (Lookup.point cfg.capturing) fun _ _ _ step => .looks step).mono ?_)
  rintro q (err | podMeta) ⟨_, rfl, rfl⟩
  · dsimp only
    by_cases list : err.asPodList
    · rw [if_pos list, if_pos list]
      exact record_refines _ rfl
    · rw [if_neg list, if_neg list]
      exact record_refines _ rfl
  · refine refines_bind.2 ((captureLogs_refines cfg podMeta).mono ?_)
    rintro q logLines rfl
    refine refines_bind.2 (((createCrashReport_refines cfg.reporter event podMeta logLines).lift
      (Filing.point podMeta logLines) fun _ _ _ step => .files step).mono ?_)
    rintro q (_ | err) ⟨_, rfl, rfl⟩
    · exact record_refines _ rfl
    · dsimp only
      by_cases write : err.asStatusWrite
      · rw [if_pos write, if_pos write]
        exact record_refines _ rfl
      · rw [if_neg write, if_neg write]
        exact record_refines _ rfl

/-- **The handler refines the machine.** -/
theorem handleCrashEvent_refines (cfg : AgentConfig) (event : CrashEvent) :
    Refines (Handles cfg.reporter cfg.capturing event) (fun q _ => ∃ outcome, q = .ended outcome)
      (.start event) (handleCrashEvent cfg event) := by
  have rest : Refines (Handles cfg.reporter cfg.capturing event)
      (fun q _ => ∃ outcome, q = .ended outcome) (.listing 0) (do
        recordCrash cfg event
        let now ← perform Op.now
        perform (Op.count (.captureLatency (sub now event.detectedAt)))) := by
    refine refines_bind.2 ((recordCrash_refines cfg event).mono ?_)
    rintro q _ ⟨outcome, rfl⟩
    exact fun now => ⟨_, .timed, fun _ => ⟨_, .observed, outcome, rfl⟩⟩
  unfold handleCrashEvent Point.start
  cases event.rssValid with
  | true => exact rest
  | false => exact fun _ => ⟨_, .counted, rest⟩

end Refines

/-! ## What a worker knows -/

/-- The lines to attach: none, or what an attempt made of the files it found. -/
def Captured (capturer : Option LogCapturer) (log : Log) (podMeta : PodMeta)
    (logLines : List GoString) : Prop :=
  logLines = [] ∨ ∃ lc files k, capturer = some lc ∧ Did log (.logFiles (logDir podMeta)) files ∧
    lc.attempt podMeta files k = .ok logLines

theorem Captured.of_suffix {capturer : Option LogCapturer} {log before : Log} {podMeta : PodMeta}
    {logLines : List GoString} (captured : Captured capturer before podMeta logLines)
    (suffix : before <:+ log) : Captured capturer log podMeta logLines := by
  refine captured.imp_right ?_
  rintro ⟨lc, files, k, set, did, read⟩
  exact ⟨lc, files, k, set, did.of_suffix suffix, read⟩

theorem Captured.cons {capturer : Option LogCapturer} {log : Log} {podMeta : PodMeta}
    {logLines : List GoString} (captured : Captured capturer log podMeta logLines)
    (e : Entry Op Op.Resp) : Captured capturer (e :: log) podMeta logLines :=
  captured.of_suffix (List.suffix_cons e log)

/-- Nothing was created yet, and the worker goes on. -/
structure Unfiled (log : Log) : Prop where
  unfiled : creations log = []
  unwritten : writes log = []
  running : cutShort log = false
  unrecorded : recorded log = []

/-- The report was created, and has not been given its diagnostics. -/
structure Undescribed (r : Reporter) (event : CrashEvent) (log : Log) (podMeta : PodMeta)
    (stored : PodCrashReport) (k : Nat) : Prop where
  filed : Filed r event log podMeta (.acked stored)
  failing : ∀ answer ∈ writes log, answer.Failed
  count : (writes log).length = k
  running : cutShort log = false
  unrecorded : recorded log = []

/-- No listing shows the container. -/
def Unseen (event : CrashEvent) (log : Log) : Prop :=
  ∀ answer ∈ listings log, ∃ pods, answer = .listed pods ∧
    ∀ podMeta, findPod event.containerID pods = some podMeta → podMeta.podName = []

/-- What a worker knows at a point, from its log. -/
def Knows (r : Reporter) (capturer : Option LogCapturer) (event : CrashEvent) (log : Log) :
    Point → Prop
  | .unsupported => log = []
  | .listing k => Unfiled log ∧ Unseen event log ∧ (listings log).length = k
  | .waiting k => Unfiled log ∧ Unseen event log ∧ (listings log).length = k ∧ 0 < k
  | .reading podMeta _ => Unfiled log ∧ Found r event log podMeta
  | .sleeping podMeta _ => Unfiled log ∧ Found r event log podMeta
  | .unread podMeta => Unfiled log ∧ Found r event log podMeta
  | .creating podMeta logLines =>
      Unfiled log ∧ Found r event log podMeta ∧ Captured capturer log podMeta logLines
  | .writing podMeta logLines stored k =>
      Undescribed r event log podMeta stored k ∧ Captured capturer log podMeta logLines
  | .pausing podMeta logLines stored k =>
      Undescribed r event log podMeta stored k ∧ Captured capturer log podMeta logLines
  | .recording outcome => Ended r event log outcome ∧ recorded log = []
  | .timing outcome => Ended r event log outcome ∧ recorded log = [outcome]
  | .observing outcome _ => Ended r event log outcome ∧ recorded log = [outcome]
  | .ended outcome => Ended r event log outcome ∧ recorded log = [outcome]

section Knows

variable {r : Reporter} {capturer : Option LogCapturer} {event : CrashEvent} {log : Log}

theorem Unfiled.cons (unfiled : Unfiled log) {e : Entry Op Op.Resp}
    (created : creations (e :: log) = creations log) (wrote : writes (e :: log) = writes log)
    (cut : cutShort (e :: log) = cutShort log) (said : recorded (e :: log) = recorded log) :
    Unfiled (e :: log) :=
  ⟨created.trans unfiled.unfiled, wrote.trans unfiled.unwritten, cut.trans unfiled.running,
    said.trans unfiled.unrecorded⟩

theorem Unseen.listed (unseen : Unseen event log) (nodeName : GoString) {pods : List Pod}
    (absent : ∀ podMeta, findPod event.containerID pods = some podMeta → podMeta.podName = []) :
    Unseen event (⟨.listPods nodeName, .listed pods⟩ :: log) :=
  List.forall_mem_cons.2 ⟨⟨pods, rfl, absent⟩, unseen⟩

/-- A listing that does not show the container and that the worker gives up after. -/
theorem ended_unseen (unfiled : Unfiled log) (unseen : Unseen event log) (nodeName : GoString)
    {pods : List Pod}
    (absent : ∀ podMeta, findPod event.containerID pods = some podMeta → podMeta.podName = []) :
    Ended r event (⟨.listPods nodeName, .listed pods⟩ :: log) (.failed .noPod) :=
  .unowned unfiled.unfiled (List.cons_ne_nil _ _) (unseen.listed nodeName absent)

theorem Unfiled.created {podMeta : PodMeta} {stored : PodCrashReport} (unfiled : Unfiled log)
    (found : Found r event log podMeta) :
    Undescribed r event (⟨.create (newReport r event podMeta), .acked stored⟩ :: log) podMeta stored
      0 where
  filed := ⟨found.cons _, congrArg _ unfiled.unfiled⟩
  failing := by
    show ∀ answer ∈ writes log, _
    rw [unfiled.unwritten]
    exact List.forall_mem_nil _
  count := congrArg List.length unfiled.unwritten
  running := unfiled.running
  unrecorded := unfiled.unrecorded

theorem Undescribed.cons {podMeta : PodMeta} {stored : PodCrashReport} {k : Nat}
    (undescribed : Undescribed r event log podMeta stored k) {e : Entry Op Op.Resp}
    (created : creations (e :: log) = creations log) (wrote : writes (e :: log) = writes log)
    (cut : cutShort (e :: log) = cutShort log) (said : recorded (e :: log) = recorded log) :
    Undescribed r event (e :: log) podMeta stored k :=
  ⟨⟨undescribed.filed.found.cons e, created.trans undescribed.filed.asked⟩,
    wrote ▸ undescribed.failing, wrote ▸ undescribed.count, cut.trans undescribed.running,
    said.trans undescribed.unrecorded⟩

theorem Undescribed.tried {podMeta : PodMeta} {stored : PodCrashReport} {k : Nat}
    {answer : WriteAnswer} (undescribed : Undescribed r event log podMeta stored k)
    (failed : answer.Failed) (key : NamespacedName) (patch : StatusPatch) :
    Undescribed r event (⟨.statusPatch key patch, answer⟩ :: log) podMeta stored (k + 1) where
  filed := ⟨undescribed.filed.found.cons _, undescribed.filed.asked⟩
  failing := List.forall_mem_cons.2 ⟨failed, undescribed.failing⟩
  count := congrArg (· + 1) undescribed.count
  running := undescribed.running
  unrecorded := undescribed.unrecorded

theorem Undescribed.ended {podMeta : PodMeta} {stored : PodCrashReport} {k : Nat}
    (undescribed : Undescribed r event log podMeta stored (k + 1)) :
    Ended r event log (.failed .status) := by
  refine .unwritten undescribed.filed undescribed.running ?_ undescribed.failing
  exact List.length_pos_iff.1 (undescribed.count ▸ Nat.succ_pos k)

/-- An operation that is no request leaves the end of an event as it is. -/
theorem Ended.cons {outcome : Outcome} (ended : Ended r event log outcome) {e : Entry Op Op.Resp}
    (listed : listings (e :: log) = listings log) (created : creations (e :: log) = creations log)
    (wrote : writes (e :: log) = writes log) (cut : cutShort (e :: log) = cutShort log) :
    Ended r event (e :: log) outcome := by
  have files : ∀ {podMeta answer}, Filed r event log podMeta answer →
      Filed r event (e :: log) podMeta answer :=
    fun filed => ⟨filed.found.cons e, created.trans filed.asked⟩
  cases ended with
  | unlisted unfiled refused => exact .unlisted (created.trans unfiled) (listed ▸ refused)
  | unowned unfiled some_ absent =>
      exact .unowned (created.trans unfiled) (listed ▸ some_) (listed ▸ absent)
  | uncreated filed failed => exact .uncreated (files filed) failed
  | stopped filed stopped unwritten =>
      exact .stopped (files filed) (cut.trans stopped) (wrote ▸ unwritten)
  | unwritten filed running tried unwritten =>
      exact .unwritten (files filed) (cut.trans running) (wrote ▸ tried) (wrote ▸ unwritten)
  | reported filed written => exact .reported (files filed) (written.cons e)

theorem recorded_op (outcome : Outcome) (answer : outcome.op.Resp) (log : Log) :
    recorded (⟨outcome.op, answer⟩ :: log) = outcome :: recorded log := by
  cases outcome with
  | reported => rfl
  | failed stage => rfl

theorem Knows.looks {q q' : Lookup} {e : Entry Op Op.Resp}
    (knows : Knows r capturer event log (q.point capturer)) (step : Looks r event q e q') :
    Knows r capturer event (e :: log) (q'.point capturer) := by
  cases step with
  | refused =>
      obtain ⟨unfiled, -⟩ := knows
      exact ⟨.unlisted unfiled.unfiled List.mem_cons_self, unfiled.unrecorded⟩
  | shown found named =>
      obtain ⟨unfiled, -⟩ := knows
      dsimp only [Lookup.point]
      split
      · exact ⟨unfiled.cons rfl rfl rfl rfl, .intro found named⟩
      · exact ⟨unfiled.cons rfl rfl rfl rfl, .intro found named, .inl rfl⟩
  | nameless found nameless =>
      obtain ⟨unfiled, unseen, -⟩ := knows
      refine ⟨ended_unseen unfiled unseen _ ?_, unfiled.unrecorded⟩
      intro podMeta same
      rw [found] at same
      exact Option.some.inj same ▸ nameless
  | absent absent last =>
      obtain ⟨unfiled, unseen, -⟩ := knows
      exact ⟨ended_unseen unfiled unseen _ (by simp [absent]), unfiled.unrecorded⟩
  | pending absent pending more =>
      obtain ⟨unfiled, unseen, count⟩ := knows
      exact ⟨unfiled.cons rfl rfl rfl rfl, unseen.listed _ (by simp [absent]),
        congrArg (· + 1) count, Nat.succ_pos _⟩
  | waited =>
      obtain ⟨unfiled, unseen, count, -⟩ := knows
      exact ⟨unfiled.cons rfl rfl rfl rfl, unseen, count⟩
  | cancelled =>
      obtain ⟨unfiled, unseen, count, some_⟩ := knows
      refine ⟨.unowned unfiled.unfiled ?_ unseen, unfiled.unrecorded⟩
      exact List.length_pos_iff.1 (count ▸ some_)

theorem Knows.captures {lc : LogCapturer} {podMeta : PodMeta} {q q' : Capture} {e : Entry Op Op.Resp}
    (set : capturer = some lc) (knows : Knows r capturer event log (q.point podMeta))
    (step : Captures lc podMeta q e q') : Knows r capturer event (e :: log) (q'.point podMeta) := by
  cases step with
  | read read =>
      obtain ⟨unfiled, found⟩ := knows
      exact ⟨unfiled.cons rfl rfl rfl rfl, found.cons _, .inr ⟨_, _, _, set, did_self _ _ _, read⟩⟩
  | missed more =>
      obtain ⟨unfiled, found⟩ := knows
      exact ⟨unfiled.cons rfl rfl rfl rfl, found.cons _⟩
  | slept =>
      obtain ⟨unfiled, found⟩ := knows
      exact ⟨unfiled.cons rfl rfl rfl rfl, found.cons _⟩
  | gaveUp last =>
      obtain ⟨unfiled, found⟩ := knows
      exact ⟨unfiled.cons rfl rfl rfl rfl, found.cons _⟩

theorem Knows.files {podMeta : PodMeta} {logLines : List GoString} {q q' : Filing}
    {e : Entry Op Op.Resp} (knows : Knows r capturer event log (q.point podMeta logLines))
    (step : Files r event podMeta logLines q e q') :
    Knows r capturer event (e :: log) (q'.point podMeta logLines) := by
  cases step with
  | uncreated failed =>
      obtain ⟨unfiled, found, -⟩ := knows
      exact ⟨.uncreated ⟨found.cons _, congrArg _ unfiled.unfiled⟩ failed, unfiled.unrecorded⟩
  | created =>
      obtain ⟨unfiled, found, captured⟩ := knows
      exact ⟨unfiled.created found, captured.cons _⟩
  | written =>
      obtain ⟨undescribed, -⟩ := knows
      exact ⟨.reported ⟨undescribed.filed.found.cons _, undescribed.filed.asked⟩ (did_self _ _ _),
        undescribed.unrecorded⟩
  | unwritten failed =>
      obtain ⟨undescribed, -⟩ := knows
      exact ⟨(undescribed.tried failed _ _).ended, undescribed.unrecorded⟩
  | retried failed more =>
      obtain ⟨undescribed, captured⟩ := knows
      exact ⟨undescribed.tried failed _ _, captured.cons _⟩
  | paused =>
      obtain ⟨undescribed, captured⟩ := knows
      exact ⟨undescribed.cons rfl rfl rfl rfl, captured.cons _⟩
  | stopped =>
      obtain ⟨undescribed, -⟩ := knows
      exact ⟨.stopped ⟨undescribed.filed.found.cons _, undescribed.filed.asked⟩ rfl
        undescribed.failing, undescribed.unrecorded⟩

/-- **What a worker knows** at each point it comes to. -/
theorem knows_of_ran {q : Point} (ran : Ran (Handles r capturer event) (.start event) log q) :
    Knows r capturer event log q := by
  refine ran.invariant (I := Knows r capturer event) ?_ ?_
  · unfold Point.start
    split
    · exact ⟨⟨rfl, rfl, rfl, rfl⟩, List.forall_mem_nil _, rfl⟩
    · rfl
  · intro log q e q' knows step
    cases step with
    | counted =>
        obtain rfl := knows
        exact ⟨⟨rfl, rfl, rfl, rfl⟩, List.forall_mem_nil _, rfl⟩
    | looks step => exact knows.looks step
    | captures set step => exact knows.captures set step
    | unread =>
        obtain ⟨unfiled, found⟩ := knows
        exact ⟨unfiled.cons rfl rfl rfl rfl, found.cons _, .inl rfl⟩
    | files step => exact knows.files step
    | recorded =>
        rename_i outcome answer
        obtain ⟨ended, unrecorded⟩ := knows
        refine ⟨?_, by rw [recorded_op, unrecorded]⟩
        cases outcome <;> exact ended.cons rfl rfl rfl rfl
    | timed =>
        obtain ⟨ended, recorded⟩ := knows
        exact ⟨ended.cons rfl rfl rfl rfl, recorded⟩
    | observed =>
        obtain ⟨ended, recorded⟩ := knows
        exact ⟨ended.cons rfl rfl rfl rfl, recorded⟩

/-- Nothing was created, or one report, that of the event. -/
def FiledOnce (r : Reporter) (event : CrashEvent) (log : Log) : Prop :=
  creations log = [] ∨ ∃ podMeta answer, Filed r event log podMeta answer

theorem Ended.filedOnce {outcome : Outcome} (ended : Ended r event log outcome) :
    FiledOnce r event log := by
  cases ended with
  | unlisted unfiled refused => exact .inl unfiled
  | unowned unfiled listed absent => exact .inl unfiled
  | uncreated filed failed => exact .inr ⟨_, _, filed⟩
  | stopped filed stopped unwritten => exact .inr ⟨_, _, filed⟩
  | unwritten filed running tried unwritten => exact .inr ⟨_, _, filed⟩
  | reported filed written => exact .inr ⟨_, _, filed⟩

theorem Knows.filedOnce {q : Point} (knows : Knows r capturer event log q) :
    FiledOnce r event log := by
  cases q with
  | unsupported =>
      obtain rfl := knows
      exact .inl rfl
  | writing podMeta logLines stored k => exact .inr ⟨_, _, knows.1.filed⟩
  | pausing podMeta logLines stored k => exact .inr ⟨_, _, knows.1.filed⟩
  | recording outcome => exact knows.1.filedOnce
  | timing outcome => exact knows.1.filedOnce
  | observing outcome now => exact knows.1.filedOnce
  | ended outcome => exact knows.1.filedOnce
  | _ => exact .inl knows.1.unfiled

end Knows

/-! ## A worker on its way -/

/-- The log of a worker has taken the machine to a point from which the rest of its program
refines it. -/
def Works (cfg : AgentConfig) (event : CrashEvent) (log : Log) (prog : M Unit) : Prop :=
  Tracks (Handles cfg.reporter cfg.capturing event) (.start event)
    (fun q _ => ∃ outcome, q = .ended outcome) log prog

section Works

variable {cfg : AgentConfig} {event : CrashEvent} {log : Log} {prog : M Unit}

/-- A patch that carries the diagnostics of the event to the report that was created for it. -/
def Patches (cfg : AgentConfig) (event : CrashEvent) (log : Log) (key : NamespacedName)
    (patch : StatusPatch) : Prop :=
  ∃ podMeta stored logLines, Found cfg.reporter event log podMeta ∧
    Did log (.create (newReport cfg.reporter event podMeta)) (.acked stored) ∧
    Captured cfg.capturing log podMeta logLines ∧ key = stored.key ∧
    patch = diagnosticsPatch stored (diagnosticsOf event logLines)

theorem Undescribed.patches {before : Log} {podMeta : PodMeta} {stored : PodCrashReport}
    {logLines : List GoString} {k : Nat}
    (undescribed : Undescribed cfg.reporter event before podMeta stored k)
    (captured : Captured cfg.capturing before podMeta logLines) (earlier : before <:+ log) :
    Patches cfg event log stored.key (diagnosticsPatch stored (diagnosticsOf event logLines)) := by
  have asked : Did before (.create (newReport cfg.reporter event podMeta)) (.acked stored) := by
    apply did_create
    rw [undescribed.filed.asked]
    exact List.mem_singleton_self _
  exact ⟨podMeta, stored, logLines, undescribed.filed.found.of_suffix earlier,
    asked.of_suffix earlier, captured.of_suffix earlier, rfl, rfl⟩

theorem works_start (cfg : AgentConfig) (event : CrashEvent) :
    Works cfg event [] (handleCrashEvent cfg event) :=
  tracks_start (handleCrashEvent_refines cfg event)

theorem Works.next {o : Op} {k : o.Resp → M Unit} (works : Works cfg event log (.op o k))
    (answer : o.Resp) : Works cfg event (⟨o, answer⟩ :: log) (k answer) :=
  Tracks.next works answer

/-- **A worker creates one report at most**, that of its event. -/
theorem Works.filedOnce (works : Works cfg event log prog) : FiledOnce cfg.reporter event log := by
  obtain ⟨q, ran, -⟩ := works
  exact (knows_of_ran ran).filedOnce

theorem Works.creates (works : Works cfg event log prog) {report : PodCrashReport}
    {answer : WriteAnswer} (did : Did log (.create report) answer) :
    ∃ podMeta, Found cfg.reporter event log podMeta ∧ report = newReport cfg.reporter event podMeta := by
  have asked : (report, answer) ∈ creations log := List.mem_filterMap.2 ⟨_, did, rfl⟩
  rcases works.filedOnce with none_ | ⟨podMeta, other, filed⟩
  · rw [none_] at asked
    cases asked
  · rw [filed.asked] at asked
    obtain ⟨rfl, -⟩ := Prod.mk.inj (List.mem_singleton.1 asked)
    exact ⟨podMeta, filed.found, rfl⟩

/-- **A status patch of a worker** goes to the report it has created, with the diagnostics of its
event. -/
theorem Works.patches (works : Works cfg event log prog) {key : NamespacedName} {patch : StatusPatch}
    {answer : WriteAnswer} (did : Did log (.statusPatch key patch) answer) :
    Patches cfg event log key patch := by
  obtain ⟨q, ran, -⟩ := works
  obtain ⟨before, q, q', suffix, ran, step⟩ := ran.of_mem did
  have knows := knows_of_ran ran
  have earlier := (List.suffix_cons _ before).trans suffix
  generalize entry : (⟨.statusPatch key patch, answer⟩ : Entry Op Op.Resp) = e at step
  cases step with
  | files step =>
      cases step with
      | written => cases entry; exact knows.1.patches knows.2 earlier
      | unwritten failed => cases entry; exact knows.1.patches knows.2 earlier
      | retried failed more => cases entry; exact knows.1.patches knows.2 earlier
      | _ => cases entry
  | looks step => cases step <;> cases entry
  | captures set step => cases step <;> cases entry
  | recorded =>
      rename_i outcome answer
      cases outcome <;> cases entry
  | _ => cases entry

/-- **Every crash event a worker takes ends in one outcome**, however the rest of its requests
are answered: the one it records is how the event ended. -/
theorem Works.ends (works : Works cfg event log prog) {τ : Type}
    (answer : (o : Op) → τ → o.Resp × τ) (s : τ) :
    ∃ outcome, recorded (prog.interp answer log s).2.1 = [outcome] ∧
      Ended cfg.reporter event (prog.interp answer log s).2.1 outcome := by
  obtain ⟨q, ran, outcome, rfl⟩ := Tracks.interp (h := answer) works s
  obtain ⟨ended, recorded⟩ := knows_of_ran ran
  exact ⟨outcome, recorded, ended⟩

end Works

end KubeAutopsy.Agent
