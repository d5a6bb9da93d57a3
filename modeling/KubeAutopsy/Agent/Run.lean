/-
# KubeAutopsy.Agent.Run — the reader, its workers and the shutdown of one agent

`Agent.Run` of `internal/agent/agent.go` from the attached tracer on, as a labelled
system.  The `Pool` is what the reader goroutine and the workers it starts share: the
cooldown, the slots, the wait group.  The other part of a `State` is the goroutine of
`Run` itself, which waits for the tracer to fail or for the context, and then drains.
A step is one move of one goroutine, and the label says what the environment answers:
what the tracer reads, what a worker's request comes back with, when time passes and
when the context is cancelled.

* A worker is the program `handleCrashEvent` and then its two deferred calls.  Its
  context is `reportCtx`, which is cancelled by the return of `Run` and not before.
* The two `select` statements of the drain take whichever arm is ready, and either when
  both are.

`Stirs` and `Steers` say once what a step can do to each part.
-/
import KubeAutopsy.Agent.Cooldown
import KubeAutopsy.Agent.Handling
import KubeAutopsy.Agent.LogFraming
import KubeAutopsy.Agent.Tracer
import KubeAutopsy.Theory.Transition

namespace KubeAutopsy.Agent.Run

open KubeAutopsy.Api
open KubeAutopsy.Theory.Bytes (GoString lit)
open KubeAutopsy.Theory.Clock
open KubeAutopsy.Theory.Program
open KubeAutopsy.Theory.Transition

set_option autoImplicit false

def shutdownDrainTimeout : Int := 15 * second

/-! ## The reader and its workers -/

/-- A crash event, numbered in the order of `EventsReceivedTotal`. -/
structure Kill where
  seq : Nat
  crash : CrashEvent
  deriving DecidableEq, Repr

/-- Where the reader goroutine is. -/
inductive Reader where
  | reading
  | deciding (kill : Kill)
  | waiting (kill : Kill)
  /-- It has a slot; `wg.Add` is next. -/
  | adding (kill : Kill)
  /-- The `go` statement is next. -/
  | launching (kill : Kill)
  /-- It is about to send the tracer's error. -/
  | failing
  /-- `readerDone` is about to be closed. -/
  | returning
  | exited

namespace Reader

/-- The event the reader has counted and not yet passed on. -/
def inHand : Reader → List Kill
  | .deciding kill => [kill]
  | .waiting kill => [kill]
  | .adding kill => [kill]
  | .launching kill => [kill]
  | _ => []

/-- The slots it holds for a worker it has not started. -/
def slots : Reader → Nat
  | .adding _ => 1
  | .launching _ => 1
  | _ => 0

/-- The workers it has added to the wait group and not started. -/
def added : Reader → Nat
  | .launching _ => 1
  | _ => 0

/-- It takes no more events. -/
def stopped : Reader → Bool
  | .returning => true
  | .exited => true
  | _ => false

end Reader

/-- Where a worker goroutine is: in `handleCrashEvent`, past the release of its slot, or
past `wg.Done`. -/
inductive Phase where
  | handling | released | finished
  deriving DecidableEq, Repr

structure Worker where
  kill : Kill
  log : Log
  prog : M Unit
  phase : Phase

/-- How many workers are inside `handleCrashEvent`. -/
def inside (workers : List Worker) : Nat := workers.countP fun u => decide (u.phase = .handling)

/-- How many workers have not come to `wg.Done`. -/
def unfinished (workers : List Worker) : Nat := workers.countP fun u => decide (u.phase ≠ .finished)

structure Pool where
  /-- `EventsReceivedTotal`. -/
  received : Nat
  suppressed : List Kill
  abandoned : List Kill
  cooldown : ReportCooldown
  /-- How many of `slots` are taken. -/
  slots : Nat
  wg : Nat
  /-- `watchErrCh` holds an error. -/
  watchErr : Bool
  reader : Reader
  workers : List Worker

inductive ReadResult where
  | event (raw : BpfOomEvent)
  /-- A cancelled context or a closed ring buffer. -/
  | closed
  | failed

inductive PoolLabel where
  | read (result : ReadResult)
  | decide
  | takeSlot
  | abandon
  | add
  | launch
  | sendErr
  | exit
  | perform (i : Nat) (answers : (o : Op) → o.Resp)
  | release (i : Nat)
  | finish (i : Nat)

/-- A wait on `reportCtx` is cut short only by its cancellation. -/
def answerable (reportsCancelled : Bool) : (o : Op) → o.Resp → Bool
  | .wait _, .cancelled => reportsCancelled
  | _, _ => true

namespace Pool

/-- Every event counted so far, by what became of it. -/
def kills (p : Pool) : List Kill :=
  p.suppressed ++ p.workers.map Worker.kill ++ p.abandoned ++ p.reader.inHand

def decideStep (p : Pool) (kill : Kill) : Pool :=
  let decision := p.cooldown.allow kill.crash.containerID kill.crash.detectedAt
  if decision.1 then { p with cooldown := decision.2, reader := .waiting kill }
  else { p with cooldown := decision.2, suppressed := kill :: p.suppressed, reader := .reading }

def launchStep (cfg : AgentConfig) (p : Pool) (kill : Kill) : Pool :=
  { p with
    workers := p.workers ++ [⟨kill, [], handleCrashEvent cfg kill.crash, .handling⟩]
    reader := .reading }

def performStep (p : Pool) (reportsCancelled : Bool) (i : Nat) (answers : (o : Op) → o.Resp) :
    Option Pool :=
  match p.workers[i]? with
  | some ⟨kill, log, .op o k, .handling⟩ =>
      if answerable reportsCancelled o (answers o) then
        some { p with
          workers := p.workers.set i ⟨kill, ⟨o, answers o⟩ :: log, k (answers o), .handling⟩ }
      else none
  | _ => none

/-- The first deferred call of a worker: `<-slots`. -/
def releaseStep (p : Pool) (i : Nat) : Option Pool :=
  match p.workers[i]? with
  | some ⟨kill, log, .pure u, .handling⟩ =>
      some { p with slots := p.slots - 1, workers := p.workers.set i ⟨kill, log, .pure u, .released⟩ }
  | _ => none

/-- The second: `wg.Done()`. -/
def finishStep (p : Pool) (i : Nat) : Option Pool :=
  match p.workers[i]? with
  | some ⟨kill, log, prog, .released⟩ =>
      some { p with wg := p.wg - 1, workers := p.workers.set i ⟨kill, log, prog, .finished⟩ }
  | _ => none

/-- One move of the reader or of a worker.  `closed` says that the ring buffer may have
been closed, by the context or by the return of `Run`. -/
def step (cfg : AgentConfig) (clock : Int) (ctxDone returned : Bool) (p : Pool) (l : PoolLabel) :
    Option Pool :=
  match l, p.reader with
  | .read (.event raw), .reading =>
      some { p with
        received := p.received + 1
        reader := .deciding ⟨p.received, crashEvent cfg.pageSize raw clock⟩ }
  | .read .closed, .reading =>
      if ctxDone || returned then some { p with reader := .returning } else none
  | .read .failed, .reading => some { p with reader := .failing }
  | .decide, .deciding kill => some (p.decideStep kill)
  | .takeSlot, .waiting kill =>
      if p.slots < cfg.maxConcurrentReports then
        some { p with slots := p.slots + 1, reader := .adding kill }
      else none
  | .abandon, .waiting kill =>
      if ctxDone then some { p with abandoned := kill :: p.abandoned, reader := .returning } else none
  | .add, .adding kill => some { p with wg := p.wg + 1, reader := .launching kill }
  | .launch, .launching kill => some (p.launchStep cfg kill)
  | .sendErr, .failing => some { p with watchErr := true, reader := .returning }
  | .exit, .returning => some { p with reader := .exited }
  | .perform i answers, _ => p.performStep returned i answers
  | .release i, _ => p.releaseStep i
  | .finish i, _ => p.finishStep i
  | _, _ => none

end Pool

/-! ## The goroutine of `Run` -/

/-- How `Run` returned: with the tracer's error, or after a drain that began at `since`. -/
inductive Exit where
  | tracerFailed
  | shutdown (since : Int) (readerTimedOut workersTimedOut : Bool)
  deriving DecidableEq, Repr

inductive Main where
  | selecting
  | drainingReader (since : Int)
  | drainingWorkers (since : Int) (readerTimedOut : Bool)
  | returned (exit : Exit)
  deriving DecidableEq, Repr

namespace Main

def hasReturned : Main → Bool
  | .returned _ => true
  | _ => false

/-- Once the workers are waited for, whether the wait for the reader had timed out. -/
def waitsForWorkers : Main → Option Bool
  | .drainingWorkers _ readerTimedOut => some readerTimedOut
  | .returned (.shutdown _ readerTimedOut _) => some readerTimedOut
  | _ => none

/-- The start of the drain, once one of its deadlines has fired. -/
def timedOut : Main → Option Int
  | .drainingWorkers since true => some since
  | .returned (.shutdown since readerTimedOut workersTimedOut) =>
      if readerTimedOut || workersTimedOut then some since else none
  | _ => none

end Main

structure State where
  clock : Int
  ctxDone : Bool
  /-- `drained` is closed. -/
  drained : Bool
  main : Main
  pool : Pool

inductive Label where
  | pool (l : PoolLabel)
  | tick (d : Nat)
  | cancel
  | tracerFailed
  | shutdown
  | readerStopped
  | readerTimeout
  /-- The goroutine in `wg.Wait` comes through. -/
  | waited
  | drained
  | drainTimeout

/-- One move of the goroutine of `Run`, of the goroutine in `wg.Wait`, or of the world. -/
def mainStep (s : State) : Label → Option State
  | .pool _ => none
  | .tick d => some { s with clock := s.clock + d }
  | .cancel => some { s with ctxDone := true }
  | .tracerFailed =>
      match s.main, s.pool.watchErr with
      | .selecting, true => some { s with main := .returned .tracerFailed }
      | _, _ => none
  | .shutdown =>
      match s.main, s.ctxDone with
      | .selecting, true => some { s with main := .drainingReader s.clock }
      | _, _ => none
  | .readerStopped =>
      match s.main, s.pool.reader with
      | .drainingReader since, .exited => some { s with main := .drainingWorkers since false }
      | _, _ => none
  | .readerTimeout =>
      match s.main with
      | .drainingReader since =>
          if since + shutdownDrainTimeout ≤ s.clock then
            some { s with main := .drainingWorkers since true }
          else none
      | _ => none
  | .waited =>
      match s.main.waitsForWorkers, s.pool.wg with
      | some _, 0 => some { s with drained := true }
      | _, _ => none
  | .drained =>
      match s.main, s.drained with
      | .drainingWorkers since readerTimedOut, true =>
          some { s with main := .returned (.shutdown since readerTimedOut false) }
      | _, _ => none
  | .drainTimeout =>
      match s.main with
      | .drainingWorkers since readerTimedOut =>
          if since + shutdownDrainTimeout ≤ s.clock then
            some { s with main := .returned (.shutdown since readerTimedOut true) }
          else none
      | _ => none

def step (cfg : AgentConfig) (s : State) (l : Label) : Option State :=
  match l with
  | .pool l =>
      (s.pool.step cfg s.clock s.ctxDone s.main.hasReturned l).map fun p => { s with pool := p }
  | l => mainStep s l

/-- The tracer is attached and nothing has been read. -/
def initial (cfg : AgentConfig) (s : State) : Prop :=
  s.ctxDone = false ∧ s.drained = false ∧ s.main = .selecting ∧
    s.pool = ⟨0, [], [], newReportCooldown cfg.reportCooldown, 0, 0, false, .reading, []⟩

def system (cfg : AgentConfig) : System State Label := ⟨initial cfg, step cfg⟩

/-! ## What a step can do -/

/-- What a move of the reader or of a worker can do. -/
inductive Stirs (cfg : AgentConfig) (clock : Int) (ctxDone : Bool) (p : Pool) : PoolLabel → Pool → Prop
  | event {raw : BpfOomEvent} (reader : p.reader = .reading) :
      Stirs cfg clock ctxDone p (.read (.event raw))
        { p with
          received := p.received + 1
          reader := .deciding ⟨p.received, crashEvent cfg.pageSize raw clock⟩ }
  | closed (reader : p.reader = .reading) :
      Stirs cfg clock ctxDone p (.read .closed) { p with reader := .returning }
  | failed (reader : p.reader = .reading) :
      Stirs cfg clock ctxDone p (.read .failed) { p with reader := .failing }
  | allowed {kill : Kill} (reader : p.reader = .deciding kill)
      (decision : (p.cooldown.allow kill.crash.containerID kill.crash.detectedAt).1 = true) :
      Stirs cfg clock ctxDone p .decide
        { p with
          cooldown := (p.cooldown.allow kill.crash.containerID kill.crash.detectedAt).2
          reader := .waiting kill }
  | suppressed {kill : Kill} (reader : p.reader = .deciding kill)
      (decision : (p.cooldown.allow kill.crash.containerID kill.crash.detectedAt).1 = false) :
      Stirs cfg clock ctxDone p .decide
        { p with
          cooldown := (p.cooldown.allow kill.crash.containerID kill.crash.detectedAt).2
          suppressed := kill :: p.suppressed
          reader := .reading }
  | slotTaken {kill : Kill} (reader : p.reader = .waiting kill)
      (free : p.slots < cfg.maxConcurrentReports) :
      Stirs cfg clock ctxDone p .takeSlot { p with slots := p.slots + 1, reader := .adding kill }
  | abandoned {kill : Kill} (reader : p.reader = .waiting kill) (done : ctxDone = true) :
      Stirs cfg clock ctxDone p .abandon
        { p with abandoned := kill :: p.abandoned, reader := .returning }
  | added {kill : Kill} (reader : p.reader = .adding kill) :
      Stirs cfg clock ctxDone p .add { p with wg := p.wg + 1, reader := .launching kill }
  | launched {kill : Kill} (reader : p.reader = .launching kill) :
      Stirs cfg clock ctxDone p .launch (p.launchStep cfg kill)
  | sent (reader : p.reader = .failing) :
      Stirs cfg clock ctxDone p .sendErr { p with watchErr := true, reader := .returning }
  | exited (reader : p.reader = .returning) :
      Stirs cfg clock ctxDone p .exit { p with reader := .exited }
  | performed {i : Nat} {answers : (o : Op) → o.Resp} {kill : Kill} {log : Log} {o : Op}
      {k : o.Resp → M Unit} (found : p.workers[i]? = some ⟨kill, log, .op o k, .handling⟩) :
      Stirs cfg clock ctxDone p (.perform i answers)
        { p with
          workers := p.workers.set i ⟨kill, ⟨o, answers o⟩ :: log, k (answers o), .handling⟩ }
  | released {i : Nat} {kill : Kill} {log : Log}
      (found : p.workers[i]? = some ⟨kill, log, .pure (), .handling⟩) :
      Stirs cfg clock ctxDone p (.release i)
        { p with
          slots := p.slots - 1
          workers := p.workers.set i ⟨kill, log, .pure (), .released⟩ }
  | finished {i : Nat} {kill : Kill} {log : Log} {prog : M Unit}
      (found : p.workers[i]? = some ⟨kill, log, prog, .released⟩) :
      Stirs cfg clock ctxDone p (.finish i)
        { p with wg := p.wg - 1, workers := p.workers.set i ⟨kill, log, prog, .finished⟩ }

theorem stirs_of_step {cfg : AgentConfig} {clock : Int} {ctxDone returned : Bool} {p p' : Pool}
    {l : PoolLabel} (taken : p.step cfg clock ctxDone returned l = some p') :
    Stirs cfg clock ctxDone p l p' := by
  unfold Pool.step at taken
  split at taken
  · rename_i reader
    cases taken
    exact .event reader
  · rename_i reader
    split at taken
    · cases taken
      exact .closed reader
    · cases taken
  · rename_i reader
    cases taken
    exact .failed reader
  · rename_i kill reader
    cases taken
    unfold Pool.decideStep
    dsimp only
    split
    · exact .allowed reader (by assumption)
    · rename_i refused
      exact .suppressed reader (by simpa using refused)
  · rename_i kill reader
    split at taken
    · cases taken
      exact .slotTaken reader (by assumption)
    · cases taken
  · rename_i kill reader
    split at taken
    · cases taken
      exact .abandoned reader (by assumption)
    · cases taken
  · rename_i kill reader
    cases taken
    exact .added reader
  · rename_i kill reader
    cases taken
    exact .launched reader
  · rename_i reader
    cases taken
    exact .sent reader
  · rename_i reader
    cases taken
    exact .exited reader
  · unfold Pool.performStep at taken
    split at taken
    · rename_i found
      split at taken
      · cases taken
        exact .performed found
      · cases taken
    · cases taken
  · unfold Pool.releaseStep at taken
    split at taken
    · rename_i found
      cases taken
      exact .released found
    · cases taken
  · unfold Pool.finishStep at taken
    split at taken
    · rename_i found
      cases taken
      exact .finished found
    · cases taken
  · cases taken

/-- What a move outside the pool can do. -/
inductive Steers (s : State) : Label → State → Prop
  | passed {d : Nat} : Steers s (.tick d) { s with clock := s.clock + d }
  | cancelled : Steers s .cancel { s with ctxDone := true }
  | tracerFailed (main : s.main = .selecting) (sent : s.pool.watchErr = true) :
      Steers s .tracerFailed { s with main := .returned .tracerFailed }
  | shutdown (main : s.main = .selecting) (done : s.ctxDone = true) :
      Steers s .shutdown { s with main := .drainingReader s.clock }
  | readerStopped {since : Int} (main : s.main = .drainingReader since)
      (reader : s.pool.reader = .exited) :
      Steers s .readerStopped { s with main := .drainingWorkers since false }
  | readerTimeout {since : Int} (main : s.main = .drainingReader since)
      (elapsed : since + shutdownDrainTimeout ≤ s.clock) :
      Steers s .readerTimeout { s with main := .drainingWorkers since true }
  | waited {readerTimedOut : Bool} (main : s.main.waitsForWorkers = some readerTimedOut)
      (idle : s.pool.wg = 0) : Steers s .waited { s with drained := true }
  | drained {since : Int} {readerTimedOut : Bool} (main : s.main = .drainingWorkers since readerTimedOut)
      (closed : s.drained = true) :
      Steers s .drained { s with main := .returned (.shutdown since readerTimedOut false) }
  | drainTimeout {since : Int} {readerTimedOut : Bool}
      (main : s.main = .drainingWorkers since readerTimedOut)
      (elapsed : since + shutdownDrainTimeout ≤ s.clock) :
      Steers s .drainTimeout { s with main := .returned (.shutdown since readerTimedOut true) }

/-- A step is a move within the pool or one outside it. -/
inductive Moved (cfg : AgentConfig) (s : State) : Label → State → Prop
  | pool {l : PoolLabel} {p : Pool} (stirs : Stirs cfg s.clock s.ctxDone s.pool l p) :
      Moved cfg s (.pool l) { s with pool := p }
  | main {l : Label} {s' : State} (steers : Steers s l s') : Moved cfg s l s'

theorem steers_of_mainStep {s s' : State} {l : Label} (taken : mainStep s l = some s') :
    Steers s l s' := by
  cases l with
  | pool l => cases taken
  | tick d =>
      cases taken
      exact .passed
  | cancel =>
      cases taken
      exact .cancelled
  | tracerFailed =>
      simp only [mainStep] at taken
      split at taken <;> cases taken
      exact .tracerFailed (by assumption) (by assumption)
  | shutdown =>
      simp only [mainStep] at taken
      split at taken <;> cases taken
      exact .shutdown (by assumption) (by assumption)
  | readerStopped =>
      simp only [mainStep] at taken
      split at taken <;> cases taken
      exact .readerStopped (by assumption) (by assumption)
  | readerTimeout =>
      simp only [mainStep] at taken
      split at taken
      · split at taken <;> cases taken
        exact .readerTimeout (by assumption) (by assumption)
      · cases taken
  | waited =>
      simp only [mainStep] at taken
      split at taken <;> cases taken
      exact .waited (by assumption) (by assumption)
  | drained =>
      simp only [mainStep] at taken
      split at taken <;> cases taken
      exact .drained (by assumption) (by assumption)
  | drainTimeout =>
      simp only [mainStep] at taken
      split at taken
      · split at taken <;> cases taken
        exact .drainTimeout (by assumption) (by assumption)
      · cases taken

theorem moved_of_step {cfg : AgentConfig} {s s' : State} {l : Label}
    (taken : step cfg s l = some s') : Moved cfg s l s' := by
  unfold step at taken
  split at taken
  · obtain ⟨p, moves, rfl⟩ := Option.map_eq_some_iff.1 taken
    exact .pool (stirs_of_step moves)
  · exact .main (steers_of_mainStep taken)

section Steers

variable {s s' : State} {l : Label}

/-- The pool moves by itself. -/
theorem Steers.pool (steers : Steers s l s') : s'.pool = s.pool := by
  cases steers <;> rfl

theorem Steers.clock (steers : Steers s l s') : s.clock ≤ s'.clock := by
  cases steers with
  | passed => exact Int.le_add_of_nonneg_right (Int.natCast_nonneg _)
  | _ => exact le_refl _

theorem Steers.ctxDone (steers : Steers s l s') (done : s.ctxDone = true) : s'.ctxDone = true := by
  cases steers <;> first | exact done | rfl

end Steers

/-! ## Concrete runs -/

/-- The last 50 lines of a log. -/
def lastFifty : LogCapturer where
  tailLines := 50
  decoders := utcDecoders
  sorter := .ofRank (fun entry => -extractLogNumber entry.1) fun a b => by
    rw [laterLog, decide_eq_decide]
    omega

/-- Two workers at a time, one report per container and half minute. -/
def nodeAgent : AgentConfig where
  nodeName := lit "node-1"
  captureLogs := false
  capturer := lastFifty
  podOwnerReference := false
  maxConcurrentReports := 2
  reportCooldown := 30 * second
  pageSize := 4096

/-- The agent as it attaches its tracer. -/
def attached (cfg : AgentConfig) : State :=
  ⟨0, false, false, .selecting,
    ⟨0, [], [], newReportCooldown cfg.reportCooldown, 0, 0, false, .reading, []⟩⟩

theorem attached_initial (cfg : AgentConfig) : (system cfg).init (attached cfg) :=
  ⟨rfl, rfl, rfl, rfl⟩

/-- The kernel's record of a kill in the cgroup of that name. -/
def oomRecord (cgroup : GoString) : BpfOomEvent where
  fpid := 1
  tpid := 2
  oomScore := 0
  oomScoreAdj := 0
  fcomm := Vector.replicate 16 0
  tcomm := Vector.replicate 16 0
  scopeTotalPages := 0
  anonRssPages := 0
  fileRssPages := 0
  shmemRssPages := 0
  swapPages := 0
  pgtablesBytes := 0
  cgroupName := Vector.ofFn fun i => ((cgroup[i.val]?).getD 0).toInt8
  isGlobalOom := false
  rssValid := true

/-- Every request of a worker is lost. -/
def offline : (o : Op) → o.Resp
  | .get _ => .refused .transport
  | .apiGet _ => .refused .transport
  | .list => .refused .transport
  | .create _ => .refused .transport
  | .statusPatch _ _ => .refused .transport
  | .delete _ => .refused .transport
  | .listPods _ => .refused .transport
  | .logFiles _ => Files.noFiles
  | .post _ => .failed
  | .now => (0 : Int)
  | .wait _ => .elapsed
  | .sleep _ => ()
  | .count _ => ()
  | .event _ => ()
  | .logInfo _ => ()

/-- A kill of the container `c0ffee` is read, let through and given to a worker. -/
def accepted : List Label :=
  [.pool (.read (.event (oomRecord (lit "cri-containerd-c0ffee.scope")))), .pool .decide,
    .pool .takeSlot, .pool .add, .pool .launch]

/-- Worker 0 cannot list the pods, counts that, and ends. -/
def unlisted : List Label :=
  [.pool (.perform 0 offline), .pool (.perform 0 offline), .pool (.perform 0 offline),
    .pool (.perform 0 offline), .pool (.release 0), .pool (.finish 0)]

end KubeAutopsy.Agent.Run
