/-
# KubeAutopsy.Agent.Shutdown — every event accounted for, and the drain

What holds of `Agent.Run` under every interleaving.  `Books` is kept by every move of the
reader and of the workers: the slots and the wait group count what they are there to
count, every event is in exactly one place, and every worker is on its way to one outcome.
`Drains` is what the goroutine of `Run` knows at each point of its shutdown.

* `run_accounted`: the bound on the workers, the account of the events, and a drain that
  is complete unless a deadline fired.
* `returns_drained`: no worker is cut off by the return of `Run`, provided the tracer
  fails only while no worker is at work.  `tracerFailure_abandons` is the other case.
-/
import KubeAutopsy.Agent.Run

namespace KubeAutopsy.Agent.Run

open KubeAutopsy.Api
open KubeAutopsy.Theory.Bytes (GoString lit)
open KubeAutopsy.Theory.Program
open KubeAutopsy.Theory.Transition

set_option autoImplicit false

/-! ## The books -/

/-- The reader has given up the event it waits with at most once, after the cancellation. -/
def Abandons (ctxDone : Bool) (p : Pool) : Prop :=
  p.abandoned = [] ∨ p.abandoned.length = 1 ∧ ctxDone = true ∧ p.reader.stopped = true

structure Books (cfg : AgentConfig) (ctxDone : Bool) (p : Pool) : Prop where
  slots : p.slots = inside p.workers + p.reader.slots
  bounded : p.slots ≤ cfg.maxConcurrentReports
  wg : p.wg = unfinished p.workers + p.reader.added
  account : (p.kills.map Kill.seq).Perm (List.range p.received)
  abandons : Abandons ctxDone p
  works : ∀ u ∈ p.workers, Works cfg u.kill.crash u.log u.prog
  ended : ∀ u ∈ p.workers, u.phase ≠ .handling → u.prog = .pure ()

/-- Replacing one element changes a count by that element. -/
theorem countP_set {α : Type} {l : List α} {i : Nat} {a : α} (found : l[i]? = some a) (b : α)
    (q : α → Bool) :
    (l.set i b).countP q + (if q a then 1 else 0) = l.countP q + if q b then 1 else 0 := by
  obtain ⟨within, rfl⟩ := List.getElem?_eq_some_iff.1 found
  have positive : (if q l[i] then 1 else 0) ≤ l.countP q := by
    split
    · rename_i holds
      exact List.countP_pos_iff.2 ⟨_, List.getElem_mem within, holds⟩
    · exact Nat.zero_le _
  rw [List.countP_set within]
  omega

theorem map_kill_set {workers : List Worker} {i : Nat} {u u' : Worker}
    (found : workers[i]? = some u) (same : u'.kill = u.kill) :
    (workers.set i u').map Worker.kill = workers.map Worker.kill := by
  obtain ⟨within, rfl⟩ := List.getElem?_eq_some_iff.1 found
  rw [List.map_set, same]
  have self := List.set_getElem_self (by simpa using within : i < (workers.map Worker.kill).length)
  simpa using self

/-- What one worker's move does to the two counts of the workers. -/
theorem counts_set {workers : List Worker} {i : Nat} {u : Worker} (found : workers[i]? = some u)
    (u' : Worker) :
    inside (workers.set i u') + (if u.phase = .handling then 1 else 0) =
        inside workers + (if u'.phase = .handling then 1 else 0) ∧
      unfinished (workers.set i u') + (if u.phase = .finished then 0 else 1) =
        unfinished workers + (if u'.phase = .finished then 0 else 1) := by
  constructor
  · simpa [inside] using countP_set found u' fun u => decide (u.phase = .handling)
  · simpa [unfinished] using countP_set found u' fun u => decide (u.phase ≠ .finished)

section Stirs

variable {cfg : AgentConfig} {clock : Int} {ctxDone : Bool} {p p' : Pool} {l : PoolLabel}

/-- **No event is lost or made up**: a move counts one new event or none, and the others
only change places. -/
theorem Stirs.kills (stirs : Stirs cfg clock ctxDone p l p') :
    (p'.received = p.received ∧ p'.kills.Perm p.kills) ∨
      ∃ raw, l = .read (.event raw) ∧ p'.received = p.received + 1 ∧
        p'.kills = p.kills ++ [⟨p.received, crashEvent cfg.pageSize raw clock⟩] := by
  cases stirs with
  | event reader =>
      rename_i raw
      exact .inr ⟨raw, rfl, rfl, by simp [Pool.kills, reader, Reader.inHand]⟩
  | closed reader => exact .inl ⟨rfl, by simp [Pool.kills, reader, Reader.inHand]⟩
  | failed reader => exact .inl ⟨rfl, by simp [Pool.kills, reader, Reader.inHand]⟩
  | allowed reader decision => exact .inl ⟨rfl, by simp [Pool.kills, reader, Reader.inHand]⟩
  | suppressed reader decision =>
      refine .inl ⟨rfl, ?_⟩
      simp only [Pool.kills, reader, Reader.inHand, List.append_nil]
      exact (List.perm_append_singleton _ _).symm
  | slotTaken reader free => exact .inl ⟨rfl, by simp [Pool.kills, reader, Reader.inHand]⟩
  | abandoned reader done =>
      refine .inl ⟨rfl, ?_⟩
      simp only [Pool.kills, reader, Reader.inHand, List.append_nil, List.append_assoc]
      exact ((List.perm_append_singleton _ _).symm.append_left _).append_left _
  | added reader => exact .inl ⟨rfl, by simp [Pool.kills, reader, Reader.inHand]⟩
  | launched reader =>
      refine .inl ⟨rfl, ?_⟩
      simp only [Pool.kills, Pool.launchStep, reader, Reader.inHand, List.append_nil,
        List.append_assoc, List.map_append]
      exact (List.perm_append_comm.append_left _).append_left _
  | sent reader => exact .inl ⟨rfl, by simp [Pool.kills, reader, Reader.inHand]⟩
  | exited reader => exact .inl ⟨rfl, by simp [Pool.kills, reader, Reader.inHand]⟩
  | performed found => exact .inl ⟨rfl, by simp [Pool.kills, map_kill_set found]⟩
  | released found => exact .inl ⟨rfl, by simp [Pool.kills, map_kill_set found]⟩
  | finished found => exact .inl ⟨rfl, by simp [Pool.kills, map_kill_set found]⟩

theorem Stirs.account (stirs : Stirs cfg clock ctxDone p l p')
    (account : (p.kills.map Kill.seq).Perm (List.range p.received)) :
    (p'.kills.map Kill.seq).Perm (List.range p'.received) := by
  rcases stirs.kills with ⟨same, moved⟩ | ⟨raw, -, next, kills⟩
  · rw [same]
    exact (moved.map Kill.seq).trans account
  · rw [next, kills, List.map_append, List.range_succ]
    exact account.append_right [p.received]

/-- The slots and the wait group count the workers, and the one the reader prepares. -/
theorem Stirs.counters (stirs : Stirs cfg clock ctxDone p l p')
    (slots : p.slots = inside p.workers + p.reader.slots)
    (bounded : p.slots ≤ cfg.maxConcurrentReports) (wg : p.wg = unfinished p.workers + p.reader.added) :
    p'.slots = inside p'.workers + p'.reader.slots ∧ p'.slots ≤ cfg.maxConcurrentReports ∧
      p'.wg = unfinished p'.workers + p'.reader.added := by
  cases stirs with
  | launched reader =>
      rw [reader] at slots wg
      simp only [Reader.slots, Reader.added] at slots wg
      refine ⟨?_, bounded, ?_⟩
      · simpa [Pool.launchStep, inside, Reader.slots] using slots
      · simpa [Pool.launchStep, unfinished, Reader.added] using wg
  | slotTaken reader free =>
      rw [reader] at slots wg
      exact ⟨congrArg (· + 1) slots, free, wg⟩
  | added reader =>
      rw [reader] at slots wg
      exact ⟨slots, bounded, congrArg (· + 1) wg⟩
  | performed found =>
      rename_i i answers kill log o k
      obtain ⟨inside_, unfinished_⟩ :=
        counts_set found ⟨kill, ⟨o, answers o⟩ :: log, k (answers o), .handling⟩
      simp only [reduceCtorEq, if_true, if_false] at inside_ unfinished_
      refine ⟨?_, bounded, ?_⟩ <;> dsimp only <;> omega
  | released found =>
      rename_i i kill log
      obtain ⟨inside_, unfinished_⟩ := counts_set found ⟨kill, log, .pure (), .released⟩
      simp only [reduceCtorEq, if_true, if_false] at inside_ unfinished_
      refine ⟨?_, ?_, ?_⟩ <;> dsimp only <;> omega
  | finished found =>
      rename_i i kill log prog
      obtain ⟨inside_, unfinished_⟩ := counts_set found ⟨kill, log, prog, .finished⟩
      simp only [reduceCtorEq, if_true, if_false] at inside_ unfinished_
      refine ⟨?_, bounded, ?_⟩ <;> dsimp only <;> omega
  -- The other moves of the reader touch neither.
  | _ => simp_all [Reader.slots, Reader.added]

theorem Stirs.abandons (stirs : Stirs cfg clock ctxDone p l p') (abandons : Abandons ctxDone p) :
    Abandons ctxDone p' := by
  cases stirs with
  | abandoned reader done =>
      -- A reader that still waits has abandoned nothing before.
      rcases abandons with none_ | ⟨-, -, stopped⟩
      · exact .inr ⟨by simp [none_], done, rfl⟩
      · rw [reader] at stopped
        cases stopped
  | performed found => exact abandons
  | released found => exact abandons
  | finished found => exact abandons
  | exited reader => exact abandons.imp_right fun one => ⟨one.1, one.2.1, rfl⟩
  | _ =>
      refine .inl (abandons.resolve_right fun one => ?_)
      simp_all [Reader.stopped]

/-- What holds of every worker as it starts, and is kept by what it performs and by its two
deferred calls, holds of every worker. -/
theorem Stirs.keeps {P : Worker → Prop} (stirs : Stirs cfg clock ctxDone p l p')
    (starts : ∀ kill, P ⟨kill, [], handleCrashEvent cfg kill.crash, .handling⟩)
    (performs : ∀ i answers kill log o k, l = .perform i answers →
      p.workers[i]? = some ⟨kill, log, .op o k, .handling⟩ → P ⟨kill, log, .op o k, .handling⟩ →
      P ⟨kill, ⟨o, answers o⟩ :: log, k (answers o), .handling⟩)
    (releases : ∀ kill log, P ⟨kill, log, .pure (), .handling⟩ → P ⟨kill, log, .pure (), .released⟩)
    (finishes : ∀ kill log prog, P ⟨kill, log, prog, .released⟩ → P ⟨kill, log, prog, .finished⟩)
    (each : ∀ u ∈ p.workers, P u) : ∀ u ∈ p'.workers, P u := by
  have replaced : ∀ {i : Nat} {u' : Worker}, P u' → ∀ u ∈ p.workers.set i u', P u := by
    intro i u' new u member
    rcases List.mem_or_eq_of_mem_set member with old | rfl
    · exact each u old
    · exact new
  cases stirs with
  | launched reader =>
      intro u member
      rcases List.mem_append.1 member with old | new
      · exact each u old
      · obtain rfl := List.mem_singleton.1 new
        exact starts _
  | performed found =>
      exact replaced (performs _ _ _ _ _ _ rfl found (each _ (List.mem_of_getElem? found)))
  | released found => exact replaced (releases _ _ (each _ (List.mem_of_getElem? found)))
  | finished found => exact replaced (finishes _ _ _ (each _ (List.mem_of_getElem? found)))
  | _ => exact each

/-- What holds of the log and the rest of the program of every worker as it starts, and is kept
by what it performs, holds of every worker. -/
theorem Stirs.keepsLog {P : CrashEvent → Log → M Unit → Prop} (stirs : Stirs cfg clock ctxDone p l p')
    (starts : ∀ event, P event [] (handleCrashEvent cfg event))
    (performs : ∀ i answers event log o k, l = .perform i answers → P event log (.op o k) →
      P event (⟨o, answers o⟩ :: log) (k (answers o)))
    (each : ∀ u ∈ p.workers, P u.kill.crash u.log u.prog) :
    ∀ u ∈ p'.workers, P u.kill.crash u.log u.prog :=
  stirs.keeps (P := fun u => P u.kill.crash u.log u.prog) (fun _ => starts _)
    (fun i answers kill log o k performed _ kept => performs i answers kill.crash log o k performed kept)
    (fun _ _ kept => kept) (fun _ _ _ kept => kept) each

theorem Stirs.books (stirs : Stirs cfg clock ctxDone p l p') (books : Books cfg ctxDone p) :
    Books cfg ctxDone p' := by
  obtain ⟨slots, bounded, wg⟩ := stirs.counters books.slots books.bounded books.wg
  refine ⟨slots, bounded, wg, stirs.account books.account, stirs.abandons books.abandons, ?_, ?_⟩
  · exact stirs.keepsLog (works_start cfg) (fun _ _ _ _ _ _ _ works => works.next _) books.works
  · refine stirs.keeps ?_ ?_ ?_ ?_ books.ended
    · exact fun _ other => absurd rfl other
    · exact fun _ _ _ _ _ _ _ _ _ other => absurd rfl other
    · exact fun _ _ _ _ => rfl
    · exact fun _ _ _ ended _ => ended nofun

end Stirs

theorem Books.cancel {cfg : AgentConfig} {ctxDone ctxDone' : Bool} {p : Pool}
    (books : Books cfg ctxDone p) (later : ctxDone = true → ctxDone' = true) :
    Books cfg ctxDone' p :=
  { books with abandons := books.abandons.imp_right fun one => ⟨one.1, later one.2.1, one.2.2⟩ }

theorem books_step {cfg : AgentConfig} {s s' : State} {l : Label} (books : Books cfg s.ctxDone s.pool)
    (moved : Moved cfg s l s') : Books cfg s'.ctxDone s'.pool := by
  cases moved with
  | pool stirs => exact stirs.books books
  | main steers =>
      rw [steers.pool]
      exact books.cancel steers.ctxDone

theorem books_of_reach {cfg : AgentConfig} {G : State → Label → Prop} {s : State}
    (reached : Reach (system cfg) G s) : Books cfg s.ctxDone s.pool := by
  refine reached.invariant (I := fun s => Books cfg s.ctxDone s.pool) (fun s start => ?_)
    fun s l s' books _ taken => books_step books (moved_of_step taken)
  obtain ⟨-, -, -, pool⟩ := start
  rw [pool]
  exact ⟨rfl, Nat.zero_le _, rfl, .refl _, .inl rfl, List.forall_mem_nil _, List.forall_mem_nil _⟩

/-! ## The drain -/

def AllFinished (p : Pool) : Prop := ∀ u ∈ p.workers, u.phase = .finished

theorem allFinished_iff (p : Pool) : AllFinished p ↔ unfinished p.workers = 0 := by
  simp [AllFinished, unfinished, List.countP_eq_zero]

section Quiet

variable {cfg : AgentConfig} {clock : Int} {ctxDone : Bool} {p p' : Pool} {l : PoolLabel}

theorem Stirs.exited_stays (stirs : Stirs cfg clock ctxDone p l p') (exited : p.reader = .exited) :
    p'.reader = .exited := by
  cases stirs <;> simp_all

/-- Without a worker to be started, finished workers stay finished. -/
theorem Stirs.allFinished (stirs : Stirs cfg clock ctxDone p l p') (done : AllFinished p)
    (idle : ∀ kill, p.reader ≠ .launching kill) : AllFinished p' := by
  cases stirs with
  | launched reader => exact absurd reader (idle _)
  | performed found => cases done _ (List.mem_of_getElem? found)
  | released found => cases done _ (List.mem_of_getElem? found)
  | finished found => cases done _ (List.mem_of_getElem? found)
  | _ => exact done

end Quiet

/-- What the goroutine of `Run` knows at each point of the drain. -/
structure Drains (s : State) : Prop where
  stopped : s.main.waitsForWorkers = some false → s.pool.reader = .exited
  waits : s.drained = true → s.main.waitsForWorkers ≠ none
  drained : s.drained = true → s.main.waitsForWorkers = some false → AllFinished s.pool
  returned : ∀ since readerTimedOut, s.main = .returned (.shutdown since readerTimedOut false) →
    s.drained = true
  elapsed : ∀ since, s.main.timedOut = some since → since + shutdownDrainTimeout ≤ s.clock

/-- `drained` is not closed before the workers are waited for. -/
theorem Drains.open_of_idle {s : State} (drains : Drains s) (idle : s.main.waitsForWorkers = none) :
    s.drained ≠ true :=
  fun closed => drains.waits closed idle

theorem Drains.stirred {cfg : AgentConfig} {s : State} {l : PoolLabel} {p : Pool} (drains : Drains s)
    (stirs : Stirs cfg s.clock s.ctxDone s.pool l p) : Drains { s with pool := p } where
  stopped waits := stirs.exited_stays (drains.stopped waits)
  waits := drains.waits
  drained closed waits := by
    have exited := drains.stopped waits
    exact stirs.allFinished (drains.drained closed waits) fun kill launching => by
      rw [exited] at launching
      cases launching
  returned := drains.returned
  elapsed := drains.elapsed

theorem Drains.steered {cfg : AgentConfig} {s s' : State} {l : Label} (drains : Drains s)
    (books : Books cfg s.ctxDone s.pool) (steers : Steers s l s') : Drains s' := by
  cases steers with
  | passed =>
      refine ⟨drains.stopped, drains.waits, drains.drained, drains.returned, fun since fired => ?_⟩
      have elapsed := drains.elapsed since fired
      dsimp only
      omega
  | cancelled => exact ⟨drains.stopped, drains.waits, drains.drained, drains.returned, drains.elapsed⟩
  | tracerFailed main sent =>
      have open_ := drains.open_of_idle (by rw [main]; rfl)
      exact ⟨nofun, fun closed => absurd closed open_, fun closed => absurd closed open_, nofun, nofun⟩
  | shutdown main done =>
      have open_ := drains.open_of_idle (by rw [main]; rfl)
      exact ⟨nofun, fun closed => absurd closed open_, fun closed => absurd closed open_, nofun, nofun⟩
  | readerStopped main reader =>
      have open_ := drains.open_of_idle (by rw [main]; rfl)
      exact ⟨fun _ => reader, fun closed => absurd closed open_, fun closed => absurd closed open_,
        nofun, nofun⟩
  | readerTimeout main elapsed =>
      have open_ := drains.open_of_idle (by rw [main]; rfl)
      refine ⟨nofun, fun closed => absurd closed open_, fun closed => absurd closed open_, nofun, ?_⟩
      rintro since ⟨⟩
      exact elapsed
  | waited main idle =>
      refine ⟨drains.stopped, fun _ => by simp [main], fun _ waits => ?_, fun _ _ _ => rfl, drains.elapsed⟩
      have wg := books.wg
      have none_ : unfinished s.pool.workers = 0 := by omega
      exact (allFinished_iff s.pool).2 none_
  | drained main closed =>
      rename_i since readerTimedOut
      have same : s.main.waitsForWorkers = some readerTimedOut := by rw [main]; rfl
      refine ⟨fun waits => drains.stopped (same.trans waits), fun _ => nofun,
        fun _ waits => drains.drained closed (same.trans waits), fun _ _ _ => closed, ?_⟩
      intro since' fired
      refine drains.elapsed since' ?_
      rw [main]
      cases readerTimedOut with
      | true => exact fired
      | false => cases fired
  | drainTimeout main elapsed =>
      rename_i since readerTimedOut
      have same : s.main.waitsForWorkers = some readerTimedOut := by rw [main]; rfl
      refine ⟨fun waits => drains.stopped (same.trans waits), fun _ => nofun,
        fun closed waits => drains.drained closed (same.trans waits), nofun, ?_⟩
      intro since' fired
      simp only [Main.timedOut, Bool.or_true, if_true, Option.some.injEq] at fired
      subst fired
      exact elapsed

theorem drains_of_reach {cfg : AgentConfig} {G : State → Label → Prop} {s : State}
    (reached : Reach (system cfg) G s) : Drains s := by
  refine reached.induction (I := Drains) (fun s start => ?_) fun s l s' before drains _ taken => ?_
  · obtain ⟨-, drained, main, -⟩ := start
    have open_ : s.drained ≠ true := by simp [drained]
    refine ⟨?_, fun closed => absurd closed open_, fun closed => absurd closed open_, ?_, ?_⟩ <;>
      simp [main, Main.waitsForWorkers, Main.timedOut]
  · cases moved_of_step taken with
    | pool stirs => exact drains.stirred stirs
    | main steers => exact drains.steered (books_of_reach before) steers

/-! ## Every event accounted for -/

/-- What one run of the agent guarantees of the events it has received. -/
structure Accounted (cfg : AgentConfig) (s : State) : Prop where
  /-- At most so many workers are inside `handleCrashEvent`. -/
  bounded : inside s.pool.workers ≤ cfg.maxConcurrentReports
  /-- Every event counted is suppressed, with one worker, abandoned, or still in the
  reader's hands, and in one of these places once. -/
  account : ((s.pool.suppressed ++ s.pool.workers.map Worker.kill ++ s.pool.abandoned ++
    s.pool.reader.inHand).map Kill.seq).Perm (List.range s.pool.received)
  abandoned_le : s.pool.abandoned.length ≤ 1
  abandoned_cancelled : s.pool.abandoned ≠ [] → s.ctxDone = true
  /-- However the rest of its requests are answered, a worker ends.  Its event has then ended in
  one way, by the requests made for it and their answers, and that is what was recorded. -/
  outcome : ∀ u ∈ s.pool.workers, ∀ (σ : Type) (answer : (o : Op) → σ → o.Resp × σ) (state : σ),
    ∃ outcome, recorded (u.prog.interp answer u.log state).2.1 = [outcome] ∧
      Ended cfg.reporter u.kill.crash (u.prog.interp answer u.log state).2.1 outcome ∧
      ∀ other, Ended cfg.reporter u.kill.crash (u.prog.interp answer u.log state).2.1 other →
        other = outcome
  /-- A drain that no deadline cut short is complete. -/
  drained : ∀ since, s.main = .returned (.shutdown since false false) →
    s.pool.reader = .exited ∧ AllFinished s.pool

/-- **Every event is accounted for**, in every state of every run. -/
theorem run_accounted (cfg : AgentConfig) {s : State} (reached : Reach (system cfg) anyStep s) :
    Accounted cfg s := by
  have books := books_of_reach reached
  have drains := drains_of_reach reached
  refine ⟨?_, books.account, ?_, ?_, ?_, ?_⟩
  · have slots := books.slots
    have bounded := books.bounded
    omega
  · rcases books.abandons with none_ | ⟨one, -, -⟩
    · simp [none_]
    · exact one.le
  · intro some_
    rcases books.abandons with none_ | ⟨-, done, -⟩
    · exact absurd none_ some_
    · exact done
  · intro u member σ answer state
    obtain ⟨outcome, recorded, ended⟩ := (books.works u member).ends answer state
    exact ⟨outcome, recorded, ended, fun other also => also.unique ended⟩
  · intro since returned
    have waits : s.main.waitsForWorkers = some false := by rw [returned]; rfl
    exact ⟨drains.stopped waits, drains.drained (drains.returned since false returned) waits⟩

/-- One kill is given to a worker, its repeat is suppressed, and the agent is stopped. -/
def stoppedAgent : List Label :=
  accepted ++ [.pool (.read (.event (oomRecord (lit "cri-containerd-c0ffee.scope")))),
    .pool .decide, .cancel, .shutdown, .pool (.read .closed), .pool .exit, .readerStopped] ++
  unlisted ++ [.waited, .drained]

theorem run_accounted_stoppedAgent :
    ∃ s : State, s.main = .returned (.shutdown 0 false false) ∧ s.pool.received = 2 ∧
      s.pool.workers.length = 1 ∧ Accounted nodeAgent s := by
  obtain ⟨s, reached, returned, two, one⟩ := exists_reached stoppedAgent
    (Q := fun s : State => s.main = .returned (.shutdown 0 false false) ∧ s.pool.received = 2 ∧
      s.pool.workers.length = 1) (attached_initial nodeAgent) (by decide +kernel)
  exact ⟨s, returned, two, one, run_accounted nodeAgent reached⟩

/-! ## Ways to return -/

/-- The guard of a run in which the tracer fails only while no worker is at work. -/
def quietFailure (s : State) : Label → Bool
  | .pool (.read .failed) => s.pool.workers.all fun u => decide (u.phase = .finished)
  | _ => true

/-- After such a failure there is no worker to wait for. -/
structure Failed (p : Pool) : Prop where
  finished : p.reader = .failing ∨ p.watchErr = true → AllFinished p
  stopped : p.watchErr = true → p.reader.stopped = true

/-- While the reader is active nothing has been sent. -/
theorem Failed.of_active {p p' : Pool} (failed : Failed p) (active : p.reader.stopped = false)
    (unsent : p'.watchErr = p.watchErr) (fine : p'.reader ≠ .failing) : Failed p' := by
  have silent : p'.watchErr ≠ true := by
    intro sent
    rw [unsent] at sent
    rw [failed.stopped sent] at active
    cases active
  exact ⟨fun either => absurd (either.resolve_left fine) silent, fun sent => absurd sent silent⟩

/-- A worker's move: it is no move after the failure, when all have finished. -/
theorem Failed.of_worker {cfg : AgentConfig} {clock : Int} {ctxDone : Bool} {p p' : Pool}
    {l : PoolLabel} (failed : Failed p) (stirs : Stirs cfg clock ctxDone p l p')
    (reader : p'.reader = p.reader) (unsent : p'.watchErr = p.watchErr) : Failed p' := by
  refine ⟨fun either => ?_, fun sent => ?_⟩
  · rw [reader, unsent] at either
    refine stirs.allFinished (failed.finished either) fun kill launching => ?_
    rcases either with failing | sent
    · rw [failing] at launching
      cases launching
    · have stopped := failed.stopped sent
      rw [launching] at stopped
      cases stopped
  · rw [reader]
    rw [unsent] at sent
    exact failed.stopped sent

theorem Failed.stirred {cfg : AgentConfig} {s : State} {l : PoolLabel} {p : Pool}
    (failed : Failed s.pool) (quiet : quietFailure s (.pool l) = true)
    (stirs : Stirs cfg s.clock s.ctxDone s.pool l p) : Failed p := by
  have moves := stirs
  cases stirs with
  | failed reader =>
      have active : s.pool.watchErr ≠ true := by
        intro sent
        have stopped := failed.stopped sent
        rw [reader] at stopped
        cases stopped
      refine ⟨fun _ => ?_, fun sent => absurd sent active⟩
      simpa [quietFailure, AllFinished] using quiet
  | sent reader => exact ⟨fun _ => failed.finished (.inl reader), fun _ => rfl⟩
  | exited reader =>
      exact ⟨fun either => failed.finished (.inr (either.resolve_left nofun)), fun _ => rfl⟩
  | performed found => exact failed.of_worker moves rfl rfl
  | released found => exact failed.of_worker moves rfl rfl
  | finished found => exact failed.of_worker moves rfl rfl
  | event reader => exact failed.of_active (by rw [reader]; rfl) rfl nofun
  | closed reader => exact failed.of_active (by rw [reader]; rfl) rfl nofun
  | allowed reader decision => exact failed.of_active (by rw [reader]; rfl) rfl nofun
  | suppressed reader decision => exact failed.of_active (by rw [reader]; rfl) rfl nofun
  | slotTaken reader free => exact failed.of_active (by rw [reader]; rfl) rfl nofun
  | abandoned reader done => exact failed.of_active (by rw [reader]; rfl) rfl nofun
  | added reader => exact failed.of_active (by rw [reader]; rfl) rfl nofun
  | launched reader => exact failed.of_active (by rw [reader]; rfl) rfl nofun

/-- `Run` returns the tracer's error only when there is one. -/
def Reported (s : State) : Prop := s.main = .returned .tracerFailed → s.pool.watchErr = true

theorem Stirs.watchErr {cfg : AgentConfig} {clock : Int} {ctxDone : Bool} {p p' : Pool} {l : PoolLabel}
    (stirs : Stirs cfg clock ctxDone p l p') (sent : p.watchErr = true) : p'.watchErr = true := by
  cases stirs <;> first | exact sent | rfl

theorem reported_of_reach {cfg : AgentConfig} {G : State → Label → Prop} {s : State}
    (reached : Reach (system cfg) G s) : Reported s := by
  refine reached.invariant (I := Reported) (fun s start returned => ?_) fun s l s' reported _ taken => ?_
  · rw [start.2.2.1] at returned
    cases returned
  · cases moved_of_step taken with
    | pool stirs => exact fun returned => stirs.watchErr (reported returned)
    | main steers =>
        cases steers with
        | tracerFailed main sent => exact fun _ => sent
        | passed => exact reported
        | cancelled => exact reported
        | waited main idle => exact reported
        | _ => exact nofun

theorem failed_of_reach {cfg : AgentConfig} {s : State}
    (reached : Reach (system cfg) (fun s l => quietFailure s l = true) s) : Failed s.pool := by
  refine reached.invariant (I := fun s => Failed s.pool) (fun s start => ?_)
    fun s l s' failed quiet taken => ?_
  · rw [start.2.2.2]
    exact ⟨fun either => either.elim nofun nofun, nofun⟩
  · cases moved_of_step taken with
    | pool stirs => exact failed.stirred quiet stirs
    | main steers =>
        rw [steers.pool]
        exact failed

/-- **Reports in flight survive the return of `Run`**, whichever way it returns, unless
the drain ran out of time, in every run whose tracer fails only while no worker is at
work. -/
theorem returns_drained (cfg : AgentConfig) {s : State}
    (reached : Reach (system cfg) (fun s l => quietFailure s l = true) s) {exit : Exit}
    (returned : s.main = .returned exit) :
    AllFinished s.pool ∨
      ∃ since readerTimedOut workersTimedOut,
        exit = .shutdown since readerTimedOut workersTimedOut ∧
          since + shutdownDrainTimeout ≤ s.clock := by
  have drains := drains_of_reach reached
  cases exit with
  | tracerFailed =>
      exact .inl ((failed_of_reach reached).finished (.inr (reported_of_reach reached returned)))
  | shutdown since readerTimedOut workersTimedOut =>
      cases timed : readerTimedOut || workersTimedOut with
      | true =>
          refine .inr ⟨since, _, _, rfl, drains.elapsed since ?_⟩
          rw [returned, Main.timedOut, timed]
          rfl
      | false =>
          obtain ⟨rfl, rfl⟩ := Bool.or_eq_false_iff.1 timed
          have waits : s.main.waitsForWorkers = some false := by rw [returned]; rfl
          exact .inl (drains.drained (drains.returned since false returned) waits)

/-- The tracer fails after the only worker has finished. -/
def lateFailure : List Label :=
  accepted ++ unlisted ++ [.pool (.read .failed), .pool .sendErr, .tracerFailed]

/-- The tracer fails while the worker is still at its first request. -/
def earlyFailure : List Label :=
  accepted ++ [.pool (.read .failed), .pool .sendErr, .tracerFailed]

theorem returns_drained_lateFailure :
    ∃ s : State, s.main = .returned .tracerFailed ∧ s.pool.workers.length = 1 ∧
      (AllFinished s.pool ∨ ∃ since readerTimedOut workersTimedOut,
        Exit.tracerFailed = .shutdown since readerTimedOut workersTimedOut ∧
          since + shutdownDrainTimeout ≤ s.clock) := by
  have within : Within (system nodeAgent) (fun s l => quietFailure s l = true) (attached nodeAgent)
      lateFailure := by
    decide +kernel
  obtain ⟨s, reached, returned, one⟩ := exists_guarded
    (Q := fun s : State => s.main = .returned .tracerFailed ∧ s.pool.workers.length = 1)
    (attached_initial nodeAgent) within (by decide +kernel)
  exact ⟨s, returned, one, returns_drained nodeAgent reached returned⟩

/-- **A failing tracer cuts reports off**: `Run` returns at once, and with it ends the
context of the worker that has only just been started. -/
theorem tracerFailure_abandons :
    ∃ s : State, Reach (system nodeAgent) anyStep s ∧ s.main = .returned .tracerFailed ∧
      s.clock = 0 ∧ ¬ AllFinished s.pool := by
  obtain ⟨s, reached, returned, now, u, member, handling⟩ := exists_reached earlyFailure
    (Q := fun s : State => s.main = .returned .tracerFailed ∧ s.clock = 0 ∧
      ∃ u ∈ s.pool.workers, u.phase = .handling)
    (attached_initial nodeAgent) (by decide +kernel)
  refine ⟨s, reached, returned, now, fun done => ?_⟩
  rw [done u member] at handling
  cases handling

end KubeAutopsy.Agent.Run
