/-
# KubeAutopsy.Controller.GcLoop — the retention loop in time

`Start` of `internal/controller/gc.go`: a pass at once, then a ticker, then a `select` over
the ticker and the context.  A pass is a program, so time goes by between its operations, and
ticks that fire meanwhile are dropped but for one.

Two things are said about every run of the loop.  `passes_bounded`: however slow a pass is, and
however the ticks pile up behind it, the loop starts one pass an interval and never catches up
with a burst.  `expired_attempted`: when no pass takes longer than `slack` and no tick is left
waiting for longer than `delay`, what has expired at `x` is attempted by a pass that is over an
interval, two passes and one such delay after `x`, if that pass gets a listing at all.
-/
import KubeAutopsy.Controller.GarbageCollector
import KubeAutopsy.Theory.Tickers
import KubeAutopsy.Theory.Transition

namespace KubeAutopsy.Controller.GcLoop

open KubeAutopsy.Api
open KubeAutopsy.Theory.Clock
open KubeAutopsy.Theory.Program
open KubeAutopsy.Theory.Sorting
open KubeAutopsy.Theory.Tickers
open KubeAutopsy.Theory.Transition

set_option autoImplicit false

def gcInterval : Int := 5 * minute

theorem gcInterval_pos : 0 < gcInterval := by decide

/-! ## The loop -/

/-- A pass that is over. -/
structure Pass where
  startedAt : Int
  endedAt : Int
  log : Log

/-- Where `Start` is: in a call of `deleteExpiredReports`, in the `select`, or back. -/
inductive Phase where
  | passing (startedAt : Int) (log : Log) (rest : M (Nat × Option GoError))
  | selecting
  | returned

structure State where
  now : Int
  /-- `ctx.Done()` is closed. -/
  cancelled : Bool
  /-- There is none before the initial pass is over. -/
  ticker : Option Ticker
  phase : Phase
  /-- Newest first. -/
  done : List Pass

inductive Label where
  | elapse (d : Nat)
  | cancel
  /-- The next operation of the pass, answered. -/
  | perform (answer : (o : Op) → o.Resp)
  /-- The pass is over. -/
  | ended
  /-- `case <-ticker.C`. -/
  | tick
  /-- `case <-ctx.Done()`. -/
  | stop

section Loop

variable (gc : GarbageCollector) (sorter : SortSlice olderReport)

def step (s : State) : Label → Option State
  | .elapse d =>
      some { s with
        now := s.now + d
        ticker := s.ticker.map fun tk => tk.elapse gcInterval (s.now + d) }
  | .cancel => some { s with cancelled := true }
  | .perform answer =>
      match s.phase with
      | .passing startedAt log (.op o k) =>
          some { s with phase := .passing startedAt (⟨o, answer o⟩ :: log) (k (answer o)) }
      | _ => none
  | .ended =>
      match s.phase with
      | .passing startedAt log (.pure _) =>
          -- The ticker is made after the initial pass.
          some { s with
            ticker := some (s.ticker.getD (Ticker.start gcInterval s.now))
            phase := .selecting
            done := ⟨startedAt, s.now, log⟩ :: s.done }
      | _ => none
  | .tick =>
      match s.phase, s.ticker with
      | .selecting, some tk =>
          if tk.pending then
            some { s with
              ticker := some tk.take
              phase := .passing s.now [] (gc.deleteExpiredReports sorter) }
          else none
      | _, _ => none
  | .stop =>
      match s.phase with
      | .selecting => if s.cancelled then some { s with phase := .returned } else none
      | _ => none

/-- `Start` was called at `began`. -/
def initial (began : Int) : State where
  now := began
  cancelled := false
  ticker := none
  phase := .passing began [] (gc.deleteExpiredReports sorter)
  done := []

def loop (began : Int) : System State Label where
  init := fun s => s = initial gc sorter began
  step := step gc sorter

end Loop

/-- Everything a step can do. -/
inductive Moved (gc : GarbageCollector) (sorter : SortSlice olderReport) :
    State → Label → State → Prop
  | elapsed (s : State) (d : Nat) :
      Moved gc sorter s (.elapse d)
        { s with
          now := s.now + d
          ticker := s.ticker.map fun tk => tk.elapse gcInterval (s.now + d) }
  | cancelled (s : State) : Moved gc sorter s .cancel { s with cancelled := true }
  | performed {s : State} {startedAt : Int} {log : Log} {o : Op}
      {k : o.Resp → M (Nat × Option GoError)} (answer : (o : Op) → o.Resp)
      (phase : s.phase = .passing startedAt log (.op o k)) :
      Moved gc sorter s (.perform answer)
        { s with phase := .passing startedAt (⟨o, answer o⟩ :: log) (k (answer o)) }
  | ended {s : State} {startedAt : Int} {log : Log} {result : Nat × Option GoError}
      (phase : s.phase = .passing startedAt log (.pure result)) :
      Moved gc sorter s .ended
        { s with
          ticker := some (s.ticker.getD (Ticker.start gcInterval s.now))
          phase := .selecting
          done := ⟨startedAt, s.now, log⟩ :: s.done }
  | ticked {s : State} {tk : Ticker} (phase : s.phase = .selecting) (ticker : s.ticker = some tk)
      (pending : tk.pending = true) :
      Moved gc sorter s .tick
        { s with
          ticker := some tk.take
          phase := .passing s.now [] (gc.deleteExpiredReports sorter) }
  | stopped {s : State} (phase : s.phase = .selecting) (cancelled : s.cancelled = true) :
      Moved gc sorter s .stop { s with phase := .returned }

/-- When the passes began, newest first, the one that is running among them. -/
def State.starts (s : State) : List Int :=
  match s.phase with
  | .passing startedAt _ _ => startedAt :: s.done.map Pass.startedAt
  | _ => s.done.map Pass.startedAt

section Steps

variable {gc : GarbageCollector} {sorter : SortSlice olderReport} {began : Int} {s t : State}
  {l : Label}

theorem moved_of_step (taken : (loop gc sorter began).step s l = some t) :
    Moved gc sorter s l t := by
  cases l with
  | elapse d =>
      cases taken
      exact .elapsed s d
  | cancel =>
      cases taken
      exact .cancelled s
  | perform answer =>
      simp only [loop, step] at taken
      split at taken
      · rename_i phase
        cases taken
        exact .performed answer phase
      · cases taken
  | ended =>
      simp only [loop, step] at taken
      split at taken
      · rename_i phase
        cases taken
        exact .ended phase
      · cases taken
  | tick =>
      simp only [loop, step] at taken
      split at taken
      · rename_i tk phase ticker
        split at taken
        · rename_i pending
          cases taken
          exact .ticked phase ticker pending
        · cases taken
      · cases taken
  | stop =>
      simp only [loop, step] at taken
      split at taken
      · rename_i phase
        split at taken
        · rename_i cancelled
          cases taken
          exact .stopped phase cancelled
        · cases taken
      · cases taken

/-- Only a tick starts a pass. -/
theorem Moved.starts_of_ne (moved : Moved gc sorter s l t) (other : l ≠ .tick) :
    t.starts = s.starts := by
  cases moved with
  | elapsed d => rfl
  | cancelled => rfl
  | performed answer phase => simp [State.starts, phase]
  | ended phase => simp [State.starts, phase]
  | ticked phase ticker pending => exact absurd rfl other
  | stopped phase cancelled => simp [State.starts, phase]

/-- A context that is not cancelled was not. -/
theorem Moved.running (moved : Moved gc sorter s l t) (running : t.cancelled = false) :
    s.cancelled = false := by
  cases moved with
  | cancelled => simp at running
  | _ => exact running

theorem starts_tick {tk : Ticker} {rest : M (Nat × Option GoError)} (phase : s.phase = .selecting) :
    State.starts { s with ticker := some tk, phase := .passing s.now [] rest } =
      s.now :: s.starts := by
  simp [State.starts, phase]

end Steps

/-! ### A loop with one report -/

/-- Reports are kept for a minute. -/
def minuteCollector : GarbageCollector where
  ttl := minute
  maxReports := 0

theorem olderReport_eq (a b : PodCrashReport) :
    olderReport a b = decide (a.metadata.creationTimestamp < b.metadata.creationTimestamp) := rfl

def oldestFirst : SortSlice olderReport :=
  .ofRank (fun r => r.metadata.creationTimestamp) olderReport_eq

/-- The world of a pass at `now` that finds `reports` and can delete them. -/
def answers (reports : List PodCrashReport) (now : Int) (o : Op) : o.Resp :=
  (passHandler reports now (fun _ => .acked) o 0).1

/-- Created at the epoch. -/
def early : PodCrashReport := {}

/-- The initial pass finds the report too young; the one at the first tick, which is taken a second
late, deletes it, and then the loop waits for the next tick. -/
def oneReport : List Label :=
  [.perform (answers [early] 0), .perform (answers [early] 0), .ended,
    .elapse (5 * 60 * 1000000000), .elapse 1000000000, .tick,
    .perform (answers [early] (gcInterval + second)),
    .elapse 1000000000, .perform (answers [early] (gcInterval + 2 * second)),
    .perform (answers [early] (gcInterval + 2 * second)),
    .perform (answers [early] (gcInterval + 2 * second)), .ended, .elapse (4 * 60 * 1000000000)]

/-! ## How many passes -/

/-- Since `low`, when `base` passes had begun, no more began than there were intervals. -/
structure Paced (low : Int) (base : Nat) (s : State) : Prop where
  later : low ≤ s.now
  still : s.ticker = none → s.starts.length = base
  ticking : ∀ tk, s.ticker = some tk → tk.Armed gcInterval s.now ∧
    ∃ since taken, low ≤ since ∧ s.starts.length = base + taken ∧ tk.Earned gcInterval since taken

section Pace

variable {gc : GarbageCollector} {sorter : SortSlice olderReport} {began low : Int} {base : Nat}
  {s t : State} {l : Label}

theorem Paced.step (paced : Paced low base s) (moved : Moved gc sorter s l t) :
    Paced low base t := by
  obtain ⟨later, still, ticking⟩ := paced
  have same := moved.starts_of_ne
  cases moved with
  | elapsed d =>
      rw [← same (by simp)] at still
      refine ⟨later.trans (by simp), fun none => still (by simpa using none), ?_⟩
      intro tk found
      obtain ⟨before, ticker, rfl⟩ := Option.map_eq_some_iff.1 found
      obtain ⟨armed, since, taken, after, count, earned⟩ := ticking before ticker
      exact ⟨armed.elapse gcInterval_pos (by simp), since, taken, after, count,
        earned.elapse gcInterval_pos _⟩
  | cancelled => exact ⟨later, still, ticking⟩
  | performed answer phase =>
      have count := same (by simp)
      refine ⟨later, ?_, ?_⟩
      · rw [count]
        exact still
      · rw [count]
        exact ticking
  | ended phase =>
      have count := same (by simp)
      refine ⟨later, by simp, ?_⟩
      rw [count]
      intro tk found
      cases ticker : s.ticker with
      | none =>
          obtain rfl : Ticker.start gcInterval s.now = tk := by simpa [ticker] using found
          exact ⟨Ticker.armed_start gcInterval_pos _, s.now, 0, later, still ticker,
            Ticker.earned_start _⟩
      | some before =>
          obtain rfl : before = tk := by simpa [ticker] using found
          exact ticking before ticker
  | @ticked tk phase ticker pending =>
      obtain ⟨armed, since, taken, after, count, earned⟩ := ticking tk ticker
      refine ⟨later, by simp, ?_⟩
      rintro _ ⟨rfl⟩
      refine ⟨⟨armed.ahead, armed.soon⟩, since, taken + 1, after, ?_, earned.take pending⟩
      rw [starts_tick phase, List.length_cons, count]
      rfl
  | stopped phase cancelled =>
      have count := same (by simp)
      refine ⟨later, ?_, ?_⟩
      · rw [count]
        exact still
      · rw [count]
        exact ticking

theorem paced_initial : Paced began 1 (initial gc sorter began) :=
  ⟨le_refl began, fun _ => rfl, by simp [initial]⟩

theorem paced_of_reach (reached : Reach (loop gc sorter began) anyStep s) : Paced began 1 s := by
  refine reached.invariant ?_ ?_
  · rintro _ rfl
    exact paced_initial
  · intro s l t paced _ taken
    exact paced.step (moved_of_step taken)

/-- A state in the middle of a run: its next tick, and perhaps one more, is already paid for. -/
theorem Paced.resume (paced : Paced low base s) :
    Paced (s.now - 2 * gcInterval) s.starts.length s := by
  have positive := gcInterval_pos
  refine ⟨by omega, fun _ => rfl, fun tk ticker => ?_⟩
  obtain ⟨armed, -⟩ := paced.ticking tk ticker
  refine ⟨armed, s.now - 2 * gcInterval, 0, le_refl _, rfl, ?_⟩
  have ahead := armed.ahead
  unfold Ticker.Earned
  split
  · omega
  · omega

theorem Paced.bound (paced : Paced low base s) :
    gcInterval * (s.starts.length - base) ≤ s.now - low := by
  have later := paced.later
  cases ticker : s.ticker with
  | none =>
      rw [paced.still ticker]
      simpa using later
  | some tk =>
      obtain ⟨armed, since, taken, after, count, earned⟩ := paced.ticking tk ticker
      have most := earned.bound armed gcInterval_pos
      rw [count, Nat.cast_add, add_sub_cancel_left]
      omega

/-- **The loop starts one pass an interval**, over a whole run and over every stretch of one,
with two to spare at the start of the stretch: the tick that was waiting and the one that was
about to fire. -/
theorem passes_bounded (gc : GarbageCollector) (sorter : SortSlice olderReport) (began : Int)
    (s t : State) (reached : Reach (loop gc sorter began) anyStep s)
    (run : Path (loop gc sorter began) anyStep s t) :
    gcInterval * (t.starts.length - 1) ≤ t.now - began ∧
      gcInterval * (t.starts.length - s.starts.length) ≤ t.now - s.now + 2 * gcInterval := by
  have whole := (paced_of_reach (reached.extend run)).bound
  have stretch : Paced (s.now - 2 * gcInterval) s.starts.length t :=
    run.invariant (paced_of_reach reached).resume fun s l t paced _ taken =>
      paced.step (moved_of_step taken)
  have most := stretch.bound
  refine ⟨whole, ?_⟩
  omega

end Pace

theorem passes_bounded_oneReport :
    ∃ t,
      Path (loop minuteCollector oldestFirst 0) anyStep (initial minuteCollector oldestFirst 0) t ∧
      t.starts.length = 2 ∧ gcInterval * (t.starts.length - 1) ≤ t.now - 0 ∧
      gcInterval * (t.starts.length - (initial minuteCollector oldestFirst 0).starts.length) ≤
        t.now - (initial minuteCollector oldestFirst 0).now + 2 * gcInterval := by
  have twice : ((run (loop minuteCollector oldestFirst 0) (initial minuteCollector oldestFirst 0)
      oneReport).any fun t => decide (t.starts.length = 2)) = true := by decide
  simp only [Option.any_eq_true, decide_eq_true_eq] at twice
  obtain ⟨t, ran, count⟩ := twice
  have path := path_of_run (within_anyStep _ _) ran
  exact ⟨t, path, count, passes_bounded minuteCollector oldestFirst 0 _ t ⟨_, rfl, .refl _⟩ path⟩

/-! ## What a whole pass attempts -/

/-- The clock shows `since` or later. -/
def notBefore (since : Int) : Contract Op Op.Resp where
  rely := fun _ o r =>
    match o, r with
    | .now, t => since ≤ t
    | _, _ => True
  guarantee := fun _ _ => True

/-- The server refused to list the reports. -/
def Refused (log : Log) : Prop := ∃ e, Did log .list (.refused e)

/-- There was a listing, and of what it held everything that has expired at `since` was
attempted. -/
def Exhausts (gc : GarbageCollector) (since : Int) (log : Log) : Prop :=
  ∃ reports, Did log .list (.listed reports) ∧ ∀ report ∈ reports,
    gc.expired since report = true → ∃ answer, Did log (.delete report) answer

/-- What has expired stays so. -/
theorem expired_mono {gc : GarbageCollector} {report : PodCrashReport} {now later : Int}
    (before : now ≤ later) (expired : gc.expired now report = true) :
    gc.expired later report = true := by
  have old : gc.ttl < GarbageCollector.age now report := of_decide_eq_true expired
  exact decide_eq_true (lt_of_lt_of_le old (sub_mono before))

theorem Exhausts.mono {gc : GarbageCollector} {since earlier : Int} {log : Log}
    (exhausts : Exhausts gc since log) (before : earlier ≤ since) : Exhausts gc earlier log := by
  obtain ⟨reports, did, attempted⟩ := exhausts
  exact ⟨reports, did, fun report member old => attempted report member (expired_mono before old)⟩

section Exhaust

variable {gc : GarbageCollector} {now since : Int} {log : Log}

theorem deleteReport_attempts (report : PodCrashReport) (trimmed : Bool) (deleted : Nat)
    (lastErr : Option GoError) :
    Meets (notBefore since)
      (fun after _ => log <:+ after ∧ ∃ answer, Did after (.delete report) answer) log
      (GarbageCollector.deleteReport now report trimmed deleted lastErr) := by
  unfold GarbageCollector.deleteReport
  refine meets_perform_bind.2 ⟨trivial, fun answer _ => ?_⟩
  have did : Did (⟨.delete report, answer⟩ :: log) (.delete report) answer := did_self _ _ _
  have here : log <:+ ⟨.delete report, answer⟩ :: log := List.suffix_cons _ _
  cases answer.err with
  | some e =>
      dsimp only
      split
      · exact ⟨here, answer, did⟩
      · exact meets_perform_bind.2 ⟨trivial, fun _ _ =>
          ⟨here.trans (List.suffix_cons _ _), answer, did.cons _⟩⟩
  | none =>
      refine meets_perform_bind.2 ⟨trivial, fun _ _ => ?_⟩
      have counted := here.trans
        (List.suffix_cons ⟨Op.count (.reportAge (GarbageCollector.age now report)), ()⟩ _)
      cases trimmed with
      | false => exact ⟨counted, answer, did.cons _⟩
      | true =>
          exact meets_perform_bind.2 ⟨trivial, fun _ _ =>
            ⟨counted.trans (List.suffix_cons _ _), answer, (did.cons _).cons _⟩⟩

theorem deleteLoop_attempts (items : List PodCrashReport) (trim : Int) (deleted : Nat)
    (lastErr : Option GoError) :
    Meets (notBefore since) (fun after _ => log <:+ after ∧ ∀ report ∈ items,
        gc.expired now report = true → ∃ answer, Did after (.delete report) answer)
      log (gc.deleteLoop now items trim deleted lastErr) := by
  induction items generalizing log trim deleted lastErr with
  | nil => exact ⟨List.suffix_rfl, by simp⟩
  | cons report rest ih =>
      unfold GarbageCollector.deleteLoop
      dsimp only
      split
      · -- Left alone: it has not expired.
        rename_i young
        have unexpired : gc.expired now report = false := by
          simpa using (Bool.and_eq_true_iff.1 young).1
        refine (ih _ _ _).post_mono ?_
        rintro after _ ⟨suffix, attempted⟩
        exact ⟨suffix, List.forall_mem_cons.2 ⟨by simp [unexpired], attempted⟩⟩
      · refine meets_bind.2 ((deleteReport_attempts report _ _ _).post_mono ?_)
        rintro between out ⟨before, answer, did⟩
        refine (ih _ _ _).post_mono ?_
        rintro after _ ⟨suffix, attempted⟩
        exact ⟨before.trans suffix,
          List.forall_mem_cons.2 ⟨fun _ => ⟨answer, did.of_suffix suffix⟩, attempted⟩⟩

theorem deleteExpiredReports_exhausts (sorter : SortSlice olderReport) (since : Int) :
    Meets (notBefore since) (fun log _ => Refused log ∨ Exhausts gc since log) []
      (gc.deleteExpiredReports sorter) := by
  unfold GarbageCollector.deleteExpiredReports
  refine meets_perform_bind.2 ⟨trivial, fun listing _ => ?_⟩
  cases listing with
  | refused e => exact .inl ⟨e, did_self _ _ _⟩
  | listed reports =>
      refine meets_perform_bind.2 ⟨trivial, fun now after => ?_⟩
      refine (deleteLoop_attempts (sorter.sort reports) _ _ _).post_mono ?_
      rintro log _ ⟨suffix, attempted⟩
      refine .inr ⟨reports, Did.of_suffix ((did_self _ _ _).cons _) suffix, ?_⟩
      intro report member old
      exact attempted report (sorter.mem_sort.2 member) (expired_mono after old)

end Exhaust

/-! ## When a pass is over -/

/-- When the last pass was over. -/
def State.idleSince (s : State) : Int := (s.done.head?.map Pass.endedAt).getD s.now

/-- A run in which the clock shows the time, no pass takes longer than `slack`, and no tick waits
longer than `delay` for a `select` that could take it.  A loop that is being shut down may do as
it likes. -/
def prompt (slack delay : Nat) (s : State) : Label → Prop
  | .elapse d =>
      s.cancelled = false →
        match s.phase with
        | .passing startedAt _ _ => s.now + d ≤ startedAt + slack
        | .selecting => ∀ tk ∈ s.ticker, s.now + d ≤ max s.idleSince tk.due + delay
        | .returned => True
  | .perform answer => answer .now = s.now
  | _ => True

/-- The passes of a run attempt everything they have to. -/
structure Working (gc : GarbageCollector) (s : State) : Prop where
  running : ∀ startedAt log rest, s.phase = .passing startedAt log rest → startedAt ≤ s.now ∧
    Meets (notBefore startedAt) (fun log _ => Refused log ∨ Exhausts gc startedAt log) log rest
  over_ : ∀ pass ∈ s.done, Refused pass.log ∨ Exhausts gc pass.startedAt pass.log

section Timely

variable {gc : GarbageCollector} {sorter : SortSlice olderReport} {began : Int} {slack delay : Nat}
  {s t : State} {l : Label}

theorem Working.step (working : Working gc s) (within : prompt slack delay s l)
    (moved : Moved gc sorter s l t) : Working gc t := by
  obtain ⟨running, over_⟩ := working
  cases moved with
  | elapsed d =>
      refine ⟨fun startedAt log rest phase => ?_, over_⟩
      obtain ⟨earlier, met⟩ := running startedAt log rest phase
      exact ⟨earlier.trans (by simp), met⟩
  | cancelled => exact ⟨running, over_⟩
  | @performed startedAt log o k answer phase =>
      obtain ⟨earlier, met⟩ := running startedAt log _ phase
      refine ⟨?_, over_⟩
      rintro _ _ _ ⟨rfl⟩
      refine ⟨earlier, met.step ?_⟩
      cases o with
      | now => exact earlier.trans (le_of_eq within.symm)
      | _ => trivial
  | @ended startedAt log result phase =>
      refine ⟨by simp, List.forall_mem_cons.2 ⟨?_, over_⟩⟩
      exact (running startedAt log _ phase).2
  | ticked phase ticker pending =>
      refine ⟨?_, over_⟩
      rintro _ _ _ ⟨rfl⟩
      exact ⟨le_refl s.now, deleteExpiredReports_exhausts sorter s.now⟩
  | stopped phase cancelled => exact ⟨by simp, over_⟩

theorem working_of_reach (reached : Reach (loop gc sorter began) (prompt slack delay) s) :
    Working gc s := by
  refine reached.invariant ?_ ?_
  · rintro _ rfl
    refine ⟨?_, by simp [initial]⟩
    rintro _ _ _ ⟨rfl⟩
    exact ⟨le_refl began, deleteExpiredReports_exhausts sorter began⟩
  · intro s l t working within taken
    exact working.step within (moved_of_step taken)

/-- How far apart two passes begin at most. -/
def gap (slack delay : Nat) : Int := slack + gcInterval + delay

/-- When the next pass begins: after the running one, at the latest with the next tick. -/
def Due (slack delay : Nat) (s : State) : Prop :=
  match s.phase with
  | .passing startedAt _ _ =>
      startedAt ≤ s.now ∧ s.now ≤ startedAt + slack ∧
        ∀ tk, s.ticker = some tk → tk.due ≤ startedAt + gcInterval
  | .selecting =>
      ∃ latest earlier tk, s.starts = latest :: earlier ∧ s.ticker = some tk ∧
        s.now ≤ latest + gap slack delay ∧ s.idleSince ≤ latest + slack ∧
        tk.due ≤ latest + (slack + gcInterval)
  | .returned => False

/-- The passes of a run that is not being shut down follow each other closely. -/
structure Timely (slack delay : Nat) (began : Int) (s : State) : Prop where
  close : s.starts.IsChain fun later before => later ≤ before + gap slack delay
  first : s.starts.getLast? = some began
  quick : ∀ pass ∈ s.done, pass.endedAt ≤ pass.startedAt + slack
  due : Due slack delay s

/-- The time that goes by moves no tick. -/
theorem Due.elapse (due : Due slack delay s) {d : Nat} (within : prompt slack delay s (.elapse d))
    (running : s.cancelled = false) :
    Due slack delay { s with
      now := s.now + d, ticker := s.ticker.map fun tk => tk.elapse gcInterval (s.now + d) } := by
  have allowed := within running
  have positive := gcInterval_pos
  unfold Due at due ⊢
  cases phase : s.phase with
  | passing startedAt log rest =>
      simp only [phase] at due allowed ⊢
      obtain ⟨begun, -, soon⟩ := due
      refine ⟨by omega, allowed, fun tk found => ?_⟩
      obtain ⟨before, ticker, rfl⟩ := Option.map_eq_some_iff.1 found
      rw [Ticker.due_elapse]
      exact soon before ticker
  | selecting =>
      simp only [phase] at due allowed ⊢
      obtain ⟨latest, earlier, tk, starts, ticker, -, idle, soon⟩ := due
      have before := allowed tk ticker
      have rested : (s.done.head?.map Pass.endedAt).getD (s.now + d) ≤ latest + slack := by
        have some_ : s.done.map Pass.startedAt = latest :: earlier := by
          simpa [State.starts, phase] using starts
        obtain ⟨pass, rest, done, -⟩ := List.map_eq_cons_iff.1 some_
        simpa [State.idleSince, done] using idle
      refine ⟨latest, earlier, _, ?_, by rw [ticker]; rfl, ?_, rested, ?_⟩
      · simpa [State.starts, phase] using starts
      · unfold gap
        omega
      · rw [Ticker.due_elapse]
        exact soon
  | returned => simp [phase] at due

theorem Timely.step (timely : Timely slack delay began s)
    (armed : ∀ tk, s.ticker = some tk → tk.Armed gcInterval s.now) (within : prompt slack delay s l)
    (moved : Moved gc sorter s l t) (running : t.cancelled = false) :
    Timely slack delay began t := by
  have same := moved.starts_of_ne
  have positive := gcInterval_pos
  obtain ⟨close, first, quick, due⟩ := timely
  cases moved with
  | elapsed d => exact ⟨close, first, quick, due.elapse within running⟩
  | cancelled => simp at running
  | performed answer phase =>
      have starts := same (by simp)
      refine ⟨by rwa [starts], by rwa [starts], quick, ?_⟩
      unfold Due at due ⊢
      simpa [phase] using due
  | @ended startedAt log result phase =>
      have starts := same (by simp)
      simp only [Due, phase] at due
      obtain ⟨begun, soon, next⟩ := due
      refine ⟨by rwa [starts], by rwa [starts], List.forall_mem_cons.2 ⟨soon, quick⟩, ?_⟩
      refine ⟨startedAt, s.done.map Pass.startedAt, _, by simp [State.starts], rfl, ?_, soon, ?_⟩
      · show s.now ≤ _
        unfold gap
        omega
      · cases ticker : s.ticker with
        | none =>
            show s.now + gcInterval ≤ _
            omega
        | some tk =>
            have early := next tk ticker
            simp only [Option.getD_some]
            omega
  | @ticked tk phase ticker pending =>
      simp only [Due, phase] at due
      obtain ⟨latest, earlier, _, starts, -, soon, -⟩ := due
      refine ⟨?_, ?_, quick, ?_⟩
      · rw [starts_tick phase, starts]
        rw [starts] at close
        exact List.isChain_cons_cons.2 ⟨soon, close⟩
      · rw [starts_tick phase, starts]
        rw [starts] at first
        simpa using first
      · refine ⟨le_refl s.now, by show s.now ≤ s.now + slack; omega, ?_⟩
        rintro _ ⟨rfl⟩
        exact (armed tk ticker).soon
  | stopped phase cancelled => simp [cancelled] at running

theorem timely_of_reach (reached : Reach (loop gc sorter began) (prompt slack delay) s)
    (running : s.cancelled = false) : Timely slack delay began s := by
  refine reached.induction (I := fun s => s.cancelled = false → Timely slack delay began s) ?_ ?_
    running
  · rintro _ rfl _
    refine ⟨.singleton _, rfl, by simp [initial], le_refl began, ?_, by simp [initial]⟩
    show began ≤ began + slack
    omega
  · intro s l t before timely within taken running
    have moved := moved_of_step taken
    have paced := paced_of_reach (before.mono fun _ _ _ => trivial)
    have armed := fun tk ticker => (paced.ticking tk ticker).1
    exact (timely (moved.running running)).step armed within moved running

/-- **Nothing expired is left for long.**  In a run whose passes take `slack` at most and whose
ticks are taken within `delay`, once an interval, two passes and a delay have gone by since `x`,
there was a pass that began after `x` and was over by then.  Either its listing was refused, or it
attempted to delete whatever its listing held of what has expired at `x`. -/
theorem expired_attempted (gc : GarbageCollector) (sorter : SortSlice olderReport) (began x : Int)
    (slack delay : Nat) (s : State) (reached : Reach (loop gc sorter began) (prompt slack delay) s)
    (running : s.cancelled = false) (begun : began ≤ x)
    (late : x + gcInterval + 2 * slack + delay < s.now) :
    ∃ pass ∈ s.done, x ≤ pass.startedAt ∧ pass.endedAt ≤ x + gcInterval + 2 * slack + delay ∧
      (Refused pass.log ∨ Exhausts gc x pass.log) := by
  have positive := gcInterval_pos
  have whole : gap slack delay = slack + gcInterval + delay := rfl
  obtain ⟨close, first, quick, due⟩ := timely_of_reach reached running
  have works := (working_of_reach reached).over_
  -- It is enough to find when the pass began.
  suffices ∃ y ∈ s.done.map Pass.startedAt, x ≤ y ∧ y ≤ x + gap slack delay by
    obtain ⟨_, member, after, before⟩ := this
    obtain ⟨pass, done, rfl⟩ := List.mem_map.1 member
    have soon := quick pass done
    exact ⟨pass, done, after, by omega, (works pass done).imp_right fun all => all.mono after⟩
  have wide : max 0 (gap slack delay) = gap slack delay := by omega
  unfold Due at due
  cases phase : s.phase with
  | passing startedAt log rest =>
      -- The running pass began too late to be the one; it is the one before it or an earlier one.
      simp only [phase] at due
      obtain ⟨-, soon, -⟩ := due
      have starts : s.starts = startedAt :: s.done.map Pass.startedAt := by
        simp [State.starts, phase]
      rw [starts] at close first
      obtain ⟨y, member, after, before⟩ := exists_mem_window close first begun (by omega)
      rw [wide] at before
      rcases List.mem_cons.1 member with rfl | earlier
      · omega
      · exact ⟨y, earlier, after, before⟩
  | selecting =>
      simp only [phase] at due
      obtain ⟨latest, earlier, -, starts, -, soon, -⟩ := due
      have done : s.done.map Pass.startedAt = latest :: earlier := by
        rw [← starts]
        simp [State.starts, phase]
      rw [starts] at close first
      obtain ⟨y, member, after, before⟩ := exists_mem_window close first begun (by omega)
      rw [wide] at before
      exact ⟨y, done ▸ member, after, before⟩
  | returned => simp [phase] at due

end Timely

instance (slack delay : Nat) (s : State) (l : Label) : Decidable (prompt slack delay s l) :=
  match l with
  | .elapse d =>
      have : Decidable (match s.phase with
          | .passing startedAt _ _ => s.now + d ≤ startedAt + slack
          | .selecting => ∀ tk ∈ s.ticker, s.now + d ≤ max s.idleSince tk.due + delay
          | .returned => True) :=
        match s.phase with
        | .passing _ _ _ => inferInstanceAs (Decidable (_ ≤ _))
        | .selecting => inferInstanceAs (Decidable (∀ tk ∈ s.ticker, _))
        | .returned => inferInstanceAs (Decidable True)
      inferInstanceAs (Decidable (_ → _))
  | .perform answer => inferInstanceAs (Decidable (answer .now = s.now))
  | .cancel | .ended | .tick | .stop => inferInstanceAs (Decidable True)

def refusal : Entry Op Op.Resp → Bool
  | ⟨.list, .refused _⟩ => true
  | _ => false

theorem expired_attempted_oneReport :
    ∃ s, Reach (loop minuteCollector oldestFirst 0) (prompt 60000000000 1000000000) s ∧
      ∃ pass ∈ s.done, 61000000000 ≤ pass.startedAt ∧
        Exhausts minuteCollector 61000000000 pass.log := by
  have within : Within (loop minuteCollector oldestFirst 0) (prompt 60000000000 1000000000)
      (initial minuteCollector oldestFirst 0) oneReport := by decide
  obtain ⟨s, reached, running, late, listed⟩ := exists_guarded
    (Q := fun s => s.cancelled = false ∧
      61000000000 + gcInterval + 2 * (60000000000 : Nat) + (1000000000 : Nat) < s.now ∧
      ∀ pass ∈ s.done, pass.log.all (fun entry => !refusal entry) = true) rfl
    within (by decide)
  obtain ⟨pass, done, after, -, refused | exhausts⟩ :=
    expired_attempted minuteCollector oldestFirst 0 61000000000 60000000000 1000000000 s reached
      running (by decide) late
  · obtain ⟨e, did⟩ := refused
    have answered := List.all_eq_true.1 (listed pass done) _ did
    cases answered
  · exact ⟨s, reached, pass, done, after, exhausts⟩

end KubeAutopsy.Controller.GcLoop
