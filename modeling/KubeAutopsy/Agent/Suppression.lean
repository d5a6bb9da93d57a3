/-
# KubeAutopsy.Agent.Suppression — what the cooldown keeps quiet

The cooldown records a crash event when it lets it through, before the pod is resolved and
the report created, and nothing takes the record back when one of these fails.
`Watched` ties the map to the events that were let through: two of one container are at
least the window apart, and every suppressed event falls within the window of one that a
worker got.

* `suppressed_covered`: every suppressed event has a report, in every run where by the time
  of a repeat the first event is done with, and its requests were served.
* `failedReport_silences`: an event whose report failed silences the next.
-/
import KubeAutopsy.Agent.Shutdown

namespace KubeAutopsy.Agent.Run

open KubeAutopsy.Api
open KubeAutopsy.Theory.Bytes (GoString lit)
open KubeAutopsy.Theory.Clock
open KubeAutopsy.Theory.Transition

set_option autoImplicit false

/-! ## When events were detected -/

/-- Events are numbered in the order they were detected in. -/
structure Timed (clock : Int) (p : Pool) : Prop where
  below : ∀ kill ∈ p.kills, kill.seq < p.received
  past : ∀ kill ∈ p.kills, kill.crash.detectedAt ≤ clock
  ordered : ∀ a ∈ p.kills, ∀ b ∈ p.kills, a.seq < b.seq → a.crash.detectedAt ≤ b.crash.detectedAt

theorem Timed.mono {clock later : Int} {p : Pool} (timed : Timed clock p) (le : clock ≤ later) :
    Timed later p :=
  ⟨timed.below, fun kill member => (timed.past kill member).trans le, timed.ordered⟩

theorem Timed.stirred {cfg : AgentConfig} {clock : Int} {ctxDone : Bool} {p p' : Pool} {l : PoolLabel}
    (timed : Timed clock p) (stirs : Stirs cfg clock ctxDone p l p') : Timed clock p' := by
  rcases stirs.kills with ⟨same, moved⟩ | ⟨raw, -, next, kills⟩
  · have there : ∀ {kill : Kill}, kill ∈ p'.kills → kill ∈ p.kills := fun member => moved.mem_iff.1 member
    refine ⟨fun kill member => ?_, fun kill member => timed.past kill (there member),
      fun a one b two => timed.ordered a (there one) b (there two)⟩
    rw [same]
    exact timed.below kill (there member)
  · -- The new event has the highest number and the latest time.
    have there : ∀ {kill : Kill}, kill ∈ p'.kills →
        kill ∈ p.kills ∨ kill = ⟨p.received, crashEvent cfg.pageSize raw clock⟩ := by
      intro kill member
      rw [kills] at member
      simpa using member
    refine ⟨fun kill member => ?_, fun kill member => ?_, fun a one b two before => ?_⟩
    · rcases there member with old | rfl
      · have := timed.below kill old
        omega
      · dsimp only
        omega
    · rcases there member with old | rfl
      · exact timed.past kill old
      · exact le_refl clock
    · rcases there one with old | rfl
      · rcases there two with old' | rfl
        · exact timed.ordered a old b old' before
        · exact timed.past a old
      · rcases there two with old' | rfl
        · have := timed.below b old'
          dsimp only at before
          omega
        · exact le_refl clock

theorem timed_of_reach {cfg : AgentConfig} {G : State → Label → Prop} {s : State}
    (reached : Reach (system cfg) G s) : Timed s.clock s.pool := by
  refine reached.invariant (I := fun s => Timed s.clock s.pool) (fun s start => ?_)
    fun s l s' timed _ taken => ?_
  · rw [start.2.2.2]
    refine ⟨?_, ?_, ?_⟩ <;> simp [Pool.kills, Reader.inHand]
  · cases moved_of_step taken with
    | pool stirs => exact timed.stirred stirs
    | main steers =>
        rw [steers.pool]
        exact timed.mono steers.clock

/-! ## The events the cooldown let through -/

/-- The call of `allow` an event makes. -/
def Kill.call (kill : Kill) : GoString × Int := (kill.crash.containerID, kill.crash.detectedAt)

/-- The event the reader was allowed to report and has not passed on. -/
def Reader.admitted : Reader → List Kill
  | .waiting kill => [kill]
  | .adding kill => [kill]
  | .launching kill => [kill]
  | _ => []

def Pool.admitted (p : Pool) : List Kill :=
  p.workers.map Worker.kill ++ p.abandoned ++ p.reader.admitted

/-- The time of the next call of `allow`, at the earliest. -/
def Reader.horizon (clock : Int) : Reader → Int
  | .deciding kill => kill.crash.detectedAt
  | _ => clock

/-- `kill` is a repeat of `a` within the window. -/
structure Repeats (cfg : AgentConfig) (a kill : Kill) : Prop where
  later : a.seq < kill.seq
  container : a.crash.containerID = kill.crash.containerID
  within : sub kill.crash.detectedAt a.crash.detectedAt < cfg.reportCooldown

structure Watched (cfg : AgentConfig) (clock : Int) (p : Pool) : Prop where
  window : p.cooldown.window = cfg.reportCooldown
  newest : ∀ kill, p.reader = .deciding kill → ∀ a ∈ p.admitted, a.seq < kill.seq
  tracks : p.cooldown.Tracks (p.admitted.map Kill.call) (p.reader.horizon clock)
  apart : ∀ a ∈ p.admitted, ∀ b ∈ p.admitted, ¬ Repeats cfg a b
  shadowed : ∀ kill ∈ p.suppressed, ∃ a ∈ p.workers.map Worker.kill, Repeats cfg a kill

namespace Watched

variable {cfg : AgentConfig} {clock : Int} {ctxDone : Bool} {p p' : Pool} {l : PoolLabel}

theorem mono {later : Int} (watched : Watched cfg clock p) (le : clock ≤ later) :
    Watched cfg later p := by
  refine { watched with tracks := watched.tracks.mono ?_ }
  cases p.reader <;> first | exact le | exact le_refl _

/-- A move that asks the cooldown nothing: the same events are admitted and suppressed. -/
theorem unasked (watched : Watched cfg clock p) (cooldown : p'.cooldown = p.cooldown)
    (suppressed : p'.suppressed = p.suppressed) (admitted : p'.admitted.Perm p.admitted)
    (workers : ∀ a ∈ p.workers.map Worker.kill, a ∈ p'.workers.map Worker.kill)
    (horizon : p'.reader.horizon clock = p.reader.horizon clock)
    (newest : ∀ kill, p'.reader = .deciding kill → ∀ a ∈ p.admitted, a.seq < kill.seq) :
    Watched cfg clock p' := by
  have there : ∀ {a : Kill}, a ∈ p'.admitted → a ∈ p.admitted := fun member => admitted.mem_iff.1 member
  refine ⟨by rw [cooldown, watched.window], fun kill deciding a member => newest kill deciding a
    (there member), ?_, fun a one b two => watched.apart a (there one) b (there two), ?_⟩
  · rw [cooldown, horizon]
    exact watched.tracks.congr fun call => (admitted.map Kill.call).mem_iff
  · intro kill member
    rw [suppressed] at member
    obtain ⟨a, worker, repeats⟩ := watched.shadowed kill member
    exact ⟨a, workers a worker, repeats⟩

/-- A worker's move changes no event. -/
theorem worked (watched : Watched cfg clock p) {workers : List Worker}
    (same : workers.map Worker.kill = p.workers.map Worker.kill) (slots wg : Nat) :
    Watched cfg clock { p with workers := workers, slots := slots, wg := wg } := by
  refine watched.unasked rfl rfl ?_ (fun a member => ?_) rfl watched.newest
  · simp [Pool.admitted, same]
  · dsimp only
    rwa [same]

/-- A move of the reader between two places where it has nothing to decide. -/
theorem read (watched : Watched cfg clock p) {reader : Reader}
    (same : reader.admitted = p.reader.admitted) (before : p.reader.horizon clock = clock)
    (after : ∀ kill, reader ≠ .deciding kill) (slots wg : Nat) (watchErr : Bool) :
    Watched cfg clock
      { p with reader := reader, slots := slots, wg := wg, watchErr := watchErr } := by
  have here : reader.horizon clock = clock := by
    cases reader with
    | deciding kill => exact absurd rfl (after kill)
    | _ => rfl
  refine watched.unasked rfl rfl (by simp [Pool.admitted, same]) (fun _ member => member)
    (here.trans before.symm) fun kill deciding => absurd deciding (after kill)

theorem eventRead (watched : Watched cfg clock p) (timed : Timed clock p) {raw : BpfOomEvent}
    (reader : p.reader = .reading) :
    Watched cfg clock
      { p with
        received := p.received + 1
        reader := .deciding ⟨p.received, crashEvent cfg.pageSize raw clock⟩ } := by
  refine watched.unasked rfl rfl (by simp [Pool.admitted, reader, Reader.admitted])
    (fun _ member => member) (by rw [reader]; rfl) fun kill deciding a member => ?_
  cases deciding
  refine timed.below a ?_
  simp only [Pool.admitted, reader, Reader.admitted, List.append_nil, List.mem_append] at member
  simp only [Pool.kills, List.mem_append]
  tauto

theorem allowed (watched : Watched cfg clock p) (timed : Timed clock p) {kill : Kill}
    (reader : p.reader = .deciding kill)
    (decision : (p.cooldown.allow kill.crash.containerID kill.crash.detectedAt).1 = true) :
    Watched cfg clock
      { p with
        cooldown := (p.cooldown.allow kill.crash.containerID kill.crash.detectedAt).2
        reader := .waiting kill } := by
  have tracks : p.cooldown.Tracks (p.admitted.map Kill.call) kill.crash.detectedAt := by
    simpa only [reader, Reader.horizon] using watched.tracks
  have admitted : ({ p with
      cooldown := (p.cooldown.allow kill.crash.containerID kill.crash.detectedAt).2
      reader := .waiting kill } : Pool).admitted = p.admitted ++ [kill] := by
    simp [Pool.admitted, reader, Reader.admitted]
  have here : kill.crash.detectedAt ≤ clock :=
    timed.past kill (by simp [Pool.kills, reader, Reader.inHand])
  refine ⟨ReportCooldown.allow_window.trans watched.window, fun _ deciding => ?_, ?_, ?_, ?_⟩
  · cases deciding
  · rw [admitted]
    refine ((tracks.allowed decision).mono here).congr fun call => ?_
    simp [Kill.call, or_comm]
  · rw [admitted]
    intro a one b two repeats
    rcases List.mem_append.1 one with old | new
    · rcases List.mem_append.1 two with old' | new'
      · exact watched.apart a old b old' repeats
      · -- The new event was let through, so no admitted one is within the window.
        obtain rfl := List.mem_singleton.1 new'
        have call : (b.crash.containerID, a.crash.detectedAt) ∈ p.admitted.map Kill.call :=
          List.mem_map.2 ⟨a, old, by simp [Kill.call, repeats.container]⟩
        have within := repeats.within
        rw [← watched.window] at within
        have refused := tracks.refuses_iff.2 ⟨_, call, within⟩
        rw [decision] at refused
        cases refused
    · obtain rfl := List.mem_singleton.1 new
      have later := repeats.later
      rcases List.mem_append.1 two with old' | new'
      · have := watched.newest a reader b old'
        omega
      · obtain rfl := List.mem_singleton.1 new'
        omega
  · exact watched.shadowed

theorem suppressed (watched : Watched cfg clock p) (timed : Timed clock p)
    (books : Books cfg ctxDone p) {kill : Kill} (reader : p.reader = .deciding kill)
    (decision : (p.cooldown.allow kill.crash.containerID kill.crash.detectedAt).1 = false) :
    Watched cfg clock
      { p with
        cooldown := (p.cooldown.allow kill.crash.containerID kill.crash.detectedAt).2
        suppressed := kill :: p.suppressed
        reader := .reading } := by
  have tracks : p.cooldown.Tracks (p.admitted.map Kill.call) kill.crash.detectedAt := by
    simpa only [reader, Reader.horizon] using watched.tracks
  have here : kill.crash.detectedAt ≤ clock :=
    timed.past kill (by simp [Pool.kills, reader, Reader.inHand])
  have admitted : p.admitted = p.workers.map Worker.kill := by
    -- A reader that has just read an event has abandoned none.
    have none_ : p.abandoned = [] := by
      rcases books.abandons with none_ | ⟨-, -, stopped⟩
      · exact none_
      · rw [reader] at stopped
        cases stopped
    simp [Pool.admitted, reader, Reader.admitted, none_]
  have same : ({ p with
      cooldown := (p.cooldown.allow kill.crash.containerID kill.crash.detectedAt).2
      suppressed := kill :: p.suppressed
      reader := .reading } : Pool).admitted = p.admitted := by
    simp [Pool.admitted, reader, Reader.admitted]
  refine ⟨ReportCooldown.allow_window.trans watched.window, fun _ deciding => ?_, ?_, ?_, ?_⟩
  · cases deciding
  · rw [same]
    exact (tracks.refused decision).mono here
  · rw [same]
    exact watched.apart
  · refine List.forall_mem_cons.2 ⟨?_, watched.shadowed⟩
    obtain ⟨t, member, young⟩ := tracks.refuses_iff.1 decision
    obtain ⟨a, old, call⟩ := List.mem_map.1 member
    obtain ⟨container, rfl⟩ := Prod.mk.inj call
    rw [watched.window] at young
    exact ⟨a, admitted ▸ old, watched.newest kill reader a old, container, young⟩

theorem stirred (watched : Watched cfg clock p) (timed : Timed clock p) (books : Books cfg ctxDone p)
    (stirs : Stirs cfg clock ctxDone p l p') : Watched cfg clock p' := by
  cases stirs with
  | event reader => exact watched.eventRead timed reader
  | allowed reader decision => exact watched.allowed timed reader decision
  | suppressed reader decision => exact watched.suppressed timed books reader decision
  | closed reader => exact watched.read (by rw [reader]; rfl) (by rw [reader]; rfl) (by simp) _ _ _
  | failed reader => exact watched.read (by rw [reader]; rfl) (by rw [reader]; rfl) (by simp) _ _ _
  | slotTaken reader free =>
      exact watched.read (by rw [reader]; rfl) (by rw [reader]; rfl) (by simp) _ _ _
  | added reader => exact watched.read (by rw [reader]; rfl) (by rw [reader]; rfl) (by simp) _ _ _
  | sent reader => exact watched.read (by rw [reader]; rfl) (by rw [reader]; rfl) (by simp) _ _ _
  | exited reader => exact watched.read (by rw [reader]; rfl) (by rw [reader]; rfl) (by simp) _ _ _
  | abandoned reader done =>
      refine watched.unasked rfl rfl ?_ (fun _ member => member) (by rw [reader]; rfl)
        fun _ deciding => by cases deciding
      simp only [Pool.admitted, reader, Reader.admitted, List.append_nil, List.append_assoc]
      exact (List.perm_append_singleton _ _).symm.append_left _
  | launched reader =>
      refine watched.unasked rfl rfl ?_ (fun a member => ?_) (by rw [reader]; rfl)
        fun _ deciding => by cases deciding
      · simp only [Pool.admitted, Pool.launchStep, reader, Reader.admitted, List.append_nil,
          List.append_assoc, List.map_append]
        exact List.perm_append_comm.append_left _
      · simp only [Pool.launchStep, List.map_append, List.mem_append]
        exact .inl member
  | performed found =>
      refine watched.worked ?_ _ _
      exact map_kill_set found rfl
  | released found =>
      refine watched.worked ?_ _ _
      exact map_kill_set found rfl
  | finished found =>
      refine watched.worked ?_ _ _
      exact map_kill_set found rfl

end Watched

theorem watched_of_reach {cfg : AgentConfig} {G : State → Label → Prop} {s : State}
    (reached : Reach (system cfg) G s) : Watched cfg s.clock s.pool := by
  refine reached.induction (I := fun s => Watched cfg s.clock s.pool) (fun s start => ?_)
    fun s l s' before watched _ taken => ?_
  · rw [start.2.2.2]
    refine ⟨rfl, fun _ deciding => (by cases deciding), ReportCooldown.Tracks.fresh _ _, ?_, ?_⟩ <;>
      simp [Pool.admitted, Reader.admitted]
  · cases moved_of_step taken with
    | pool stirs => exact watched.stirred (timed_of_reach before) (books_of_reach before) stirs
    | main steers =>
        rw [steers.pool]
        exact watched.mono steers.clock

/-! ## Only repeats are suppressed -/

/-- A report was created for an event of the same container, detected less than the
window earlier. -/
def Covered (cfg : AgentConfig) (p : Pool) (kill : Kill) : Prop :=
  ∃ u ∈ p.workers, u.kill.crash.containerID = kill.crash.containerID ∧
    u.kill.crash.detectedAt ≤ kill.crash.detectedAt ∧
    sub kill.crash.detectedAt u.kill.crash.detectedAt < cfg.reportCooldown ∧ Created u.log

instance (cfg : AgentConfig) (a kill : Kill) : Decidable (Repeats cfg a kill) :=
  decidable_of_iff (a.seq < kill.seq ∧ a.crash.containerID = kill.crash.containerID ∧
      sub kill.crash.detectedAt a.crash.detectedAt < cfg.reportCooldown)
    ⟨fun ⟨later, container, within⟩ => ⟨later, container, within⟩,
      fun ⟨later, container, within⟩ => ⟨later, container, within⟩⟩

/-- A listing shows the container in a pod. -/
def shows (event : CrashEvent) : PodsAnswer → Bool
  | .refused _ => false
  | .listed pods => (findPod event.containerID pods).any fun podMeta => decide (podMeta.podName ≠ [])

/-- The answers a worker was given: the pods were listed whenever it asked, one listing shows
the container, and a creation takes effect. -/
def Served (event : CrashEvent) (log : Log) : Prop :=
  (∀ answer ∈ listings log, refusedListing answer = false) ∧
    (∃ answer ∈ listings log, shows event answer = true) ∧
    ∀ creation ∈ creations log, creation.2.applied = true

instance (event : CrashEvent) (log : Log) : Decidable (Served event log) :=
  inferInstanceAs (Decidable (_ ∧ _))

/-- The label with which the cooldown is asked. -/
def Label.decides : Label → Bool
  | .pool .decide => true
  | _ => false

/-- When the cooldown is asked about a repeat, the worker of the first event is done with it, and
its requests were served. -/
def servedFirst (cfg : AgentConfig) (s : State) (l : Label) : Prop :=
  l.decides = true → ∀ kill ∈ s.pool.reader.inHand, ∀ u ∈ s.pool.workers,
    Repeats cfg u.kill kill → u.phase ≠ .handling ∧ Served u.kill.crash u.log

instance (cfg : AgentConfig) (s : State) (l : Label) : Decidable (servedFirst cfg s l) :=
  inferInstanceAs (Decidable (_ → _))

section Covered

variable {cfg : AgentConfig} {clock : Int} {ctxDone : Bool} {p : Pool}

theorem Books.distinct (books : Books cfg ctxDone p) : (p.kills.map Kill.seq).Nodup :=
  books.account.nodup_iff.2 List.nodup_range

theorem Books.workers_distinct (books : Books cfg ctxDone p) :
    (p.workers.map fun u => u.kill.seq).Nodup := by
  have inside : (p.workers.map Worker.kill).Sublist p.kills := by
    unfold Pool.kills
    rw [List.append_assoc, List.append_assoc]
    exact (List.sublist_append_left _ _).trans (List.sublist_append_right _ _)
  have seqs : (p.workers.map Worker.kill).map Kill.seq = p.workers.map fun u => u.kill.seq := by
    rw [List.map_map]
    rfl
  rw [← seqs]
  exact books.distinct.sublist (inside.map Kill.seq)

theorem worker_admitted {u : Worker} (member : u ∈ p.workers) : u.kill ∈ p.admitted :=
  List.mem_append_left _ (List.mem_append_left _ (List.mem_map_of_mem member))

theorem worker_kills {u : Worker} (member : u ∈ p.workers) : u.kill ∈ p.kills :=
  List.mem_append_left _ (List.mem_append_left _ (List.mem_append_right _ (List.mem_map_of_mem member)))

/-- A worker that was served has created its report by the time it ends. -/
theorem Served.created {r : Reporter} {event : CrashEvent} {log : Log} {outcome : Outcome}
    (served : Served event log) (ended : Ended r event log outcome) : Created log := by
  obtain ⟨listed, ⟨shown, member, shows_⟩, effected⟩ := served
  have applied : ∀ {podMeta answer}, Filed r event log podMeta answer → Created log := by
    intro podMeta answer filed
    have asked : (newReport r event podMeta, answer) ∈ creations log := by
      rw [filed.asked]
      exact List.mem_singleton_self _
    exact ⟨_, answer, did_create asked, effected _ asked⟩
  cases ended with
  | unlisted unfiled refused => exact nomatch listed _ refused
  | unowned unfiled some_ absent =>
      obtain ⟨pods, rfl, absent⟩ := absent shown member
      obtain ⟨podMeta, found, named⟩ := (Option.any_eq_true _ _).1 shows_
      exact absurd (absent podMeta found) (of_decide_eq_true named)
  | uncreated filed failed => exact applied filed
  | stopped filed stopped unwritten => exact applied filed
  | unwritten filed running tried unwritten => exact applied filed
  | reported filed written => exact applied filed

/-- A worker that is done with its event has come to an outcome. -/
theorem Books.outcome (books : Books cfg ctxDone p) {u : Worker} (member : u ∈ p.workers)
    (done : u.phase ≠ .handling) : ∃ outcome, Ended cfg.reporter u.kill.crash u.log outcome := by
  obtain ⟨q, ran, over_⟩ := books.works u member
  rw [books.ended u member done] at over_
  obtain ⟨outcome, rfl⟩ := over_
  exact ⟨outcome, (knows_of_ran ran).1⟩

/-- A worker is never dropped, and its log only grows. -/
theorem Stirs.goes_on {l : PoolLabel} {p' : Pool} (stirs : Stirs cfg clock ctxDone p l p')
    {u : Worker} (member : u ∈ p.workers) :
    ∃ v ∈ p'.workers, v.kill = u.kill ∧ u.log <:+ v.log := by
  have stays : ∃ v ∈ p.workers, v.kill = u.kill ∧ u.log <:+ v.log :=
    ⟨u, member, rfl, List.suffix_rfl⟩
  have replaced : ∀ {i : Nat} {w w' : Worker}, p.workers[i]? = some w → w'.kill = w.kill →
      w.log <:+ w'.log → ∃ v ∈ p.workers.set i w', v.kill = u.kill ∧ u.log <:+ v.log := by
    intro i w w' found kill log
    obtain ⟨j, at_⟩ := List.mem_iff_getElem?.1 member
    by_cases same : i = j
    · subst same
      obtain rfl := Option.some.inj (found.symm.trans at_)
      exact ⟨w', List.mem_set (List.getElem?_eq_some_iff.1 found).1 _, kill, log⟩
    · refine ⟨u, List.mem_of_getElem? (i := j) ?_, rfl, List.suffix_rfl⟩
      rw [List.getElem?_set_ne same, at_]
  cases stirs with
  | launched reader =>
      exact ⟨u, List.mem_append_left _ member, rfl, List.suffix_rfl⟩
  | performed found => exact replaced found rfl (List.suffix_cons _ _)
  | released found => exact replaced found rfl List.suffix_rfl
  | finished found => exact replaced found rfl List.suffix_rfl
  | _ => exact stays

theorem Covered.stirred {l : PoolLabel} {p' : Pool} {kill : Kill} (covered : Covered cfg p kill)
    (stirs : Stirs cfg clock ctxDone p l p') : Covered cfg p' kill := by
  obtain ⟨u, member, container, past, within, report, answer, did, applied⟩ := covered
  obtain ⟨v, member', same, log⟩ := stirs.goes_on member
  refine ⟨v, member', ?_, ?_, ?_, report, answer, did.of_suffix log, applied⟩
  · rw [same]
    exact container
  · rw [same]
    exact past
  · rw [same]
    exact within

/-- An event is suppressed by the call that decides about it. -/
theorem Stirs.suppresses {l : PoolLabel} {p' : Pool} (stirs : Stirs cfg clock ctxDone p l p') :
    p'.suppressed = p.suppressed ∨ ∃ kill, l = .decide ∧ p.reader = .deciding kill ∧
      p'.suppressed = kill :: p.suppressed ∧ p'.workers = p.workers := by
  cases stirs with
  | suppressed reader decision => exact .inr ⟨_, rfl, reader, rfl, rfl⟩
  | _ => exact .inl rfl

end Covered

/-- **When only repeats are suppressed**: each suppressed event has a report of its container
from less than the window before it, in every state of every run where, whenever the cooldown
is asked about a repeat, the worker of the first event is done and was served. -/
theorem suppressed_covered (cfg : AgentConfig) {s : State}
    (reached : Reach (system cfg) (servedFirst cfg) s) :
    ∀ kill ∈ s.pool.suppressed, Covered cfg s.pool kill := by
  refine reached.induction (I := fun s => ∀ kill ∈ s.pool.suppressed, Covered cfg s.pool kill)
    (fun s start => ?_) fun s l s' before covered served taken => ?_
  · rw [start.2.2.2]
    exact List.forall_mem_nil _
  · have after := before.extend (.snoc (.refl _) served taken)
    cases moved_of_step taken with
    | main steers =>
        rw [steers.pool]
        exact covered
    | pool stirs =>
        have kept := fun kill member => (covered kill member).stirred stirs
        rcases stirs.suppresses with same | ⟨kill, rfl, reader, suppressed, workers⟩
        · rwa [same]
        · rw [suppressed]
          refine List.forall_mem_cons.2 ⟨?_, kept⟩
          -- The event the new one repeats was handed to a worker, and that has created its report.
          obtain ⟨a, worker, repeats⟩ :=
            (watched_of_reach after).shadowed kill (suppressed ▸ List.mem_cons_self)
          obtain ⟨u, member, rfl⟩ := List.mem_map.1 worker
          rw [workers] at member
          have here : kill ∈ s.pool.reader.inHand := by
            rw [reader]
            exact List.mem_singleton_self _
          obtain ⟨done, answers⟩ := served rfl kill here u member repeats
          obtain ⟨outcome, ended⟩ := (books_of_reach before).outcome member done
          have order := (timed_of_reach before).ordered _ (worker_kills member) kill
            (List.mem_append_right _ here) repeats.later
          exact ⟨u, workers ▸ member, repeats.container, order, repeats.within, answers.created ended⟩

/-- The pod the killed container belongs to. -/
def cartPod : Pod where
  name := lit "cart"
  namespace_ := lit "shop"
  uid := lit "uid-1"
  containerStatuses := [{ name := lit "app", containerID := lit "containerd://c0ffee", restartCount := 0 }]

/-- Every request of a worker is served. -/
def online : (o : Op) → o.Resp
  | .listPods _ => .listed [cartPod]
  | .create report => .acked report
  | .statusPatch _ _ =>
      .acked (newReport nodeAgent.reporter { containerID := lit "c0ffee" }
        ⟨lit "cart", lit "shop", lit "app", lit "uid-1", 0⟩)
  | o => offline o

/-- A second kill of the container, a second after the first. -/
def repeatKill : List Label :=
  [.tick 1000000000, .pool (.read (.event (oomRecord (lit "cri-containerd-c0ffee.scope")))),
    .pool .decide]

/-- The first kill is reported and its repeat suppressed. -/
def reportedOnce : List Label :=
  accepted ++ [.pool (.perform 0 online), .pool (.perform 0 online), .pool (.perform 0 online),
    .pool (.perform 0 online), .pool (.perform 0 online), .pool (.perform 0 online),
    .pool (.release 0), .pool (.finish 0)] ++ repeatKill

theorem suppressed_covered_reportedOnce :
    ∃ s : State, s.pool.suppressed.length = 1 ∧
      ∀ kill ∈ s.pool.suppressed, Covered nodeAgent s.pool kill := by
  have within : Within (system nodeAgent) (servedFirst nodeAgent) (attached nodeAgent)
      reportedOnce := by
    decide +kernel
  obtain ⟨s, reached, one⟩ := exists_guarded (Q := fun s : State => s.pool.suppressed.length = 1)
    (attached_initial nodeAgent) within (by decide +kernel)
  exact ⟨s, one, suppressed_covered nodeAgent reached⟩

/-- **A failed report silences the next.**  The pods could not be listed for the first kill,
so nothing was created for it; a second later the container is killed again, and that is
suppressed as a repeat. -/
theorem failedReport_silences :
    0 < nodeAgent.reportCooldown ∧
    ∃ s : State, Reach (system nodeAgent) anyStep s ∧ AllFinished s.pool ∧
      ∃ kill ∈ s.pool.suppressed, ¬ Covered nodeAgent s.pool kill := by
  refine ⟨by decide, ?_⟩
  obtain ⟨s, reached, some_, workers⟩ := exists_reached (accepted ++ unlisted ++ repeatKill)
    (Q := fun s : State => s.pool.suppressed ≠ [] ∧
      ∀ u ∈ s.pool.workers, u.phase = .finished ∧ ¬ Created u.log)
    (attached_initial nodeAgent) (by decide +kernel)
  obtain ⟨kill, suppressed⟩ := List.exists_mem_of_ne_nil _ some_
  refine ⟨s, reached, fun u member => (workers u member).1, kill, suppressed, ?_⟩
  rintro ⟨u, member, -, -, -, created⟩
  exact (workers u member).2 created

end KubeAutopsy.Agent.Run
