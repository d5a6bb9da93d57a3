/-
# KubeAutopsy.Cluster.Duplicates — how often one crash is notified

One controller process reconciles a report again and again, one run at a time, each
reading a version no older than the run before (`serial`).  The guard against a second
delivery looks at the phase of the version read, so it works as long as the cache has
caught up with the controller's own last write (`upToDate`): then every delivery but
one is followed by a status write that failed (`deliveries_le`).  A cache that still
serves the version from before that write defeats it (`staleRead_resends`).

`InOrder.step` is the step lemma for whatever relates a run that has ended to the runs
after it.
-/
import KubeAutopsy.Cluster.Delivery

namespace KubeAutopsy.Cluster

open KubeAutopsy.Api
open KubeAutopsy.Controller
open KubeAutopsy.Theory.Bytes (GoString lit)
open KubeAutopsy.Theory.History
open KubeAutopsy.Theory.Program
open KubeAutopsy.Theory.Transition

set_option autoImplicit false

/-! ## Reading the logs -/

def isAckedPost : Entry Op Op.Resp → Bool
  | ⟨.post _, answer⟩ => answer.is2xx
  | _ => false

/-- A status write whose caller saw it fail. -/
def isFailedPatch : Entry Op Op.Resp → Bool
  | ⟨.statusPatch _ _, .acked _⟩ => false
  | ⟨.statusPatch _ _, _⟩ => true
  | _ => false

/-- The version an entry read from the cache. -/
def readVersion : Entry Op Op.Resp → Option Nat
  | ⟨.get _, .found v⟩ => some v.version
  | _ => none

/-- The version a status write of the thread is known to have stored. -/
def patchedVersion : Entry Op Op.Resp → Option Nat
  | ⟨.statusPatch _ _, .acked stored⟩ => some stored.version
  | _ => none

def deliveries (log : Log) : Nat := log.countP isAckedPost

/-- The status writes of a run that failed after its delivery had succeeded. -/
def failedRecords (log : Log) : Nat := if log.any isAckedPost then log.countP isFailedPatch else 0

def Thread.reconciles (t : Thread) (key : NamespacedName) : Bool :=
  match t.job with
  | .reconcile _ k => decide (k = key)
  | _ => false

/-- The reconciles of `key`, in the order they started. -/
def World.runs (w : World) (key : NamespacedName) : List Thread :=
  w.threads.filter fun t => t.reconciles key

def World.deliveries (w : World) (key : NamespacedName) : Nat :=
  ((w.runs key).map fun t => Cluster.deliveries t.log).sum

def World.failedRecords (w : World) (key : NamespacedName) : Nat :=
  ((w.runs key).map fun t => Cluster.failedRecords t.log).sum

/-! ## Two disciplines -/

/-- The version a step has the cache serve to a reconcile of `key`. -/
def servedVersion (key : NamespacedName) (w : World) : Label → Option Nat
  | .perform i (.cached n) =>
      match w.threads[i]?, w.cached n with
      | some t, some v => if t.reconciles key then some v.version else none
      | _, _ => none
  | _ => none

/-- One process, its reconciles of `key` one after another, each reading a version no
older than any read before. -/
def serial (key : NamespacedName) (w : World) (l : Label) : Bool :=
  (match l with
    | .stop => false
    | .reconcile k => !decide (k = key) || (w.runs key).all fun t => t.prog.ended
    | _ => true) &&
  (servedVersion key w l).all fun served =>
    (w.runs key).all fun t => (t.log.filterMap readVersion).all fun m => decide (m ≤ served)

/-- The cache has caught up with every write of the controller that succeeded. -/
def upToDate (key : NamespacedName) (w : World) (l : Label) : Bool :=
  (servedVersion key w l).all fun served =>
    (w.runs key).all fun t => (t.log.filterMap patchedVersion).all fun m => decide (m ≤ served)

/-! ## One run -/

section Run

variable {r : PodCrashReportReconciler} {key : NamespacedName} {log : Log}

theorem isAckedPost_iff {e : Entry Op Op.Resp} :
    isAckedPost e = true ↔ ∃ report answer, e = ⟨.post report, answer⟩ ∧ answer.is2xx = true := by
  obtain ⟨o, answer⟩ := e
  cases o with
  | post report =>
      constructor
      · exact fun ok => ⟨report, answer, rfl, ok⟩
      · rintro ⟨_, _, ⟨⟩, ok⟩
        exact ok
  | _ => simp [isAckedPost]

theorem deliveries_pos : 0 < deliveries log ↔
    ∃ report answer, Did log (.post report) answer ∧ answer.is2xx = true := by
  rw [deliveries, List.countP_pos_iff]
  constructor
  · rintro ⟨e, member, delivered⟩
    obtain ⟨report, answer, rfl, ok⟩ := isAckedPost_iff.1 delivered
    exact ⟨report, answer, member, ok⟩
  · rintro ⟨report, answer, did, ok⟩
    exact ⟨_, did, isAckedPost_iff.2 ⟨report, answer, rfl, ok⟩⟩

/-- Whatever a reconcile has delivered was for the version it read. -/
theorem acked_iff_deliveries (honest : Honest (contract r key) log) :
    Acked log key ↔ 0 < deliveries log := by
  rw [deliveries_pos]
  constructor
  · rintro ⟨-, report, answer, -, -, did, ok⟩
    exact ⟨report, answer, did, ok⟩
  · rintro ⟨report, answer, did, ok⟩
    obtain ⟨before, suffix, ⟨-, -, v, ready, -, copy⟩, -⟩ := honest.of_mem did
    have inside : before <:+ log := (List.suffix_cons _ before).trans suffix
    exact ⟨v, report, answer, ready.read.of_suffix inside, copy.of_suffix inside, did, ok⟩

/-- A run delivers at most once. -/
theorem deliveries_le_one (honest : Honest (contract r key) log) : deliveries log ≤ 1 := by
  induction log with
  | nil => exact Nat.zero_le 1
  | cons e before ih =>
      obtain ⟨allowed, -, earlier⟩ := honest
      rw [deliveries, List.countP_cons]
      split
      · rename_i delivered
        obtain ⟨report, answer, rfl, -⟩ := isAckedPost_iff.1 delivered
        have none_ : deliveries before = 0 := by
          by_contra some_
          obtain ⟨report', answer', did, -⟩ := deliveries_pos.1 (Nat.pos_of_ne_zero some_)
          exact allowed.1 report' answer' did
        rw [deliveries] at none_
        omega
      · exact ih earlier

/-- A run that delivered had read a version that was not processed. -/
theorem unprocessed_of_acked (honest : Honest (contract r key) log) (acked : Acked log key) :
    ∃ v, Did log (.get key) (.found v) ∧ v.status.phase ≠ .processed := by
  obtain ⟨-, report, answer, -, -, did, -⟩ := acked
  obtain ⟨before, suffix, ⟨-, -, v, ready, -⟩, -⟩ := honest.of_mem did
  have inside : before <:+ log := (List.suffix_cons _ before).trans suffix
  exact ⟨v, ready.read.of_suffix inside, ready.unprocessed⟩

/-- A run that delivered and has ended recorded it, or failed to. -/
theorem recorded_or_failed (honest : Honest (contract r key) log) (ends : Ends r key log)
    (acked : Acked log key) :
    (∃ patch stored, Did log (.statusPatch key patch) (.acked stored)) ∨ 0 < failedRecords log := by
  obtain ⟨patch, answer, did⟩ := ends.acked acked
  have delivered : log.any isAckedPost = true := by
    rw [List.any_eq_true]
    exact List.countP_pos_iff.1 ((acked_iff_deliveries honest).1 acked)
  have failed : isFailedPatch ⟨.statusPatch key patch, answer⟩ = true → 0 < failedRecords log := by
    intro failed
    rw [failedRecords, if_pos delivered, List.countP_pos_iff]
    exact ⟨_, did, failed⟩
  cases answer with
  | acked stored => exact .inl ⟨patch, stored, did⟩
  | lost => exact .inr (failed rfl)
  | refused e => exact .inr (failed rfl)

end Run

/-! ## All runs -/

/-- When each item of a list either is paid for or rules out every later one, all but one
are paid for. -/
theorem sum_le_of_pairwise {α : Type} {cost paid : α → Nat} {items : List α}
    (one : ∀ a ∈ items, cost a ≤ 1)
    (settles : items.Pairwise fun a b => cost a ≤ paid a ∨ cost b = 0) :
    (items.map cost).sum ≤ (items.map paid).sum + 1 := by
  induction items with
  | nil => exact Nat.zero_le _
  | cons a rest ih =>
      obtain ⟨head, tail⟩ := List.pairwise_cons.1 settles
      have later := ih (fun b member => one b (List.mem_cons_of_mem a member)) tail
      have here := one a List.mem_cons_self
      simp only [List.map_cons, List.sum_cons]
      by_cases covered : cost a ≤ paid a
      · omega
      · have none_ : (rest.map cost).sum = 0 := by
          rw [List.sum_eq_zero_iff]
          intro n member
          obtain ⟨b, inRest, rfl⟩ := List.mem_map.1 member
          exact (head b inRest).resolve_left covered
        omega

/-- An earlier run has ended, and if it recorded its delivery, a later one read a
processed version. -/
structure Before (key : NamespacedName) (u t : Thread) : Prop where
  ended : u.prog.ended = true
  processed : ∀ patch stored, Did u.log (.statusPatch key patch) (.acked stored) →
    ∀ v, Did t.log (.get key) (.found v) → v.status.phase = .processed

/-- `R` holds between every two reconciles of `key`, the earlier one first. -/
def InOrder (key : NamespacedName) (R : Thread → Thread → Prop) (w : World) : Prop :=
  ∀ (i j : Nat) (u t : Thread), i < j → w.threads[i]? = some u → w.threads[j]? = some t →
    u.reconciles key = true → t.reconciles key = true → R u t

/-- Every two reconciles of `key` are in that relation. -/
def InTurn (key : NamespacedName) : World → Prop := InOrder key (Before key)

theorem reconciles_iff {t : Thread} {key : NamespacedName} :
    t.reconciles key = true ↔ ∃ r, t.job = .reconcile r key := by
  unfold Thread.reconciles
  cases t.job <;> simp

section Step

variable {cfg : Config} {w w' : World} {l : Label} {key : NamespacedName}

theorem cached_of_found {k : NamespacedName} {choice : Choice} {v : PodCrashReport} {store : Store}
    (answered : w.respond (.get k) choice = some (.found v, store)) :
    ∃ n, choice = .cached n ∧ w.cached n = some v := by
  cases choice with
  | cached n =>
      simp only [World.respond] at answered
      split at answered
      · rename_i v' served
        split at answered
        · cases answered
          exact ⟨n, rfl, served⟩
        · cases answered
      · cases answered
  | refuse e => cases answered
  | _ => cases answered

/-- A version read from a cache that has caught up is processed, once the controller has
recorded a delivery. -/
theorem processed_of_upToDate (sound : Sound cfg w) (linked : w.store.versions.Linked Succeeds)
    {p : Nat} {n : Nat} {t u : Thread} {v : PodCrashReport} (found : w.threads[p]? = some t)
    (reconciles : t.reconciles key = true) (served : w.cached n = some v) (named : v.key = key)
    (current : upToDate key w (.perform p (.cached n)) = true) (member : u ∈ w.threads)
    (other : u.reconciles key = true) {patch : StatusPatch} {stored : PodCrashReport}
    (did : Did u.log (.statusPatch key patch) (.acked stored)) : v.status.phase = .processed := by
  obtain ⟨r, job⟩ := reconciles_iff.1 other
  obtain ⟨here, storedKey, phase⟩ := processed_of_acked sound member job did
  obtain ⟨v₀, stored₀, rfl⟩ := mem_of_cached served
  rw [stripCachedLogLines_key] at named
  have le : stored.version ≤ v₀.version := by
    simp only [upToDate, servedVersion, found, served, reconciles, if_true, Option.all_some,
      List.all_eq_true, decide_eq_true_eq] at current
    have caught := current u (List.mem_filter.2 ⟨member, other⟩) stored.version
      (List.mem_filterMap.2 ⟨_, did, rfl⟩)
    simpa [PodCrashReport.version] using caught
  have later := linked.of_le .refl here stored₀ (storedKey.trans named.symm) le
  simpa using later.status.processed phase

/-- A run starts only when the runs before it have ended. -/
theorem ended_of_starts {job : Job} {epoch : Nat} {at_ : Int} {log : Log} {prog : M Unit}
    (alone : l = .reconcile key → ∀ u ∈ w.runs key, u.prog.ended = true)
    (starts : l.job cfg w = some job)
    (reconciles : (⟨job, epoch, at_, log, prog⟩ : Thread).reconciles key = true) {u : Thread}
    (member : u ∈ w.threads) (other : u.reconciles key = true) : u.prog.ended = true := by
  obtain ⟨r, same⟩ := reconciles_iff.1 reconciles
  dsimp only at same
  subst same
  cases l with
  | reconcile k =>
      obtain ⟨startedAt, -, same⟩ := Option.map_eq_some_iff.1 starts
      cases same
      exact alone rfl u (List.mem_filter.2 ⟨member, other⟩)
  | collect sorter =>
      obtain ⟨_, -, same⟩ := Option.map_eq_some_iff.1 starts
      cases same
  | _ => cases starts

theorem inOrder_initial {R : Thread → Thread → Prop} (start : initial w) : InOrder key R w := by
  intro i j u t _ first
  simp [start.2.2.2] at first

/-- A relation that only an ended run can have to a later one holds between all runs of
`key` when it holds towards a new run and survives what a later run does. -/
theorem InOrder.step {R : Thread → Thread → Prop} (turns : InOrder key R w)
    (ended : ∀ {u t : Thread}, R u t → u.prog.ended = true) (moved : Moved cfg w l w')
    (starts : ∀ {job : Job} {u : Thread}, l.job cfg w = some job → u ∈ w.threads →
      u.reconciles key = true →
      (⟨job, w.epoch, w.clock, [], job.prog⟩ : Thread).reconciles key = true →
      R u ⟨job, w.epoch, w.clock, [], job.prog⟩)
    (performs : ∀ {p : Nat} {choice : Choice} {t u : Thread} {o : Op} {k : o.Resp → M Unit}
      {r : o.Resp} {store : Store}, l = .perform p choice → w.threads[p]? = some t →
      w.respond o choice = some (r, store) → u ∈ w.threads → u.reconciles key = true →
      t.reconciles key = true → R u t → R u { t with log := ⟨o, r⟩ :: t.log, prog := k r }) :
    InOrder key R w' := by
  cases moved with
  | idle clock store threads =>
      intro i j u t order first second
      rw [threads] at first second
      exact turns i j u t order first second
  | spawned started =>
      intro i j u t order first second earlier later
      rcases getElem?_spawn second with old | ⟨rfl, rfl⟩
      · rcases getElem?_spawn first with old' | ⟨rfl, rfl⟩
        · exact turns i j u t order old' old earlier later
        · have := (List.getElem?_eq_some_iff.1 old).1
          omega
      · rcases getElem?_spawn first with old | ⟨rfl, -⟩
        · exact starts started (List.mem_of_getElem? old) earlier later
        · omega
  | performed found alive next answered =>
      intro i j u t order first second earlier later
      rcases getElem?_advance first with ⟨-, old⟩ | ⟨rfl, rfl⟩
      · rcases getElem?_advance second with ⟨-, old'⟩ | ⟨rfl, rfl⟩
        · exact turns i j u t order old old' earlier later
        · exact performs rfl found answered (List.mem_of_getElem? old) earlier later
            (turns i j u _ order old found earlier later)
      · -- The thread that moves has not ended, so no later one can be a run of `key`.
        rcases getElem?_advance second with ⟨-, old'⟩ | ⟨rfl, -⟩
        · have over_ := ended (turns i j _ t order found old' earlier later)
          rw [next] at over_
          cases over_
        · omega

/-- What a run of `key` has read after one more operation: what it had, or what the cache
has just served. -/
theorem read_cases {o : Op} {choice : Choice} {r : o.Resp} {store : Store} {log : Log}
    {v : PodCrashReport} (answered : w.respond o choice = some (r, store))
    (read : Did (⟨o, r⟩ :: log) (.get key) (.found v)) :
    Did log (.get key) (.found v) ∨
      ∃ n, choice = .cached n ∧ w.cached n = some v ∧ v.key = key := by
  rcases List.mem_cons.1 read with new | past
  · cases new
    obtain ⟨n, rfl, served⟩ := cached_of_found answered
    obtain ⟨-, told⟩ := respond_spec answered (le_refl w.clock)
    obtain ⟨v₀, -, rfl, named⟩ := told v rfl
    exact .inr ⟨n, rfl, served, by simpa using named⟩
  · exact .inl past

theorem inTurn_step (sound : Sound cfg w) (linked : w.store.versions.Linked Succeeds)
    (turns : InTurn key w) (alone : serial key w l = true) (current : upToDate key w l = true)
    (moved : Moved cfg w l w') : InTurn key w' := by
  refine InOrder.step turns (fun before => before.ended) moved ?_ ?_
  · -- A new run starts only when all before it have ended, and has read nothing.
    intro job u started member earlier later
    refine ⟨ended_of_starts (fun same => ?_) started later member earlier, ?_⟩
    · subst same
      simp only [serial, decide_true, Bool.not_true, Bool.false_or, Bool.and_eq_true,
        List.all_eq_true] at alone
      exact alone.1
    · rintro patch stored - v ⟨⟩
  · intro p choice t u o k r store same found answered member earlier later before
    subst same
    refine ⟨before.ended, fun patch stored did v read => ?_⟩
    rcases read_cases answered read with past | ⟨n, rfl, served, named⟩
    · exact before.processed patch stored did v past
    · exact processed_of_upToDate sound linked found later served named current member earlier did

end Step

/-- The guard of a run under both disciplines. -/
def disciplined (key : NamespacedName) (w : World) (l : Label) : Prop :=
  serial key w l = true ∧ upToDate key w l = true

theorem inTurn_of_reach {cfg : Config} {w : World} {key : NamespacedName}
    (reached : Reach (system cfg) (disciplined key) w) : InTurn key w := by
  refine reached.induction (I := InTurn key) (fun w start => inOrder_initial start) ?_
  intro w l w' reached turns within taken
  exact inTurn_step (sound_of_reach reached) (linked_of_reach reached) turns within.1 within.2
    (moved_of_step taken)

/-- Of two runs, the earlier one failed to record its delivery, or the later one made none. -/
theorem settles_of_before {cfg : Config} {w : World} {key : NamespacedName} (sound : Sound cfg w)
    {u t : Thread} (first : u ∈ w.threads) (second : t ∈ w.threads) (earlier : u.reconciles key = true)
    (later : t.reconciles key = true) (before : Before key u t) :
    deliveries u.log ≤ failedRecords u.log ∨ deliveries t.log = 0 := by
  obtain ⟨r, job⟩ := reconciles_iff.1 earlier
  obtain ⟨r', job'⟩ := reconciles_iff.1 later
  have honest := sound.honest first job
  have honest' := sound.honest second job'
  by_cases none_ : deliveries u.log = 0
  · omega
  have acked := (acked_iff_deliveries honest).2 (Nat.pos_of_ne_zero none_)
  have ends := sound.ends first job before.ended
  have one := deliveries_le_one honest
  rcases recorded_or_failed honest ends acked with ⟨patch, stored, did⟩ | failed
  · refine .inr (Nat.eq_zero_of_not_pos fun again => ?_)
    obtain ⟨v, read, unprocessed⟩ :=
      unprocessed_of_acked honest' ((acked_iff_deliveries honest').2 again)
    exact unprocessed (before.processed patch stored did v read)
  · omega

/-- **One notification per crash**, but for the status writes that failed after it: in
every run of one process whose reconciles of a report never read a version older than
the process's own last successful write. -/
theorem deliveries_le (cfg : Config) (key : NamespacedName) {w : World}
    (reached : Reach (system cfg) (disciplined key) w) :
    w.deliveries key ≤ 1 + w.failedRecords key := by
  have sound := sound_of_reach reached
  have turns := inTurn_of_reach reached
  rw [Nat.add_comm]
  refine sum_le_of_pairwise (fun t member => ?_) ?_
  · obtain ⟨here, reconciles⟩ := List.mem_filter.1 member
    obtain ⟨r, job⟩ := reconciles_iff.1 reconciles
    exact deliveries_le_one (sound.honest here job)
  · rw [World.runs, List.pairwise_filter, List.pairwise_iff_getElem]
    intro i j hi hj order earlier later
    exact settles_of_before sound (List.getElem_mem hi) (List.getElem_mem hj) earlier later
      (turns i j _ _ order (List.getElem?_eq_getElem hi) (List.getElem?_eq_getElem hj) earlier later)

/-- Two reconciles, both answered well; the second still reads the pending version. -/
def staleRead : List Label :=
  [.report cartReporter cartEvent cartMeta [], .perform 0 (.named (lit "x7f2q") 0 true),
    .perform 0 .ack, .start, .reconcile cartKey, .perform 1 (.cached 0),
    .perform 1 (.response (.response 200)), .perform 1 .go, .perform 1 .go, .perform 1 .ack,
    .perform 1 .go, .perform 1 .go, .perform 1 .go, .reconcile cartKey, .perform 2 (.cached 1),
    .perform 2 (.response (.response 200))]

/-- The same until the second read, which now sees the processed version. -/
def caughtUp : List Label :=
  [.report cartReporter cartEvent cartMeta [], .perform 0 (.named (lit "x7f2q") 0 true),
    .perform 0 .ack, .start, .reconcile cartKey, .perform 1 (.cached 0),
    .perform 1 (.response (.response 200)), .perform 1 .go, .perform 1 .go, .perform 1 .ack,
    .perform 1 .go, .perform 1 .go, .perform 1 .go, .reconcile cartKey, .perform 2 (.cached 0)]

instance (key : NamespacedName) (w : World) (l : Label) : Decidable (disciplined key w l) :=
  inferInstanceAs (Decidable (_ ∧ _))

theorem deliveries_le_caughtUp :
    ∃ w : World, w.deliveries cartKey = 1 ∧ w.deliveries cartKey ≤ 1 + w.failedRecords cartKey := by
  have within : Within (system alerting) (disciplined cartKey) quiet caughtUp := by
    decide +kernel
  obtain ⟨w, reached, one⟩ := exists_guarded (Q := fun w => w.deliveries cartKey = 1)
    quiet_initial within (by decide +kernel)
  exact ⟨w, one, deliveries_le alerting cartKey reached⟩

/-- **A stale read sends the alert again.**  Every request and every status write
succeeded, one run at a time, and the crash was notified twice. -/
theorem staleRead_resends :
    ∃ w, Reach (system alerting) (fun w l => serial cartKey w l = true) w ∧
      ¬ w.deliveries cartKey ≤ 1 + w.failedRecords cartKey := by
  have within : Within (system alerting) (fun w l => serial cartKey w l = true) quiet staleRead := by
    decide +kernel
  exact exists_guarded quiet_initial within (by decide +kernel)

end KubeAutopsy.Cluster
