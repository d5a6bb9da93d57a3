/-
# KubeAutopsy.Cluster.World — agents, controller and API server, interleaved

The system the claims about reports are claims about.  Its threads are calls of
`CreateCrashReport` by agents, and reconciles and retention passes of the controller;
a step performs one operation of one thread, and the label says what the environment
answers.  Anything may come between two operations of a thread.

* The controller reads through a cache that may serve any version a report ever had,
  with its log lines stripped; the uncached read and every write see the store.
* A write is acknowledged, takes effect with its response lost, or is refused with any
  error; one whose precondition does not hold can only be refused.
* Time passes by `tick`.  The controller stops and starts at any time, which ends its
  threads where they are; an agent that dies is a thread that is not scheduled again.

`moved_of_step` says once what a step can do.  `Sound` is the part of the invariant
every claim needs: each thread keeps its job's contract, and what it was told was true.
-/
import KubeAutopsy.Agent.Reporter
import KubeAutopsy.Api.Store
import KubeAutopsy.Controller.GarbageCollector
import KubeAutopsy.Controller.Reconciler
import KubeAutopsy.Theory.Transition

namespace KubeAutopsy.Cluster

open KubeAutopsy.Agent
open KubeAutopsy.Api
open KubeAutopsy.Controller
open KubeAutopsy.Theory.Bytes (GoString lit)
open KubeAutopsy.Theory.Program
open KubeAutopsy.Theory.Sorting
open KubeAutopsy.Theory.Transition

set_option autoImplicit false

/-! ## Threads -/

/-- How the controller is set up. -/
structure Config where
  webhookSender : Option WebhookSender
  apiReader : Bool
  gc : GarbageCollector

/-- The reconciler of a controller process started at `startedAt`. -/
def Config.reconciler (cfg : Config) (startedAt : Int) : PodCrashReportReconciler where
  webhookSender := cfg.webhookSender
  apiReader := cfg.apiReader
  startedAt := startedAt

inductive Job where
  | report (r : Reporter) (event : CrashEvent) (podMeta : PodMeta) (logLines : List GoString)
  | reconcile (r : PodCrashReportReconciler) (key : NamespacedName)
  | collect (gc : GarbageCollector) (sorter : SortSlice olderReport)

namespace Job

def prog : Job → M Unit
  | .report r event podMeta logLines => do
      let _ ← createCrashReport r event podMeta logLines
  | .reconcile r key => do
      let _ ← Controller.reconcile r key
  | .collect gc sorter => do
      let _ ← gc.deleteExpiredReports sorter

def contract : Job → Contract Op Op.Resp
  | .report r event podMeta logLines => reportContract r event podMeta logLines
  | .reconcile r key => Controller.contract r key
  | .collect gc sorter => collectContract gc sorter

/-- What the log of an ended thread satisfies. -/
def post : Job → Log → Unit → Prop
  | .reconcile r key => fun log _ => Ends r key log
  | _ => fun _ _ => True

/-- **Every thread keeps its contract**, whatever it is answered. -/
theorem meets (job : Job) : Meets job.contract job.post [] job.prog := by
  cases job with
  | report r event podMeta logLines =>
      exact meets_bind.2 ((createCrashReport_meets r event podMeta logLines).post_mono
        fun _ _ done => done)
  | reconcile r key => exact meets_bind.2 ((reconcile_meets r key).post_mono fun _ _ done => done)
  | collect gc sorter =>
      exact meets_bind.2 ((deleteExpiredReports_meets gc sorter).post_mono fun _ _ done => done)

/-- Whether the controller process runs it. -/
def ofController : Job → Bool
  | .report _ _ _ _ => false
  | _ => true

end Job

structure Thread where
  job : Job
  /-- The controller process it belongs to. -/
  epoch : Nat
  spawnedAt : Int
  log : Log
  prog : M Unit

/-! ## Worlds -/

structure World where
  clock : Int
  store : Store
  /-- When the running controller process started, if one runs. -/
  startedAt : Option Int
  epoch : Nat
  threads : List Thread

/-- What the environment decides about one operation. -/
inductive Choice where
  | go
  | cached (n : Nat)
  | cachedAll (ns : List Nat)
  | refuse (e : ApiError)
  | ack
  | lose
  | named (suffix : GoString) (createdAt : Int) (acked : Bool)
  | response (answer : PostAnswer)
  | waited (answer : WaitAnswer)

inductive Label where
  | tick (d : Nat)
  | start
  | stop
  | report (r : Reporter) (event : CrashEvent) (podMeta : PodMeta) (logLines : List GoString)
  | reconcile (key : NamespacedName)
  | collect (sorter : SortSlice olderReport)
  | perform (i : Nat) (choice : Choice)

namespace World

/-- The version of a report the cache serves for index `n` of the history. -/
def cached (w : World) (n : Nat) : Option PodCrashReport :=
  w.store.history[n]?.map stripCachedLogLines

/-- The answer to an operation and the store after it; `none` when the environment
cannot answer like that.  No thread lists pods, reads log files or writes log lines. -/
def respond (w : World) : (o : Op) → Choice → Option (o.Resp × Store)
  | .get key, .cached n =>
      match w.cached n with
      | some v => if v.key = key then some (.found v, w.store) else none
      | none => none
  | .get _, .refuse e => some (.refused e, w.store)
  | .apiGet key, .go =>
      match w.store.current key with
      | some v => some (.found v, w.store)
      | none => some (.refused (.status .notFound), w.store)
  | .apiGet _, .refuse e => some (.refused e, w.store)
  | .list, .cachedAll ns =>
      match ns.mapM w.cached with
      | some reports => some (.listed reports, w.store)
      | none => none
  | .list, .refuse e => some (.refused e, w.store)
  | .create report, .named suffix createdAt acked =>
      match w.store.create report suffix createdAt with
      | some (stored, store) => some (if acked then .acked stored else .lost, store)
      | none => none
  | .create _, .refuse e => some (.refused e, w.store)
  | .statusPatch key patch, .ack =>
      match w.store.patchStatus key patch with
      | some (stored, store) => some (.acked stored, store)
      | none => none
  | .statusPatch key patch, .lose =>
      match w.store.patchStatus key patch with
      | some (_, store) => some (.lost, store)
      | none => none
  | .statusPatch _ _, .refuse e => some (.refused e, w.store)
  | .delete report, .ack =>
      match w.store.delete report.key with
      | some store => some (.acked, store)
      | none => none
  | .delete report, .lose =>
      match w.store.delete report.key with
      | some store => some (.lost, store)
      | none => none
  | .delete _, .refuse e => some (.refused e, w.store)
  | .post _, .response answer => some (answer, w.store)
  | .now, .go => some (w.clock, w.store)
  | .wait _, .waited answer => some (answer, w.store)
  | .count _, .go => some ((), w.store)
  | .event _, .go => some ((), w.store)
  | _, _ => none

def spawn (w : World) (job : Job) : World :=
  { w with threads := w.threads ++ [⟨job, w.epoch, w.clock, [], job.prog⟩] }

/-- Thread `i`, which is `t`, has performed `o` and been answered `r`. -/
def advance (w : World) (i : Nat) (t : Thread) (o : Op) (r : o.Resp) (rest : M Unit) (store : Store) :
    World :=
  { w with
    store := store
    threads := w.threads.set i { t with log := ⟨o, r⟩ :: t.log, prog := rest } }

end World

/-- The controller process of a thread still runs; an agent's thread may always go on. -/
def Thread.alive (t : Thread) (w : World) : Bool :=
  !t.job.ofController || (w.startedAt.isSome && decide (t.epoch = w.epoch))

/-- The thread a label starts. -/
def Label.job (cfg : Config) (w : World) : Label → Option Job
  | .report r event podMeta logLines => some (.report r event podMeta logLines)
  | .reconcile key => w.startedAt.map fun startedAt => .reconcile (cfg.reconciler startedAt) key
  | .collect sorter => w.startedAt.map fun _ => .collect cfg.gc sorter
  | _ => none

def performStep (w : World) (i : Nat) (choice : Choice) : Option World :=
  match w.threads[i]? with
  | none => none
  | some t =>
      if !t.alive w then none
      else
        match t.prog with
        | .pure _ => none
        | .op o k =>
            match w.respond o choice with
            | some (r, store) => some (w.advance i t o r (k r) store)
            | none => none

def step (cfg : Config) (w : World) (l : Label) : Option World :=
  match l with
  | .tick d => some { w with clock := w.clock + d }
  | .start => if w.startedAt = none then some { w with startedAt := some w.clock } else none
  | .stop =>
      if w.startedAt = none then none else some { w with startedAt := none, epoch := w.epoch + 1 }
  | .perform i choice => performStep w i choice
  | _ => (l.job cfg w).map w.spawn

/-- Nothing stored, nothing running, at any time. -/
def initial (w : World) : Prop :=
  w.store = .empty ∧ w.startedAt = none ∧ w.epoch = 0 ∧ w.threads = []

def system (cfg : Config) : System World Label := ⟨initial, step cfg⟩

/-! ## What a step can do -/

inductive Moved (cfg : Config) (w : World) : Label → World → Prop
  | idle {l : Label} {w' : World} (clock : w.clock ≤ w'.clock) (store : w'.store = w.store)
      (threads : w'.threads = w.threads) : Moved cfg w l w'
  | spawned {l : Label} {job : Job} (starts : l.job cfg w = some job) : Moved cfg w l (w.spawn job)
  | performed {i : Nat} {choice : Choice} {t : Thread} {o : Op} {k : o.Resp → M Unit} {r : o.Resp}
      {store : Store} (found : w.threads[i]? = some t) (alive : t.alive w = true)
      (next : t.prog = .op o k) (answered : w.respond o choice = some (r, store)) :
      Moved cfg w (.perform i choice) (w.advance i t o r (k r) store)

theorem moved_of_performStep {cfg : Config} {w w' : World} {i : Nat} {choice : Choice}
    (taken : performStep w i choice = some w') : Moved cfg w (.perform i choice) w' := by
  unfold performStep at taken
  split at taken
  · cases taken
  · rename_i t found
    split at taken
    · cases taken
    · rename_i dead
      split at taken
      · cases taken
      · rename_i o k next
        split at taken
        · rename_i r store answered
          cases taken
          exact .performed found (by simpa using dead) next answered
        · cases taken

theorem moved_of_step {cfg : Config} {w w' : World} {l : Label} (taken : step cfg w l = some w') :
    Moved cfg w l w' := by
  have starts : ∀ {l : Label}, (l.job cfg w).map w.spawn = some w' → Moved cfg w l w' := by
    intro l started
    obtain ⟨job, found, rfl⟩ := Option.map_eq_some_iff.1 started
    exact .spawned found
  cases l with
  | tick d =>
      cases taken
      exact .idle (by simp) rfl rfl
  | start =>
      simp only [step] at taken
      split at taken
      · cases taken
        exact .idle (le_refl _) rfl rfl
      · cases taken
  | stop =>
      simp only [step] at taken
      split at taken
      · cases taken
      · cases taken
        exact .idle (le_refl _) rfl rfl
  | report r event podMeta logLines => exact starts taken
  | reconcile key => exact starts taken
  | collect sorter => exact starts taken
  | perform i choice => exact moved_of_performStep taken

/-- Everything the store ever held is still in its history. -/
def Grows (s s' : Store) : Prop := ∀ v ∈ s.history, v ∈ s'.history

theorem Grows.refl (s : Store) : Grows s s := fun _ member => member

theorem grows_of_wrote {s s' : Store} {stored : PodCrashReport} (wrote : Store.Wrote s stored s') :
    Grows s s' := fun v member => by
  rw [wrote.history]
  exact List.mem_cons_of_mem stored member

/-! ## What a thread was told -/

/-- The answer of an entry is true of a store that has grown to `s`, at a time that has
come to be `clock`, for a thread spawned at `since`. -/
def Told (s : Store) (since clock : Int) : Entry Op Op.Resp → Prop
  | ⟨.get key, answer⟩ => ∀ v, answer = .found v →
      ∃ u ∈ s.history, v = stripCachedLogLines u ∧ u.key = key
  | ⟨.apiGet key, answer⟩ => ∀ v, answer = .found v → v ∈ s.history ∧ v.key = key
  | ⟨.list, answer⟩ => ∀ reports, answer = .listed reports →
      ∀ v ∈ reports, ∃ u ∈ s.history, v = stripCachedLogLines u
  | ⟨.create _, answer⟩ => ∀ stored, answer = .acked stored →
      stored ∈ s.history ∧ stored.status = {}
  | ⟨.statusPatch key patch, answer⟩ => ∀ stored, answer = .acked stored →
      stored ∈ s.history ∧ stored.key = key ∧ ∃ old, stored.status = patch.applyTo old
  | ⟨.now, t⟩ => since ≤ t ∧ t ≤ clock
  | _ => True

theorem Told.mono {s s' : Store} {since clock clock' : Int} {e : Entry Op Op.Resp}
    (told : Told s since clock e) (grows : Grows s s') (later : clock ≤ clock') :
    Told s' since clock' e := by
  obtain ⟨o, r⟩ := e
  cases o with
  | get key =>
      intro v answer
      obtain ⟨u, member, same⟩ := told v answer
      exact ⟨u, grows u member, same⟩
  | apiGet key => exact fun v answer => ⟨grows v (told v answer).1, (told v answer).2⟩
  | list =>
      intro reports answer v listed
      obtain ⟨u, member, same⟩ := told reports answer v listed
      exact ⟨u, grows u member, same⟩
  | create report => exact fun stored answer => ⟨grows _ (told stored answer).1, (told stored answer).2⟩
  | statusPatch key patch =>
      exact fun stored answer => ⟨grows _ (told stored answer).1, (told stored answer).2⟩
  | now => exact ⟨told.1, told.2.trans later⟩
  | _ => trivial

/-! ## What the environment can answer -/

/-- What one operation does to the store. -/
inductive Touches (s : Store) : Op → Store → Prop
  | nothing {o : Op} : Touches s o s
  | created {report stored : PodCrashReport} {s' : Store} (wrote : Store.Wrote s stored s')
      (fresh : ∀ v ∈ s.history, v.key ≠ stored.key) (status : stored.status = {}) :
      Touches s (.create report) s'
  | patched {key : NamespacedName} {patch : StatusPatch} {stored : PodCrashReport} {s' : Store}
      (patched : Store.Patched s key patch stored s') : Touches s (.statusPatch key patch) s'
  | deleted {report : PodCrashReport} {s' : Store} (versions : s'.versions = s.versions)
      (gone : s'.gone = report.key :: s.gone) : Touches s (.delete report) s'

theorem Touches.grows {s s' : Store} {o : Op} (touches : Touches s o s') : Grows s s' := by
  cases touches with
  | nothing => exact Grows.refl s
  | created wrote fresh status => exact grows_of_wrote wrote
  | patched patched =>
      rcases patched.effect with ⟨-, rfl⟩ | wrote
      · exact Grows.refl _
      · exact grows_of_wrote wrote
  | deleted versions gone =>
      intro v member
      rwa [Store.history, versions]

section Respond

variable {w : World} {o : Op} {choice : Choice} {r : o.Resp} {store : Store} {since : Int}

theorem mem_of_cached {n : Nat} {v : PodCrashReport} (served : w.cached n = some v) :
    ∃ u ∈ w.store.history, v = stripCachedLogLines u := by
  obtain ⟨u, at_, rfl⟩ := Option.map_eq_some_iff.1 served
  exact ⟨u, List.mem_of_getElem? at_, rfl⟩

theorem mem_of_cachedAll {ns : List Nat} {reports : List PodCrashReport}
    (served : ns.mapM w.cached = some reports) :
    ∀ v ∈ reports, ∃ u ∈ w.store.history, v = stripCachedLogLines u := by
  induction ns generalizing reports with
  | nil =>
      cases served
      simp
  | cons n rest ih =>
      simp only [List.mapM_cons, Option.bind_eq_bind, Option.bind_eq_some_iff] at served
      obtain ⟨first, here, others, later, ⟨⟩⟩ := served
      intro v member
      rcases List.mem_cons.1 member with rfl | inRest
      · exact mem_of_cached here
      · exact ih later v inRest

theorem respond_get {key : NamespacedName} {r : GetAnswer}
    (answered : w.respond (.get key) choice = some (r, store)) :
    Touches w.store (.get key) store ∧ Told store since w.clock ⟨.get key, r⟩ := by
  cases choice with
  | cached n =>
      simp only [World.respond] at answered
      split at answered
      · rename_i v served
        split at answered
        · rename_i named
          cases answered
          obtain ⟨u, member, rfl⟩ := mem_of_cached served
          rw [stripCachedLogLines_key] at named
          refine ⟨.nothing, fun v found => ?_⟩
          cases found
          exact ⟨u, member, rfl, named⟩
        · cases answered
      · cases answered
  | refuse e =>
      cases answered
      exact ⟨.nothing, by rintro v ⟨⟩⟩
  | _ => cases answered

theorem respond_list {r : ListAnswer} (answered : w.respond .list choice = some (r, store)) :
    Touches w.store .list store ∧ Told store since w.clock ⟨.list, r⟩ := by
  cases choice with
  | cachedAll ns =>
      simp only [World.respond] at answered
      split at answered
      · rename_i reports served
        cases answered
        refine ⟨.nothing, fun listed same => ?_⟩
        cases same
        exact mem_of_cachedAll served
      · cases answered
  | refuse e =>
      cases answered
      exact ⟨.nothing, by rintro v ⟨⟩⟩
  | _ => cases answered

theorem respond_create {report : PodCrashReport} {r : WriteAnswer}
    (answered : w.respond (.create report) choice = some (r, store)) :
    Touches w.store (.create report) store ∧ Told store since w.clock ⟨.create report, r⟩ := by
  cases choice with
  | named suffix createdAt acked =>
      simp only [World.respond] at answered
      split at answered
      · rename_i stored after created
        obtain ⟨wrote, fresh, status⟩ := Store.create_spec created
        cases answered
        refine ⟨.created wrote fresh status, fun stored' same => ?_⟩
        cases acked with
        | true =>
            cases same
            exact ⟨wrote.history ▸ List.mem_cons_self, status⟩
        | false => cases same
      · cases answered
  | refuse e =>
      cases answered
      exact ⟨.nothing, by rintro v ⟨⟩⟩
  | _ => cases answered

/-- A patch that takes effect, whether or not its response arrives. -/
theorem touches_patched {key : NamespacedName} {patch : StatusPatch} {stored : PodCrashReport}
    {after : Store} (done : w.store.patchStatus key patch = some (stored, after)) :
    Touches w.store (.statusPatch key patch) after ∧ stored ∈ after.history ∧
      stored.key = key ∧ ∃ old, stored.status = patch.applyTo old := by
  have patched := Store.patchStatus_spec done
  obtain ⟨old, -, -, status, -⟩ := patched.base
  refine ⟨.patched patched, ?_, patched.key, old.status, status⟩
  rcases patched.effect with ⟨member, rfl⟩ | wrote
  · exact member
  · exact wrote.history ▸ List.mem_cons_self

/-- A status write takes effect, and the thread hears so or hears nothing, or it is
refused. -/
theorem statusPatch_cases {key : NamespacedName} {patch : StatusPatch} {r : WriteAnswer}
    (answered : w.respond (.statusPatch key patch) choice = some (r, store)) :
    (∃ stored, w.store.patchStatus key patch = some (stored, store) ∧
        (r = .acked stored ∨ r = .lost)) ∨
      ∃ e, choice = .refuse e ∧ r = .refused e ∧ store = w.store := by
  cases choice with
  | ack =>
      simp only [World.respond] at answered
      split at answered
      · rename_i stored after done
        cases answered
        exact .inl ⟨stored, done, .inl rfl⟩
      · cases answered
  | lose =>
      simp only [World.respond] at answered
      split at answered
      · rename_i stored after done
        cases answered
        exact .inl ⟨stored, done, .inr rfl⟩
      · cases answered
  | refuse e =>
      cases answered
      exact .inr ⟨e, rfl, rfl, rfl⟩
  | _ => cases answered

theorem respond_statusPatch {key : NamespacedName} {patch : StatusPatch} {r : WriteAnswer}
    (answered : w.respond (.statusPatch key patch) choice = some (r, store)) :
    Touches w.store (.statusPatch key patch) store ∧
      Told store since w.clock ⟨.statusPatch key patch, r⟩ := by
  rcases statusPatch_cases answered with ⟨stored, done, rfl | rfl⟩ | ⟨e, -, rfl, rfl⟩
  · obtain ⟨touches, told⟩ := touches_patched done
    refine ⟨touches, fun stored' same => ?_⟩
    cases same
    exact told
  · exact ⟨(touches_patched done).1, by rintro v ⟨⟩⟩
  · exact ⟨.nothing, by rintro v ⟨⟩⟩

theorem respond_delete {report : PodCrashReport} {r : DeleteAnswer}
    (answered : w.respond (.delete report) choice = some (r, store)) :
    Touches w.store (.delete report) store := by
  have deleted : ∀ {after : Store}, w.store.delete report.key = some after →
      Touches w.store (.delete report) after := by
    intro after done
    obtain ⟨-, versions, gone⟩ := Store.delete_spec done
    exact .deleted versions gone
  cases choice with
  | ack =>
      simp only [World.respond] at answered
      split at answered
      · rename_i after done
        cases answered
        exact deleted done
      · cases answered
  | lose =>
      simp only [World.respond] at answered
      split at answered
      · rename_i after done
        cases answered
        exact deleted done
      · cases answered
  | refuse e =>
      cases answered
      exact .nothing
  | _ => cases answered

/-- **What the environment can answer**: what the operation does to the store, and that
the thread is told the truth. -/
theorem respond_spec (answered : w.respond o choice = some (r, store)) (past : since ≤ w.clock) :
    Touches w.store o store ∧ Told store since w.clock ⟨o, r⟩ := by
  cases o with
  | get key => exact respond_get answered
  | list => exact respond_list answered
  | create report => exact respond_create answered
  | statusPatch key patch => exact respond_statusPatch answered
  | delete report => exact ⟨respond_delete answered, trivial⟩
  | apiGet key =>
      cases choice with
      | go =>
          simp only [World.respond] at answered
          split at answered
          · rename_i v current
            cases answered
            refine ⟨.nothing, ?_⟩
            rintro v' ⟨⟩
            exact ⟨Store.mem_of_current current, Store.key_of_current current⟩
          · cases answered
            exact ⟨.nothing, by rintro v ⟨⟩⟩
      | refuse e =>
          cases answered
          exact ⟨.nothing, by rintro v ⟨⟩⟩
      | _ => cases answered
  | now =>
      cases choice with
      | go =>
          cases answered
          exact ⟨.nothing, past, le_refl _⟩
      | _ => cases answered
  -- What is left touches nothing and tells nothing that matters.
  | post report =>
      cases choice <;> cases answered
      exact ⟨.nothing, trivial⟩
  | wait delay =>
      cases choice <;> cases answered
      exact ⟨.nothing, trivial⟩
  | count metric =>
      cases choice <;> cases answered
      exact ⟨.nothing, trivial⟩
  | event record =>
      cases choice <;> cases answered
      exact ⟨.nothing, trivial⟩
  | listPods nodeName => cases choice <;> cases answered
  | logFiles dir => cases choice <;> cases answered
  | sleep delay => cases choice <;> cases answered
  | logInfo line => cases choice <;> cases answered

end Respond

/-! ## The invariant every claim starts from -/

/-- A true answer is within what any job relies on. -/
theorem rely_of_told {s : Store} {since clock : Int} {o : Op} {r : o.Resp} (job : Job) (log : Log)
    (told : Told s since clock ⟨o, r⟩) : job.contract.rely log o r := by
  cases job with
  | report reporter event podMeta logLines => trivial
  | collect gc sorter => trivial
  | reconcile reconciler key =>
      cases o with
      | get k =>
          cases r with
          | refused e => trivial
          | found v =>
              obtain ⟨u, -, rfl, named⟩ := told v rfl
              simpa [Job.contract, Controller.contract] using named
      | _ => trivial

/-- A job of the controller is set up as the controller is. -/
def Job.Configured (cfg : Config) : Job → Prop
  | .report _ _ _ _ => True
  | .reconcile r _ => ∃ startedAt, r = cfg.reconciler startedAt
  | .collect gc _ => gc = cfg.gc

/-- Each thread keeps its contract, it was told the truth, and it is set up as the
controller is. -/
structure Sound (cfg : Config) (w : World) : Prop where
  follows : ∀ t ∈ w.threads, Follows t.job.contract t.job.post t.log t.prog
  spawned : ∀ t ∈ w.threads, t.spawnedAt ≤ w.clock
  told : ∀ t ∈ w.threads, ∀ e ∈ t.log, Told w.store t.spawnedAt w.clock e
  configured : ∀ t ∈ w.threads, t.job.Configured cfg

section Sound

variable {cfg : Config} {w w' : World} {l : Label}

theorem getElem?_spawn {job : Job} {j : Nat} {t : Thread}
    (at_ : (w.spawn job).threads[j]? = some t) :
    w.threads[j]? = some t ∨ (j = w.threads.length ∧ t = ⟨job, w.epoch, w.clock, [], job.prog⟩) := by
  simp only [World.spawn, List.getElem?_append] at at_
  split at at_
  · exact .inl at_
  · rename_i outside
    rw [List.getElem?_singleton] at at_
    split at at_
    · exact .inr ⟨by omega, (Option.some.inj at_).symm⟩
    · cases at_

theorem getElem?_advance {i j : Nat} {t t' : Thread} {o : Op} {r : o.Resp} {rest : M Unit}
    {store : Store} (at_ : (w.advance i t o r rest store).threads[j]? = some t') :
    (j ≠ i ∧ w.threads[j]? = some t') ∨
      (j = i ∧ t' = { t with log := ⟨o, r⟩ :: t.log, prog := rest }) := by
  by_cases same : i = j
  · subst same
    simp only [World.advance, List.getElem?_set_self'] at at_
    obtain ⟨_, -, rfl⟩ := Option.map_eq_some_iff.1 at_
    exact .inr ⟨rfl, rfl⟩
  · rw [World.advance, List.getElem?_set_ne same] at at_
    exact .inl ⟨Ne.symm same, at_⟩

theorem getElem?_advance_self {i : Nat} {t : Thread} {o : Op} {r : o.Resp} {rest : M Unit}
    {store : Store} (found : w.threads[i]? = some t) :
    (w.advance i t o r rest store).threads[i]? =
      some { t with log := ⟨o, r⟩ :: t.log, prog := rest } := by
  have bound : i < w.threads.length := (List.getElem?_eq_some_iff.1 found).1
  rw [World.advance, List.getElem?_set_self bound]

theorem mem_threads_advance {i : Nat} {t t' : Thread} {o : Op} {r : o.Resp} {rest : M Unit}
    {store : Store} (member : t' ∈ (w.advance i t o r rest store).threads) :
    t' ∈ w.threads ∨ t' = { t with log := ⟨o, r⟩ :: t.log, prog := rest } :=
  List.mem_or_eq_of_mem_set member

theorem configured_of_job {job : Job} (starts : l.job cfg w = some job) : job.Configured cfg := by
  cases l with
  | report r event podMeta logLines =>
      cases starts
      trivial
  | reconcile key =>
      obtain ⟨startedAt, -, rfl⟩ := Option.map_eq_some_iff.1 starts
      exact ⟨startedAt, rfl⟩
  | collect sorter =>
      obtain ⟨_, -, rfl⟩ := Option.map_eq_some_iff.1 starts
      rfl
  | _ => cases starts

theorem Sound.step (sound : Sound cfg w) (moved : Moved cfg w l w') : Sound cfg w' := by
  cases moved with
  | idle clock store threads =>
      refine ⟨threads ▸ sound.follows, ?_, ?_, threads ▸ sound.configured⟩
      · rw [threads]
        exact fun t member => (sound.spawned t member).trans clock
      · rw [threads, store]
        exact fun t member e inside => (sound.told t member e inside).mono (Grows.refl _) clock
  | spawned starts =>
      rename_i job
      have cases_ : ∀ t ∈ (w.spawn job).threads,
          t ∈ w.threads ∨ t = ⟨job, w.epoch, w.clock, [], job.prog⟩ := fun t member => by
        simpa [World.spawn] using member
      refine ⟨fun t member => ?_, fun t member => ?_, fun t member => ?_, fun t member => ?_⟩
      · rcases cases_ t member with before | rfl
        · exact sound.follows t before
        · exact Follows.start job.meets
      · rcases cases_ t member with before | rfl
        · exact sound.spawned t before
        · exact le_refl _
      · rcases cases_ t member with before | rfl
        · exact sound.told t before
        · rintro e ⟨⟩
      · rcases cases_ t member with before | rfl
        · exact sound.configured t before
        · exact configured_of_job starts
  | performed found alive next answered =>
      rename_i i choice t o k r store
      have here : t ∈ w.threads := List.mem_of_getElem? found
      obtain ⟨touches, told⟩ := respond_spec answered (sound.spawned t here)
      refine ⟨fun t' member => ?_, fun t' member => ?_, fun t' member => ?_, fun t' member => ?_⟩
      · rcases mem_threads_advance member with before | rfl
        · exact sound.follows t' before
        · have kept := sound.follows t here
          rw [next] at kept
          exact kept.step (rely_of_told t.job t.log told)
      · rcases mem_threads_advance member with before | rfl
        · exact sound.spawned t' before
        · exact sound.spawned t here
      · have kept : ∀ u ∈ w.threads, ∀ e ∈ u.log, Told store u.spawnedAt w.clock e :=
          fun u before e inside => (sound.told u before e inside).mono touches.grows (le_refl _)
        rcases mem_threads_advance member with before | rfl
        · exact kept t' before
        · intro e inside
          rcases List.mem_cons.1 inside with rfl | earlier
          · exact told
          · exact kept t here e earlier
      · rcases mem_threads_advance member with before | rfl
        · exact sound.configured t' before
        · exact sound.configured t here

theorem Sound.initial (start : initial w) : Sound cfg w := by
  obtain ⟨-, -, -, none_⟩ := start
  constructor <;> simp [none_]

theorem sound_of_reach {G : World → Label → Prop} (reached : Reach (system cfg) G w) : Sound cfg w :=
  reached.invariant (fun _ => Sound.initial) fun _ _ _ sound _ taken => sound.step (moved_of_step taken)

/-- An operation about to be performed is within its job's guarantee. -/
theorem Sound.guarantee (sound : Sound cfg w) {i : Nat} {t : Thread} {o : Op} {k : o.Resp → M Unit}
    (found : w.threads[i]? = some t) (next : t.prog = .op o k) :
    t.job.contract.guarantee t.log o := by
  have kept := (sound.follows t (List.mem_of_getElem? found)).2
  rw [next] at kept
  exact kept.1

section Reconcile

variable {t : Thread} {r : PodCrashReportReconciler} {key : NamespacedName}

/-- What a reconcile did so far was within its contract. -/
theorem Sound.honest (sound : Sound cfg w) (member : t ∈ w.threads) (job : t.job = .reconcile r key) :
    Honest (Controller.contract r key) t.log := by
  have kept := (sound.follows t member).1
  rwa [job] at kept

theorem Sound.ends (sound : Sound cfg w) (member : t ∈ w.threads) (job : t.job = .reconcile r key)
    (ended : t.prog.ended = true) : Ends r key t.log := by
  have kept := (sound.follows t member).2
  rw [job] at kept
  cases finished : t.prog with
  | pure a =>
      rw [finished] at kept
      exact kept
  | op o k => simp [finished, Prog.ended] at ended

end Reconcile

end Sound

end KubeAutopsy.Cluster
