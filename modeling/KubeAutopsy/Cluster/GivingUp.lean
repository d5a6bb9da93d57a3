/-
# KubeAutopsy.Cluster.GivingUp — whether "this crash was not notified" is true

When a delivery fails after the deadline the controller counts it as dropped and
records `NotificationDropped`.  It goes by the version it read: one that is not
processed and has no `notifiedAt`.  Here the reconciles of a report come one after
another, each ended before the next starts, and each reads what is stored
(`sequential`); deliveries, status writes, restarts and time are arbitrary.

That a delivery succeeded is known only from the status write that follows it.
When that write is refused the next reconcile knows nothing of it, and once the
deadline has passed an outage makes it record a loss that did not happen
(`refusedRecord_untruthful`).  As long as every status write after an acknowledged
delivery takes effect, whether or not its response arrives, the report is processed
before the next reconcile reads it, and every such event is true (`dropped_truthful`).
-/
import KubeAutopsy.Cluster.Duplicates

namespace KubeAutopsy.Cluster

open KubeAutopsy.Api
open KubeAutopsy.Controller
open KubeAutopsy.Theory.Bytes (GoString lit)
open KubeAutopsy.Theory.History
open KubeAutopsy.Theory.Program
open KubeAutopsy.Theory.Transition

set_option autoImplicit false

/-! ## What a run told about its notification -/

def isDroppedCount : Entry Op Op.Resp → Bool
  | ⟨.count (.webhookDeliveries .dropped), _⟩ => true
  | _ => false

def isDroppedEvent : Entry Op Op.Resp → Bool
  | ⟨.event record, _⟩ => decide (record.reason = .notificationDropped)
  | _ => false

/-- The run has had a delivery acknowledged. -/
def Thread.delivered (t : Thread) : Bool := t.log.any isAckedPost

/-- The run has counted a dropped delivery and recorded `NotificationDropped`. -/
def Thread.gaveUp (t : Thread) : Bool := t.log.any isDroppedCount && t.log.any isDroppedEvent

/-- No run of `key` gave up on a crash that a run before it had delivered. -/
def Truthful (key : NamespacedName) (w : World) : Prop :=
  (w.runs key).Pairwise fun earlier later => later.gaveUp = true → earlier.delivered = false

instance (key : NamespacedName) (w : World) : Decidable (Truthful key w) :=
  inferInstanceAs (Decidable (List.Pairwise _ _))

/-! ## The runs in question -/

/-- The runs of `key` come one after another, and the controller stops between two. -/
def oneByOne (key : NamespacedName) (w : World) : Label → Bool
  | .stop => (w.runs key).all fun t => t.prog.ended
  | .reconcile k => !decide (k = key) || (w.runs key).all fun t => t.prog.ended
  | _ => true

/-- What the cache serves to a run of `key` is what is stored. -/
def readsStored (key : NamespacedName) (w : World) : Label → Bool
  | .perform i (.cached n) =>
      match w.threads[i]? with
      | some t =>
          !t.reconciles key || decide (w.cached n = (w.store.current key).map stripCachedLogLines)
      | none => true
  | _ => true

/-- One sequence of reconciles of `key`, each reading up-to-date state. -/
def sequential (key : NamespacedName) (w : World) (l : Label) : Prop :=
  oneByOne key w l = true ∧ readsStored key w l = true

instance (key : NamespacedName) (w : World) (l : Label) : Decidable (sequential key w l) :=
  inferInstanceAs (Decidable (_ ∧ _))

/-- The next operation is the status write, and a delivery has been acknowledged. -/
def Thread.recording (t : Thread) : Bool :=
  t.delivered &&
    match t.prog with
    | .op (.statusPatch _ _) _ => true
    | _ => false

/-- The status write after an acknowledged delivery is not refused, unless the report
has been deleted. -/
def recordsDeliveries (key : NamespacedName) (w : World) : Label → Bool
  | .perform i (.refuse _) =>
      match w.threads[i]? with
      | some t => !(t.reconciles key && t.recording) || decide (key ∈ w.store.gone)
      | none => true
  | _ => true

/-- The guard of a sequence of reconciles in which deliveries are recorded. -/
def recordedSequence (key : NamespacedName) (w : World) (l : Label) : Prop :=
  sequential key w l ∧ recordsDeliveries key w l = true

instance (key : NamespacedName) (w : World) (l : Label) : Decidable (recordedSequence key w l) :=
  inferInstanceAs (Decidable (_ ∧ _))

/-! ## A delivery that was recorded -/

theorem acked_iff_delivered {r : PodCrashReportReconciler} {key : NamespacedName} {t : Thread}
    (honest : Honest (contract r key) t.log) : Acked t.log key ↔ t.delivered = true := by
  rw [acked_iff_deliveries honest, Thread.delivered, List.any_eq_true, deliveries, List.countP_pos_iff]

/-- The run that gave up had read a version that was not processed. -/
theorem unprocessed_of_gaveUp {r : PodCrashReportReconciler} {key : NamespacedName} {t : Thread}
    (honest : Honest (contract r key) t.log) (gaveUp : t.gaveUp = true) :
    ∃ v, Did t.log (.get key) (.found v) ∧ v.status.phase ≠ .processed := by
  simp only [Thread.gaveUp, Bool.and_eq_true, List.any_eq_true] at gaveUp
  obtain ⟨-, ⟨o, answer⟩, member, recorded⟩ := gaveUp
  cases o with
  | event record =>
      obtain ⟨before, suffix, ⟨⟨v, ready⟩, -⟩, -⟩ := honest.of_mem member
      have inside : before <:+ t.log := (List.suffix_cons _ before).trans suffix
      exact ⟨v, ready.read.of_suffix inside, ready.unprocessed⟩
  | _ => cases recorded

/-- No reconcile that reads what is stored will notify again: the report is processed,
or deleted. -/
def Closed (s : Store) (key : NamespacedName) : Prop :=
  key ∈ s.gone ∨ ∃ v ∈ s.history, v.key = key ∧ v.status.phase = .processed

theorem Touches.gone {s s' : Store} {o : Op} {key : NamespacedName} (touches : Touches s o s')
    (gone : key ∈ s.gone) : key ∈ s'.gone := by
  cases touches with
  | nothing => exact gone
  | created wrote fresh status => exact wrote.gone ▸ gone
  | patched patched =>
      rcases patched.effect with ⟨-, rfl⟩ | wrote
      · exact gone
      · exact wrote.gone ▸ gone
  | deleted versions more => exact more ▸ List.mem_cons_of_mem _ gone

theorem Closed.touches {s s' : Store} {o : Op} {key : NamespacedName} (closed : Closed s key)
    (touches : Touches s o s') : Closed s' key := by
  rcases closed with gone | ⟨v, member, processed⟩
  · exact .inl (touches.gone gone)
  · exact .inr ⟨v, touches.grows v member, processed⟩

/-- A closed report that is still stored is processed. -/
theorem Closed.processed {s : Store} {key : NamespacedName} {v : PodCrashReport}
    (closed : Closed s key) (linked : s.versions.Linked Succeeds)
    (stored : s.current key = some v) : v.status.phase = .processed := by
  rcases closed with gone | ⟨u, member, named, phase⟩
  · exact absurd gone (Store.not_gone_of_current stored)
  · have later : Succeeds u v := by
      apply linked.of_current .refl member
      rw [named]
      exact Store.versions_current stored
    exact later.status.processed phase

/-- Once a run of `key` that delivered has been through its status write, the report is
closed. -/
def Recorded (key : NamespacedName) (w : World) : Prop :=
  ∀ t ∈ w.threads, t.reconciles key = true → t.delivered = true →
    ∀ patch answer, Did t.log (.statusPatch key patch) answer → Closed w.store key

section Step

variable {cfg : Config} {w w' : World} {l : Label} {key : NamespacedName}

/-- The status write of a run that delivered closes the report. -/
theorem closed_of_patch (sound : Sound cfg w) {p : Nat} {t : Thread} {choice : Choice}
    {patch : StatusPatch} {k : WriteAnswer → M Unit} {answer : WriteAnswer} {store : Store}
    (found : w.threads[p]? = some t) (reconciles : t.reconciles key = true)
    (delivered : t.delivered = true) (next : t.prog = .op (.statusPatch key patch) k)
    (answered : w.respond (.statusPatch key patch) choice = some (answer, store))
    (records : recordsDeliveries key w (.perform p choice) = true) : Closed store key := by
  obtain ⟨r, job⟩ := reconciles_iff.1 reconciles
  have allowed := sound.guarantee found next
  rw [job] at allowed
  obtain ⟨-, -, v, n, ready, -, rfl⟩ := allowed
  rcases statusPatch_cases answered with ⟨stored, done, -⟩ | ⟨e, rfl, -, rfl⟩
  · obtain ⟨-, member, named, old, status⟩ := touches_patched done
    refine .inr ⟨stored, member, named, ?_⟩
    rw [status]
    exact processedPatch_phase v n old ready.unprocessed
  · simp only [recordsDeliveries, found, reconciles, Thread.recording, delivered, next,
      Bool.and_self, Bool.not_true, Bool.false_or, decide_eq_true_eq] at records
    exact .inl records

theorem recorded_step (sound : Sound cfg w) (recorded : Recorded key w)
    (records : recordsDeliveries key w l = true) (moved : Moved cfg w l w') : Recorded key w' := by
  cases moved with
  | idle clock store threads =>
      rw [Recorded, threads, store]
      exact recorded
  | spawned starts =>
      intro t member reconciles delivered patch answer did
      rcases List.mem_append.1 member with old | new
      · exact recorded t old reconciles delivered patch answer did
      · obtain rfl := List.mem_singleton.1 new
        cases did
  | performed found alive next answered =>
      rename_i p choice t₀ o k r store
      have here := List.mem_of_getElem? found
      obtain ⟨touches, -⟩ := respond_spec answered (le_refl w.clock)
      intro t member reconciles delivered patch answer did
      rcases mem_threads_advance member with old | rfl
      · exact (recorded t old reconciles delivered patch answer did).touches touches
      · have before : t₀.delivered = true := by
          obtain ⟨e, logged, acked⟩ := List.any_eq_true.1 delivered
          rcases List.mem_cons.1 logged with rfl | earlier
          · -- Nothing is posted after the write.
            obtain ⟨report, response, same, -⟩ := isAckedPost_iff.1 acked
            cases same
            obtain ⟨r, job⟩ := reconciles_iff.1 reconciles
            have allowed := sound.guarantee found next
            rw [show t₀.job = .reconcile r key from job] at allowed
            rcases List.mem_cons.1 did with new | past
            · cases new
            · exact absurd past (allowed.2.1 key patch answer)
          · exact List.any_eq_true.2 ⟨e, earlier, acked⟩
        rcases List.mem_cons.1 did with new | past
        · cases new
          exact closed_of_patch sound found reconciles before next answered records
        · exact (recorded t₀ here reconciles before patch answer past).touches touches

/-! ## What a later run reads -/

/-- An earlier run has ended, and if it delivered, a later one read a processed version. -/
structure Heeds (key : NamespacedName) (u t : Thread) : Prop where
  ended : u.prog.ended = true
  processed : u.delivered = true → ∀ v, Did t.log (.get key) (.found v) → v.status.phase = .processed

/-- What is stored after a run that delivered has ended is processed. -/
theorem processed_of_ended (sound : Sound cfg w) (linked : w.store.versions.Linked Succeeds)
    (recorded : Recorded key w) {p n : Nat} {t u : Thread} {v : PodCrashReport}
    (found : w.threads[p]? = some t) (reconciles : t.reconciles key = true)
    (served : w.cached n = some v) (current : readsStored key w (.perform p (.cached n)) = true)
    (member : u ∈ w.threads) (other : u.reconciles key = true) (ended : u.prog.ended = true)
    (delivered : u.delivered = true) : v.status.phase = .processed := by
  obtain ⟨r, job⟩ := reconciles_iff.1 other
  have acked := (acked_iff_delivered (sound.honest member job)).2 delivered
  obtain ⟨patch, answer, did⟩ := (sound.ends member job ended).acked acked
  have closed := recorded u member other delivered patch answer did
  simp only [readsStored, found, reconciles, served, Bool.not_true, Bool.false_or,
    decide_eq_true_eq] at current
  obtain ⟨stored, there, rfl⟩ := Option.map_eq_some_iff.1 current.symm
  rw [stripCachedLogLines_phase]
  exact closed.processed linked there

theorem heeds_step (sound : Sound cfg w) (linked : w.store.versions.Linked Succeeds)
    (recorded : Recorded key w) (turns : InOrder key (Heeds key) w)
    (within : sequential key w l) (moved : Moved cfg w l w') : InOrder key (Heeds key) w' := by
  obtain ⟨alone, current⟩ := within
  refine turns.step (fun heeds => heeds.ended) moved ?_ ?_
  · intro job u started member earlier later
    refine ⟨ended_of_starts (fun same => ?_) started later member earlier, ?_⟩
    · subst same
      simpa only [oneByOne, decide_true, Bool.not_true, Bool.false_or, List.all_eq_true] using alone
    · rintro - v ⟨⟩
  · intro p choice t u o k r store same found answered member earlier later heeds
    subst same
    refine ⟨heeds.ended, fun delivered v read => ?_⟩
    rcases read_cases answered read with past | ⟨n, rfl, served, -⟩
    · exact heeds.processed delivered v past
    · exact processed_of_ended sound linked recorded found later served current member earlier
        heeds.ended delivered

end Step

theorem recorded_of_reach {cfg : Config} {w : World} {key : NamespacedName}
    (reached : Reach (system cfg) (recordedSequence key) w) : Recorded key w := by
  refine reached.induction (I := Recorded key) (fun w start => ?_) ?_
  · intro t member
    simp [start.2.2.2] at member
  · intro w l w' reached recorded within taken
    exact recorded_step (sound_of_reach reached) recorded within.2 (moved_of_step taken)

theorem heeds_of_reach {cfg : Config} {w : World} {key : NamespacedName}
    (reached : Reach (system cfg) (recordedSequence key) w) : InOrder key (Heeds key) w := by
  refine reached.induction (I := InOrder key (Heeds key)) (fun w start => inOrder_initial start) ?_
  intro w l w' reached turns within taken
  exact heeds_step (sound_of_reach reached) (linked_of_reach reached) (recorded_of_reach reached)
    turns within.1 (moved_of_step taken)

/-- **A recorded loss is a loss**, in every sequence of reconciles in which no status
write after an acknowledged delivery was refused while the report was stored. -/
theorem dropped_truthful (cfg : Config) (key : NamespacedName) {w : World}
    (reached : Reach (system cfg) (recordedSequence key) w) : Truthful key w := by
  have sound := sound_of_reach reached
  have turns := heeds_of_reach reached
  rw [Truthful, World.runs, List.pairwise_filter, List.pairwise_iff_getElem]
  intro i j hi hj order earlier later gaveUp
  have heeds := turns i j _ _ order (List.getElem?_eq_getElem hi) (List.getElem?_eq_getElem hj)
    earlier later
  obtain ⟨r, job⟩ := reconciles_iff.1 later
  obtain ⟨v, read, unprocessed⟩ :=
    unprocessed_of_gaveUp (sound.honest (List.getElem_mem hj) job) gaveUp
  rw [← Bool.not_eq_true]
  exact fun delivered => unprocessed (heeds.processed delivered v read)

/-- A delivery fails, ten minutes after the controller started, and is given up; the
status write that follows is refused, and the next run delivers after all. -/
def lateSuccess : List Label :=
  [.report cartReporter cartEvent cartMeta [], .perform 0 (.named (lit "x7f2q") 0 true),
    .perform 0 .ack, .start, .tick 600000000000, .reconcile cartKey, .perform 1 (.cached 0),
    .perform 1 (.response .failed), .perform 1 .go, .perform 1 .go, .perform 1 .go,
    .perform 1 (.refuse .transport), .reconcile cartKey, .perform 2 (.cached 0),
    .perform 2 (.response (.response 200)), .perform 2 .go, .perform 2 .go, .perform 2 .lose]

/-- The loss was true when it was recorded, and the delivery came later. -/
theorem dropped_truthful_lateSuccess :
    ∃ w : World, ((w.runs cartKey).map fun t => (t.gaveUp, t.delivered)) =
      [(true, false), (false, true)] ∧ Truthful cartKey w := by
  have within : Within (system alerting) (recordedSequence cartKey) quiet lateSuccess := by
    decide +kernel
  obtain ⟨w, reached, both⟩ := exists_guarded
    (Q := fun w => ((w.runs cartKey).map fun t => (t.gaveUp, t.delivered)) =
      [(true, false), (false, true)]) quiet_initial within (by decide +kernel)
  exact ⟨w, both, dropped_truthful alerting cartKey reached⟩

/-- A delivery is acknowledged and its status write refused; ten minutes after the
controller started the next run finds the webhook down. -/
def refusedRecord : List Label :=
  [.report cartReporter cartEvent cartMeta [], .perform 0 (.named (lit "x7f2q") 0 true),
    .perform 0 .ack, .start, .reconcile cartKey, .perform 1 (.cached 0),
    .perform 1 (.response (.response 200)), .perform 1 .go, .perform 1 .go,
    .perform 1 (.refuse .transport), .tick 600000000000, .reconcile cartKey,
    .perform 2 (.cached 0), .perform 2 (.response .failed), .perform 2 .go, .perform 2 .go,
    .perform 2 .go]

/-- **A loss is recorded for a crash that was notified.** -/
theorem refusedRecord_untruthful :
    ∃ w, Reach (system alerting) (sequential cartKey) w ∧ ¬ Truthful cartKey w := by
  have within : Within (system alerting) (sequential cartKey) quiet refusedRecord := by
    decide +kernel
  exact exists_guarded quiet_initial within (by decide +kernel)

end KubeAutopsy.Cluster
