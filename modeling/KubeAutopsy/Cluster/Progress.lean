/-
# KubeAutopsy.Cluster.Progress — no endpoint can keep a report from being processed

A report that is not processed is reconciled again and again while its notification fails.
The deadline is what ends this: whatever state the system is in, and whatever one answer
the endpoint gives to every request from now on, the report can be processed as soon as its
deadline has come (`processed_within_window`).

`obliging_step` says that a reconcile is never stuck: as long as its report is stored, the
environment has an answer to its next operation that refuses nothing.  Its program is a
finite tree, so answers like that take it to its end (`runs_to_end`), and a reconcile that
began at the deadline ends with the report processed.
-/
import KubeAutopsy.Cluster.Delivery

namespace KubeAutopsy.Cluster

open KubeAutopsy.Api
open KubeAutopsy.Controller
open KubeAutopsy.Theory.Bytes (GoString lit)
open KubeAutopsy.Theory.Clock
open KubeAutopsy.Theory.Program
open KubeAutopsy.Theory.Transition

set_option autoImplicit false

/-- The endpoint gives this answer to every request. -/
def endpointAnswers (answer : PostAnswer) (_ : World) (l : Label) : Prop :=
  ∀ i given, l = .perform i (.response given) → given = answer

/-- A step that answers no request is within it. -/
theorem endpointAnswers_of_ne {answer : PostAnswer} {w : World} {l : Label}
    (other : ∀ i given, l ≠ .perform i (.response given)) : endpointAnswers answer w l :=
  fun i given same => absurd same (other i given)

/-- A read that found the report, a status write that was acknowledged, or anything else. -/
def Obliged : Entry Op Op.Resp → Prop
  | ⟨.get _, answer⟩ => ∃ v, answer = .found v
  | ⟨.statusPatch _ _, answer⟩ => ∃ stored, answer = .acked stored
  | _ => True

section Step

variable {cfg : Config} {w : World} {key : NamespacedName}

theorem exists_cached {v : PodCrashReport} (current : w.store.current key = some v) :
    ∃ n, w.respond (.get key) (.cached n) = some (.found (stripCachedLogLines v), w.store) := by
  obtain ⟨n, at_⟩ := List.getElem?_of_mem (Store.mem_of_current current)
  refine ⟨n, ?_⟩
  have served : w.cached n = some (stripCachedLogLines v) := by simp [World.cached, at_]
  simp [World.respond, served, Store.key_of_current current]

/-- The controller's patch has no precondition, so a stored report takes it. -/
theorem patchStatus_processed {v old : PodCrashReport} {n : Option Int}
    (current : w.store.current key = some old) :
    ∃ stored store, w.store.patchStatus key (processedPatch v n) = some (stored, store) ∧
      ∃ v', store.current key = some v' := by
  have unlocked : (processedPatch v n).current old = true := rfl
  unfold Store.patchStatus
  rw [current]
  simp only [unlocked, Bool.not_true, Bool.false_eq_true, if_false]
  split
  · exact ⟨_, _, rfl, old, current⟩
  · have wrote := Store.write_wrote w.store
      { old with status := (processedPatch v n).applyTo old.status }
    have named : (w.store.write
        { old with status := (processedPatch v n).applyTo old.status }).1.key = old.key := rfl
    rw [Store.key_of_current current] at named
    refine ⟨_, _, rfl, _, named ▸ Store.current_of_wrote wrote ?_⟩
    rw [named]
    exact Store.not_gone_of_current current

/-- **A reconcile of a stored report is never stuck.** -/
theorem obliging_step (sound : Sound cfg w) (answer : PostAnswer) {i : Nat} {t : Thread}
    {r : PodCrashReportReconciler} {o : Op} {k : o.Resp → M Unit} (found : w.threads[i]? = some t)
    (job : t.job = .reconcile r key) (next : t.prog = .op o k)
    (stored : ∃ v, w.store.current key = some v) :
    ∃ choice r store, w.respond o choice = some (r, store) ∧
      endpointAnswers answer w (.perform i choice) ∧ Obliged ⟨o, r⟩ ∧
      ∃ v, store.current key = some v := by
  have allowed := sound.guarantee found next
  rw [job] at allowed
  have free : ∀ {choice : Choice}, (∀ given, choice ≠ .response given) →
      endpointAnswers answer w (.perform i choice) := by
    intro choice other
    exact endpointAnswers_of_ne fun j given same => other given (by injection same)
  obtain ⟨v, current⟩ := stored
  cases o with
  | get name =>
      obtain ⟨rfl, -⟩ := allowed
      obtain ⟨n, served⟩ := exists_cached current
      exact ⟨.cached n, _, _, served, free (by simp), ⟨_, rfl⟩, v, current⟩
  | apiGet name =>
      cases full : w.store.current name with
      | some u =>
          exact ⟨.go, .found u, w.store, by simp [World.respond, full], free (by simp), trivial, v,
            current⟩
      | none =>
          exact ⟨.go, .refused (.status .notFound), w.store, by simp [World.respond, full],
            free (by simp), trivial, v, current⟩
  | post report =>
      refine ⟨.response answer, answer, w.store, rfl, ?_, trivial, v, current⟩
      intro j given same
      cases same
      rfl
  | now => exact ⟨.go, w.clock, w.store, rfl, free (by simp), trivial, v, current⟩
  | count metric => exact ⟨.go, (), w.store, rfl, free (by simp), trivial, v, current⟩
  | event record => exact ⟨.go, (), w.store, rfl, free (by simp), trivial, v, current⟩
  | statusPatch name patch =>
      obtain ⟨rfl, -, u, n, -, -, rfl⟩ := allowed
      obtain ⟨written, store, done, later⟩ := patchStatus_processed (v := u) (n := n) current
      exact ⟨.ack, .acked written, store, by simp [World.respond, done], free (by simp), ⟨_, rfl⟩,
        later⟩
  | _ => exact allowed.elim

/-! ## To the end of a reconcile -/

/-- What running one reconcile to its end leaves as it was, and what it leaves behind. -/
structure RanOut (key : NamespacedName) (i : Nat) (t : Thread) (w w' : World) : Prop where
  clock : w'.clock = w.clock
  stored : ∃ v, w'.store.current key = some v
  ended : ∃ t', w'.threads[i]? = some t' ∧ t'.job = t.job ∧ t'.spawnedAt = t.spawnedAt ∧
    t'.prog.ended = true ∧ t.log <:+ t'.log ∧ ((∀ e ∈ t.log, Obliged e) → ∀ e ∈ t'.log, Obliged e)

theorem runs_to_end (answer : PostAnswer) {i : Nat} {t : Thread} {r : PodCrashReportReconciler}
    (reached : Reach (system cfg) anyStep w) (found : w.threads[i]? = some t)
    (alive : t.alive w = true) (job : t.job = .reconcile r key)
    (stored : ∃ v, w.store.current key = some v) :
    ∃ w', Path (system cfg) (endpointAnswers answer) w w' ∧ RanOut key i t w w' := by
  -- By induction on what is left of the program.
  obtain ⟨p, rest⟩ : ∃ p, t.prog = p := ⟨_, rfl⟩
  induction p generalizing w t with
  | pure a =>
      refine ⟨w, .refl w, rfl, stored, t, found, rfl, rfl, ?_, List.suffix_rfl, id⟩
      rw [rest]
      rfl
  | op o k ih =>
      obtain ⟨choice, answered, store, respond, within, obliged, later⟩ :=
        obliging_step (sound_of_reach reached) answer found job rest stored
      have taken : (system cfg).step w (.perform i choice) =
          some (w.advance i t o answered (k answered) store) := by
        simp [system, step, performStep, found, alive, rest, respond]
      have first := Path.snoc (.refl w) within taken
      have here : (w.advance i t o answered (k answered) store).threads[i]? =
          some { t with log := ⟨o, answered⟩ :: t.log, prog := k answered } :=
        getElem?_advance_self found
      obtain ⟨w', run, clock, still, t', found', job', since, ended, suffix, all⟩ :=
        ih answered (reached.extend (first.mono fun _ _ _ => trivial)) here alive job later rfl
      refine ⟨w', first.trans run, clock, still, t', found', job', since, ended, ?_, fun before => ?_⟩
      · exact (List.suffix_cons _ _).trans suffix
      · exact all (List.forall_mem_cons.2 ⟨obliged, before⟩)

end Step

/-! ## Ten minutes -/

theorem performStep_kept {w w' : World} {i : Nat} {choice : Choice}
    (taken : performStep w i choice = some w') : w'.startedAt = w.startedAt ∧ w'.clock = w.clock := by
  unfold performStep at taken
  split at taken
  · cases taken
  · split at taken
    · cases taken
    · split at taken
      · cases taken
      · split at taken
        · cases taken
          exact ⟨rfl, rfl⟩
        · cases taken

/-- The running process was not started in the future. -/
theorem started_of_reach {cfg : Config} {G : World → Label → Prop} {w : World}
    (reached : Reach (system cfg) G w) :
    ∀ startedAt, w.startedAt = some startedAt → startedAt ≤ w.clock := by
  refine reached.invariant (I := fun w => ∀ s, w.startedAt = some s → s ≤ w.clock)
    (fun w start => ?_) fun w l w' past _ taken => ?_
  · obtain ⟨-, stopped, -⟩ := start
    simp [stopped]
  · have spawned : ∀ (l : Label), (l.job cfg w).map w.spawn = some w' →
        ∀ s, w'.startedAt = some s → s ≤ w'.clock := by
      intro l starts
      obtain ⟨job, -, rfl⟩ := Option.map_eq_some_iff.1 starts
      exact past
    cases l with
    | tick d =>
        cases taken
        exact fun s running => (past s running).trans (by simp)
    | start =>
        simp only [system, step] at taken
        split at taken
        · cases taken
          rintro s ⟨⟩
          exact le_refl _
        · cases taken
    | stop =>
        simp only [system, step] at taken
        split at taken
        · cases taken
        · cases taken
          rintro s ⟨⟩
    | report r event podMeta logLines => exact spawned (.report r event podMeta logLines) taken
    | reconcile key => exact spawned (.reconcile key) taken
    | collect sorter => exact spawned (.collect sorter) taken
    | perform i choice =>
        obtain ⟨same, clock⟩ := performStep_kept taken
        rw [same, clock]
        exact past

/-- When the controller that runs was started, or one that is started now. -/
def World.starting (w : World) : Int := w.startedAt.getD w.clock

theorem starting_le {cfg : Config} {G : World → Label → Prop} {w : World}
    (reached : Reach (system cfg) G w) : w.starting ≤ w.clock := by
  unfold World.starting
  cases running : w.startedAt with
  | some startedAt => exact started_of_reach reached startedAt running
  | none => exact le_refl _

theorem exists_running (cfg : Config) (w : World) (answer : PostAnswer) :
    ∃ w₁, Path (system cfg) (endpointAnswers answer) w w₁ ∧ w₁.startedAt = some w.starting ∧
      w₁.clock = w.clock ∧ w₁.store = w.store := by
  unfold World.starting
  cases running : w.startedAt with
  | some startedAt => exact ⟨w, .refl w, running, rfl, rfl⟩
  | none =>
      refine ⟨{ w with startedAt := some w.clock }, ?_, rfl, rfl, rfl⟩
      refine Path.snoc (l := .start) (.refl w) (endpointAnswers_of_ne nofun) ?_
      simp [system, step, running]

/-- A reconcile that begins at or after the deadline, with nothing refused to it, leaves the
report processed. -/
theorem processed_of_ranOut {cfg : Config} {w w' : World} {key : NamespacedName} {i : Nat} {t : Thread}
    {r : PodCrashReportReconciler} {read : PodCrashReport} (reached : Reach (system cfg) anyStep w')
    (ran : RanOut key i t w w') (job : t.job = .reconcile r key)
    (first : t.log = [⟨.get key, .found read⟩]) (late : webhookDeadline r read ≤ t.spawnedAt) :
    ∃ v', w'.store.current key = some v' ∧ v'.status.phase = .processed := by
  obtain ⟨-, ⟨v', current⟩, t', found, job', since, ended, suffix, all⟩ := ran
  have sound := sound_of_reach reached
  have member := List.mem_of_getElem? found
  have obliged := all (by
    rw [first]
    exact List.forall_mem_singleton.2 ⟨read, rfl⟩)
  have did : Did t'.log (.get key) (.found read) :=
    Did.of_suffix (first ▸ did_self [] (.get key) (.found read)) suffix
  -- What is stored now succeeds every version stored before under its name.
  have later : ∀ {u : PodCrashReport}, u ∈ w'.store.history → u.key = key →
      u.status.phase = .processed → v'.status.phase = .processed := by
    intro u here named phase
    exact (succeeds_current reached here (named ▸ current)).status.processed phase
  refine ⟨v', current, ?_⟩
  rcases patched_of_late sound member (job'.trans job) ended did (since ▸ late) with
    processed | ⟨patch, answer, wrote⟩
  · obtain ⟨u, here, rfl, named⟩ := sound.read member did
    exact later here named (by simpa using processed)
  · obtain ⟨written, rfl⟩ := obliged _ wrote
    obtain ⟨here, named, phase⟩ := processed_of_acked sound member (job'.trans job) wrote
    exact later here named phase

/-- A reconcile that began at some instant and has read what is stored. -/
structure Begun (cfg : Config) (startedAt due : Int) (key : NamespacedName) (v : PodCrashReport)
    (i : Nat) (t : Thread) (w : World) : Prop where
  clock : w.clock = due
  current : w.store.current key = some v
  found : w.threads[i]? = some t
  alive : t.alive w = true
  job : t.job = .reconcile (cfg.reconciler startedAt) key
  spawnedAt : t.spawnedAt = due
  log : t.log = [⟨.get key, .found (stripCachedLogLines v)⟩]

/-- Some instant is waited for, and a reconcile begins. -/
theorem exists_begun (cfg : Config) {w : World} {startedAt due : Int} {key : NamespacedName}
    {v : PodCrashReport} (answer : PostAnswer) (running : w.startedAt = some startedAt)
    (current : w.store.current key = some v) (ahead : w.clock ≤ due) :
    ∃ w' i t, Path (system cfg) (endpointAnswers answer) w w' ∧ Begun cfg startedAt due key v i t w' := by
  let r := cfg.reconciler startedAt
  let w₁ : World := { w with clock := due }
  have ticks : (system cfg).step w (.tick (due - w.clock).toNat) = some w₁ := by
    simp [system, step, w₁, Int.toNat_of_nonneg (Int.sub_nonneg.2 ahead)]
  let w₂ := w₁.spawn (.reconcile r key)
  have spawns : (system cfg).step w₁ (.reconcile key) = some w₂ := by
    simp [system, step, Label.job, w₁, w₂, running, r]
  let t : Thread := ⟨.reconcile r key, w₁.epoch, due, [], (Job.reconcile r key).prog⟩
  have found : w₂.threads[w₁.threads.length]? = some t := by
    simp [w₂, World.spawn, w₁, t]
  have alive : t.alive w₂ = true := by
    simp [Thread.alive, t, w₂, w₁, World.spawn, running]
  obtain ⟨n, served⟩ := exists_cached (w := w₂) current
  obtain ⟨k, prog⟩ : ∃ k, (Job.reconcile r key).prog = .op (.get key) k := ⟨_, rfl⟩
  let read := stripCachedLogLines v
  let w₃ := w₂.advance w₁.threads.length t (.get key) (.found read) (k (.found read)) w₂.store
  have reads : (system cfg).step w₂ (.perform w₁.threads.length (.cached n)) = some w₃ := by
    simp only [system, step, performStep, found]
    rw [if_neg (by simpa using alive)]
    simp only [t, prog, served, w₃, read]
  have begins : Path (system cfg) (endpointAnswers answer) w w₃ :=
    ((Path.snoc (.refl w) (endpointAnswers_of_ne (by simp)) ticks).snoc
      (endpointAnswers_of_ne (by simp)) spawns).snoc (endpointAnswers_of_ne (by simp)) reads
  exact ⟨w₃, _, _, begins, rfl, current, getElem?_advance_self found, alive, rfl, rfl, rfl⟩

/-- **No endpoint keeps a report from being processed.**  From every reachable state and for
every answer the endpoint may go on giving, a run in which it gives no other processes a
stored report by its deadline, or now if that has passed.  The deadline is no later than ten
minutes from now, or from the report's creation if that is in the future. -/
theorem processed_within_window (cfg : Config) {w : World} (reached : Reach (system cfg) anyStep w)
    {key : NamespacedName} {v : PodCrashReport} (stored : w.store.current key = some v)
    (answer : PostAnswer) :
    ∃ w', Path (system cfg) (endpointAnswers answer) w w' ∧
      w'.clock ≤ max w.clock (webhookDeadline (cfg.reconciler w.starting) v) ∧
      w'.clock ≤ max w.clock v.metadata.creationTimestamp + webhookRetryWindow ∧
      ∃ v', w'.store.current key = some v' ∧ v'.status.phase = .processed := by
  obtain ⟨w₁, starts, running, clock, store⟩ := exists_running cfg w answer
  rw [← store] at stored
  obtain ⟨w₂, i, t, begins, begun⟩ := exists_begun cfg answer running stored
    (le_max_left w₁.clock (webhookDeadline (cfg.reconciler w.starting) v))
  have first := starts.trans begins
  obtain ⟨w', run, ran⟩ := runs_to_end answer (reached.extend (first.mono fun _ _ _ => trivial))
    begun.found begun.alive begun.job ⟨v, begun.current⟩
  have ends := ran.clock.trans begun.clock
  rw [clock] at ends
  refine ⟨w', first.trans run, ends.le, ?_, ?_⟩
  · have started := starting_le reached
    have window : (0 : Int) ≤ webhookRetryWindow := by decide
    have deadline : webhookDeadline (cfg.reconciler w.starting) v =
        max v.metadata.creationTimestamp w.starting + webhookRetryWindow :=
      webhookDeadline_eq_max _ v
    omega
  · refine processed_of_ranOut (reached.extend ((first.trans run).mono fun _ _ _ => trivial)) ran
      begun.job begun.log ?_
    rw [webhookDeadline_eq_max, stripCachedLogLines_metadata, ← webhookDeadline_eq_max,
      begun.spawnedAt]
    exact le_max_right _ _

/-- A report the agent died on before it wrote the diagnostics. -/
def abandonedReport : List Label :=
  [.report cartReporter cartEvent cartMeta [], .perform 0 (.named (lit "x7f2q") 0 true)]

/-- It is processed although the endpoint answers nothing but 503. -/
theorem processed_within_window_unavailable :
    ∃ (w w' : World) (v v' : PodCrashReport), w.store.current cartKey = some v ∧
      v.status.phase = .unset ∧ Path (system alerting) (endpointAnswers (.response 503)) w w' ∧
      w'.store.current cartKey = some v' ∧ v'.status.phase = .processed := by
  have ran : ((run (system alerting) quiet abandonedReport).any fun w =>
      (w.store.current cartKey).any fun v => decide (v.status.phase = .unset)) = true := by
    decide +kernel
  simp only [Option.any_eq_true, decide_eq_true_eq] at ran
  obtain ⟨w, reaches, v, stored, unset⟩ := ran
  obtain ⟨w', path, -, -, v', current, phase⟩ :=
    processed_within_window alerting (reach_of_run quiet_initial reaches) stored (.response 503)
  exact ⟨w, w', v, v', stored, unset, path, current, phase⟩

end KubeAutopsy.Cluster
