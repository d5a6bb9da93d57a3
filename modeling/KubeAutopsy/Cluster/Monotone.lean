/-
# KubeAutopsy.Cluster.Monotone — no write takes anything back from a stored status

Two writers patch the status of a report, one with a lock and one without, from
copies that may be old and have lost their log lines.  Still the stored status only
ever `Advances`: the agent's patch is locked on the version its creation returned, so
it applies to the empty status or not at all, and the controller's patch carries a
phase and a time but none of the diagnostics.

`linked_of_reach` is the invariant, over all versions a report ever had;
`status_monotone` compares any two states of a run.
-/
import KubeAutopsy.Cluster.World

namespace KubeAutopsy.Cluster

open KubeAutopsy.Agent
open KubeAutopsy.Api
open KubeAutopsy.Controller
open KubeAutopsy.Theory.Bytes (GoString lit)
open KubeAutopsy.Theory.History
open KubeAutopsy.Theory.Program
open KubeAutopsy.Theory.Transition

set_option autoImplicit false

/-- The order the phase moves in. -/
def rank : Phase → Nat
  | .unset => 0
  | .pending => 1
  | .processed => 2

/-- What may happen to a stored status: the phase moves forward, stored diagnostics stay
as they are, and a recorded notification stays recorded. -/
structure Advances (s s' : PodCrashReportStatus) : Prop where
  phase : rank s.phase ≤ rank s'.phase
  diagnostics : s.diagnostics ≠ {} → s'.diagnostics = s.diagnostics
  notifiedAt : s.notifiedAt ≠ none → s'.notifiedAt ≠ none

theorem Advances.refl (s : PodCrashReportStatus) : Advances s s := ⟨le_refl _, fun _ => rfl, id⟩

theorem Advances.trans {s t u : PodCrashReportStatus} (first : Advances s t) (second : Advances t u) :
    Advances s u where
  phase := first.phase.trans second.phase
  diagnostics stored := by
    have kept := first.diagnostics stored
    rw [second.diagnostics (kept ▸ stored), kept]
  notifiedAt recorded := second.notifiedAt (first.notifiedAt recorded)

theorem Advances.from_empty (s : PodCrashReportStatus) : Advances {} s :=
  ⟨Nat.zero_le _, fun stored => absurd rfl stored, fun recorded => absurd rfl recorded⟩

theorem Advances.processed {s s' : PodCrashReportStatus} (advances : Advances s s')
    (processed : s.phase = .processed) : s'.phase = .processed := by
  have le := advances.phase
  rw [processed] at le
  cases phase : s'.phase <;> simp_all [rank]

/-- A later version of a report: the same object, its status advanced. -/
structure Succeeds (u v : PodCrashReport) : Prop where
  created : v.metadata.creationTimestamp = u.metadata.creationTimestamp
  status : Advances u.status v.status

theorem Succeeds.refl (u : PodCrashReport) : Succeeds u u := ⟨rfl, .refl _⟩

theorem Succeeds.trans (u v w : PodCrashReport) (first : Succeeds u v) (second : Succeeds v w) :
    Succeeds u w :=
  ⟨second.created.trans first.created, first.status.trans second.status⟩

section Step

variable {cfg : Config} {w w' : World} {l : Label}

/-- The controller's patch advances whatever it is applied to. -/
theorem processedPatch_advances {v : PodCrashReport} {n : Option Int}
    (unprocessed : v.status.phase ≠ .processed) (keeps : v.status.notifiedAt ≠ n → n ≠ none)
    (s : PodCrashReportStatus) : Advances s ((processedPatch v n).applyTo s) where
  phase := by
    rw [processedPatch_phase v n s unprocessed]
    cases s.phase <;> decide
  diagnostics _ := processedPatch_diagnostics v n s
  notifiedAt recorded := by
    rw [processedPatch_notifiedAt]
    split
    · exact recorded
    · rename_i changed
      have other : v.status.notifiedAt ≠ n := fun same => changed (congrArg _ same)
      simpa using keeps other

/-- **The two status writes of the system**, and what each is applied to. -/
theorem patch_cases (sound : Sound cfg w) {i : Nat} {t : Thread} {key : NamespacedName}
    {patch : StatusPatch} {k : WriteAnswer → M Unit} {old : PodCrashReport}
    (found : w.threads[i]? = some t) (next : t.prog = .op (.statusPatch key patch) k)
    (stored : w.store.current key = some old) (current : patch.current old = true) :
    (old.status = {} ∧
      ∃ diagnostics, patch.applyTo old.status = { diagnostics := diagnostics, phase := .pending }) ∨
    ∃ r v n, t.job = .reconcile r key ∧ Ready t.log key v ∧ Settled r t.log key v n ∧
      patch = processedPatch v n := by
  have allowed := sound.guarantee found next
  have told := sound.told t (List.mem_of_getElem? found)
  cases job : t.job with
  | report r event podMeta logLines =>
      rw [job] at allowed
      obtain ⟨report, base, created, -, rfl⟩ := allowed
      -- The lock names the version the creation returned, which has no status yet.
      obtain ⟨member, empty⟩ := told _ created base rfl
      have same : base = old := Versions.eq_of_version member (Store.mem_of_current stored)
        (diagnosticsPatch_current current)
      subst same
      exact .inl ⟨empty, _, diagnosticsPatch_applyTo_created empty _⟩
  | reconcile r key' =>
      rw [job] at allowed
      obtain ⟨rfl, -, v, n, ready, settled, same⟩ := allowed
      exact .inr ⟨r, v, n, rfl, ready, settled, same⟩
  | collect gc sorter =>
      rw [job] at allowed
      exact allowed.elim

/-- A status patch of any thread advances the version it is applied to. -/
theorem patch_advances (sound : Sound cfg w) {i : Nat} {t : Thread} {key : NamespacedName}
    {patch : StatusPatch} {k : WriteAnswer → M Unit} {old : PodCrashReport}
    (found : w.threads[i]? = some t) (next : t.prog = .op (.statusPatch key patch) k)
    (stored : w.store.current key = some old) (current : patch.current old = true) :
    Advances old.status (patch.applyTo old.status) := by
  rcases patch_cases sound found next stored current with
    ⟨empty, -⟩ | ⟨r, v, n, -, ready, settled, rfl⟩
  · rw [empty]
    exact .from_empty _
  · exact processedPatch_advances ready.unprocessed settled.keeps _

theorem linked_step (sound : Sound cfg w) (linked : w.store.versions.Linked Succeeds)
    (moved : Moved cfg w l w') : w'.store.versions.Linked Succeeds := by
  cases moved with
  | idle clock store threads => rwa [store]
  | spawned starts => exact linked
  | performed found alive next answered =>
      rename_i i choice t o k r store
      have push : ∀ {stored : PodCrashReport}, Store.Wrote w.store stored store →
          (∀ c, w.store.versions.current stored.key = some c → Succeeds c stored) →
          store.versions.Linked Succeeds := by
        intro stored wrote replaces
        rw [wrote.versions]
        exact linked.push .refl .trans wrote.fresh replaces
      obtain ⟨touches, -⟩ := respond_spec answered (le_refl w.clock)
      cases touches with
      | nothing => exact linked
      | created wrote fresh status =>
          refine push wrote fun c current => ?_
          exact absurd (Versions.key_of_current current) (fresh c (Versions.mem_of_current current))
      | patched patched =>
          rcases patched.effect with ⟨-, same⟩ | wrote
          · exact same ▸ linked
          · obtain ⟨old, stored, current, status, created⟩ := patched.base
            refine push wrote fun c newest => ?_
            rw [patched.key, Store.versions_current stored] at newest
            cases newest
            exact ⟨created, status ▸ patch_advances sound found next stored current⟩
      | deleted versions gone => exact versions ▸ linked

end Step

/-- **Every version a report ever had advances the ones before it.** -/
theorem linked_of_reach {cfg : Config} {G : World → Label → Prop} {w : World}
    (reached : Reach (system cfg) G w) : w.store.versions.Linked Succeeds := by
  refine reached.induction (I := fun w => w.store.versions.Linked Succeeds) (fun w start => ?_)
    fun w l w' reached linked _ taken =>
      linked_step (sound_of_reach reached) linked (moved_of_step taken)
  rw [start.1]
  exact Versions.linked_empty

theorem Moved.grows {cfg : Config} {w w' : World} {l : Label} (moved : Moved cfg w l w') :
    Grows w.store w'.store := by
  cases moved with
  | idle clock store threads => exact store ▸ Grows.refl _
  | spawned starts => exact Grows.refl _
  | performed found alive next answered =>
      exact (respond_spec answered (le_refl w.clock)).1.grows

/-- What was stored stays in the history over a whole run. -/
theorem grows_of_path {cfg : Config} {G : World → Label → Prop} {w w' : World}
    (run : Path (system cfg) G w w') : Grows w.store w'.store :=
  run.monotone (I := fun _ => True) trivial (fun _ _ _ _ _ _ => trivial) (fun w => Grows.refl w.store)
    (fun _ _ _ first second v member => second v (first v member))
    fun _ _ _ _ _ taken => (moved_of_step taken).grows

/-- A stored version is succeeded by whatever is stored under its name later. -/
theorem succeeds_current {cfg : Config} {G : World → Label → Prop} {w : World} {u v : PodCrashReport}
    (reached : Reach (system cfg) G w) (member : u ∈ w.store.history)
    (current : w.store.current u.key = some v) : Succeeds u v :=
  (linked_of_reach reached).of_current .refl member (Store.versions_current current)

/-- **The stored status is monotone**, in every run and between any two states of it, for
every interleaving of agents and controller, stale reads, lost responses and restarts. -/
theorem status_monotone (cfg : Config) {w w' : World} (reached : Reach (system cfg) anyStep w)
    (run : Path (system cfg) anyStep w w') {key : NamespacedName} {v v' : PodCrashReport}
    (before : w.store.current key = some v) (after : w'.store.current key = some v') :
    Advances v.status v'.status := by
  have member := grows_of_path run v (Store.mem_of_current before)
  have current : w'.store.current v.key = some v' := (Store.key_of_current before) ▸ after
  exact (succeeds_current (reached.extend run) member current).status

/-! ### A run with both writers -/

def cartReporter : Reporter := ⟨lit "node-1", false⟩
def cartEvent : CrashEvent := { containerID := lit "a0" }
def cartMeta : PodMeta := ⟨lit "cart", lit "shop", lit "app", lit "uid-1", 0⟩

/-- The name the server makes up for the first report about it. -/
def cartKey : NamespacedName :=
  (Store.admitted (newReport cartReporter cartEvent cartMeta) (lit "x7f2q") 0).key

/-- Before anything has happened. -/
def quiet : World := ⟨0, .empty, none, 0, []⟩

theorem quiet_initial : initial quiet := ⟨rfl, rfl, rfl, rfl⟩

/-- A controller that sends webhooks and keeps reports for an hour, without a cap. -/
def alerting : Config := ⟨some ⟨false⟩, false, ⟨KubeAutopsy.Theory.Clock.hour, 0⟩⟩

/-- The report is created, and the controller reads it while it is still empty; only
then the agent writes the diagnostics. -/
def lateDiagnostics : List Label :=
  [.report cartReporter cartEvent cartMeta [lit "out of memory"],
    .perform 0 (.named (lit "x7f2q") 0 true), .start, .tick 180000000000, .reconcile cartKey,
    .perform 1 (.cached 0), .perform 0 .ack]

/-- The controller goes on with what it read: it sends, and marks the report processed. -/
def staleProcessing : List Label :=
  [.perform 1 .go, .perform 1 (.response (.response 200)), .perform 1 .go, .perform 1 .go,
    .perform 1 .ack]

/-- The stale write keeps the log lines the controller never saw. -/
theorem status_monotone_staleProcessing :
    ∃ (w w' : World) (v v' : PodCrashReport), w.store.current cartKey = some v ∧
      w'.store.current cartKey = some v' ∧
      v.status.diagnostics.lastLogLines = [lit "out of memory"] ∧ v'.status.phase = .processed ∧
      Advances v.status v'.status := by
  have ran : ((run (system alerting) quiet lateDiagnostics).any fun w =>
      (run (system alerting) w staleProcessing).any fun w' =>
        (w.store.current cartKey).any fun v => (w'.store.current cartKey).any fun v' =>
          decide (v.status.diagnostics.lastLogLines = [lit "out of memory"] ∧
            v'.status.phase = .processed)) = true := by
    decide +kernel
  simp only [Option.any_eq_true, decide_eq_true_eq] at ran
  obtain ⟨w, first, w', second, v, before, v', after, lines, phase⟩ := ran
  refine ⟨w, w', v, v', before, after, lines, phase, ?_⟩
  exact status_monotone alerting (reach_of_run quiet_initial first)
    (path_of_run (within_anyStep w _) second) before after

end KubeAutopsy.Cluster
