/-
# KubeAutopsy.Cluster.Telling — what the controller says about a crash is what the agent saw

The controller tells the world outside about a report in three ways: the webhook request,
the Events it records and the metrics it counts.  It tells from three copies (`Saw`): the one
the cache served, whose log lines are gone, the full one it reads for a sender that forwards
log lines, and the one its status write returned.  Every copy is a stored version but for its
log lines, so by `Authored` whatever is told while one name is reconciled describes the one
crash event whose report has that name.
-/
import KubeAutopsy.Cluster.Provenance

namespace KubeAutopsy.Cluster

open KubeAutopsy.Agent
open KubeAutopsy.Api
open KubeAutopsy.Controller
open KubeAutopsy.Theory.Bytes (GoString lit)
open KubeAutopsy.Theory.Program
open KubeAutopsy.Theory.Transition

set_option autoImplicit false

/-! ## What a reconcile tells from -/

/-- The operation reaches someone outside the program and the API server. -/
def outward : Op → Bool
  | .post _ => true
  | .event _ => true
  | .count _ => true
  | _ => false

/-- **What a reconcile tells** is what a copy says that it has seen. -/
theorem tells_of_guarantee {r : PodCrashReportReconciler} {key : NamespacedName} {log : Log} {o : Op}
    (allowed : (contract r key).guarantee log o) (telling : outward o = true) : Tells log key o := by
  cases o with
  | post report =>
      obtain ⟨-, -, v, ready, -, copy⟩ := allowed
      exact copy.tells ready.read
  | event record => exact allowed.2
  | count metric => exact allowed
  | _ => cases telling

/-! ## Every copy is a stored version -/

theorem stripCachedLogLines_spec (v : PodCrashReport) : (stripCachedLogLines v).spec = v.spec := by
  unfold stripCachedLogLines
  split <;> rfl

theorem stripCachedLogLines_diagnostics (v : PodCrashReport) :
    (stripCachedLogLines v).status.diagnostics =
      { v.status.diagnostics with lastLogLines := [] } := by
  unfold stripCachedLogLines
  split
  · rename_i none_
    rw [← none_]
  · rfl

/-- What a reconcile has had in its hands is a stored version, or one without its log lines. -/
theorem stored_of_saw {cfg : Config} {G : World → Label → Prop} {w : World}
    (reached : Reach (system cfg) G w) {t : Thread} (member : t ∈ w.threads) {key : NamespacedName}
    {v : PodCrashReport} (saw : Saw t.log key v) :
    ∃ u ∈ w.store.history, u.key = key ∧ (v = u ∨ v = stripCachedLogLines u) := by
  have sound := sound_of_reach reached
  cases saw with
  | cached read =>
      obtain ⟨u, stored, rfl, named⟩ := sound.told t member _ read v rfl
      exact ⟨u, stored, named, .inr rfl⟩
  | full got =>
      obtain ⟨stored, named⟩ := sound.told t member _ got v rfl
      exact ⟨v, stored, named, .inl rfl⟩
  | written did =>
      obtain ⟨stored, named, -⟩ := sound.told t member _ did v rfl
      exact ⟨v, stored, named, .inl rfl⟩

/-! ## The theorem -/

/-- `v` says of the crash what `CreateCrashReport` was given, as it arrives, except that the
diagnostics may not have been written yet and the log lines may be missing. -/
structure Describes (r : Reporter) (event : CrashEvent) (podMeta : PodMeta)
    (logLines : List GoString) (v : PodCrashReport) : Prop where
  spec : v.spec = (newReport r event podMeta).spec.wire
  diagnostics : v.status.diagnostics = {} ∨
    ∃ lines, (lines = [] ∨ lines = logLines) ∧
      v.status.diagnostics = (diagnosticsOf event lines).wire

theorem FiledBy.describes {r : Reporter} {event : CrashEvent} {podMeta : PodMeta}
    {logLines : List GoString} {u v : PodCrashReport} (filed : FiledBy r event podMeta logLines u)
    (copy : v = u ∨ v = stripCachedLogLines u) : Describes r event podMeta logLines v := by
  obtain ⟨suffix, createdAt, admitted⟩ := filed.admitted
  have spec : u.spec = (newReport r event podMeta).spec.wire := congrArg Prod.snd admitted
  rcases copy with rfl | rfl
  · refine ⟨spec, ?_⟩
    rcases filed.diagnostics with none_ | written
    · exact .inl none_
    · exact .inr ⟨logLines, .inr rfl, written⟩
  · refine ⟨(stripCachedLogLines_spec u).trans spec, ?_⟩
    rw [stripCachedLogLines_diagnostics]
    rcases filed.diagnostics with none_ | written
    · rw [none_]
      exact .inl rfl
    · rw [written]
      exact .inr ⟨[], .inl rfl, rfl⟩

/-- Whatever a reconcile tells is about the crash its name's author was given. -/
theorem Authored.tells {cfg : Config} {w : World} {author : NamespacedName → Nat}
    (authored : Authored w author) (reached : Reach (system cfg) anyStep w) {t : Thread}
    (member : t ∈ w.threads) {r : PodCrashReportReconciler} {key : NamespacedName}
    (job : t.job = .reconcile r key) {o : Op} {answer : o.Resp} (did : Did t.log o answer)
    (telling : outward o = true) :
    ∃ t' reporter event podMeta logLines v, w.threads[author key]? = some t' ∧
      t'.job = .report reporter event podMeta logLines ∧ v.key = key ∧ TellsOf v o ∧
      Describes reporter event podMeta logLines v := by
  have honest := (sound_of_reach reached).honest member job
  obtain ⟨before, suffix, allowed, -⟩ := honest.of_mem did
  obtain ⟨v, saw, tells⟩ := tells_of_guarantee allowed telling
  have seen := saw.of_suffix ((List.suffix_cons _ _).trans suffix)
  obtain ⟨u, stored, named, copy⟩ := stored_of_saw reached member seen
  obtain ⟨t', reporter, event, podMeta, logLines, found, agent, filed⟩ := authored.event stored
  rw [named] at found
  refine ⟨t', reporter, event, podMeta, logLines, v, found, agent, ?_, tells, filed.describes copy⟩
  rcases copy with rfl | rfl
  · exact named
  · rw [stripCachedLogLines_key, named]

/-- **The controller tells only what an agent saw.**  In every reachable state each name has
one author, different for different reports, and every request, Event and metric of every
reconcile of that name says what its author was given about the crash. -/
theorem told_of_one_event (cfg : Config) {w : World} (reached : Reach (system cfg) anyStep w) :
    ∃ author : NamespacedName → Nat,
      (∀ u ∈ w.store.history, ∀ v ∈ w.store.history, author u.key = author v.key → u.key = v.key) ∧
      ∀ t ∈ w.threads, ∀ r key, t.job = .reconcile r key → ∀ (o : Op) (answer : o.Resp),
        Did t.log o answer → outward o = true →
        ∃ t' reporter event podMeta logLines v, w.threads[author key]? = some t' ∧
          t'.job = .report reporter event podMeta logLines ∧ v.key = key ∧ TellsOf v o ∧
          Describes reporter event podMeta logLines v := by
  obtain ⟨author, authored⟩ := authored_of_reach reached
  exact ⟨author, authored.single, fun t member r key job o answer did telling =>
    authored.tells reached member job did telling⟩

/-- The report in the request of a reconcile, with the name it is a reconcile of. -/
def Thread.requested (t : Thread) : Option (NamespacedName × PodCrashReport) :=
  match t.job with
  | .reconcile _ key =>
      (t.log.findSome? fun
        | ⟨.post report, _⟩ => some report
        | _ => none).map fun report => (key, report)
  | _ => none

theorem Thread.posted_of_requested {t : Thread} {key : NamespacedName} {report : PodCrashReport}
    (requested : t.requested = some (key, report)) :
    ∃ r answer, t.job = .reconcile r key ∧ Did t.log (.post report) answer := by
  unfold Thread.requested at requested
  split at requested
  · rename_i r name job
    obtain ⟨posted, found, same⟩ := Option.map_eq_some_iff.1 requested
    cases same
    obtain ⟨⟨o, answer⟩, logged, isPost⟩ := List.exists_of_findSome?_eq_some found
    cases o with
    | post report' =>
        cases isPost
        exact ⟨r, answer, job, logged⟩
    | _ => cases isPost
  · cases requested

/-- The controller reads a report that has no diagnostics yet, and sends that; the author
is the agent whose diagnostics are stored in between. -/
theorem told_of_one_event_staleProcessing :
    ∃ (w : World) (report : PodCrashReport),
      (∃ t ∈ w.threads, t.requested = some (cartKey, report)) ∧ report.status.diagnostics = {} ∧
      ∃ reporter event podMeta logLines, Describes reporter event podMeta logLines report := by
  have ran : ((run (system alerting) quiet (lateDiagnostics ++ staleProcessing)).any fun w =>
      (w.threads[1]?).any fun t => t.requested.any fun sent =>
        decide (sent.1 = cartKey ∧ sent.2.status.diagnostics = {})) = true := by
    decide +kernel
  simp only [Option.any_eq_true, decide_eq_true_eq] at ran
  obtain ⟨w, reaches, t, at_, ⟨_, report⟩, sent, rfl, empty⟩ := ran
  have member := List.mem_of_getElem? at_
  obtain ⟨author, -, told⟩ := told_of_one_event alerting (reach_of_run quiet_initial reaches)
  obtain ⟨r, answer, job, posted⟩ := Thread.posted_of_requested sent
  obtain ⟨t', reporter, event, podMeta, logLines, v, -, -, -, rfl, describes⟩ :=
    told t member r _ job (.post _) answer posted rfl
  exact ⟨w, _, ⟨t, member, sent⟩, empty, reporter, event, podMeta, logLines, describes⟩

end KubeAutopsy.Cluster
