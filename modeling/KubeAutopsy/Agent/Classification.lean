/-
# KubeAutopsy.Agent.Classification — what an error of `CreateCrashReport` says

The caller counts a failed report by the kind of error it gets: nil is a report with
its diagnostics, a `StatusWriteError` one without.  `Env` is everything that can happen
during one call: how the creation and each attempt of the status write turn out, what
another writer does before each attempt, and whether the context is cancelled in a wait.

`settle` follows the attempts and says how the call comes out; `ends_held` that the
code comes out that way.  `exact_iff_benign` is the result: the error is exact unless a
write took effect whose response was lost, or the wait for a retry was cancelled.  A
patch that did take effect made its own lock outdated, so its retries can only fail.
-/
import KubeAutopsy.Agent.Reporter
import KubeAutopsy.Api.Store
import KubeAutopsy.Controller.Reconciler

namespace KubeAutopsy.Agent.Classification

open KubeAutopsy.Api
open KubeAutopsy.Controller (processedPatch processedPatch_diagnostics processedPatch_phase)
open KubeAutopsy.Theory.Bytes (GoString lit)
open KubeAutopsy.Theory.History
open KubeAutopsy.Theory.Program

set_option autoImplicit false

/-! ## One call and its surroundings -/

inductive CreateOutcome where
  | acked
  | lost
  | refused (e : ApiError)
  deriving DecidableEq, Repr

/-- How one attempt of the status write turns out, as far as the network and the server
decide it; a write that is delivered or lost still has to meet its precondition. -/
inductive AttemptOutcome where
  | delivered
  | lost
  | dropped
  | refused (reason : StatusReason)
  deriving DecidableEq, Repr

/-- The controller's status write, computed from a version that was not processed. -/
structure RivalWrite where
  read : PodCrashReport
  notifiedAt : Option Int
  unprocessed : read.status.phase ≠ .processed

structure Env where
  create : CreateOutcome
  suffix : GoString
  createdAt : Int
  attempt : Nat → AttemptOutcome
  /-- What another writer does before attempt `k`. -/
  rival : Nat → Option RivalWrite
  /-- Whether the context is cancelled in the wait before attempt `k`. -/
  cancelled : Nat → Bool

/-- The store, and how many attempts have been made. -/
structure State where
  store : Store
  attempts : Nat

def interfere (store : Store) (key : NamespacedName) : Option RivalWrite → Store
  | none => store
  | some rival =>
      match store.patchStatus key (processedPatch rival.read rival.notifiedAt) with
      | some (_, store) => store
      | none => store

/-- The answer to an attempt that reaches the store as `store`, and the store after it. -/
def attemptAnswer (outcome : AttemptOutcome) (store : Store) (key : NamespacedName)
    (patch : StatusPatch) : WriteAnswer × Store :=
  match outcome, store.patchStatus key patch with
  | .delivered, some (stored, store) => (.acked stored, store)
  | .delivered, none => (.refused (.status .conflict), store)
  | .lost, some (_, store) => (.lost, store)
  | .lost, none => (.refused .transport, store)
  | .dropped, _ => (.refused .transport, store)
  | .refused reason, _ => (.refused (.status reason), store)

def createAnswer (env : Env) (store : Store) (report : PodCrashReport) : WriteAnswer × Store :=
  match env.create, store.create report env.suffix env.createdAt with
  | .refused e, _ => (.refused e, store)
  | .acked, some (stored, store) => (.acked stored, store)
  | .lost, some (_, store) => (.lost, store)
  | _, none => (.refused (.status .other), store)

/-- The surroundings of the call.  Nothing else is asked of them. -/
def handler (env : Env) : (o : Op) → State → o.Resp × State
  | .create report, s =>
      ((createAnswer env s.store report).1, { s with store := (createAnswer env s.store report).2 })
  | .statusPatch key patch, s =>
      let done := attemptAnswer (env.attempt s.attempts)
        (interfere s.store key (env.rival s.attempts)) key patch
      (done.1, ⟨done.2, s.attempts + 1⟩)
  | .wait _, s => (if env.cancelled s.attempts then .cancelled else .elapsed, s)
  | .get _, s => (.refused .transport, s)
  | .apiGet _, s => (.refused .transport, s)
  | .list, s => (.refused .transport, s)
  | .delete _, s => (.refused .transport, s)
  | .listPods _, s => (.refused .transport, s)
  | .logFiles _, s => (Files.noFiles, s)
  | .post _, s => (.failed, s)
  | .now, s => (0, s)
  | .sleep _, s => ((), s)
  | .count _, s => ((), s)
  | .event _, s => ((), s)
  | .logInfo _, s => ((), s)

/-- One call: what it returns and what is stored after it. -/
def call (env : Env) (before : Store) (r : Reporter) (event : CrashEvent) (podMeta : PodMeta)
    (logLines : List GoString) : Option GoError × Store :=
  let done := (createCrashReport r event podMeta logLines).interp (handler env) [] ⟨before, 0⟩
  (done.1, done.2.2.store)

/-- The name the report gets. -/
def reportKey (env : Env) (r : Reporter) (event : CrashEvent) (podMeta : PodMeta) : NamespacedName :=
  (Store.admitted (newReport r event podMeta) env.suffix env.createdAt).key

/-- The stored report carries these diagnostics. -/
def Carries (store : Store) (key : NamespacedName) (diagnostics : DiagnosticData) : Prop :=
  ∃ v, store.current key = some v ∧ v.status.diagnostics = diagnostics

/-- No report ever had that name. -/
structure Unused (store : Store) (key : NamespacedName) : Prop where
  history : ∀ v ∈ store.history, v.key ≠ key
  gone : key ∉ store.gone

/-- What the error of a call is to mean. -/
def Exact (env : Env) (before : Store) (r : Reporter) (event : CrashEvent) (podMeta : PodMeta)
    (logLines : List GoString) : Prop :=
  let done := call env before r event podMeta logLines
  let key := reportKey env r event podMeta
  (done.1 = none ↔ Carries done.2 key (diagnosticsOf event logLines).wire) ∧
  ((∃ err, done.1 = some err ∧ err.asStatusWrite = true) ↔ Carries done.2 key {})

/-! ## The condition -/

/-- Another writer has changed the report by the time of attempt `k`. -/
def Env.stale (env : Env) (k : Nat) : Bool := (List.range (k + 1)).any fun j => (env.rival j).isSome

/-- Attempt `k` ends in an error that is retried. -/
def Env.retried (env : Env) (k : Nat) : Bool :=
  match env.attempt k with
  | .delivered => false
  | .lost => true
  | .dropped => true
  | .refused reason => isRetryableStatusError (.status reason)

/-- Attempt `k` is made: every one before it was retried, and no wait was cancelled. -/
def Env.made (env : Env) (k : Nat) : Prop :=
  ∀ j < k, env.retried j = true ∧ env.cancelled (j + 1) = false

/-- Nothing took effect with its response lost, and no wait for a retry was cancelled. -/
structure Benign (env : Env) : Prop where
  create : env.create ≠ .lost
  lost : env.create = .acked → ∀ k < statusWriteBackoff.steps, env.made k →
    env.attempt k = .lost → env.stale k = true
  cancelled : env.create = .acked → ∀ k, k + 1 < statusWriteBackoff.steps → env.made k →
    env.retried k = true → env.cancelled (k + 1) = false

/-! ## How the attempts come out -/

inductive Verdict where
  /-- The diagnostics are stored and no error is returned. -/
  | stored
  /-- They are not stored, and the error says so. -/
  | refused
  /-- They are not stored, and the error is the context's. -/
  | cancelled
  /-- They are stored, and there is an error. -/
  | ambiguous
  deriving DecidableEq, Repr

/-- The verdict of the attempts from `k` on, with `n` of them left; `stale` says that the
report has changed since it was created. -/
def settle (env : Env) : Nat → Nat → Bool → Verdict
  | 0, _, _ => .refused
  | n + 1, k, stale =>
      if k > 0 ∧ env.cancelled k = true then .cancelled
      else if (stale || (env.rival k).isSome) = false then
        match env.attempt k with
        | .delivered => .stored
        | .lost => .ambiguous
        | _ => if env.retried k then settle env n (k + 1) false else .refused
      else if env.retried k then settle env n (k + 1) true
      else .refused

/-! ## The lock -/

/-- The report is as it was created. -/
structure Held (store : Store) (stored : PodCrashReport) : Prop where
  current : store.current stored.key = some stored
  empty : stored.status = {}

/-- The report has changed since, and now has these diagnostics. -/
def Outdated (store : Store) (stored : PodCrashReport) (diagnostics : DiagnosticData) : Prop :=
  ∃ v, store.current stored.key = some v ∧ stored.version < v.version ∧
    v.status.diagnostics = diagnostics

section Lock

variable {store : Store} {stored : PodCrashReport} {diagnostics : DiagnosticData}

theorem Outdated.carries (outdated : Outdated store stored diagnostics) :
    Carries store stored.key diagnostics := by
  obtain ⟨v, current, -, same⟩ := outdated
  exact ⟨v, current, same⟩

theorem Held.carries (held : Held store stored) : Carries store stored.key {} :=
  ⟨stored, held.current, by rw [held.empty]⟩

theorem Carries.unique {key : NamespacedName} {other : DiagnosticData}
    (one : Carries store key diagnostics) (two : Carries store key other) : diagnostics = other := by
  obtain ⟨v, found, rfl⟩ := one
  obtain ⟨v', found', rfl⟩ := two
  cases found.symm.trans found'
  rfl

/-- A patch that meets its precondition and changes the status outdates the report. -/
theorem patchStatus_outdates {v : PodCrashReport} {patch : StatusPatch}
    (found : store.current stored.key = some v) (le : stored.version ≤ v.version)
    (current : patch.current v = true) (changes : patch.applyTo v.status ≠ v.status) :
    ∃ new after, store.patchStatus stored.key patch = some (new, after) ∧
      Outdated after stored (patch.applyTo v.status).diagnostics := by
  have wrote := Store.write_wrote store { v with status := patch.applyTo v.status }
  have named : (store.write { v with status := patch.applyTo v.status }).1.key = stored.key :=
    (Store.key_of_current found : v.key = stored.key)
  have there := Store.not_gone_of_current found
  rw [← named] at there
  have stands := Store.current_of_wrote wrote there
  rw [named] at stands
  have patched : store.patchStatus stored.key patch =
      some (store.write { v with status := patch.applyTo v.status }) := by
    simp [Store.patchStatus, found, current, changes]
  have fresh := wrote.fresh
  have last := store.versions.le_last (Store.mem_of_current found)
  exact ⟨_, _, patched, _, stands, by omega, rfl⟩

theorem diagnosticsPatch_held (held : Held store stored) (diagnostics : DiagnosticData) :
    ∃ new after, store.patchStatus stored.key (diagnosticsPatch stored diagnostics) =
      some (new, after) ∧ Outdated after stored diagnostics.wire := by
  have applied := diagnosticsPatch_applyTo_created held.empty diagnostics
  have locked : (diagnosticsPatch stored diagnostics).current stored = true := by
    simp [diagnosticsPatch, MergeFrom.data, StatusPatch.current]
  have changes : (diagnosticsPatch stored diagnostics).applyTo stored.status ≠ stored.status := by
    rw [applied, held.empty]
    intro same
    cases congrArg PodCrashReportStatus.phase same
  obtain ⟨new, after, patched, outdated⟩ :=
    patchStatus_outdates held.current (le_refl _) locked changes
  rw [applied] at outdated
  exact ⟨new, after, patched, outdated⟩

theorem diagnosticsPatch_outdated {stands : DiagnosticData}
    (outdated : Outdated store stored stands) (diagnostics : DiagnosticData) :
    store.patchStatus stored.key (diagnosticsPatch stored diagnostics) = none := by
  obtain ⟨v, found, newer, -⟩ := outdated
  have refused : (diagnosticsPatch stored diagnostics).current v = false := by
    rw [Bool.eq_false_iff]
    intro current
    have same := diagnosticsPatch_current current
    simp only [PodCrashReport.version] at newer
    omega
  simp [Store.patchStatus, found, refused]

theorem interfere_held (held : Held store stored) (rival : RivalWrite) :
    Outdated (interfere store stored.key (some rival)) stored {} := by
  have kept := processedPatch_diagnostics rival.read rival.notifiedAt stored.status
  have changes : (processedPatch rival.read rival.notifiedAt).applyTo stored.status ≠ stored.status := by
    intro same
    have phase := congrArg PodCrashReportStatus.phase same
    rw [processedPatch_phase _ _ _ rival.unprocessed, held.empty] at phase
    cases phase
  obtain ⟨new, after, patched, outdated⟩ :=
    patchStatus_outdates held.current (le_refl _) rfl changes
  rw [kept, held.empty] at outdated
  simpa [interfere, patched] using outdated

/-- Nothing the controller writes makes an outdated lock current again or changes the
diagnostics. -/
theorem interfere_outdated {rival : Option RivalWrite}
    (outdated : Outdated store stored diagnostics) :
    Outdated (interfere store stored.key rival) stored diagnostics := by
  cases rival with
  | none => exact outdated
  | some rival =>
      obtain ⟨v, found, newer, same⟩ := outdated
      by_cases changes : (processedPatch rival.read rival.notifiedAt).applyTo v.status = v.status
      · have idle : store.patchStatus stored.key (processedPatch rival.read rival.notifiedAt) =
            some (v, store) := by
          have unlocked : (processedPatch rival.read rival.notifiedAt).current v = true := rfl
          simp [Store.patchStatus, found, unlocked, changes]
        simp only [interfere, idle]
        exact ⟨v, found, newer, same⟩
      · obtain ⟨new, after, patched, outdated⟩ := patchStatus_outdates found newer.le rfl changes
        rw [processedPatch_diagnostics, same] at outdated
        simpa [interfere, patched] using outdated

end Lock

/-! ## One attempt -/

/-- What `CreateCrashReport` makes of the end of its retries. -/
def returned (podMeta : PodMeta) (stored : PodCrashReport) :
    Option ApiError × Option GoError → Option GoError
  | (_, some err) => some err
  | (some e, none) => some (statusWriteError podMeta stored e)
  | (none, none) => none

section Attempts

variable (env : Env) (podMeta : PodMeta) (stored : PodCrashReport) (diagnostics : DiagnosticData)

/-- The attempts from `k` on, with `n` of them left, end in `post`, whatever the delays. -/
def Ends (n k : Nat) (store : Store) (lastErr : Option ApiError)
    (post : Option GoError → Store → Prop) : Prop :=
  ∀ (delay : Int) (log : Log),
    let out := (retryFrom statusWriteBackoff.factor (writeStatus podMeta stored diagnostics) n k delay
      lastErr).interp (handler env) log ⟨store, k⟩
    post (returned podMeta stored out.1) out.2.2.store

variable {env podMeta stored diagnostics}
variable {n k : Nat} {store : Store} {lastErr : Option ApiError}
  {post : Option GoError → Store → Prop}

theorem ends_cancelled (later : k > 0) (cancelled : env.cancelled k = true)
    (holds : post (some .canceled) store) :
    Ends env podMeta stored diagnostics (n + 1) k store lastErr post := by
  intro delay log
  rw [retryFrom_later later, Prog.interp_perform_bind]
  simp only [handler, cancelled]
  exact holds

/-- What one attempt hands to the retry loop. -/
def attempted (podMeta : PodMeta) (stored : PodCrashReport) (lastErr : Option ApiError)
    (answer : WriteAnswer) : Option ApiError × Except GoError Bool :=
  match answer.result with
  | .error e =>
      if isRetryableStatusError e then (some e, .ok false)
      else (lastErr, .error (statusWriteError podMeta stored e))
  | .ok _ => (none, .ok true)

theorem interp_writeStatus {answer : WriteAnswer} {after : Store}
    (answered : attemptAnswer (env.attempt k) (interfere store stored.key (env.rival k)) stored.key
      (diagnosticsPatch stored diagnostics) = (answer, after)) (log : Log) :
    (writeStatus podMeta stored diagnostics lastErr).interp (handler env) log ⟨store, k⟩ =
      (attempted podMeta stored lastErr answer,
        ⟨.statusPatch stored.key (diagnosticsPatch stored diagnostics), answer⟩ :: log,
        ⟨after, k + 1⟩) := by
  unfold writeStatus attempted
  rw [Prog.interp_perform_bind]
  simp only [handler, answered]
  cases result : answer.result with
  | ok v => rfl
  | error e =>
      dsimp only
      cases retryable : isRetryableStatusError e <;> rfl

/-- One attempt: it ends the call, or its error is kept and the next one follows. -/
theorem ends_attempt (goes : ¬ (k > 0 ∧ env.cancelled k = true)) {answer : WriteAnswer} {after : Store}
    (answered : attemptAnswer (env.attempt k) (interfere store stored.key (env.rival k)) stored.key
      (diagnosticsPatch stored diagnostics) = (answer, after))
    (written : ∀ v, answer.result = .ok v → post none after)
    (retried : ∀ e, answer.result = .error e → isRetryableStatusError e = true →
      Ends env podMeta stored diagnostics n (k + 1) after (some e) post)
    (failed : ∀ e, answer.result = .error e → isRetryableStatusError e = false →
      post (some (statusWriteError podMeta stored e)) after) :
    Ends env podMeta stored diagnostics (n + 1) k store lastErr post := by
  have body : ∀ delay log,
      let out := (writeStatus podMeta stored diagnostics lastErr >>=
        resume statusWriteBackoff.factor (writeStatus podMeta stored diagnostics) n k delay).interp
          (handler env) log ⟨store, k⟩
      post (returned podMeta stored out.1) out.2.2.store := by
    intro delay log
    rw [Prog.interp_bind, interp_writeStatus answered]
    unfold attempted
    cases result : answer.result with
    | ok v => exact written v result
    | error e =>
        dsimp only
        cases retryable : isRetryableStatusError e with
        | true => exact retried e result retryable _ _
        | false => exact failed e result retryable
  intro delay log
  rcases Nat.eq_zero_or_pos k with rfl | later
  · rw [retryFrom_first]
    exact body _ _
  · have elapsed : env.cancelled k = false := by
      simpa [later] using goes
    rw [retryFrom_later later, Prog.interp_perform_bind]
    simp only [handler, elapsed]
    exact body _ _

/-! ## Whole calls -/

/-- The error of a call whose lock is outdated: never nil. -/
def Blocked : Verdict → Option GoError → Prop
  | .refused, err => ∃ e, err = some e ∧ e.asStatusWrite = true
  | .cancelled, err => err = some .canceled
  | _, _ => False

theorem Blocked.ne_none {verdict : Verdict} {err : Option GoError} (blocked : Blocked verdict err) :
    err ≠ none := by
  cases verdict with
  | refused =>
      obtain ⟨e, rfl, -⟩ := blocked
      simp
  | cancelled =>
      cases blocked
      simp
  | stored => exact blocked.elim
  | ambiguous => exact blocked.elim

/-- What a verdict says of the error and the store. -/
def Verdict.Holds (diagnostics : DiagnosticData) (key : NamespacedName) :
    Verdict → Option GoError → Store → Prop
  | .stored, err, store => err = none ∧ Carries store key diagnostics
  | .ambiguous, err, store => err ≠ none ∧ Carries store key diagnostics
  | verdict, err, store => Blocked verdict err ∧ Carries store key {}

theorem Blocked.holds {verdict : Verdict} {err : Option GoError} (blocked : Blocked verdict err)
    {key : NamespacedName} (carries : Carries store key {}) :
    verdict.Holds diagnostics key err store := by
  cases verdict with
  | refused => exact ⟨blocked, carries⟩
  | cancelled => exact ⟨blocked, carries⟩
  | stored => exact blocked.elim
  | ambiguous => exact blocked.elim

theorem Ends.mono {post' : Option GoError → Store → Prop}
    (ends : Ends env podMeta stored diagnostics n k store lastErr post)
    (weaker : ∀ err after, post err after → post' err after) :
    Ends env podMeta stored diagnostics n k store lastErr post' :=
  fun delay log => weaker _ _ (ends delay log)

theorem ends_zero (failed : lastErr ≠ none) (holds : ∀ e, post (some (statusWriteError podMeta stored e)) store) :
    Ends env podMeta stored diagnostics 0 k store lastErr post := by
  intro delay log
  cases lastErr with
  | none => exact absurd rfl failed
  | some e => exact holds e

/-- An attempt with an outdated lock changes nothing; it is retried exactly when its
outcome is. -/
theorem ends_attempt_outdated {stands : DiagnosticData}
    (goes : ¬ (k > 0 ∧ env.cancelled k = true))
    (outdated : Outdated (interfere store stored.key (env.rival k)) stored stands)
    (rest : ∀ after e, Outdated after stored stands →
      Ends env podMeta stored diagnostics n (k + 1) after (some e) fun err after =>
        Blocked (settle env n (k + 1) true) err ∧ Outdated after stored stands) :
    Ends env podMeta stored diagnostics (n + 1) k store lastErr fun err after =>
      Blocked (if env.retried k then settle env n (k + 1) true else .refused) err ∧
        Outdated after stored stands := by
  have refused := diagnosticsPatch_outdated outdated diagnostics
  obtain ⟨e, answered, retries⟩ : ∃ e,
      attemptAnswer (env.attempt k) (interfere store stored.key (env.rival k)) stored.key
        (diagnosticsPatch stored diagnostics) =
          (.refused e, interfere store stored.key (env.rival k)) ∧
      env.retried k = isRetryableStatusError e := by
    unfold attemptAnswer Env.retried
    rw [refused]
    cases env.attempt k with
    | delivered => exact ⟨_, rfl, rfl⟩
    | lost => exact ⟨_, rfl, rfl⟩
    | dropped => exact ⟨_, rfl, rfl⟩
    | refused reason => exact ⟨_, rfl, rfl⟩
  refine ends_attempt goes answered (fun v result => ?_) (fun e' result retryable => ?_)
    fun e' result final => ?_
  · cases result
  · cases result
    rw [retries, retryable]
    exact rest _ _ outdated
  · cases result
    rw [retries, final]
    exact ⟨⟨_, rfl, rfl⟩, outdated⟩

theorem ends_outdated {stands : DiagnosticData} (outdated : Outdated store stored stands)
    (failed : n = 0 → lastErr ≠ none) :
    Ends env podMeta stored diagnostics n k store lastErr fun err after =>
      Blocked (settle env n k true) err ∧ Outdated after stored stands := by
  induction n generalizing k store lastErr with
  | zero => exact ends_zero (failed rfl) fun e => ⟨⟨_, rfl, rfl⟩, outdated⟩
  | succ n ih =>
      by_cases stops : k > 0 ∧ env.cancelled k = true
      · refine ends_cancelled stops.1 stops.2 ⟨?_, outdated⟩
        simp [settle, stops, Blocked]
      · have attempt : Ends env podMeta stored diagnostics (n + 1) k store lastErr _ :=
          ends_attempt_outdated stops (interfere_outdated outdated)
            fun after e outdated => ih outdated (by simp)
        simpa [settle, stops] using attempt

/-- The answer to an attempt whose lock holds: `after` is the store with the patch. -/
def heldAnswer (new : PodCrashReport) (before after : Store) : AttemptOutcome → WriteAnswer × Store
  | .delivered => (.acked new, after)
  | .lost => (.lost, after)
  | .dropped => (.refused .transport, before)
  | .refused reason => (.refused (.status reason), before)

theorem attemptAnswer_held {new : PodCrashReport} {after : Store} (rival : env.rival k = none)
    (patched : store.patchStatus stored.key (diagnosticsPatch stored diagnostics) =
      some (new, after)) (outcome : AttemptOutcome) (happens : env.attempt k = outcome) :
    attemptAnswer (env.attempt k) (interfere store stored.key (env.rival k)) stored.key
        (diagnosticsPatch stored diagnostics) = heldAnswer new store after outcome := by
  rw [happens, rival]
  cases outcome <;> simp [attemptAnswer, interfere, patched, heldAnswer]

/-- An attempt that did not reach the store leaves the lock as it is. -/
theorem ends_attempt_unapplied (goes : ¬ (k > 0 ∧ env.cancelled k = true)) (held : Held store stored)
    {e : ApiError}
    (answered : attemptAnswer (env.attempt k) (interfere store stored.key (env.rival k)) stored.key
      (diagnosticsPatch stored diagnostics) = (.refused e, store))
    (rest : ∀ e, Ends env podMeta stored diagnostics n (k + 1) store (some e) fun err after =>
      (settle env n (k + 1) false).Holds diagnostics.wire stored.key err after) :
    Ends env podMeta stored diagnostics (n + 1) k store lastErr fun err after =>
      (if isRetryableStatusError e then settle env n (k + 1) false else .refused).Holds
        diagnostics.wire stored.key err after := by
  refine ends_attempt goes answered (fun v result => ?_) (fun e' result retryable => ?_)
    fun e' result final => ?_
  · cases result
  · cases result
    rw [retryable]
    exact rest _
  · cases result
    rw [final]
    exact ⟨⟨_, rfl, rfl⟩, held.carries⟩

/-- **The code comes out as `settle` says**, as long as the report is as it was created. -/
theorem ends_held (held : Held store stored) (failed : n = 0 → lastErr ≠ none) :
    Ends env podMeta stored diagnostics n k store lastErr fun err after =>
      (settle env n k false).Holds diagnostics.wire stored.key err after := by
  induction n generalizing k store lastErr with
  | zero => exact ends_zero (failed rfl) fun e => ⟨⟨_, rfl, rfl⟩, held.carries⟩
  | succ n ih =>
      by_cases stops : k > 0 ∧ env.cancelled k = true
      · refine ends_cancelled stops.1 stops.2 ?_
        simp only [settle, stops, and_self, if_true]
        exact ⟨rfl, held.carries⟩
      cases rival : env.rival k with
      | some other =>
          -- From here on the report is outdated and without diagnostics.
          have outdated := interfere_held held other
          rw [← rival] at outdated
          have attempt : Ends env podMeta stored diagnostics (n + 1) k store lastErr _ :=
            ends_attempt_outdated stops outdated fun after e outdated =>
              ends_outdated outdated (by simp)
          refine attempt.mono fun err after ends => ?_
          have holds : Verdict.Holds diagnostics.wire stored.key _ err after :=
            ends.1.holds ends.2.carries
          simpa [settle, stops, rival] using holds
      | none =>
          obtain ⟨new, after, patched, outdated⟩ := diagnosticsPatch_held held diagnostics
          have answered := attemptAnswer_held rival patched
          cases outcome : env.attempt k with
          | delivered =>
              refine ends_attempt stops (answered _ outcome) (fun v result => ?_) (fun e result => ?_)
                fun e result => ?_
              · simp only [settle, stops, rival, outcome]
                exact ⟨rfl, outdated.carries⟩
              · cases result
              · cases result
          | lost =>
              -- The patch outdated its own lock: whatever follows, there is an error.
              refine ends_attempt stops (answered _ outcome) (fun v result => ?_)
                (fun e result retryable => ?_) fun e result final => ?_
              · cases result
              · refine (ends_outdated outdated (by simp)).mono fun err after ends => ?_
                simp only [settle, stops, rival, outcome]
                exact ⟨ends.1.ne_none, ends.2.carries⟩
              · cases result
                cases final
          | dropped =>
              have ends : Ends env podMeta stored diagnostics (n + 1) k store lastErr _ :=
                ends_attempt_unapplied stops held (answered _ outcome) fun e => ih held (by simp)
              simpa [settle, stops, rival, outcome, Env.retried, isRetryableStatusError] using ends
          | refused reason =>
              have ends : Ends env podMeta stored diagnostics (n + 1) k store lastErr _ :=
                ends_attempt_unapplied stops held (answered _ outcome) fun e => ih held (by simp)
              simpa [settle, stops, rival, outcome, Env.retried] using ends

end Attempts

/-- A creation under an unused name goes through. -/
theorem create_unused {before : Store} {report : PodCrashReport} {suffix : GoString} {createdAt : Int}
    (unused : Unused before (Store.admitted report suffix createdAt).key) :
    ∃ stored after, before.create report suffix createdAt = some (stored, after) ∧
      stored.key = (Store.admitted report suffix createdAt).key ∧ Held after stored := by
  have wrote := Store.write_wrote before (Store.admitted report suffix createdAt)
  have free : (before.history.any fun v =>
      decide (v.key = (Store.admitted report suffix createdAt).key)) = false := by
    simpa using unused.history
  have created : before.create report suffix createdAt =
      some (before.write (Store.admitted report suffix createdAt)) := by
    simp [Store.create, free]
  exact ⟨_, _, created, rfl, Store.current_of_wrote wrote unused.gone, rfl⟩

section Call

variable (env : Env) (before : Store) (r : Reporter) (event : CrashEvent) (podMeta : PodMeta)
  (logLines : List GoString)

theorem call_of_ends {stored : PodCrashReport} {after : Store} {post : Option GoError → Store → Prop}
    (acked : env.create = .acked)
    (created : before.create (newReport r event podMeta) env.suffix env.createdAt =
      some (stored, after))
    (ends : Ends env podMeta stored (diagnosticsOf event logLines) statusWriteBackoff.steps 0 after
      none post) :
    post (call env before r event podMeta logLines).1 (call env before r event podMeta logLines).2 := by
  have ended := ends statusWriteBackoff.duration
    [⟨.create (newReport r event podMeta), .acked stored⟩]
  unfold call createCrashReport
  rw [Prog.interp_perform_bind]
  simp only [handler, createAnswer, acked, created, WriteAnswer.result]
  rw [Prog.interp_bind, retryOnBackoff]
  revert ended
  generalize (retryFrom statusWriteBackoff.factor _ _ _ _ _).interp _ _ _ = out
  obtain ⟨⟨lastErr, err⟩, log, s⟩ := out
  intro ended
  cases err with
  | some err => exact ended
  | none => cases lastErr <;> exact ended

theorem call_acked (unused : Unused before (reportKey env r event podMeta))
    (acked : env.create = .acked) :
    (settle env statusWriteBackoff.steps 0 false).Holds (diagnosticsOf event logLines).wire
      (reportKey env r event podMeta) (call env before r event podMeta logLines).1
      (call env before r event podMeta logLines).2 := by
  obtain ⟨stored, after, created, named, held⟩ := create_unused unused
  rw [reportKey, ← named]
  exact call_of_ends env before r event podMeta logLines acked created (ends_held held (by decide))

theorem call_lost (unused : Unused before (reportKey env r event podMeta))
    (lost : env.create = .lost) :
    (call env before r event podMeta logLines).1 =
        some (.wrap (lit "failed to create PodCrashReport in " ++ podMeta.namespace_)
          (.api .transport)) ∧
      Carries (call env before r event podMeta logLines).2 (reportKey env r event podMeta) {} := by
  obtain ⟨stored, after, created, named, held⟩ := create_unused unused
  rw [reportKey, ← named]
  unfold call createCrashReport
  rw [Prog.interp_perform_bind]
  simp only [handler, createAnswer, lost, created]
  exact ⟨rfl, held.carries⟩

theorem call_refused {e : ApiError} (refused : env.create = .refused e) :
    call env before r event podMeta logLines =
      (some (.wrap (lit "failed to create PodCrashReport in " ++ podMeta.namespace_) (.api e)),
        before) := by
  unfold call createCrashReport
  rw [Prog.interp_perform_bind]
  simp only [handler, createAnswer, refused]
  rfl

/-! ## The result -/

/-- The verdicts in which the error tells what is stored. -/
def Verdict.Tells (verdict : Verdict) : Prop := verdict = .stored ∨ verdict = .refused

/-- Whether the report has changed before attempt `k` is prepared. -/
def Env.staleBefore (env : Env) (k : Nat) : Bool := (List.range k).any fun j => (env.rival j).isSome

theorem stale_eq (k : Nat) : env.stale k = (env.staleBefore k || (env.rival k).isSome) := by
  simp [Env.stale, Env.staleBefore, List.range_succ]

theorem staleBefore_succ (k : Nat) : env.staleBefore (k + 1) = env.stale k := rfl

theorem settle_tells_succ (n k : Nat) :
    (settle env (n + 1) k (env.staleBefore k)).Tells ↔
      (k > 0 → env.cancelled k = false) ∧ (env.attempt k = .lost → env.stale k = true) ∧
        (env.retried k = true → (settle env n (k + 1) (env.staleBefore (k + 1))).Tells) := by
  rw [staleBefore_succ, settle, ← stale_eq]
  by_cases stops : k > 0 ∧ env.cancelled k = true
  · simp [stops, Verdict.Tells]
  · have goes : k > 0 → env.cancelled k = false := by simpa using stops
    rw [if_neg stops, and_iff_right goes]
    cases stale : env.stale k with
    | true => cases retried : env.retried k <;> simp [Verdict.Tells]
    | false =>
        simp only [if_true]
        cases outcome : env.attempt k with
        | delivered => simp [Env.retried, outcome, Verdict.Tells]
        | lost => simp [Verdict.Tells]
        | dropped => simp [Env.retried, outcome]
        | refused reason => cases retried : env.retried k <;> simp [Verdict.Tells]

/-- The verdict tells what is stored when no attempt from `k` on that is made is lost on a
fresh report, and none of the waits between them is cancelled. -/
theorem settle_tells_iff (n k : Nat) :
    (settle env n k (env.staleBefore k)).Tells ↔
      (n > 0 → k > 0 → env.cancelled k = false) ∧
      ∀ j, k ≤ j → j < k + n →
        (∀ i, k ≤ i → i < j → env.retried i = true ∧ env.cancelled (i + 1) = false) →
          (env.attempt j = .lost → env.stale j = true) ∧
          (j + 1 < k + n → env.retried j = true → env.cancelled (j + 1) = false) := by
  induction n generalizing k with
  | zero =>
      refine ⟨fun _ => ⟨fun none_ => absurd none_ (by omega), fun j _ _ => by omega⟩, fun _ => .inr rfl⟩
  | succ n ih =>
      rw [settle_tells_succ, ih]
      constructor
      · rintro ⟨here, lost, rest⟩
        refine ⟨fun _ => here, fun j from_ below made => ?_⟩
        rcases Nat.eq_or_lt_of_le from_ with rfl | later
        · exact ⟨lost, fun more retried => (rest retried).1 (by omega) (by omega)⟩
        · have first := made k (le_refl k) later
          have next := (rest first.1).2 j later (by omega) fun i after => made i (by omega)
          exact ⟨next.1, fun more => next.2 (by omega)⟩
      · rintro ⟨here, all⟩
        have first := all k (le_refl k) (by omega) fun i _ _ => by omega
        refine ⟨here (by omega), first.1, fun retried => ⟨fun more _ => first.2 (by omega) retried, ?_⟩⟩
        intro j later below made
        have goes : env.cancelled (k + 1) = false := first.2 (by omega) retried
        have next := all j (by omega) (by omega) fun i after before => by
          rcases Nat.eq_or_lt_of_le after with rfl | past
          · exact ⟨retried, goes⟩
          · exact made i past before
        exact ⟨next.1, fun more => next.2 (by omega)⟩

theorem benign_iff_settle (acked : env.create = .acked) :
    Benign env ↔ (settle env statusWriteBackoff.steps 0 false).Tells := by
  have start : env.staleBefore 0 = false := rfl
  rw [← start, settle_tells_iff]
  constructor
  · intro benign
    refine ⟨fun _ absurd_ => absurd absurd_ (by omega), fun j _ below made => ⟨?_, ?_⟩⟩
    · exact benign.lost acked j (by omega) fun i before => made i (Nat.zero_le i) before
    · exact fun more => benign.cancelled acked j (by omega) fun i before =>
        made i (Nat.zero_le i) before
  · rintro ⟨-, all⟩
    refine ⟨by simp [acked], fun _ k below made => ?_, fun _ k below made => ?_⟩
    · exact (all k (Nat.zero_le k) (by omega) fun i _ before => made i before).1
    · exact (all k (Nat.zero_le k) (by omega) fun i _ before => made i before).2 (by omega)

theorem Verdict.Holds.exact_iff {diagnostics : DiagnosticData} {key : NamespacedName}
    {verdict : Verdict} {err : Option GoError} {store : Store}
    (holds : verdict.Holds diagnostics key err store) (some_ : diagnostics ≠ {}) :
    (err = none ↔ Carries store key diagnostics) ∧
        ((∃ e, err = some e ∧ e.asStatusWrite = true) ↔ Carries store key {}) ↔ verdict.Tells := by
  have one : Carries store key diagnostics → ¬ Carries store key {} :=
    fun carries empty => some_ (carries.unique empty)
  cases verdict with
  | stored =>
      obtain ⟨rfl, carries⟩ := holds
      simp [Verdict.Tells, carries, one carries]
  | refused =>
      obtain ⟨⟨e, rfl, status⟩, carries⟩ := holds
      have unstored : ¬ Carries store key diagnostics := fun full => one full carries
      simp [Verdict.Tells, carries, unstored, status]
  | cancelled =>
      obtain ⟨rfl, carries⟩ := holds
      simp [Verdict.Tells, carries, GoError.asStatusWrite]
  | ambiguous =>
      obtain ⟨fails, carries⟩ := holds
      simp [Verdict.Tells, carries, fails]

/-- **When the error of `CreateCrashReport` says what is stored**: exactly when nothing
took effect with its response lost, on a report that was still as created, and no wait
for a retry was cancelled. -/
theorem exact_iff_benign (unused : Unused before (reportKey env r event podMeta)) :
    Exact env before r event podMeta logLines ↔ Benign env := by
  cases outcome : env.create with
  | acked =>
      rw [benign_iff_settle env outcome]
      exact (call_acked env before r event podMeta logLines unused outcome).exact_iff
        (diagnosticsOf_wire_ne_empty _ _)
  | lost =>
      obtain ⟨err, carries⟩ := call_lost env before r event podMeta logLines unused outcome
      refine ⟨fun ⟨_, status⟩ => ?_, fun benign => absurd outcome benign.create⟩
      obtain ⟨e, returned, marked⟩ := status.2 carries
      rw [err] at returned
      cases returned
      cases marked
  | refused e =>
      have nothing : ∀ diagnostics, ¬ Carries before (reportKey env r event podMeta) diagnostics := by
        rintro diagnostics ⟨v, found, -⟩
        exact unused.history v (Store.mem_of_current found) (Store.key_of_current found)
      refine ⟨fun _ => ⟨by simp [outcome], by simp [outcome], by simp [outcome]⟩, fun _ => ?_⟩
      unfold Exact
      rw [call_refused env before r event podMeta logLines outcome]
      simp [nothing, GoError.asStatusWrite]

end Call

instance (store : Store) (key : NamespacedName) (diagnostics : DiagnosticData) :
    Decidable (Carries store key diagnostics) :=
  decidable_of_iff ((store.current key).any fun v => decide (v.status.diagnostics = diagnostics)) (by
    simp [Carries, Option.any_eq_true])

theorem unused_empty (key : NamespacedName) : Unused .empty key :=
  ⟨fun _ member => absurd member List.not_mem_nil, List.not_mem_nil⟩

def nodeReporter : Reporter := { nodeName := lit "node-1", podOwnerReference := false }
def oomKill : CrashEvent := { containerID := lit "c0ffee" }
def shopPod : PodMeta :=
  { podName := lit "cart", namespace_ := lit "shop", containerName := lit "app",
    podUID := lit "uid-1", logFileIndex := 0 }

/-- The first status write does not arrive; the second is delivered. -/
def droppedOnce : Env where
  create := .acked
  suffix := lit "x7f2q"
  createdAt := 0
  attempt := fun k => if k = 0 then .dropped else .delivered
  rival := fun _ => none
  cancelled := fun _ => false

theorem exact_iff_benign_droppedOnce : Exact droppedOnce .empty nodeReporter oomKill shopPod [] := by
  refine (exact_iff_benign droppedOnce .empty nodeReporter oomKill shopPod [] (unused_empty _)).2
    ⟨by decide, fun _ k _ _ lost => ?_, fun _ _ _ _ _ => rfl⟩
  simp only [droppedOnce] at lost
  split at lost <;> cases lost

/-- The first status write is applied and its response lost; the second is delivered. -/
def lostResponse : Env :=
  { droppedOnce with attempt := fun k => if k = 0 then .lost else .delivered }

/-- The first status write does not arrive, and the agent is stopped in the wait after it. -/
def stoppedInWait : Env := { droppedOnce with cancelled := fun _ => true }

/-- **A lost response is reported as a lost write**: the retry is refused by the version
the first attempt itself wrote, so the diagnostics are stored and the error is a
`StatusWriteError`.  A wait that is cancelled hides a missing status write instead. -/
theorem lostResponse_misreported :
    (¬ Exact lostResponse .empty nodeReporter oomKill shopPod [] ∧
      ∃ err, (call lostResponse .empty nodeReporter oomKill shopPod []).1 = some err ∧
        err.asStatusWrite = true ∧
        Carries (call lostResponse .empty nodeReporter oomKill shopPod []).2
          (reportKey lostResponse nodeReporter oomKill shopPod) (diagnosticsOf oomKill []).wire) ∧
    (¬ Exact stoppedInWait .empty nodeReporter oomKill shopPod [] ∧
      ∃ err, (call stoppedInWait .empty nodeReporter oomKill shopPod []).1 = some err ∧
        err.asStatusWrite = false ∧
        Carries (call stoppedInWait .empty nodeReporter oomKill shopPod []).2
          (reportKey stoppedInWait nodeReporter oomKill shopPod) {}) := by
  have stored : Carries (call lostResponse .empty nodeReporter oomKill shopPod []).2
      (reportKey lostResponse nodeReporter oomKill shopPod) (diagnosticsOf oomKill []).wire := by
    decide +kernel
  have missing : Carries (call stoppedInWait .empty nodeReporter oomKill shopPod []).2
      (reportKey stoppedInWait nodeReporter oomKill shopPod) {} := by
    decide +kernel
  refine ⟨⟨fun exact_ => ?_, _, rfl, rfl, stored⟩, ⟨fun exact_ => ?_, _, rfl, rfl, missing⟩⟩
  · cases exact_.1.2 stored
  · obtain ⟨err, returned, status⟩ := exact_.2.2 missing
    cases returned
    cases status

end KubeAutopsy.Agent.Classification
