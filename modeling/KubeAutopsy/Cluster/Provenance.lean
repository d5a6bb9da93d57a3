/-
# KubeAutopsy.Cluster.Provenance — every stored report is one crash event's, and stays so

A report is created by one agent and patched by two writers that find it by name, and
names are made up by the server.  Still nothing is ever mixed up: `Authored` is the
invariant that every name has one author, the call of `CreateCrashReport` whose creation
was stored under it.  All that is stored under the name is what that call wrote, its
diagnostics included, and a call never has two names.

* The lock of the agent's patch is on the version its own creation returned, so the
  diagnostics of one event cannot end up in the report of another.
* The controller's patch carries nothing that describes the crash.
-/
import KubeAutopsy.Cluster.Monotone

namespace KubeAutopsy.Cluster

open KubeAutopsy.Agent
open KubeAutopsy.Api
open KubeAutopsy.Controller
open KubeAutopsy.Theory.Bytes (GoString lit)
open KubeAutopsy.Theory.History
open KubeAutopsy.Theory.Program
open KubeAutopsy.Theory.Transition

set_option autoImplicit false

/-! ## What is written once -/

/-- All of a stored report but its version and its status. -/
def identity (v : PodCrashReport) : ObjectMeta × PodCrashReportSpec :=
  ({ v.metadata with resourceVersion := 0 }, v.spec)

theorem identity_key {u v : PodCrashReport} (same : identity u = identity v) : u.key = v.key := by
  have names := congrArg (fun fixed : ObjectMeta × PodCrashReportSpec =>
    (⟨fixed.1.namespace_, fixed.1.name⟩ : NamespacedName)) same
  exact names

/-- `v` is a version of the report that this call of `CreateCrashReport` files: what the
server made of the object it sent, with no diagnostics yet or with those of the event, as they
arrive. -/
structure FiledBy (r : Reporter) (event : CrashEvent) (podMeta : PodMeta)
    (logLines : List GoString) (v : PodCrashReport) : Prop where
  admitted : ∃ (suffix : GoString) (createdAt : Int),
    identity v = identity (Store.admitted (newReport r event podMeta) suffix createdAt)
  diagnostics : v.status.diagnostics = {} ∨
    v.status.diagnostics = (diagnosticsOf event logLines).wire

/-- The job files `v`. -/
def Job.Files (v : PodCrashReport) : Job → Prop
  | .report r event podMeta logLines => FiledBy r event podMeta logLines v
  | _ => False

/-- A later version with the same identity and no other diagnostics is filed by the same job. -/
theorem Job.Files.congr {job : Job} {u v : PodCrashReport} (files : job.Files u)
    (same : identity v = identity u) (kept : v.status.diagnostics = u.status.diagnostics) :
    job.Files v := by
  cases job with
  | report r event podMeta logLines =>
      obtain ⟨⟨suffix, createdAt, admitted⟩, diagnostics⟩ := files
      exact ⟨⟨suffix, createdAt, same.trans admitted⟩, kept ▸ diagnostics⟩
  | reconcile r key => exact files
  | collect gc sorter => exact files

/-! ## What the server keeps -/

section Kept

variable {s s' : Store} {stored : PodCrashReport}

theorem create_identity {report : PodCrashReport} {suffix : GoString} {createdAt : Int}
    (created : s.create report suffix createdAt = some (stored, s')) :
    identity stored = identity (Store.admitted report suffix createdAt) := by
  unfold Store.create at created
  split at created
  · cases created
  · cases created
    rfl

theorem patchStatus_identity {key : NamespacedName} {patch : StatusPatch} {old : PodCrashReport}
    (current : s.current key = some old)
    (patched : s.patchStatus key patch = some (stored, s')) : identity stored = identity old := by
  unfold Store.patchStatus at patched
  rw [current] at patched
  dsimp only at patched
  split at patched
  · cases patched
  · split at patched <;> cases patched <;> rfl

/-- A creation is stored under a new name, and the thread hears so or hears nothing, or
it is refused. -/
theorem create_cases {w : World} {choice : Choice} {report : PodCrashReport} {r : WriteAnswer}
    {store : Store} (answered : w.respond (.create report) choice = some (r, store)) :
    (∃ stored suffix createdAt, w.store.create report suffix createdAt = some (stored, store) ∧
        (r = .acked stored ∨ r = .lost)) ∨
      ∃ e, r = .refused e ∧ store = w.store := by
  cases choice with
  | named suffix createdAt acked =>
      simp only [World.respond] at answered
      split at answered
      · rename_i stored after created
        cases answered
        refine .inl ⟨stored, suffix, createdAt, created, ?_⟩
        cases acked with
        | true => exact .inl rfl
        | false => exact .inr rfl
      · cases answered
  | refuse e =>
      cases answered
      exact .inr ⟨e, rfl, rfl⟩
  | _ => cases answered

end Kept

/-! ## The invariant -/

/-- `author` names the thread each report was created by. -/
structure Authored (w : World) (author : NamespacedName → Nat) : Prop where
  filed : ∀ v ∈ w.store.history,
    ∃ t, w.threads[author v.key]? = some t ∧ t.log ≠ [] ∧ t.job.Files v
  single : ∀ u ∈ w.store.history, ∀ v ∈ w.store.history,
    author u.key = author v.key → u.key = v.key
  unchanged : ∀ u ∈ w.store.history, ∀ v ∈ w.store.history, u.key = v.key →
    identity u = identity v
  acked : ∀ (i : Nat) (t : Thread) (report stored : PodCrashReport), w.threads[i]? = some t →
    Did t.log (.create report) (.acked stored) → author stored.key = i

section Step

variable {cfg : Config} {w w' : World} {l : Label} {author : NamespacedName → Nat}

/-- A thread that was there is still there, under its index, with the same job and a log
that is not empty unless it was. -/
theorem threads_kept (moved : Moved cfg w l w') {i : Nat} {t : Thread} (found : w.threads[i]? = some t) :
    ∃ t', w'.threads[i]? = some t' ∧ t'.job = t.job ∧ (t.log ≠ [] → t'.log ≠ []) := by
  cases moved with
  | idle clock store threads => exact ⟨t, threads ▸ found, rfl, id⟩
  | spawned starts =>
      have bound : i < w.threads.length := (List.getElem?_eq_some_iff.1 found).1
      exact ⟨t, by simpa [World.spawn, List.getElem?_append_left bound] using found, rfl, id⟩
  | performed here alive next answered =>
      rename_i j choice u o k r store
      by_cases same : j = i
      · subst same
        obtain rfl : u = t := Option.some.inj (here.symm.trans found)
        exact ⟨_, getElem?_advance_self found, rfl, fun _ => List.cons_ne_nil _ _⟩
      · exact ⟨t, by simpa [World.advance, List.getElem?_set_ne same] using found, rfl, id⟩

theorem Authored.kept (authored : Authored w author) (moved : Moved cfg w l w')
    {v : PodCrashReport} (member : v ∈ w.store.history) :
    ∃ t, w'.threads[author v.key]? = some t ∧ t.log ≠ [] ∧ t.job.Files v := by
  obtain ⟨t, found, performed, files⟩ := authored.filed v member
  obtain ⟨t', found', job, still⟩ := threads_kept moved found
  exact ⟨t', found', still performed, job ▸ files⟩

/-- When no name is added the authors stay who they are. -/
theorem Authored.same_names (authored : Authored w author) (moved : Moved cfg w l w')
    (versions : ∀ v ∈ w'.store.history, v ∈ w.store.history ∨
      ∃ u ∈ w.store.history, identity v = identity u ∧
        ∀ t, w.threads[author u.key]? = some t → t.job.Files u → t.job.Files v)
    (acks : ∀ (i : Nat) (t : Thread) (report stored : PodCrashReport), w'.threads[i]? = some t →
      Did t.log (.create report) (.acked stored) →
      ∃ t', w.threads[i]? = some t' ∧ Did t'.log (.create report) (.acked stored)) :
    Authored w' author := by
  -- Every version has the identity of one that was there, so its name and author too.
  have old : ∀ v ∈ w'.store.history, ∃ u ∈ w.store.history, identity v = identity u := by
    intro v member
    rcases versions v member with before | ⟨u, before, same, -⟩
    · exact ⟨v, before, rfl⟩
    · exact ⟨u, before, same⟩
  refine ⟨fun v member => ?_, fun u first v second same => ?_, fun u first v second same => ?_, ?_⟩
  · rcases versions v member with before | ⟨u, before, same, still⟩
    · exact authored.kept moved before
    · obtain ⟨t, found, performed, files⟩ := authored.filed u before
      obtain ⟨t', found', job, logged⟩ := threads_kept moved found
      rw [identity_key same]
      exact ⟨t', found', logged performed, job ▸ still t found files⟩
  · obtain ⟨u', first', u_same⟩ := old u first
    obtain ⟨v', second', v_same⟩ := old v second
    rw [identity_key u_same, identity_key v_same] at same ⊢
    exact authored.single u' first' v' second' same
  · obtain ⟨u', first', u_same⟩ := old u first
    obtain ⟨v', second', v_same⟩ := old v second
    rw [identity_key u_same, identity_key v_same] at same
    rw [u_same, v_same]
    exact authored.unchanged u' first' v' second' same
  · intro i t report stored found did
    obtain ⟨t', before, did'⟩ := acks i t report stored found did
    exact authored.acked i t' report stored before did'

/-- A status patch that took effect is filed by the author of what it was applied to. -/
theorem files_patched (sound : Sound cfg w) (authored : Authored w author) {i : Nat} {t : Thread}
    {key : NamespacedName} {patch : StatusPatch} {k : WriteAnswer → M Unit}
    {old stored : PodCrashReport} {store : Store} (found : w.threads[i]? = some t)
    (next : t.prog = .op (.statusPatch key patch) k) (current : w.store.current key = some old)
    (done : w.store.patchStatus key patch = some (stored, store)) {t' : Thread}
    (at_ : w.threads[author old.key]? = some t') (files : t'.job.Files old) :
    t'.job.Files stored := by
  have same := patchStatus_identity current done
  obtain ⟨base, current', lock, status, -⟩ := (Store.patchStatus_spec done).base
  obtain rfl : base = old := Option.some.inj (current'.symm.trans current)
  have allowed := sound.guarantee found next
  cases job : t.job with
  | report r event podMeta logLines =>
      rw [job] at allowed
      obtain ⟨report, created, did, named, rfl⟩ := allowed
      -- The lock names the author's own creation, so the patch is the author's.
      have mine : author base.key = i := by
        rw [Store.key_of_current current, named]
        exact authored.acked i t report created found did
      rw [mine] at at_
      obtain rfl : t = t' := Option.some.inj (found.symm.trans at_)
      rw [job] at files ⊢
      obtain ⟨told, empty⟩ := sound.told t (List.mem_of_getElem? found) _ did created rfl
      obtain rfl : created = base :=
        Versions.eq_of_version told (Store.mem_of_current current) (diagnosticsPatch_current lock)
      obtain ⟨⟨suffix, createdAt, admitted⟩, -⟩ := files
      refine ⟨⟨suffix, createdAt, same.trans admitted⟩, .inr ?_⟩
      rw [status, diagnosticsPatch_applyTo_created empty]
  | reconcile r key' =>
      rw [job] at allowed
      obtain ⟨rfl, -, v, n, -, -, rfl⟩ := allowed
      refine files.congr same ?_
      rw [status, processedPatch_diagnostics]
  | collect gc sorter =>
      rw [job] at allowed
      exact allowed.elim

/-- A creation that took effect gives a new name its author. -/
theorem Authored.created (sound : Sound cfg w) (authored : Authored w author) {i : Nat}
    {choice : Choice} {t : Thread} {report stored : PodCrashReport} {k : WriteAnswer → M Unit}
    {r : WriteAnswer} {suffix : GoString} {createdAt : Int} {store : Store}
    (moved : Moved cfg w (.perform i choice) (w.advance i t (.create report) r (k r) store))
    (found : w.threads[i]? = some t) (next : t.prog = .op (.create report) k)
    (done : w.store.create report suffix createdAt = some (stored, store))
    (answer : r = .acked stored ∨ r = .lost) :
    Authored (w.advance i t (.create report) r (k r) store)
      (fun key => if key = stored.key then i else author key) := by
  obtain ⟨wrote, fresh, status⟩ := Store.create_spec done
  have allowed := sound.guarantee found next
  obtain ⟨reporter, event, podMeta, logLines, job⟩ :
      ∃ reporter event podMeta logLines, t.job = .report reporter event podMeta logLines := by
    cases job : t.job with
    | report reporter event podMeta logLines => exact ⟨_, _, _, _, rfl⟩
    | reconcile r key =>
        rw [job] at allowed
        exact allowed.elim
    | collect gc sorter =>
        rw [job] at allowed
        exact allowed.elim
  rw [job] at allowed
  obtain ⟨first, rfl⟩ := allowed
  -- This is the thread's first operation, so it is the author of nothing yet.
  have unused : ∀ v ∈ w.store.history, author v.key ≠ i := by
    intro v member same
    obtain ⟨t', at_, performed, -⟩ := authored.filed v member
    rw [same, found] at at_
    cases at_
    exact performed first
  have others : ∀ v ∈ w.store.history, (if v.key = stored.key then i else author v.key) = author v.key :=
    fun v member => if_neg (fresh v member)
  have entries : ∀ v ∈ (w.advance i t (.create (newReport reporter event podMeta)) r (k r) store).store.history,
      v = stored ∨ v ∈ w.store.history := fun v member => by
    have listed : v ∈ store.history := member
    rw [wrote.history] at listed
    exact List.mem_cons.1 listed
  refine ⟨fun v member => ?_, fun u before v after same => ?_, fun u before v after same => ?_, ?_⟩
  · rcases entries v member with rfl | before
    · rw [if_pos rfl]
      refine ⟨_, getElem?_advance_self found, List.cons_ne_nil _ _, ?_⟩
      dsimp only
      rw [job]
      exact ⟨⟨suffix, createdAt, create_identity done⟩, .inl (by rw [status])⟩
    · rw [others v before]
      exact authored.kept moved before
  · rcases entries u before with rfl | u_before <;> rcases entries v after with rfl | v_before
    · rfl
    · rw [if_pos rfl, others v v_before] at same
      exact absurd same.symm (unused v v_before)
    · rw [if_pos rfl, others u u_before] at same
      exact absurd same (unused u u_before)
    · rw [others u u_before, others v v_before] at same
      exact authored.single u u_before v v_before same
  · rcases entries u before with rfl | u_before <;> rcases entries v after with rfl | v_before
    · rfl
    · exact absurd same.symm (fresh v v_before)
    · exact absurd same (fresh u u_before)
    · exact authored.unchanged u u_before v v_before same
  · intro j t' report' stored' at_ did
    rcases getElem?_advance at_ with ⟨-, before⟩ | ⟨rfl, rfl⟩
    · -- A report acknowledged earlier is stored, so its name is not the new one.
      have known := (sound.told t' (List.mem_of_getElem? before) _ did stored' rfl).1
      rw [if_neg (fresh stored' known)]
      exact authored.acked j t' report' stored' before did
    · rcases List.mem_cons.1 did with same | before
      · cases same
        rcases answer with acked | lost
        · cases acked
          exact if_pos rfl
        · cases lost
      · rw [first] at before
        cases before

theorem authored_step (sound : Sound cfg w) (authored : Authored w author) (moved : Moved cfg w l w') :
    ∃ author', Authored w' author' := by
  have moved' := moved
  cases moved with
  | idle clock store threads =>
      refine ⟨author, authored.same_names moved' (fun v member => .inl (store ▸ member)) ?_⟩
      exact fun i t report stored found did => ⟨t, threads ▸ found, did⟩
  | spawned starts =>
      refine ⟨author, authored.same_names moved' (fun v member => .inl member) ?_⟩
      intro i t report stored found did
      rcases getElem?_spawn found with before | ⟨-, rfl⟩
      · exact ⟨t, before, did⟩
      · simp [Did] at did
  | performed found alive next answered =>
      rename_i i choice t o k r store
      -- An answer that is no acknowledged creation leaves the acknowledged ones as they were.
      have acks : (∀ report stored, (⟨o, r⟩ : Entry Op Op.Resp) ≠ ⟨.create report, .acked stored⟩) →
          ∀ (j : Nat) (u : Thread) (report stored : PodCrashReport),
            (w.advance i t o r (k r) store).threads[j]? = some u →
            Did u.log (.create report) (.acked stored) →
            ∃ u', w.threads[j]? = some u' ∧ Did u'.log (.create report) (.acked stored) := by
        intro other j u report stored at_ did
        rcases getElem?_advance at_ with ⟨-, before⟩ | ⟨rfl, rfl⟩
        · exact ⟨u, before, did⟩
        · rcases List.mem_cons.1 did with now | before
          · exact absurd now.symm (other report stored)
          · exact ⟨t, found, before⟩
      obtain ⟨touches, -⟩ := respond_spec answered (le_refl w.clock)
      cases o with
      | create report =>
          rcases create_cases answered with ⟨stored, suffix, createdAt, done, answer⟩ | ⟨e, rfl, rfl⟩
          · exact ⟨_, authored.created sound moved' found next done answer⟩
          · exact ⟨author, authored.same_names moved' (fun v member => .inl member) (acks (by simp))⟩
      | statusPatch key patch =>
          refine ⟨author, authored.same_names moved' ?_ (acks (by simp))⟩
          rcases statusPatch_cases answered with ⟨stored, done, -⟩ | ⟨e, -, -, rfl⟩
          · have patched := Store.patchStatus_spec done
            obtain ⟨old, current, -⟩ := patched.base
            intro v member
            rcases patched.effect with ⟨-, rfl⟩ | wrote
            · exact .inl member
            · have listed : v ∈ store.history := member
              rw [wrote.history] at listed
              rcases List.mem_cons.1 listed with rfl | before
              · exact .inr ⟨old, Store.mem_of_current current, patchStatus_identity current done,
                  fun t' at_ files => files_patched sound authored found next current done at_ files⟩
              · exact .inl before
          · exact fun v member => .inl member
      | delete report =>
          refine ⟨author, authored.same_names moved' ?_ (acks (by simp))⟩
          intro v member
          have listed : v ∈ store.history := member
          cases touches with
          | nothing => exact .inl listed
          | deleted versions gone =>
              rw [Store.history, versions] at listed
              exact .inl listed
      | _ =>
          cases touches
          exact ⟨author, authored.same_names moved' (fun v member => .inl member) (acks (by simp))⟩

end Step

theorem authored_of_reach {cfg : Config} {G : World → Label → Prop} {w : World}
    (reached : Reach (system cfg) G w) : ∃ author, Authored w author := by
  refine reached.induction (I := fun w => ∃ author, Authored w author) (fun w start => ?_)
    fun w l w' reached authored _ taken => ?_
  · obtain ⟨empty, -, -, none_⟩ := start
    refine ⟨fun _ => 0, ?_⟩
    constructor <;> simp [empty, none_, Store.history, Store.empty, Versions.empty]
  · obtain ⟨author, authored⟩ := authored
    exact authored_step (sound_of_reach reached) authored (moved_of_step taken)

/-- A stored report has an author that is a call of `CreateCrashReport`. -/
theorem Authored.event {w : World} {author : NamespacedName → Nat} (authored : Authored w author)
    {v : PodCrashReport} (member : v ∈ w.store.history) :
    ∃ t r event podMeta logLines, w.threads[author v.key]? = some t ∧
      t.job = .report r event podMeta logLines ∧ FiledBy r event podMeta logLines v := by
  obtain ⟨t, found, -, files⟩ := authored.filed v member
  cases job : t.job with
  | report r event podMeta logLines =>
      rw [job] at files
      exact ⟨t, r, event, podMeta, logLines, found, job, files⟩
  | reconcile r key =>
      rw [job] at files
      exact files.elim
  | collect gc sorter =>
      rw [job] at files
      exact files.elim

/-- **A report is one crash event's**, on a server that generates no name twice.  In every
reachable state the names of the reports belong to different calls of `CreateCrashReport`, each
version under a name is what the server made of the object its call sent, with no diagnostics yet
or with exactly those of its call as they arrive, and all but the version number and the status is
the same in every version. -/
theorem report_of_one_event (cfg : Config) {w : World} (reached : Reach (system cfg) anyStep w) :
    ∃ author : NamespacedName → Nat,
      (∀ v ∈ w.store.history, ∃ t r event podMeta logLines, w.threads[author v.key]? = some t ∧
        t.job = .report r event podMeta logLines ∧ FiledBy r event podMeta logLines v) ∧
      ∀ u ∈ w.store.history, ∀ v ∈ w.store.history,
        (author u.key = author v.key ↔ u.key = v.key) ∧
          (u.key = v.key → identity u = identity v) := by
  obtain ⟨author, authored⟩ := authored_of_reach reached
  refine ⟨author, fun v member => authored.event member, fun u first v second => ⟨⟨?_, ?_⟩, ?_⟩⟩
  · exact authored.single u first v second
  · exact congrArg author
  · exact authored.unchanged u first v second

/-- Two containers of one pod are killed at once, and their agents' writes alternate. -/
def twoCrashes : List Label :=
  [.report cartReporter cartEvent cartMeta [lit "first"],
    .report cartReporter { containerID := lit "b1" } cartMeta [lit "second"],
    .perform 0 (.named (lit "x7f2q") 0 true), .perform 1 (.named (lit "b9k4d") 0 true),
    .perform 1 .ack, .perform 0 .ack]

/-- Each keeps its own log lines, and they have different authors. -/
theorem report_of_one_event_twoCrashes :
    ∃ (w : World) (u v : PodCrashReport), u ∈ w.store.history ∧ v ∈ w.store.history ∧
      u.spec = v.spec ∧ u.status.diagnostics.lastLogLines = [lit "first"] ∧
      v.status.diagnostics.lastLogLines = [lit "second"] ∧ u.key ≠ v.key ∧
      ∃ author : NamespacedName → Nat, author u.key ≠ author v.key ∧
        ∃ t r event podMeta logLines, w.threads[author v.key]? = some t ∧
          t.job = .report r event podMeta logLines ∧ FiledBy r event podMeta logLines v := by
  have ran : ((run (system alerting) quiet twoCrashes).any fun w =>
      (w.store.history[0]?).any fun u => (w.store.history[1]?).any fun v =>
        decide (u.spec = v.spec ∧ u.status.diagnostics.lastLogLines = [lit "first"] ∧
          v.status.diagnostics.lastLogLines = [lit "second"] ∧ u.key ≠ v.key)) = true := by
    decide +kernel
  simp only [Option.any_eq_true, decide_eq_true_eq] at ran
  obtain ⟨w, reaches, u, newest, v, older, spec, first, second, names⟩ := ran
  have here := List.mem_of_getElem? newest
  have there := List.mem_of_getElem? older
  obtain ⟨author, filed, apart⟩ :=
    report_of_one_event alerting (reach_of_run quiet_initial reaches)
  refine ⟨w, u, v, here, there, spec, first, second, names, author, ?_, filed v there⟩
  exact fun same => names ((apart u here v there).1.1 same)

end KubeAutopsy.Cluster
