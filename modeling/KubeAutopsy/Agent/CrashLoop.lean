/-
# KubeAutopsy.Agent.CrashLoop — how often a crash loop reports

The cooldown is keyed on the runtime ID of the killed container, and a restarted container
has a new one.  With the pods listed truthfully, a report names the container its event's
ID belongs to (`created_own`).

* `reports_once_per_window`: reports of one container are at least the window apart if each
  kill of another incarnation is.
* `crashLoop_reportsAgain`: a container that is restarted and killed again within the window
  is reported twice.
-/
import KubeAutopsy.Agent.Attribution
import KubeAutopsy.Agent.Suppression

namespace KubeAutopsy.Agent

open KubeAutopsy.Api
open KubeAutopsy.Theory.Bytes (GoString lit)
open KubeAutopsy.Theory.Clock
open KubeAutopsy.Theory.Program

set_option autoImplicit false

/-! ## The container a report is about -/

/-- The pod UID and the container name that a runtime ID belongs to.  A restart has a fresh
ID, so an ID belongs to one container, and a container may have many. -/
abbrev Owner := GoString → GoString × GoString

def ownerOf (report : PodCrashReport) : GoString × GoString :=
  (report.spec.podUID, report.spec.containerName)

/-- The pods show an ID only in the container it belongs to. -/
def Tells (owner : Owner) (pods : List Pod) : Prop :=
  ∀ id podMeta, findPod id pods = some podMeta →
    (podMeta.podUID, podMeta.containerName) = owner id

/-- A listing of a node's pods shows an ID only in the container it belongs to. -/
theorem tells_listing {κ : Type} {node : Attribution.Node κ} (listing : Attribution.Listing node)
    {owner : Owner}
    (belongs : ∀ c j, j ≤ node.current c → owner (node.runtimeID c j) = (node.podUID c, node.name c)) :
    Tells owner listing.pods := by
  intro id podMeta found
  obtain ⟨c, j, ⟨started, rfl⟩, rfl⟩ := Attribution.findPod_owner found
  exact (belongs c j started).symm

/-- The report an entry created. -/
def creation : Entry Op Op.Resp → Option PodCrashReport
  | ⟨.create report, answer⟩ => if answer.applied then some report else none
  | _ => none

/-- The reports that were created, whether or not the agent was told. -/
def created (log : Log) : List PodCrashReport := log.filterMap creation

theorem created_eq (log : Log) :
    created log = (creations log).filterMap fun c => if c.2.applied then some c.1 else none := by
  unfold created creations
  rw [List.filterMap_filterMap]
  refine List.filterMap_congr fun e _ => ?_
  obtain ⟨o, answer⟩ := e
  cases o <;> rfl

theorem ownerOf_newReport (r : Reporter) (event : CrashEvent) (podMeta : PodMeta) :
    ownerOf (newReport r event podMeta) = (podMeta.podUID, podMeta.containerName) := by
  unfold newReport setOwnerReference
  dsimp only
  split
  · split <;> rfl
  · rfl

/-- **A worker creates one report, for the container its event is of**, on a node whose pods are
listed truthfully. -/
theorem created_own {owner : Owner} {r : Reporter} {event : CrashEvent} {log : Log}
    (filed : FiledOnce r event log)
    (told : ∀ nodeName pods, Did log (.listPods nodeName) (.listed pods) → Tells owner pods) :
    (created log).length ≤ 1 ∧ ∀ report ∈ created log, ownerOf report = owner event.containerID := by
  rw [created_eq]
  rcases filed with none_ | ⟨podMeta, answer, ⟨named, pods, did, found⟩, asked⟩
  · simp [none_]
  · have own : ownerOf (newReport r event podMeta) = owner event.containerID :=
      (ownerOf_newReport r event podMeta).trans (told _ pods did _ _ found)
    rw [asked]
    by_cases applied : answer.applied = true
    · simp [applied, own]
    · simp [applied]

namespace Run

open KubeAutopsy.Theory.Transition

/-! ## One report in every window -/

/-- Every worker has an event of its own and creates at most one report, and the events of
two reports of one container are at least the window apart. -/
def OncePerWindow (cfg : AgentConfig) (p : Pool) : Prop :=
  (p.workers.map fun u => u.kill.seq).Nodup ∧
  (∀ u ∈ p.workers, (created u.log).length ≤ 1) ∧
  ∀ u ∈ p.workers, ∀ v ∈ p.workers, u.kill.seq < v.kill.seq →
    ∀ a ∈ created u.log, ∀ b ∈ created v.log, ownerOf a = ownerOf b →
      cfg.reportCooldown ≤ sub v.kill.crash.detectedAt u.kill.crash.detectedAt

instance (cfg : AgentConfig) (p : Pool) : Decidable (OncePerWindow cfg p) :=
  inferInstanceAs (Decidable (_ ∧ _ ∧ _))

/-- The pods a worker is told of are listed truthfully. -/
def Truthful (owner : Owner) : Label → Prop
  | .pool (.perform _ answers) =>
      ∀ nodeName pods, answers (.listPods nodeName) = .listed pods → Tells owner pods
  | _ => True

/-- A container that is killed was not killed under another ID less than the window ago. -/
def outlivesWindow (cfg : AgentConfig) (owner : Owner) (s : State) : Label → Bool
  | .pool (.read (.event raw)) =>
      let id := (crashEvent cfg.pageSize raw s.clock).containerID
      s.pool.kills.all fun kill =>
        decide (owner kill.crash.containerID = owner id → kill.crash.containerID ≠ id →
          cfg.reportCooldown ≤ sub s.clock kill.crash.detectedAt)
  | _ => true

/-- Kills of two incarnations of one container are at least the window apart. -/
def Spaced (cfg : AgentConfig) (owner : Owner) (p : Pool) : Prop :=
  ∀ a ∈ p.kills, ∀ b ∈ p.kills, a.seq < b.seq →
    owner a.crash.containerID = owner b.crash.containerID →
    a.crash.containerID ≠ b.crash.containerID →
    cfg.reportCooldown ≤ sub b.crash.detectedAt a.crash.detectedAt

section Guarded

variable {cfg : AgentConfig} {owner : Owner} {s : State}

theorem Spaced.stirred {l : PoolLabel} {p : Pool} (spaced : Spaced cfg owner s.pool)
    (timed : Timed s.clock s.pool) (outlives : outlivesWindow cfg owner s (.pool l) = true)
    (stirs : Stirs cfg s.clock s.ctxDone s.pool l p) : Spaced cfg owner p := by
  intro a one b two before same other
  rcases stirs.kills with ⟨-, moved⟩ | ⟨raw, rfl, -, kills⟩
  · exact spaced a (moved.mem_iff.1 one) b (moved.mem_iff.1 two) before same other
  · rw [kills, List.mem_append, List.mem_singleton] at one two
    rcases two with old | rfl
    · rcases one with old' | rfl
      · exact spaced a old' b old before same other
      · -- The new event has the highest number.
        have := timed.below b old
        dsimp only at before
        omega
    · rcases one with old | rfl
      · have guard := List.all_eq_true.1 outlives a old
        exact of_decide_eq_true guard same other
      · exact absurd before (Nat.lt_irrefl _)

theorem spaced_of_reach (reached : Reach (system cfg)
      (fun s l => Truthful owner l ∧ outlivesWindow cfg owner s l = true) s) :
    Spaced cfg owner s.pool := by
  refine reached.induction (I := fun s => Spaced cfg owner s.pool) ?_ ?_
  · intro s start a one
    rw [start.2.2.2] at one
    simp [Pool.kills, Reader.inHand] at one
  · intro s l s' before spaced guard taken
    cases moved_of_step taken with
    | pool stirs => exact spaced.stirred (timed_of_reach before) guard.2 stirs
    | main steers =>
        rw [steers.pool]
        exact spaced

/-- What the workers are told of the pods is true. -/
theorem told_of_reach {G : State → Label → Prop} (reached : Reach (system cfg) G s)
    (truthful : ∀ s l, G s l → Truthful owner l) :
    ∀ u ∈ s.pool.workers, ∀ nodeName pods,
      Did u.log (.listPods nodeName) (.listed pods) → Tells owner pods := by
  refine reached.invariant (I := fun s : State => ∀ u ∈ s.pool.workers, ∀ nodeName pods,
    Did u.log (.listPods nodeName) (.listed pods) → Tells owner pods) ?_ ?_
  · intro s start u member
    rw [start.2.2.2] at member
    cases member
  · intro s l s' told guard taken
    cases moved_of_step taken with
    | pool stirs =>
        refine stirs.keepsLog (P := fun _ log _ => ∀ nodeName pods,
          Did log (.listPods nodeName) (.listed pods) → Tells owner pods) ?_ ?_ told
        · exact fun _ _ _ did => nomatch did
        · rintro i answers event log o k rfl told nodeName pods did
          rcases List.mem_cons.1 did with here | before
          · injection here with op same
            subst op
            exact truthful _ _ guard nodeName pods (eq_of_heq same).symm
          · exact told nodeName pods before
    | main steers =>
        rw [steers.pool]
        exact told

/-- **A crash loop reports once per window** if each kill of another incarnation of a
container comes at least the window after it. -/
theorem reports_once_per_window (cfg : AgentConfig) (owner : Owner) {s : State}
    (reached : Reach (system cfg)
      (fun s l => Truthful owner l ∧ outlivesWindow cfg owner s l = true) s) :
    OncePerWindow cfg s.pool := by
  have watched := watched_of_reach reached
  have books := books_of_reach reached
  have spaced := spaced_of_reach reached
  have own : ∀ u ∈ s.pool.workers, (created u.log).length ≤ 1 ∧
      ∀ report ∈ created u.log, ownerOf report = owner u.kill.crash.containerID :=
    fun u member => created_own (books.works u member).filedOnce
      (told_of_reach reached (fun _ _ guard => guard.1) u member)
  refine ⟨books.workers_distinct, fun u member => (own u member).1, ?_⟩
  intro u one v two before a first b second same
  have container : owner u.kill.crash.containerID = owner v.kill.crash.containerID := by
    rw [← (own u one).2 a first, ← (own v two).2 b second, same]
  by_cases id : u.kill.crash.containerID = v.kill.crash.containerID
  · -- One incarnation: the cooldown keeps its events apart.
    by_contra within
    refine watched.apart _ (worker_admitted one) _ (worker_admitted two) ⟨before, id, ?_⟩
    omega
  · exact spaced _ (worker_kills one) _ (worker_kills two) before container id

end Guarded

/-! ## A container that is restarted at once -/

/-- The pod once the kubelet has published the restart of its container. -/
def restartedCart : Pod :=
  { cartPod with
    containerStatuses :=
      [{ name := lit "app", containerID := lit "containerd://decaf0", restartCount := 1
         lastTerminated := some (lit "containerd://c0ffee") }] }

/-- The node of that pod: the one container it runs has been restarted once, with a fresh
runtime ID. -/
def cartNode : Attribution.Node Unit where
  namespace_ _ := lit "shop"
  podName _ := lit "cart"
  podUID _ := lit "uid-1"
  name _ := lit "app"
  scheme _ := lit "containerd"
  current _ := 1
  runtimeID _ i := if i = 0 then lit "c0ffee" else lit "decaf0"
  distinct _ i _ i' one two same := by
    refine ⟨rfl, ?_⟩
    by_cases first : i = 0
    · by_cases second : i' = 0
      · omega
      · rw [if_pos first, if_neg second] at same
        exact absurd same (by decide +kernel)
    · by_cases second : i' = 0
      · rw [if_neg first, if_pos second] at same
        exact absurd same (by decide +kernel)
      · omega
  runtimeID_ne _ i _ := by
    split <;> decide +kernel
  name_ne := by decide +kernel
  podName_ne := by decide +kernel
  scheme_plain := by decide +kernel
  namespace_plain := by decide +kernel
  podName_plain := by decide +kernel
  identified _ _ _ _ := rfl

def beforeListing : Attribution.Listing cartNode where
  pods := [cartPod]
  published := by
    simp only [List.mem_singleton, forall_eq]
    intro cs member
    obtain rfl := List.mem_singleton.1 member
    exact ⟨(), 0, rfl, rfl, rfl, rfl, Nat.zero_le 1, rfl, rfl, rfl⟩

def afterListing : Attribution.Listing cartNode where
  pods := [restartedCart]
  published := by
    simp only [List.mem_singleton, forall_eq]
    intro cs member
    obtain rfl := List.mem_singleton.1 member
    exact ⟨(), 1, rfl, rfl, rfl, rfl, le_refl 1, rfl, rfl, rfl⟩

/-- Every runtime ID of the node is one of its container. -/
def cartOwner : Owner := fun _ => (cartNode.podUID (), cartNode.name ())

/-- Every request of a worker is served after the restart. -/
def afterRestart : (o : Op) → o.Resp
  | .listPods _ => .listed [restartedCart]
  | o => online o

/-- The requests of a worker, up to its last. -/
def serve (i : Nat) (answers : (o : Op) → o.Resp) : List Label :=
  List.replicate 6 (.pool (.perform i answers)) ++ [.pool (.release i), .pool (.finish i)]

/-- The container is killed and reported, and its next incarnation is killed and reported
`delay` nanoseconds later. -/
def killedAgain (delay : Nat) : List Label :=
  accepted ++ serve 0 online ++
    [.tick delay, .pool (.read (.event (oomRecord (lit "cri-containerd-decaf0.scope")))),
      .pool .decide, .pool .takeSlot, .pool .add, .pool .launch] ++
    serve 1 afterRestart

theorem truthful_online (i : Nat) : Truthful cartOwner (.pool (.perform i online)) := by
  intro nodeName pods listed
  obtain rfl := PodsAnswer.listed.inj listed
  exact tells_listing beforeListing fun _ _ _ => rfl

theorem truthful_afterRestart (i : Nat) : Truthful cartOwner (.pool (.perform i afterRestart)) := by
  intro nodeName pods listed
  obtain rfl := PodsAnswer.listed.inj listed
  exact tells_listing afterListing fun _ _ _ => rfl

theorem serve_truthful {i : Nat} {answers : (o : Op) → o.Resp}
    (truthful : Truthful cartOwner (.pool (.perform i answers))) :
    ∀ l ∈ serve i answers, Truthful cartOwner l := by
  intro l member
  rcases List.mem_append.1 member with performed | ended
  · rw [List.eq_of_mem_replicate performed]
    exact truthful
  · simp only [List.mem_cons, List.not_mem_nil, or_false] at ended
    rcases ended with rfl | rfl <;> trivial

theorem killedAgain_truthful (delay : Nat) : ∀ l ∈ killedAgain delay, Truthful cartOwner l := by
  intro l member
  simp only [killedAgain, List.mem_append] at member
  rcases member with ((kill | first) | again) | second
  · simp only [accepted, List.mem_cons, List.not_mem_nil, or_false] at kill
    rcases kill with rfl | rfl | rfl | rfl | rfl <;> trivial
  · exact serve_truthful (truthful_online 0) l first
  · simp only [List.mem_cons, List.not_mem_nil, or_false] at again
    rcases again with rfl | rfl | rfl | rfl | rfl | rfl <;> trivial
  · exact serve_truthful (truthful_afterRestart 1) l second

/-- Killed again after 31 seconds, it is reported twice, and the reports are apart. -/
theorem reports_once_per_window_slow :
    ∃ s : State, (s.pool.workers.flatMap fun u => created u.log).length = 2 ∧
      OncePerWindow nodeAgent s.pool := by
  have within : Within (system nodeAgent)
      (fun s l => Truthful cartOwner l ∧ outlivesWindow nodeAgent cartOwner s l = true)
      (attached nodeAgent) (killedAgain 31000000000) :=
    Within.and_labels (killedAgain_truthful _) (by decide +kernel)
  obtain ⟨s, reached, two⟩ := exists_guarded
    (Q := fun s : State => (s.pool.workers.flatMap fun u => created u.log).length = 2)
    (attached_initial nodeAgent) within (by decide +kernel)
  exact ⟨s, two, reports_once_per_window nodeAgent cartOwner reached⟩

/-- **A crash loop reports twice within a window.**  One second after a kill that was
reported the restarted container is killed; it has another ID, so the cooldown lets it
through, and a second report of the same container is created. -/
theorem crashLoop_reportsAgain :
    0 < nodeAgent.reportCooldown ∧
    ∃ s : State, Reach (system nodeAgent) (fun _ l => Truthful cartOwner l) s ∧
      (s.pool.workers.map fun u => (u.kill.crash.containerID, u.kill.crash.detectedAt)) =
        [(cartNode.runtimeID () 0, 0), (cartNode.runtimeID () 1, second)] ∧
      (s.pool.workers.map fun u => (created u.log).map ownerOf) =
        [[(lit "uid-1", lit "app")], [(lit "uid-1", lit "app")]] ∧
      ¬ OncePerWindow nodeAgent s.pool := by
  refine ⟨by decide, ?_⟩
  have within : Within (system nodeAgent) (fun _ l => Truthful cartOwner l) (attached nodeAgent)
      (killedAgain 1000000000) :=
    (Within.and_labels (killedAgain_truthful _) (within_anyStep _ _)).mono fun _ _ both => both.1
  exact exists_guarded (attached_initial nodeAgent) within (by decide +kernel)

end Run

end KubeAutopsy.Agent
