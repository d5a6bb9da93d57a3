/-
# KubeAutopsy.Agent.Attribution — the container a victim belongs to

A container is a sequence of incarnations, each with a runtime ID of its own and
each logging to a file numbered after it.  `Node` is the containers of a node with
what their names and IDs are known to satisfy; `Listing` is a listing of its pods
in which every status publishes some incarnation of some container and the one
before it, possibly long out of date.

The lookup is exact on every such listing (`findPod_cases`): it finds the one
incarnation that has the victim's ID, or the listing does not show that ID.  The log
file it leads to belongs to that incarnation and to no other (`logFile_injective`).
`attribution_exact` puts the two together, and `resolvePodMeta_owner` carries the
owner over to the retried lookup, which sees another listing at every attempt.
-/
import KubeAutopsy.Agent.LogCapture
import KubeAutopsy.Agent.Reporter

namespace KubeAutopsy.Agent.Attribution

open KubeAutopsy.Api
open KubeAutopsy.Api.Files
open KubeAutopsy.Theory.Bytes
open KubeAutopsy.Theory.Program
open KubeAutopsy.Theory.Sorting

set_option autoImplicit false

/-! ## Containers, and what is published about them -/

/-- The containers of a node.  Runtime IDs are distinct over all incarnations that
have started, a scheme does not contain its separator, and names are as the API
server admits them: not empty, and without an underscore in a namespace or pod
name, which the log directory is split by. -/
structure Node (κ : Type) where
  namespace_ : κ → GoString
  podName : κ → GoString
  podUID : κ → GoString
  name : κ → GoString
  scheme : κ → GoString
  /-- The incarnation that runs now. -/
  current : κ → Nat
  runtimeID : κ → Nat → GoString
  distinct : ∀ c i c' i', i ≤ current c → i' ≤ current c' →
    runtimeID c i = runtimeID c' i' → c = c' ∧ i = i'
  runtimeID_ne : ∀ c i, i ≤ current c → runtimeID c i ≠ []
  name_ne : ∀ c, name c ≠ []
  podName_ne : ∀ c, podName c ≠ []
  scheme_plain : ∀ c, ¬ lit "://" <:+: scheme c
  namespace_plain : ∀ c, ¬ lit "_" <:+: namespace_ c
  podName_plain : ∀ c, ¬ lit "_" <:+: podName c
  /-- A pod's UID and a container's name within the pod identify the container. -/
  identified : ∀ c c', podUID c = podUID c' → name c = name c' → c = c'

variable {κ : Type}

namespace Node

/-- The ID of an incarnation as a status publishes it. -/
def publishedID (node : Node κ) (c : κ) (i : Nat) : GoString :=
  node.scheme c ++ lit "://" ++ node.runtimeID c i

/-- Incarnation `j` of `c` is the one with this ID. -/
def Owns (node : Node κ) (c : κ) (j : Nat) (victim : GoString) : Prop :=
  j ≤ node.current c ∧ node.runtimeID c j = victim

/-- What a crash of incarnation `j` of `c` is to be attributed to. -/
def metaOf (node : Node κ) (c : κ) (j : Nat) : PodMeta where
  podName := node.podName c
  namespace_ := node.namespace_ c
  containerName := node.name c
  podUID := node.podUID c
  logFileIndex := j

/-- The attribution of a crash is to the incarnation it is a crash of. -/
def Attributes (node : Node κ) (victim : GoString) (podMeta : PodMeta) : Prop :=
  ∃ c j, node.Owns c j victim ∧ podMeta = node.metaOf c j

/-- The file incarnation `j` of `c` logs to. -/
def logFile (node : Node κ) (c : κ) (j : Nat) : Path :=
  [podLogBasePath, node.namespace_ c ++ lit "_" ++ node.podName c ++ lit "_" ++ node.podUID c,
    node.name c, itoa j ++ lit ".log"]

/-- `cs`, in `pod`, publishes incarnation `i` of `c` and the one before it. -/
structure Publishes (node : Node κ) (c : κ) (i : Nat) (pod : Pod) (cs : ContainerStatus) :
    Prop where
  namespace_ : pod.namespace_ = node.namespace_ c
  podName : pod.name = node.podName c
  podUID : pod.uid = node.podUID c
  name : cs.name = node.name c
  started : i ≤ node.current c
  restartCount : cs.restartCount = i
  containerID : cs.containerID = node.publishedID c i
  lastTerminated : cs.lastTerminated =
    if i = 0 then none else some (node.publishedID c (i - 1))

/-- The victim is incarnation `i` of `c`, or the one before it. -/
def Hit (node : Node κ) (c : κ) (i : Nat) (victim : GoString) : Prop :=
  node.runtimeID c i = victim ∨ 0 < i ∧ node.runtimeID c (i - 1) = victim

/-- One of the two IDs `cs` publishes is the victim's. -/
def Shows (node : Node κ) (victim : GoString) (pod : Pod) (cs : ContainerStatus) : Prop :=
  ∃ c i, node.Publishes c i pod cs ∧ node.Hit c i victim

end Node

/-- A listing of the node's pods. -/
structure Listing (node : Node κ) where
  pods : List Pod
  published : ∀ pod ∈ pods, ∀ cs ∈ podStatuses pod, ∃ c i, node.Publishes c i pod cs

def Listing.Shows {node : Node κ} (listing : Listing node) (victim : GoString) : Prop :=
  ∃ pod ∈ listing.pods, ∃ cs ∈ podStatuses pod, node.Shows victim pod cs

/-! ## The lookup -/

/-- An ID with a scheme before it matches exactly itself. -/
theorem containerIDsMatch_scheme {scheme id : GoString} (plain : ¬ lit "://" <:+: scheme)
    (known : id ≠ []) (victim : GoString) :
    containerIDsMatch (scheme ++ lit "://" ++ id) victim = decide (id = victim) := by
  have cutOff : cut (lit "://") (scheme ++ lit "://" ++ id) = some (scheme, id) :=
    cut_append _ (separates_of_absent (by decide) plain)
  simp only [containerIDsMatch, cutOff]
  by_cases blank : victim = []
  · subst blank
    simp [known]
  · simp [known, blank]

section Lookup

variable {node : Node κ} {victim : GoString}

/-- No two incarnations own one ID. -/
theorem owns_unique {c c' : κ} {j j' : Nat} (first : node.Owns c j victim)
    (second : node.Owns c' j' victim) : c' = c ∧ j' = j :=
  node.distinct c' j' c j second.1 first.1 (second.2.trans first.2.symm)

theorem cut_publishedID (c : κ) (i : Nat) :
    cut (lit "://") (node.publishedID c i) = some (node.scheme c, node.runtimeID c i) :=
  cut_append _ (separates_of_absent (by decide) (node.scheme_plain c))

/-- A published ID matches exactly the runtime ID it was made of. -/
theorem containerIDsMatch_publishedID (victim : GoString) {c : κ} {i : Nat} (started : i ≤ node.current c) :
    containerIDsMatch (node.publishedID c i) victim = decide (node.runtimeID c i = victim) :=
  containerIDsMatch_scheme (node.scheme_plain c) (node.runtimeID_ne c i started) victim

section Status

variable {c : κ} {i : Nat} {pod : Pod} {cs : ContainerStatus}

/-- A status publishes one incarnation of one container. -/
theorem publishes_unique {c' : κ} {i' : Nat} (first : node.Publishes c i pod cs)
    (second : node.Publishes c' i' pod cs) : c' = c ∧ i' = i := by
  have same : node.publishedID c' i' = node.publishedID c i :=
    second.containerID.symm.trans first.containerID
  have ids := congrArg (cut (lit "://")) same
  rw [cut_publishedID, cut_publishedID] at ids
  exact node.distinct c' i' c i second.started first.started (Prod.mk.inj (Option.some.inj ids)).2

theorem findStatus_hit (here : node.Publishes c i pod cs) (rest : List ContainerStatus)
    (hit : node.Hit c i victim) :
    ∃ j : Nat, node.Owns c j victim ∧ findStatus victim (cs :: rest) = (node.name c, (j : Int)) := by
  have live := containerIDsMatch_publishedID victim here.started
  by_cases now : node.runtimeID c i = victim
  · refine ⟨i, ⟨here.started, now⟩, ?_⟩
    simp [findStatus, here.containerID, live, now, here.name, here.restartCount]
  · obtain ⟨positive, before⟩ := hit.resolve_left now
    have past : i - 1 ≤ node.current c := by have := here.started; omega
    refine ⟨i - 1, ⟨past, before⟩, ?_⟩
    have last := here.lastTerminated
    rw [if_neg (by omega)] at last
    have index : (i : Int) - 1 = ((i - 1 : Nat) : Int) := by omega
    simp [findStatus, here.containerID, live, now, last, containerIDsMatch_publishedID victim past, before,
      here.name, here.restartCount, index]

theorem findStatus_miss (here : node.Publishes c i pod cs) (rest : List ContainerStatus)
    (miss : ¬ node.Hit c i victim) : findStatus victim (cs :: rest) = findStatus victim rest := by
  have notLive : containerIDsMatch cs.containerID victim = false := by
    rw [here.containerID, containerIDsMatch_publishedID victim here.started]
    exact decide_eq_false fun now => miss (.inl now)
  by_cases initial : i = 0
  · have noLast : cs.lastTerminated = none := by rw [here.lastTerminated, if_pos initial]
    simp [findStatus, notLive, noLast]
  · have last := here.lastTerminated
    rw [if_neg initial] at last
    have past : i - 1 ≤ node.current c := by have := here.started; omega
    have notLast : containerIDsMatch (node.publishedID c (i - 1)) victim = false := by
      rw [containerIDsMatch_publishedID victim past]
      exact decide_eq_false fun before => miss (.inr ⟨by omega, before⟩)
    simp [findStatus, notLive, last, notLast]

end Status

/-- Searching the statuses of one pod finds the incarnation with the victim's ID, or
no status of it shows that ID. -/
theorem findStatus_cases (victim : GoString) {pod : Pod} (statuses : List ContainerStatus)
    (published : ∀ cs ∈ statuses, ∃ c i, node.Publishes c i pod cs) :
    (∃ c i j cs, cs ∈ statuses ∧ node.Publishes c i pod cs ∧ node.Hit c i victim ∧
      node.Owns c j victim ∧ findStatus victim statuses = (node.name c, (j : Int))) ∨
    (findStatus victim statuses = ([], -1) ∧ ∀ cs ∈ statuses, ¬ node.Shows victim pod cs) := by
  induction statuses with
  | nil => exact .inr ⟨rfl, by simp⟩
  | cons cs rest ih =>
      obtain ⟨c, i, here⟩ := published cs List.mem_cons_self
      by_cases hit : node.Hit c i victim
      · obtain ⟨j, owns, found⟩ := findStatus_hit here rest hit
        exact .inl ⟨c, i, j, cs, List.mem_cons_self, here, hit, owns, found⟩
      · rw [findStatus_miss here rest hit]
        rcases ih fun cs' member => published cs' (List.mem_cons_of_mem cs member) with
          ⟨c', i', j, cs', member, found⟩ | ⟨nothing, absent⟩
        · exact .inl ⟨c', i', j, cs', List.mem_cons_of_mem cs member, found⟩
        · refine .inr ⟨nothing, fun cs' member => ?_⟩
          rcases List.mem_cons.1 member with rfl | inRest
          · rintro ⟨c', i', also, shown⟩
            obtain ⟨rfl, rfl⟩ := publishes_unique here also
            exact hit shown
          · exact absent cs' inRest

/-- The lookup over the listed pods finds the incarnation with the victim's ID, or no
listed status shows that ID. -/
theorem findPod_cases (victim : GoString) (pods : List Pod)
    (published : ∀ pod ∈ pods, ∀ cs ∈ podStatuses pod, ∃ c i, node.Publishes c i pod cs) :
    (∃ c j, node.Owns c j victim ∧ findPod victim pods = some (node.metaOf c j) ∧
      ∃ pod ∈ pods, ∃ cs ∈ podStatuses pod, node.Shows victim pod cs) ∨
    (findPod victim pods = none ∧
      ∀ pod ∈ pods, ∀ cs ∈ podStatuses pod, ¬ node.Shows victim pod cs) := by
  induction pods with
  | nil => exact .inr ⟨rfl, by simp⟩
  | cons pod rest ih =>
      rcases findStatus_cases victim (podStatuses pod) (published pod List.mem_cons_self) with
        ⟨c, i, j, cs, member, here, hit, owns, found⟩ | ⟨miss, absent⟩
      · refine .inl ⟨c, j, owns, ?_, pod, List.mem_cons_self, cs, member, c, i, here, hit⟩
        simp [findPod, findContainerByID, found, node.name_ne c, Node.metaOf, here.podName,
          here.namespace_, here.podUID]
      · have skipped : findPod victim (pod :: rest) = findPod victim rest := by
          simp [findPod, findContainerByID, miss]
        rw [skipped]
        rcases ih fun pod' member => published pod' (List.mem_cons_of_mem pod member) with
          ⟨c, j, owns, found, pod', member, shown⟩ | ⟨nothing, absentLater⟩
        · exact .inl ⟨c, j, owns, found, pod', List.mem_cons_of_mem pod member, shown⟩
        · refine .inr ⟨nothing, fun pod' member => ?_⟩
          rcases List.mem_cons.1 member with rfl | inRest
          · exact absent
          · exact absentLater pod' inRest

/-- What the lookup returns for a listing is the owner of the victim's ID. -/
theorem findPod_owner {listing : Listing node} {podMeta : PodMeta}
    (found : findPod victim listing.pods = some podMeta) : node.Attributes victim podMeta := by
  rcases findPod_cases victim listing.pods listing.published with ⟨c, j, owns, here, -⟩ | ⟨none_, -⟩
  · exact ⟨c, j, owns, Option.some.inj (found.symm.trans here)⟩
  · simp [found] at none_

end Lookup

/-! ## The log file it leads to -/

/-- No two incarnations log to one file. -/
theorem logFile_injective {node : Node κ} {c c' : κ} {j j' : Nat}
    (same : node.logFile c j = node.logFile c' j') : c = c' ∧ j = j' := by
  have split_ : ∀ {head rest : GoString}, ¬ lit "_" <:+: head →
      cut (lit "_") (head ++ lit "_" ++ rest) = some (head, rest) := fun absent =>
    cut_append _ (separates_of_absent (by decide) absent)
  simp only [Node.logFile, List.cons.injEq, and_true, true_and] at same
  obtain ⟨directory, name, file⟩ := same
  have tails := congrArg (cut (lit "_")) directory
  simp only [List.append_assoc] at tails
  simp only [← List.append_assoc (node.namespace_ _), split_ (node.namespace_plain _),
    Option.some.injEq, Prod.mk.injEq] at tails
  have uids := congrArg (cut (lit "_")) tails.2
  simp only [← List.append_assoc, split_ (node.podName_plain _), Option.some.injEq,
    Prod.mk.injEq] at uids
  have index : (j : Int) = j' := itoa_injective (List.append_cancel_right file)
  exact ⟨node.identified c c' uids.2 name, by omega⟩

/-- **Attribution is exact.**  A victim whose ID the listing shows is attributed to
the one incarnation that has it, and the log file found for it is that incarnation's
own; a victim whose ID the listing does not show is attributed to nothing. -/
theorem attribution_exact (node : Node κ) (listing : Listing node) (victim : GoString) :
    (listing.Shows victim →
      ∃ c j, node.Owns c j victim ∧ (∀ c' j', node.Owns c' j' victim → c' = c ∧ j' = j) ∧
        findPod victim listing.pods = some (node.metaOf c j) ∧
        ∀ sorter fs path,
          findLogFile sorter fs (logDir (node.metaOf c j)) (node.metaOf c j).logFileIndex =
            .ok path →
          path = node.logFile c j ∧ ∀ c' j', path = node.logFile c' j' → c' = c ∧ j' = j) ∧
    (¬ listing.Shows victim → findPod victim listing.pods = none) := by
  rcases findPod_cases victim listing.pods listing.published with
    ⟨c, j, owns, found, shown⟩ | ⟨nothing, absent⟩
  · refine ⟨fun _ => ⟨c, j, owns, fun c' j' => owns_unique owns, found, ?_⟩,
      fun hidden => absurd shown hidden⟩
    intro sorter fs path selected
    have own : path = node.logFile c j := findLogFile_eq (Int.natCast_nonneg j) selected
    exact ⟨own, fun c' j' same => logFile_injective (same.symm.trans own)⟩
  · exact ⟨fun ⟨pod, member, cs, listed, shown⟩ => absurd shown (absent pod member cs listed),
      fun _ => nothing⟩

/-- A pod with an application container and a sidecar, both restarted once. -/
def restartedPod : Node Bool where
  namespace_ _ := lit "shop"
  podName _ := lit "cart"
  podUID _ := lit "uid-1"
  name app := if app then lit "app" else lit "sidecar"
  scheme _ := lit "containerd"
  current _ := 1
  runtimeID app i := (if app then lit "a" else lit "b") ++ itoa i
  distinct app i app' i' _ _ same := by
    have index : ∀ {s : GoString}, s ++ itoa i = s ++ itoa i' → i = i' := by
      intro s eq
      have := itoa_injective (List.append_cancel_left eq)
      omega
    cases app <;> cases app'
    · exact ⟨rfl, index same⟩
    · cases same
    · cases same
    · exact ⟨rfl, index same⟩
  runtimeID_ne app _ _ := by cases app <;> simp [show lit "a" ≠ [] by decide, show lit "b" ≠ [] by decide]
  name_ne := by decide
  podName_ne := by decide
  scheme_plain := by decide
  namespace_plain := by decide
  podName_plain := by decide
  identified := by decide

/-- Its listing once the kubelet has published both restarts. -/
def afterRestart : Listing restartedPod where
  pods :=
    [{ name := lit "cart", namespace_ := lit "shop", uid := lit "uid-1"
       containerStatuses :=
        [{ name := lit "sidecar", containerID := lit "containerd://b1", restartCount := 1
           lastTerminated := some (lit "containerd://b0") },
         { name := lit "app", containerID := lit "containerd://a1", restartCount := 1
           lastTerminated := some (lit "containerd://a0") }] }]
  published := by
    simp only [List.mem_singleton, forall_eq]
    intro cs member
    simp only [podStatuses, List.append_nil, List.mem_cons, List.not_mem_nil, or_false] at member
    rcases member with rfl | rfl
    · exact ⟨false, 1, rfl, rfl, rfl, rfl, le_refl 1, rfl, rfl, rfl⟩
    · exact ⟨true, 1, rfl, rfl, rfl, rfl, le_refl 1, rfl, rfl, rfl⟩

/-- The first run of the application is found behind the sidecar and the restart. -/
theorem attribution_exact_afterRestart :
    findPod (lit "a0") afterRestart.pods = some (restartedPod.metaOf true 0) := by
  have shown : afterRestart.Shows (lit "a0") :=
    ⟨_, List.mem_cons_self, _, List.mem_cons_of_mem _ List.mem_cons_self, true, 1,
      ⟨rfl, rfl, rfl, rfl, le_refl 1, rfl, rfl, rfl⟩, .inr ⟨Nat.one_pos, rfl⟩⟩
  obtain ⟨c, j, -, unique, found, -⟩ :=
    (attribution_exact restartedPod afterRestart (lit "a0")).1 shown
  obtain ⟨rfl, rfl⟩ := unique true 0 ⟨Nat.zero_le 1, rfl⟩
  exact found

/-! ## The retried lookup -/

/-- Every pod listing is a listing of `node`. -/
def listsNode (node : Node κ) : Contract Op Op.Resp where
  rely := fun _ o answer =>
    match o, answer with
    | .listPods _, .listed pods => ∃ listing : Listing node, listing.pods = pods
    | _, _ => True
  guarantee := fun _ _ => True

/-- However many listings the retries take, and however far each one lags, a crash is
only ever attributed to the incarnation it is a crash of. -/
theorem resolvePodMeta_owner (node : Node κ) (r : Reporter) (event : CrashEvent) :
    Meets (listsNode node)
      (fun _ result => ∀ podMeta, result = .ok podMeta → node.Attributes event.containerID podMeta)
      [] (resolvePodMeta r event) := by
  refine (resolvePodMeta_refines r event).meets
    (I := fun _ q => ∀ podMeta, q = .found podMeta → node.Attributes event.containerID podMeta)
    (fun _ start => by cases start) ?_ ?_
  · intro log q o answer q' _ step
    refine ⟨trivial, fun lists => ?_⟩
    cases step with
    | shown found named =>
        obtain ⟨listing, rfl⟩ := lists
        rintro podMeta same
        obtain rfl := Lookup.found.inj same
        exact findPod_owner found
    | _ => exact fun _ other => by cases other
  · rintro log q result attributes ended podMeta rfl
    exact attributes podMeta ended

end KubeAutopsy.Agent.Attribution
