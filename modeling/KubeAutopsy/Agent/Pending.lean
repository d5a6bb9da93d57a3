/-
# KubeAutopsy.Agent.Pending — a container ID that is not published yet

`ResolvePodMeta` lists the node's pods up to six times and goes on only while
`anyContainerIDPending` says that some ID is still to come.  `answerOf` is the loop over the
listings without the operations, and `resolve_eq` that a run computes it.

`anyContainerIDPending` looks at statuses only.  A container that its pod's spec has and that
the kubelet has not given a status entry is invisible to it, so the crash of such a container
is given up at once unless another container on the node happens to be pending
(`resolve_iff`, `unlisted_givenUp`).
-/
import KubeAutopsy.Agent.Reporter

namespace KubeAutopsy.Agent.Pending

open KubeAutopsy.Api
open KubeAutopsy.Theory.Bytes (GoString lit)
open KubeAutopsy.Theory.Program

set_option autoImplicit false

/-! ## Runs over a sequence of listings -/

/-- A pod as it is listed, with the names of the containers in its spec. -/
structure ListedPod extends Pod where
  specContainers : List GoString
  named : name ≠ []
  statuses_named : ∀ cs ∈ podStatuses toPod, cs.name ≠ []

abbrev Listing := List ListedPod

def Listing.pods (listing : Listing) : List Pod := listing.map ListedPod.toPod

/-- Each listing is answered with the next one, every wait elapses, and nothing else is
asked. -/
def lister : (o : Op) → List (List Pod) → o.Resp × List (List Pod)
  | .listPods _, pods :: rest => (.listed pods, rest)
  | .listPods _, [] => (.listed [], [])
  | .wait _, s => (.elapsed, s)
  | .get _, s => (.refused .transport, s)
  | .apiGet _, s => (.refused .transport, s)
  | .list, s => (.refused .transport, s)
  | .create _, s => (.refused .transport, s)
  | .statusPatch _ _, s => (.refused .transport, s)
  | .delete _, s => (.refused .transport, s)
  | .logFiles _, s => (Files.noFiles, s)
  | .post _, s => (.failed, s)
  | .now, s => (0, s)
  | .sleep _, s => ((), s)
  | .count _, s => ((), s)
  | .event _, s => ((), s)
  | .logInfo _, s => ((), s)

/-- What `ResolvePodMeta` returns if these are the listings it gets. -/
def resolve (r : Reporter) (event : CrashEvent) (listings : Fin 6 → Listing) :
    Except GoError PodMeta :=
  ((resolvePodMeta r event).interp lister [] ((List.ofFn listings).map Listing.pods)).1

/-- The loop over the listings: the first one that has the ID, or none if one before it has
nothing pending. -/
def answerOf (victim : GoString) : List (List Pod) → Option PodMeta
  | [] => none
  | pods :: rest =>
      match findPod victim pods with
      | some podMeta => some podMeta
      | none => if anyContainerIDPending pods then answerOf victim rest else none

/-- The closure that is retried. -/
def attempt (r : Reporter) (event : CrashEvent) (found : Option PodMeta) :
    M (Option PodMeta × Except GoError Bool) := do
  match ← perform (Op.listPods r.nodeName) with
  | .refused e => return (found, .error (.podList (.wrap (lit "on node " ++ r.nodeName) (.api e))))
  | .listed pods =>
      match findPod event.containerID pods with
      | some podMeta => return (some podMeta, .ok true)
      | none => return (found, .ok (!anyContainerIDPending pods))

section Run

variable (r : Reporter) (event : CrashEvent)

/-- One attempt takes one listing. -/
theorem run_attempt (pods : List Pod) (rest : List (List Pod)) (log : Log) :
    ∃ log', (attempt r event none).interp lister log (pods :: rest) =
      (match findPod event.containerID pods with
        | some podMeta => (some podMeta, .ok true)
        | none => (none, .ok (!anyContainerIDPending pods)), log', rest) := by
  refine ⟨⟨.listPods r.nodeName, .listed pods⟩ :: log, ?_⟩
  rw [attempt, Prog.interp_perform_bind]
  simp only [lister]
  cases findPod event.containerID pods <;> rfl

/-- The attempts, one for each listing that is left. -/
theorem run_retryFrom (factor : Int) (listings : List (List Pod)) (i : Nat) (delay : Int)
    (log : Log) :
    ((retryFrom factor (attempt r event) listings.length i delay none).interp lister log
      listings).1 = (answerOf event.containerID listings, none) := by
  induction listings generalizing i delay log with
  | nil => rfl
  | cons pods rest ih =>
      have body : ∀ (log : Log) (delay : Int),
          ((attempt r event none >>= resume factor (attempt r event) rest.length i delay).interp
            lister log (pods :: rest)).1 = (answerOf event.containerID (pods :: rest), none) := by
        intro log delay
        obtain ⟨log', run⟩ := run_attempt r event pods rest log
        rw [Prog.interp_bind, run, answerOf]
        cases findPod event.containerID pods with
        | some podMeta => rfl
        | none =>
            cases anyContainerIDPending pods with
            | false => rfl
            | true => exact ih (i + 1) delay log'
      rcases Nat.eq_zero_or_pos i with rfl | later
      · rw [List.length_cons, retryFrom_first]
        exact body log delay
      · rw [List.length_cons, retryFrom_later later, Prog.interp_perform_bind]
        exact body _ _

/-- The error of a crash that was given up. -/
def notFound : GoError :=
  .text (lit "pod with container ID " ++ event.containerID ++ lit " not found on node " ++ r.nodeName)

/-- A run computes the loop over its listings. -/
theorem resolve_eq (listings : Fin 6 → Listing) :
    resolve r event listings =
      match answerOf event.containerID ((List.ofFn listings).map Listing.pods) with
      | some podMeta => if podMeta.podName = [] then .error (notFound r event) else .ok podMeta
      | none => .error (notFound r event) := by
  have six : ((List.ofFn listings).map Listing.pods).length = resolveRetryBackoff.steps := by
    rw [List.length_map, List.length_ofFn]
    rfl
  have run := run_retryFrom r event resolveRetryBackoff.factor
    ((List.ofFn listings).map Listing.pods) 0 resolveRetryBackoff.duration []
  rw [six] at run
  show ((retryOnBackoff resolveRetryBackoff (attempt r event) none >>= _).interp lister []
    ((List.ofFn listings).map Listing.pods)).1 = _
  rw [Prog.interp_bind, retryOnBackoff, run]
  cases answerOf event.containerID ((List.ofFn listings).map Listing.pods) with
  | none => rfl
  | some podMeta =>
      by_cases blank : podMeta.podName = []
      · simp only [if_pos blank, Prog.interp_pure, notFound]
      · simp only [if_neg blank, Prog.interp_pure]

end Run

/-! ## Where an ID is found -/

/-- The status has the ID, as its current or its previous one. -/
def Shows (victim : GoString) (cs : ContainerStatus) : Prop :=
  containerIDsMatch cs.containerID victim ∨
    ∃ last ∈ cs.lastTerminated, containerIDsMatch last victim

instance (victim : GoString) (cs : ContainerStatus) : Decidable (Shows victim cs) :=
  inferInstanceAs (Decidable (_ ∨ _))

/-- The pod and container of a status, and the incarnation the ID is of. -/
def foundIn (victim : GoString) (pod : Pod) (cs : ContainerStatus) : PodMeta where
  podName := pod.name
  namespace_ := pod.namespace_
  containerName := cs.name
  podUID := pod.uid
  logFileIndex :=
    if containerIDsMatch cs.containerID victim then cs.restartCount else cs.restartCount - 1

/-- The first place in a listing that has the ID. -/
structure FirstShown (victim : GoString) (listing : Listing) (pod : ListedPod)
    (cs : ContainerStatus) : Prop where
  pods : ∃ front back, listing = front ++ pod :: back ∧
    ∀ p ∈ front, ∀ s ∈ podStatuses p.toPod, ¬ Shows victim s
  statuses : ∃ front back, podStatuses pod.toPod = front ++ cs :: back ∧
    ∀ s ∈ front, ¬ Shows victim s
  shown : Shows victim cs

section Lookup

variable {victim : GoString}

theorem findStatus_cons_of_not_shows {cs : ContainerStatus} (absent : ¬ Shows victim cs)
    (rest : List ContainerStatus) : findStatus victim (cs :: rest) = findStatus victim rest := by
  have current : ¬ containerIDsMatch cs.containerID victim := fun found => absent (.inl found)
  rw [findStatus, if_neg current]
  cases last : cs.lastTerminated with
  | none => rfl
  | some id =>
      have previous : ¬ containerIDsMatch id victim := fun found => absent (.inr ⟨id, last, found⟩)
      exact if_neg previous

theorem findStatus_append {front : List ContainerStatus} (absent : ∀ s ∈ front, ¬ Shows victim s)
    (rest : List ContainerStatus) :
    findStatus victim (front ++ rest) = findStatus victim rest := by
  induction front with
  | nil => rfl
  | cons cs front ih =>
      obtain ⟨head, tail⟩ := List.forall_mem_cons.1 absent
      rw [List.cons_append, findStatus_cons_of_not_shows head, ih tail]

theorem findStatus_cons_of_shows {cs : ContainerStatus} (shown : Shows victim cs) (pod : Pod)
    (rest : List ContainerStatus) :
    findStatus victim (cs :: rest) = (cs.name, (foundIn victim pod cs).logFileIndex) := by
  rw [findStatus]
  by_cases current : containerIDsMatch cs.containerID victim
  · simp only [current, if_true, foundIn]
  · obtain ⟨last, previous, found⟩ := shown.resolve_left current
    rw [Option.mem_def] at previous
    simp only [current, previous, found, if_true, foundIn, Bool.false_eq_true, if_false]

/-- No status of the pod has the ID. -/
theorem findContainerByID_absent {pod : Pod} (absent : ∀ s ∈ podStatuses pod, ¬ Shows victim s) :
    findContainerByID pod victim = ([], -1) := by
  have none_ := findStatus_append absent []
  rw [List.append_nil] at none_
  rw [findContainerByID, none_]
  rfl

theorem findPod_append {front : Listing}
    (absent : ∀ p ∈ front, ∀ s ∈ podStatuses p.toPod, ¬ Shows victim s) (rest : List Pod) :
    findPod victim (Listing.pods front ++ rest) = findPod victim rest := by
  induction front with
  | nil => rfl
  | cons p front ih =>
      obtain ⟨head, tail⟩ := List.forall_mem_cons.1 absent
      show findPod victim (p.toPod :: (Listing.pods front ++ rest)) = _
      rw [findPod, findContainerByID_absent head]
      exact ih tail

/-- A listing in which nothing has the ID. -/
theorem findPod_absent {listing : Listing}
    (absent : ∀ p ∈ listing, ∀ s ∈ podStatuses p.toPod, ¬ Shows victim s) :
    findPod victim listing.pods = none := by
  have none_ := findPod_append absent []
  rwa [List.append_nil] at none_

theorem FirstShown.findPod {listing : Listing} {pod : ListedPod} {cs : ContainerStatus}
    (first : FirstShown victim listing pod cs) :
    findPod victim listing.pods = some (foundIn victim pod.toPod cs) := by
  obtain ⟨front, back, rfl, before⟩ := first.pods
  obtain ⟨earlier, later, statuses, absent⟩ := first.statuses
  have found : findContainerByID pod.toPod victim =
      (cs.name, (foundIn victim pod.toPod cs).logFileIndex) := by
    rw [findContainerByID, statuses, findStatus_append absent, findStatus_cons_of_shows first.shown]
  have named : cs.name ≠ [] := by
    apply pod.statuses_named
    rw [statuses]
    exact List.mem_append_right _ List.mem_cons_self
  have split_ : Listing.pods (front ++ pod :: back) =
      Listing.pods front ++ pod.toPod :: Listing.pods back := List.map_append
  rw [split_, findPod_append before, Agent.findPod, found]
  exact if_pos named

end Lookup

/-! ## The crash of a container without an ID -/

/-- The container has no status entry. -/
def NoEntry (listing : Listing) (pod : ListedPod) (cs : ContainerStatus) : Prop :=
  ∀ p ∈ listing, p.uid = pod.uid → ∀ s ∈ podStatuses p.toPod, s.name ≠ cs.name

/-- The container's ID is yet to be published: its pod's spec has it, and it has no status
entry or one that is not terminated and has no ID. -/
structure Unpublished (listing : Listing) (pod : ListedPod) (cs : ContainerStatus) : Prop where
  listed : ∃ p ∈ listing, p.uid = pod.uid ∧ cs.name ∈ p.specContainers
  entry : NoEntry listing pod cs ∨ ∃ p ∈ listing, p.uid = pod.uid ∧ ∃ s ∈ podStatuses p.toPod,
    s.name = cs.name ∧ s.containerID = [] ∧ s.state.terminated = false

/-- The ID appears first in listing `k`, for a container whose ID was yet to be published in
every listing before it. -/
structure Awaited (victim : GoString) (listings : Fin 6 → Listing) (k : Fin 6) (pod : ListedPod)
    (cs : ContainerStatus) : Prop where
  first : FirstShown victim (listings k) pod cs
  earlier : ∀ j < k, ∀ p ∈ listings j, ∀ s ∈ podStatuses p.toPod, ¬ Shows victim s
  unpublished : ∀ j < k, Unpublished (listings j) pod cs

/-- Listings without the ID are passed as long as each of them has something pending. -/
theorem answerOf_append {victim : GoString} {front : List (List Pod)}
    (absent : ∀ pods ∈ front, findPod victim pods = none) (rest : List (List Pod)) :
    answerOf victim (front ++ rest) =
      if ∀ pods ∈ front, anyContainerIDPending pods then answerOf victim rest else none := by
  induction front with
  | nil => simp
  | cons pods front ih =>
      obtain ⟨head, tail⟩ := List.forall_mem_cons.1 absent
      rw [List.cons_append, answerOf, head, ih tail]
      by_cases pending : anyContainerIDPending pods <;> simp [pending]

/-- An entry that is not terminated and has no ID is pending. -/
theorem pending_of_entry {listing : Listing} {p : ListedPod} (member : p ∈ listing)
    {s : ContainerStatus} (status : s ∈ podStatuses p.toPod) (noID : s.containerID = [])
    (live : s.state.terminated = false) : anyContainerIDPending listing.pods := by
  rw [anyContainerIDPending, List.any_eq_true]
  refine ⟨p.toPod, List.mem_map_of_mem member, ?_⟩
  rw [List.any_eq_true]
  exact ⟨s, status, by simp [noID, live]⟩

/-- The listings before listing `k`, it, and the ones after it. -/
theorem ofFn_split (listings : Fin 6 → Listing) (k : Fin 6) :
    ∃ front back, List.ofFn listings = front ++ listings k :: back ∧
      ∀ l, l ∈ front ↔ ∃ j < k, listings j = l := by
  have inside : k.val < (List.ofFn listings).length := by
    rw [List.length_ofFn]
    exact k.isLt
  refine ⟨(List.ofFn listings).take k, (List.ofFn listings).drop (k + 1), ?_, ?_⟩
  · have here := List.drop_eq_getElem_cons inside
    rw [List.getElem_ofFn] at here
    rw [← here, List.take_append_drop]
  · intro l
    rw [List.mem_take_iff_getElem]
    constructor
    · rintro ⟨j, early, rfl⟩
      have before : j < k.val := lt_of_lt_of_le early (min_le_left _ _)
      exact ⟨⟨j, before.trans k.isLt⟩, before, by rw [List.getElem_ofFn]⟩
    · rintro ⟨j, early, rfl⟩
      exact ⟨j, by simpa using early, by rw [List.getElem_ofFn]⟩

/-- **When the crash of a container whose ID is yet to be published is attributed.** -/
theorem resolve_iff (r : Reporter) (event : CrashEvent) (listings : Fin 6 → Listing) (k : Fin 6)
    (pod : ListedPod) (cs : ContainerStatus)
    (awaited : Awaited event.containerID listings k pod cs) :
    resolve r event listings = .ok (foundIn event.containerID pod.toPod cs) ↔
      ∀ j < k, NoEntry (listings j) pod cs → anyContainerIDPending (listings j).pods := by
  obtain ⟨front, back, listed, before⟩ := ofFn_split listings k
  have absent : ∀ pods ∈ front.map Listing.pods, findPod event.containerID pods = none := by
    intro pods member
    obtain ⟨listing, here, rfl⟩ := List.mem_map.1 member
    obtain ⟨j, early, rfl⟩ := (before listing).1 here
    exact findPod_absent (awaited.earlier j early)
  -- The loop gets to listing `k` if every listing before it has something pending.
  have answer : answerOf event.containerID ((List.ofFn listings).map Listing.pods) =
      if ∀ j < k, anyContainerIDPending (listings j).pods then
        some (foundIn event.containerID pod.toPod cs) else none := by
    have passed : (∀ pods ∈ front.map Listing.pods, anyContainerIDPending pods) ↔
        ∀ j < k, anyContainerIDPending (listings j).pods := by
      simp only [List.forall_mem_map, before]
      constructor
      · exact fun all j early => all _ ⟨j, early, rfl⟩
      · rintro all _ ⟨j, early, rfl⟩
        exact all j early
    rw [listed, List.map_append, answerOf_append absent, if_congr passed rfl rfl, List.map_cons,
      answerOf, awaited.first.findPod]
  have named : (foundIn event.containerID pod.toPod cs).podName ≠ [] := pod.named
  rw [resolve_eq, answer]
  constructor
  · intro ok j early _
    by_contra stuck
    rw [if_neg fun all => stuck (all j early)] at ok
    exact absurd ok (by simp)
  · intro condition
    have all : ∀ j < k, anyContainerIDPending (listings j).pods := by
      intro j early
      rcases (awaited.unpublished j early).entry with none_ | ⟨p, member, -, s, status, -, noID, live⟩
      · exact condition j early none_
      · exact pending_of_entry member status noID live
    rw [if_pos all]
    exact if_neg named

/-! ## A container that is added to a running pod -/

def app : ContainerStatus :=
  { name := lit "app", containerID := lit "containerd://a1", restartCount := 0 }

def debugger : ContainerStatus :=
  { name := lit "debugger", containerID := lit "containerd://d1", restartCount := 0 }

/-- The pod before the kubelet has given the new container a status entry, after it has given
it one, and after it has published its ID. -/
def added : ListedPod where
  name := lit "cart"
  namespace_ := lit "shop"
  uid := lit "u1"
  containerStatuses := [app]
  specContainers := [lit "app", lit "debugger"]
  named := by decide
  statuses_named := by decide

def starting : ListedPod :=
  { added with
    ephemeralContainerStatuses := [{ debugger with containerID := [], state := ⟨true, false⟩ }]
    statuses_named := by decide }

def started : ListedPod :=
  { added with
    ephemeralContainerStatuses := [debugger]
    statuses_named := by decide }

/-- The new container is killed between the first two listings. -/
def listingsFrom (first : ListedPod) : Fin 6 → Listing := fun k =>
  if k = 0 then [first] else [started]

def kill : CrashEvent := { containerID := lit "d1" }
def node1 : Reporter := ⟨lit "node-1", true⟩

theorem firstShown_started : FirstShown (lit "d1") [started] started debugger where
  pods := ⟨[], [], rfl, by simp⟩
  statuses := ⟨[app], [], rfl, by decide +kernel⟩
  shown := by decide +kernel

theorem awaited_listingsFrom {first : ListedPod} (unpublished : Unpublished [first] started debugger)
    (absent : ∀ s ∈ podStatuses first.toPod, ¬ Shows (lit "d1") s) :
    Awaited (lit "d1") (listingsFrom first) 1 started debugger where
  first := firstShown_started
  earlier := by
    intro j early
    obtain rfl : j = 0 := by omega
    simpa [listingsFrom] using absent
  unpublished := by
    intro j early
    obtain rfl : j = 0 := by omega
    exact unpublished

theorem resolve_iff_starting :
    resolve node1 kill (listingsFrom starting) = .ok (foundIn (lit "d1") started.toPod debugger) := by
  have unpublished : Unpublished [starting] started debugger := by
    refine ⟨⟨starting, List.mem_cons_self, rfl, by decide⟩, .inr ⟨starting, List.mem_cons_self, rfl, ?_⟩⟩
    exact ⟨_, List.mem_cons_of_mem _ List.mem_cons_self, rfl, rfl, rfl⟩
  have awaited := awaited_listingsFrom unpublished (by decide +kernel)
  refine (resolve_iff node1 kill _ 1 started debugger awaited).2 ?_
  intro j early _
  obtain rfl : j = 0 := by omega
  decide

/-- **A container that is only in the spec is given up**, although its ID is in the second
listing. -/
theorem unlisted_givenUp :
    Awaited (lit "d1") (listingsFrom added) 1 started debugger ∧
      resolve node1 kill (listingsFrom added) = .error (notFound node1 kill) := by
  constructor
  · refine awaited_listingsFrom ⟨⟨added, List.mem_cons_self, rfl, by decide⟩, .inl ?_⟩
      (by decide +kernel)
    intro p member _
    rw [List.mem_singleton.1 member]
    decide
  · have none_ : answerOf kill.containerID ((List.ofFn (listingsFrom added)).map Listing.pods) =
        none := by
      decide +kernel
    rw [resolve_eq, none_]

end KubeAutopsy.Agent.Pending
