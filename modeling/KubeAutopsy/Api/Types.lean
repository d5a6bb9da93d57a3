/-
# KubeAutopsy.Api.Types — the report resource and what a status patch does to it

The `v1alpha1` types, field for field (`api/v1alpha1/types.go`), with Go's zero
values as defaults: an empty string or list is the omitted field, `none` is a nil
pointer.  A nil list and an empty one encode alike, so a list has no nil here.

A report travels and is stored as JSON.  `encoding/json` replaces the bytes of a
string that are no characters, and `metav1.Time` is written without the fraction of
a second, so what arrives is the `wire` form of what was sent.

Both writers of a status change it by a JSON merge patch computed between two typed
copies.  `leaves` are the leaves of a status in JSON (`omitempty` throughout), read
back by `decode` (`decode_leaves`); what the encoder emits for a typed copy are those
of its wire form (`encode`).  The patch of two copies is the difference of what is
emitted for them (`MergeFrom.data`), and `StatusPatch.applyTo` is its effect on a
stored status.  `rssDissection` is a pointer to an object, so its presence is a leaf
of its own.
-/
import KubeAutopsy.Theory.Clock
import KubeAutopsy.Theory.MergePatch
import KubeAutopsy.Theory.Runes

namespace KubeAutopsy.Api

open KubeAutopsy.Theory
open KubeAutopsy.Theory.Bytes (GoString lit)
open KubeAutopsy.Theory.Clock (second)
open KubeAutopsy.Theory.Runes (toValid)

set_option autoImplicit false

/-! ## Types -/

/-- Processing phases; `unset` is the empty string. -/
inductive Phase where
  | unset
  | pending
  | processed
  deriving DecidableEq, Repr

/-- OOM scope classifications; `unset` is the empty string. -/
inductive OOMContext where
  | unset
  | containerLimit
  | nodeExhaustion
  deriving DecidableEq, Repr

def OOMContext.text : OOMContext → GoString
  | .unset => []
  | .containerLimit => lit "ContainerLimit"
  | .nodeExhaustion => lit "NodeExhaustion"

inductive TerminationReason where
  | oomKilled
  | error
  deriving DecidableEq, Repr

def TerminationReason.text : TerminationReason → GoString
  | .oomKilled => lit "OOMKilled"
  | .error => lit "Error"

structure RSSDissection where
  anonRSSBytes : Int := 0
  fileRSSBytes : Int := 0
  shmemRSSBytes : Int := 0
  swapBytes : Int := 0
  pageTablesBytes : Int := 0
  deriving DecidableEq, Repr

structure DiagnosticData where
  oomScopeLimitBytes : Int := 0
  victimRSSBytes : Int := 0
  oomVictimPID : Int := 0
  oomVictimComm : GoString := []
  triggerPID : Int := 0
  triggerComm : GoString := []
  oomScore : Int := 0
  oomScoreAdj : Int := 0
  rssDissection : Option RSSDissection := none
  oomContext : OOMContext := .unset
  lastLogLines : List GoString := []
  deriving DecidableEq, Repr

structure PodCrashReportStatus where
  diagnostics : DiagnosticData := {}
  phase : Phase := .unset
  notifiedAt : Option Int := none
  deriving DecidableEq, Repr

structure PodCrashReportSpec where
  podName : GoString := []
  podUID : GoString := []
  namespace_ : GoString := []
  containerName : GoString := []
  nodeName : GoString := []
  terminationReason : TerminationReason := .oomKilled
  exitCode : Int := 0
  timestamp : Int := 0
  deriving DecidableEq, Repr

structure OwnerReference where
  apiVersion : GoString
  kind : GoString
  name : GoString
  uid : GoString
  controller : Bool
  blockOwnerDeletion : Bool
  deriving DecidableEq, Repr

structure ObjectMeta where
  name : GoString := []
  generateName : GoString := []
  namespace_ : GoString := []
  labels : List (GoString × GoString) := []
  ownerReferences : List OwnerReference := []
  creationTimestamp : Int := 0
  resourceVersion : Nat := 0
  deriving DecidableEq, Repr

structure PodCrashReport where
  metadata : ObjectMeta := {}
  spec : PodCrashReportSpec := {}
  status : PodCrashReportStatus := {}
  deriving DecidableEq, Repr

/-- The name a report is stored under. -/
structure NamespacedName where
  namespace_ : GoString
  name : GoString
  deriving DecidableEq, Repr

/-- `client.ObjectKeyFromObject`. -/
def PodCrashReport.key (report : PodCrashReport) : NamespacedName :=
  ⟨report.metadata.namespace_, report.metadata.name⟩

/-! ## What JSON keeps -/

/-- What `metav1.Time` writes of a time, here in nanoseconds. -/
def wholeSeconds (t : Int) : Int := t / second * second

def DiagnosticData.wire (d : DiagnosticData) : DiagnosticData :=
  { d with
    oomVictimComm := toValid d.oomVictimComm
    triggerComm := toValid d.triggerComm
    lastLogLines := d.lastLogLines.map toValid }

def PodCrashReportStatus.wire (s : PodCrashReportStatus) : PodCrashReportStatus :=
  { s with diagnostics := s.diagnostics.wire, notifiedAt := s.notifiedAt.map wholeSeconds }

def PodCrashReportSpec.wire (spec : PodCrashReportSpec) : PodCrashReportSpec :=
  { spec with
    podName := toValid spec.podName
    podUID := toValid spec.podUID
    namespace_ := toValid spec.namespace_
    containerName := toValid spec.containerName
    nodeName := toValid spec.nodeName
    timestamp := wholeSeconds spec.timestamp }

def OwnerReference.wire (owner : OwnerReference) : OwnerReference :=
  { owner with
    apiVersion := toValid owner.apiVersion
    kind := toValid owner.kind
    name := toValid owner.name
    uid := toValid owner.uid }

def ObjectMeta.wire (metadata : ObjectMeta) : ObjectMeta :=
  { metadata with
    name := toValid metadata.name
    generateName := toValid metadata.generateName
    namespace_ := toValid metadata.namespace_
    labels := metadata.labels.map fun label => (toValid label.1, toValid label.2)
    ownerReferences := metadata.ownerReferences.map OwnerReference.wire
    creationTimestamp := wholeSeconds metadata.creationTimestamp }

/-- The report that arrives where `report` was sent. -/
def PodCrashReport.wire (report : PodCrashReport) : PodCrashReport where
  metadata := report.metadata.wire
  spec := report.spec.wire
  status := report.status.wire

/-! ## Statuses as JSON -/

/-- The leaves of a status. -/
inductive StatusPath where
  | phase | notifiedAt
  | oomScopeLimitBytes | victimRSSBytes | oomVictimPID | oomVictimComm
  | triggerPID | triggerComm | oomScore | oomScoreAdj | oomContext | lastLogLines
  | rssDissection
  | anonRSSBytes | fileRSSBytes | shmemRSSBytes | swapBytes | pageTablesBytes
  deriving DecidableEq, Repr

inductive Leaf where
  | phase (p : Phase)
  | context (c : OOMContext)
  | time (t : Int)
  | int (i : Int)
  | text (s : GoString)
  | lines (ls : List GoString)
  | object
  deriving DecidableEq, Repr

def omitInt (i : Int) : Option Leaf := if i = 0 then none else some (.int i)
def omitText (s : GoString) : Option Leaf := if s = [] then none else some (.text s)
def omitLines (ls : List GoString) : Option Leaf := if ls = [] then none else some (.lines ls)
def omitPhase (p : Phase) : Option Leaf := if p = .unset then none else some (.phase p)
def omitContext (c : OOMContext) : Option Leaf := if c = .unset then none else some (.context c)

def readInt : Option Leaf → Int
  | some (.int i) => i
  | _ => 0

def readText : Option Leaf → GoString
  | some (.text s) => s
  | _ => []

def readLines : Option Leaf → List GoString
  | some (.lines ls) => ls
  | _ => []

def readPhase : Option Leaf → Phase
  | some (.phase p) => p
  | _ => .unset

def readContext : Option Leaf → OOMContext
  | some (.context c) => c
  | _ => .unset

def readTime : Option Leaf → Option Int
  | some (.time t) => some t
  | _ => none

@[simp] theorem readInt_omitInt (i : Int) : readInt (omitInt i) = i := by
  unfold omitInt; split <;> simp_all [readInt]

@[simp] theorem readText_omitText (s : GoString) : readText (omitText s) = s := by
  unfold omitText; split <;> simp_all [readText]

@[simp] theorem readLines_omitLines (ls : List GoString) : readLines (omitLines ls) = ls := by
  unfold omitLines; split <;> simp_all [readLines]

@[simp] theorem readPhase_omitPhase (p : Phase) : readPhase (omitPhase p) = p := by
  unfold omitPhase; split <;> simp_all [readPhase]

@[simp] theorem readContext_omitContext (c : OOMContext) : readContext (omitContext c) = c := by
  unfold omitContext; split <;> simp_all [readContext]

@[simp] theorem readTime_map (t : Option Int) : readTime (t.map .time) = t := by
  cases t <;> rfl

/-- The leaves of a status in JSON. -/
def leaves (s : PodCrashReportStatus) : MergePatch.Doc StatusPath Leaf
  | .phase => omitPhase s.phase
  | .notifiedAt => s.notifiedAt.map .time
  | .oomScopeLimitBytes => omitInt s.diagnostics.oomScopeLimitBytes
  | .victimRSSBytes => omitInt s.diagnostics.victimRSSBytes
  | .oomVictimPID => omitInt s.diagnostics.oomVictimPID
  | .oomVictimComm => omitText s.diagnostics.oomVictimComm
  | .triggerPID => omitInt s.diagnostics.triggerPID
  | .triggerComm => omitText s.diagnostics.triggerComm
  | .oomScore => omitInt s.diagnostics.oomScore
  | .oomScoreAdj => omitInt s.diagnostics.oomScoreAdj
  | .oomContext => omitContext s.diagnostics.oomContext
  | .lastLogLines => omitLines s.diagnostics.lastLogLines
  | .rssDissection => s.diagnostics.rssDissection.map fun _ => .object
  | .anonRSSBytes => s.diagnostics.rssDissection.bind fun d => omitInt d.anonRSSBytes
  | .fileRSSBytes => s.diagnostics.rssDissection.bind fun d => omitInt d.fileRSSBytes
  | .shmemRSSBytes => s.diagnostics.rssDissection.bind fun d => omitInt d.shmemRSSBytes
  | .swapBytes => s.diagnostics.rssDissection.bind fun d => omitInt d.swapBytes
  | .pageTablesBytes => s.diagnostics.rssDissection.bind fun d => omitInt d.pageTablesBytes

/-- The diagnostics the decoder reads back. -/
def decodeDiagnostics (doc : MergePatch.Doc StatusPath Leaf) : DiagnosticData where
  oomScopeLimitBytes := readInt (doc .oomScopeLimitBytes)
  victimRSSBytes := readInt (doc .victimRSSBytes)
  oomVictimPID := readInt (doc .oomVictimPID)
  oomVictimComm := readText (doc .oomVictimComm)
  triggerPID := readInt (doc .triggerPID)
  triggerComm := readText (doc .triggerComm)
  oomScore := readInt (doc .oomScore)
  oomScoreAdj := readInt (doc .oomScoreAdj)
  rssDissection := (doc .rssDissection).map fun _ =>
    { anonRSSBytes := readInt (doc .anonRSSBytes)
      fileRSSBytes := readInt (doc .fileRSSBytes)
      shmemRSSBytes := readInt (doc .shmemRSSBytes)
      swapBytes := readInt (doc .swapBytes)
      pageTablesBytes := readInt (doc .pageTablesBytes) }
  oomContext := readContext (doc .oomContext)
  lastLogLines := readLines (doc .lastLogLines)

def decode (doc : MergePatch.Doc StatusPath Leaf) : PodCrashReportStatus where
  diagnostics := decodeDiagnostics doc
  phase := readPhase (doc .phase)
  notifiedAt := readTime (doc .notifiedAt)

theorem decodeDiagnostics_leaves (s : PodCrashReportStatus) :
    decodeDiagnostics (leaves s) = s.diagnostics := by
  obtain ⟨⟨_, _, _, _, _, _, _, _, dissection, _, _⟩, _, _⟩ := s
  cases dissection <;> simp [decodeDiagnostics, leaves]

@[simp] theorem decode_leaves (s : PodCrashReportStatus) : decode (leaves s) = s := by
  simp only [decode, decodeDiagnostics_leaves]
  simp [leaves]

/-- The leaves `json.Marshal` emits for a status. -/
def encode (s : PodCrashReportStatus) : MergePatch.Doc StatusPath Leaf := leaves s.wire

/-! ## Status patches -/

/-- A status patch as sent: the leaves it carries, and the `resourceVersion` it
carries as a precondition when it was built with an optimistic lock. -/
structure StatusPatch where
  body : MergePatch.Patch StatusPath Leaf
  resourceVersion : Option Nat

/-- `client.MergeFrom(base)`, or with `client.MergeFromWithOptimisticLock{}`. -/
structure MergeFrom where
  base : PodCrashReport
  optimisticLock : Bool := false

/-- The patch computed when the changed copy is sent. -/
def MergeFrom.data (m : MergeFrom) (changed : PodCrashReport) : StatusPatch where
  body := MergePatch.diff (encode m.base.status) (encode changed.status)
  resourceVersion := if m.optimisticLock then some m.base.metadata.resourceVersion else none

/-- The precondition the server checks before it applies a patch. -/
def StatusPatch.current (patch : StatusPatch) (stored : PodCrashReport) : Bool :=
  match patch.resourceVersion with
  | some version => decide (version = stored.metadata.resourceVersion)
  | none => true

def StatusPatch.applyTo (patch : StatusPatch) (s : PodCrashReportStatus) : PodCrashReportStatus :=
  decode (MergePatch.apply patch.body (leaves s))

/-- Sent back to the version it was computed from, a patch gives the changed status, as far
as JSON keeps it. -/
theorem MergeFrom.data_applyTo_base (m : MergeFrom) (changed : PodCrashReport) :
    (m.data changed).applyTo m.base.status.wire = changed.status.wire := by
  rw [StatusPatch.applyTo, MergeFrom.data, encode, encode, MergePatch.apply_diff_self, decode_leaves]

/-- A patch whose two copies agree on the diagnostics carries none of them, so the
stored diagnostics survive it, whether or not the copies ever held them. -/
theorem applyTo_diagnostics {m : MergeFrom} {changed : PodCrashReport}
    (same : changed.status.diagnostics = m.base.status.diagnostics) (s : PodCrashReportStatus) :
    ((m.data changed).applyTo s).diagnostics = s.diagnostics := by
  have kept : ∀ p, p ≠ .phase → p ≠ .notifiedAt →
      MergePatch.apply (m.data changed).body (leaves s) p = leaves s p := by
    intro p notPhase notNotified
    apply MergePatch.apply_diff_of_eq
    cases p <;> simp_all [encode, leaves, PodCrashReportStatus.wire]
  have : decodeDiagnostics (MergePatch.apply (m.data changed).body (leaves s)) =
      decodeDiagnostics (leaves s) := by
    simp [decodeDiagnostics, kept]
  rw [StatusPatch.applyTo, decode, this, decodeDiagnostics_leaves]

theorem applyTo_phase {m : MergeFrom} {changed : PodCrashReport}
    (moved : m.base.status.phase ≠ changed.status.phase) (s : PodCrashReportStatus) :
    ((m.data changed).applyTo s).phase = changed.status.phase := by
  have differ : encode m.base.status .phase ≠ encode changed.status .phase := by
    intro same
    exact moved (by simpa [encode, leaves, PodCrashReportStatus.wire] using congrArg readPhase same)
  simp only [StatusPatch.applyTo, decode, MergeFrom.data, MergePatch.apply_diff_of_ne differ]
  simp [encode, leaves, PodCrashReportStatus.wire]

theorem applyTo_notifiedAt (m : MergeFrom) (changed : PodCrashReport) (s : PodCrashReportStatus) :
    ((m.data changed).applyTo s).notifiedAt =
      if m.base.status.wire.notifiedAt = changed.status.wire.notifiedAt then s.notifiedAt
      else changed.status.wire.notifiedAt := by
  by_cases same : m.base.status.wire.notifiedAt = changed.status.wire.notifiedAt
  · have agree : encode m.base.status .notifiedAt = encode changed.status .notifiedAt := by
      simp [encode, leaves, same]
    simp only [StatusPatch.applyTo, decode, MergeFrom.data, MergePatch.apply_diff_of_eq agree, same,
      if_true]
    simp [leaves]
  · have differ : encode m.base.status .notifiedAt ≠ encode changed.status .notifiedAt := by
      intro agree
      exact same (by simpa [encode, leaves] using congrArg readTime agree)
    simp only [StatusPatch.applyTo, decode, MergeFrom.data, MergePatch.apply_diff_of_ne differ, same,
      if_false]
    simp [encode, leaves]

end KubeAutopsy.Api
