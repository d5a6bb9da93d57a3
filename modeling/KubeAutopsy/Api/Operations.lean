/-
# KubeAutopsy.Api.Operations — everything the program does to the world outside it

The agent and the controller are sequential programs over these operations:
reads and writes of reports, pod listings, the log files of a node, the webhook
request, the clock, timers, metrics and Events.  An answer says what really happened, which can be more than
the caller learns: a write that was `lost` took effect although its response did
not arrive, and the caller sees the same transport error as for a request that
never arrived.  Callers look at such an answer through `result` or `err` only.

Log lines are left out, except the one line that is all a successful crash event
leaves behind.
-/
import KubeAutopsy.Api.Types
import KubeAutopsy.Theory.Clock
import KubeAutopsy.Theory.Program

namespace KubeAutopsy.Api

open KubeAutopsy.Theory
open KubeAutopsy.Theory.Bytes (GoString lit)
open KubeAutopsy.Theory.Program (Prog Entry)

set_option autoImplicit false

/-! ## Errors -/

/-- The reason of an API status the code tells apart, and all the others. -/
inductive StatusReason where
  | serverTimeout | timeout | tooManyRequests | internalError | serviceUnavailable
  | conflict | notFound | invalid | forbidden | other
  deriving DecidableEq, Repr

/-- What a client call fails with: no verdict at all, or an API status. -/
inductive ApiError where
  | transport
  | status (reason : StatusReason)
  deriving DecidableEq, Repr

/-- `apierrors.IsNotFound`. -/
def ApiError.isNotFound : ApiError → Bool
  | .status .notFound => true
  | _ => false

/-- Error values, with the wrappers `errors.As` looks through. -/
inductive GoError where
  | api (e : ApiError)
  | canceled
  | webhook (status : Option Nat)
  | text (message : GoString)
  | wrap (message : GoString) (cause : GoError)
  | podList (cause : GoError)
  | statusWrite (cause : GoError)
  deriving DecidableEq, Repr

/-- `errors.As(err, &statusErr)` for a `*StatusWriteError`. -/
def GoError.asStatusWrite : GoError → Bool
  | .statusWrite _ => true
  | .wrap _ cause => cause.asStatusWrite
  | .podList cause => cause.asStatusWrite
  | _ => false

/-- `errors.As(err, &listErr)` for a `*PodListError`. -/
def GoError.asPodList : GoError → Bool
  | .podList _ => true
  | .wrap _ cause => cause.asPodList
  | .statusWrite cause => cause.asPodList
  | _ => false

/-! ## Pods -/

/-- Which of the two states the agent looks at a container is in. -/
structure ContainerState where
  waiting : Bool := false
  terminated : Bool := false
  deriving DecidableEq, Repr

/-- A container status; `lastTerminated` is the container ID of
`LastTerminationState.Terminated`, when there is one. -/
structure ContainerStatus where
  name : GoString
  containerID : GoString
  restartCount : Int
  state : ContainerState := {}
  lastTerminated : Option GoString := none
  deriving DecidableEq, Repr

structure Pod where
  name : GoString
  namespace_ : GoString
  uid : GoString
  containerStatuses : List ContainerStatus := []
  initContainerStatuses : List ContainerStatus := []
  ephemeralContainerStatuses : List ContainerStatus := []
  deriving DecidableEq, Repr

/-- `PodMeta`: the pod and container a crash was attributed to.  A negative
`logFileIndex` means that the incarnation is not known. -/
structure PodMeta where
  podName : GoString
  namespace_ : GoString
  containerName : GoString
  podUID : GoString
  logFileIndex : Int
  deriving DecidableEq, Repr

/-! ## The files of a node -/

namespace Files

/-- A path is the list of its elements: the elements joined here are names without a
separator, so joining them and splitting again is the identity. -/
abbrev Path := List GoString

/-- The text of a path. -/
def Path.text (path : Path) : GoString := (lit "/").intercalate path

/-- What `Lstat` and a directory entry say about a file. -/
structure FileInfo where
  isDir : Bool := false
  isSymlink : Bool := false
  deriving DecidableEq, Repr

structure FileSystem where
  lstat : Path → Except GoError FileInfo
  readDir : Path → Except GoError (List (GoString × FileInfo))

/-- What `Stat` says of an open file. -/
structure FileStat where
  isRegular : Bool
  size : Nat
  deriving DecidableEq, Repr

/-- An open file.  `readAt offset size` are the bytes read; the end of the file is not an
error of it. -/
structure LogFile where
  stat : Except GoError FileStat
  readAt : Nat → Nat → Except GoError GoString

/-- A regular file with fixed content. -/
structure LogFile.Has (file : LogFile) (content : GoString) : Prop where
  stat : file.stat = .ok ⟨true, content.length⟩
  readAt : ∀ offset size, file.readAt offset size = .ok ((content.drop offset).take size)

/-- What one attempt to read a log finds on the node.  The container runtime may be moving
the files meanwhile, so this is what each call of the attempt is answered, whatever that is,
and not a state of the disk. -/
structure NodeFiles where
  fs : FileSystem
  openFile : Path → Except GoError LogFile

/-- The files have been removed. -/
def noFiles : NodeFiles where
  fs := ⟨fun _ => .error (.text (lit "no such file or directory")),
    fun _ => .error (.text (lit "no such file or directory"))⟩
  openFile := fun _ => .error (.text (lit "no such file or directory"))

end Files

/-! ## Answers -/

inductive GetAnswer where
  | found (report : PodCrashReport)
  | refused (e : ApiError)
  deriving DecidableEq, Repr

inductive ListAnswer where
  | listed (reports : List PodCrashReport)
  | refused (e : ApiError)
  deriving DecidableEq, Repr

inductive PodsAnswer where
  | listed (pods : List Pod)
  | refused (e : ApiError)
  deriving DecidableEq, Repr

/-- The answer to a write that returns an object. -/
inductive WriteAnswer where
  | acked (stored : PodCrashReport)
  | lost
  | refused (e : ApiError)
  deriving DecidableEq, Repr

inductive DeleteAnswer where
  | acked
  | lost
  | refused (e : ApiError)
  deriving DecidableEq, Repr

/-- The answer to the webhook request: a response, or no response. -/
inductive PostAnswer where
  | response (code : Nat)
  | failed
  deriving DecidableEq, Repr

inductive WaitAnswer where
  | elapsed
  | cancelled
  deriving DecidableEq, Repr

def WriteAnswer.result : WriteAnswer → Except ApiError PodCrashReport
  | .acked stored => .ok stored
  | .lost => .error .transport
  | .refused e => .error e

/-- The caller was not told that the write took effect. -/
def WriteAnswer.Failed (answer : WriteAnswer) : Prop := ∃ e, answer.result = .error e

/-- Whether the write took effect. -/
def WriteAnswer.applied : WriteAnswer → Bool
  | .acked _ => true
  | .lost => true
  | .refused _ => false

def DeleteAnswer.err : DeleteAnswer → Option ApiError
  | .acked => none
  | .lost => some .transport
  | .refused e => some e

/-- The call failed with something other than NotFound. -/
def DeleteAnswer.failed (answer : DeleteAnswer) : Bool :=
  match answer.err with
  | some e => !e.isNotFound
  | none => false

/-- Whether the object is gone afterwards. -/
def DeleteAnswer.gone : DeleteAnswer → Bool
  | .acked => true
  | .lost => true
  | .refused e => e.isNotFound

/-- `resp.StatusCode < 200 || resp.StatusCode >= 300` does not hold. -/
def PostAnswer.is2xx : PostAnswer → Bool
  | .response code => decide (200 ≤ code ∧ code < 300)
  | .failed => false

/-! ## Metrics and Events -/

inductive DeliveryResult where
  | success | retry | dropped
  deriving DecidableEq, Repr

/-- The stages of `ReportErrorsTotal`. -/
inductive Stage where
  | noPod | listPods | create | status
  deriving DecidableEq, Repr

/-- One increment or observation.  A label that the exporter bounds (`labelLimiter`)
is given before it is bounded. -/
inductive Metric where
  | webhookDeliveries (result : DeliveryResult)
  | reportsCreated (namespace_ node : GoString) (reason : TerminationReason)
  | oomEvents (namespace_ node : GoString)
  | victimAnonRSS (namespace_ container : GoString) (bytes : Int)
  | triggerProcesses (comm : GoString)
  | reportAge (age : Int)
  | reportsTrimmed
  | gcErrors
  | reportErrors (stage : Stage)
  | unsupportedKernelEvents
  | logCaptureFailures (namespace_ : GoString)
  | captureLatency (latency : Int)
  deriving DecidableEq, Repr

inductive EventReason where
  | notificationDropped | crashDetected
  deriving DecidableEq, Repr

/-- A recorded Kubernetes Event; every one of them has type `Warning`. -/
structure EventRecord where
  about : NamespacedName
  reason : EventReason
  note : GoString
  deriving DecidableEq, Repr

/-! ## Operations -/

inductive Op where
  | get (key : NamespacedName)
  | apiGet (key : NamespacedName)
  | list
  | create (report : PodCrashReport)
  | statusPatch (key : NamespacedName) (patch : StatusPatch)
  | delete (report : PodCrashReport)
  | listPods (nodeName : GoString)
  | logFiles (dir : Files.Path)
  | post (report : PodCrashReport)
  | now
  /-- A timer that the end of the context cuts short. -/
  | wait (delay : Int)
  /-- `time.Sleep`. -/
  | sleep (delay : Int)
  | count (metric : Metric)
  | event (record : EventRecord)
  | logInfo (line : GoString)

@[reducible] def Op.Resp : Op → Type
  | .get _ => GetAnswer
  | .apiGet _ => GetAnswer
  | .list => ListAnswer
  | .create _ => WriteAnswer
  | .statusPatch _ _ => WriteAnswer
  | .delete _ => DeleteAnswer
  | .listPods _ => PodsAnswer
  | .logFiles _ => Files.NodeFiles
  | .post _ => PostAnswer
  | .now => Int
  | .wait _ => WaitAnswer
  | .sleep _ => Unit
  | .count _ => Unit
  | .event _ => Unit
  | .logInfo _ => Unit

/-- Every operation can be answered. -/
instance (o : Op) : Nonempty o.Resp := by
  cases o with
  | get key => exact ⟨.refused .transport⟩
  | apiGet key => exact ⟨.refused .transport⟩
  | list => exact ⟨.refused .transport⟩
  | create report => exact ⟨.lost⟩
  | statusPatch key patch => exact ⟨.lost⟩
  | delete report => exact ⟨.lost⟩
  | listPods nodeName => exact ⟨.refused .transport⟩
  | logFiles dir => exact ⟨Files.noFiles⟩
  | post report => exact ⟨.failed⟩
  | now => exact ⟨(0 : Int)⟩
  | wait delay => exact ⟨.elapsed⟩
  | _ => exact ⟨()⟩

/-- A program of the agent or the controller. -/
abbrev M := Prog Op Op.Resp

/-- What a program has performed, newest first. -/
abbrev Log := List (Entry Op Op.Resp)

/-- The log holds this operation with this answer. -/
def Did (log : Log) (o : Op) (r : o.Resp) : Prop := (⟨o, r⟩ : Entry Op Op.Resp) ∈ log

theorem did_self (log : Log) (o : Op) (r : o.Resp) : Did (⟨o, r⟩ :: log) o r :=
  List.mem_cons_self

theorem Did.cons {log : Log} {o : Op} {r : o.Resp} (did : Did log o r) (e : Entry Op Op.Resp) :
    Did (e :: log) o r :=
  List.mem_cons_of_mem e did

theorem Did.of_suffix {log before : Log} {o : Op} {r : o.Resp} (did : Did before o r)
    (suffix : before <:+ log) : Did log o r :=
  suffix.mem did

/-- An entry for another operation adds nothing. -/
theorem did_cons_of_ne {log : Log} {e : Entry Op Op.Resp} {o : Op} {r : o.Resp}
    (other : e.op ≠ o) : Did (e :: log) o r ↔ Did log o r := by
  unfold Did
  constructor
  · intro member
    rcases List.mem_cons.1 member with same | before
    · exact absurd (congrArg Entry.op same).symm other
    · exact before
  · exact List.mem_cons_of_mem e

end KubeAutopsy.Api
