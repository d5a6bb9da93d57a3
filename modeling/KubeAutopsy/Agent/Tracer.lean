/-
# KubeAutopsy.Agent.Tracer — from a kernel record to a crash event

`BpfOomEvent` as `ReadEvent` hands it over, `parseComm` of `internal/agent/tracer.go`, and
the conversion the reader of `Agent.Run` makes of it.  The record's counters are unsigned
and the crash event's are signed; the conversions and products wrap as the source's do.
-/
import KubeAutopsy.Agent.Names
import KubeAutopsy.Agent.Reporter

namespace KubeAutopsy.Agent

open KubeAutopsy.Theory.Bytes (GoString lit)

set_option autoImplicit false

/-- The fields `Agent.Run` reads; the victim's cgroup number and the padding are not
among them. -/
structure BpfOomEvent where
  fpid : UInt32
  tpid : UInt32
  oomScore : Int64
  oomScoreAdj : Int16
  fcomm : Vector Int8 16
  tcomm : Vector Int8 16
  scopeTotalPages : UInt64
  anonRssPages : UInt64
  fileRssPages : UInt64
  shmemRssPages : UInt64
  swapPages : UInt64
  pgtablesBytes : UInt64
  cgroupName : Vector Int8 128
  isGlobalOom : Bool
  rssValid : Bool
  deriving DecidableEq, Repr

/-- A C string in a fixed buffer, up to its terminator. -/
def parseComm (comm : List Int8) : GoString :=
  (comm.takeWhile (· ≠ 0)).map Int8.toUInt8

/-- The part after the last dash, without `.scope`; a name without a dash is itself. -/
def containerIDFromCgroup (name : GoString) : GoString :=
  let parts := name.splitOn 0x2D
  if parts.length < 2 then name else trimSuffix (parts.getLastD []) (lit ".scope")

/-- A page count as a byte count. -/
def pagesToBytes (pageSize : Int64) (pages : UInt64) : Int64 := pages.toInt64 * pageSize

def crashEvent (pageSize : Int64) (event : BpfOomEvent) (now : Int) : CrashEvent :=
  let anonRSS := pagesToBytes pageSize event.anonRssPages
  let fileRSS := pagesToBytes pageSize event.fileRssPages
  let shmemRSS := pagesToBytes pageSize event.shmemRssPages
  { containerID := containerIDFromCgroup (parseComm event.cgroupName.toList)
    oomScopeLimitBytes := (pagesToBytes pageSize event.scopeTotalPages).toInt
    victimRSSBytes := (anonRSS + fileRSS + shmemRSS).toInt
    oomVictimPID := event.tpid.toInt32.toInt
    oomVictimComm := parseComm event.tcomm.toList
    triggerPID := event.fpid.toInt32.toInt
    triggerComm := parseComm event.fcomm.toList
    oomScore := event.oomScore.toInt
    oomScoreAdj := event.oomScoreAdj.toInt32.toInt
    anonRSSBytes := anonRSS.toInt
    fileRSSBytes := fileRSS.toInt
    shmemRSSBytes := shmemRSS.toInt
    swapBytes := (pagesToBytes pageSize event.swapPages).toInt
    pageTablesBytes := event.pgtablesBytes.toInt64.toInt
    rssValid := event.rssValid
    isGlobalOOM := event.isGlobalOom
    detectedAt := now }

example : containerIDFromCgroup (lit "cri-containerd-c0ffee.scope") = lit "c0ffee" := by decide

end KubeAutopsy.Agent
