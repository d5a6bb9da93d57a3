/-
# KubeAutopsy.Agent.OomEvent — the record between the kernel program and the agent

`struct oom_event` of `internal/agent/bpf/oom.c` in memory, the packed reader that
`binary.Read` is for the generated `BpfOomEvent`, and `ReadEvent` of
`internal/agent/tracer.go`.  The structure has gaps in C that the generated one has as blank
fields; `readEvent_memory` is that they are in the same places.
-/
import KubeAutopsy.Agent.Tracer
import KubeAutopsy.Theory.Layout

namespace KubeAutopsy.Agent

open KubeAutopsy.Theory.Bytes (GoString lit)
open KubeAutopsy.Theory.Layout

set_option autoImplicit false

/-- The record with all its fields. -/
structure OomEvent extends BpfOomEvent where
  cgroupId : UInt64
  deriving DecidableEq, Repr

/-- The members of `struct oom_event`, in the order of their declaration. -/
def OomEvent.members (event : OomEvent) : List Member :=
  [ member event.fpid
  , member event.tpid
  , member event.cgroupId
  , member event.oomScore
  , member event.oomScoreAdj
  , member event.fcomm
  , member event.tcomm
  , member event.scopeTotalPages
  , member event.anonRssPages
  , member event.fileRssPages
  , member event.shmemRssPages
  , member event.swapPages
  , member event.pgtablesBytes
  , member event.cgroupName
  , member event.isGlobalOom
  , member event.rssValid ]

/-- What the program submits: the reservation was zeroed, so the gaps are zero. -/
def OomEvent.memory (event : OomEvent) : List UInt8 := layout event.members

/-- The record of its fields, in the order in which they are read. -/
def OomEvent.of (fpid tpid : UInt32) (cgroupId : UInt64) (oomScore : Int64) (oomScoreAdj : Int16)
    (fcomm tcomm : Vector Int8 16) (scopeTotalPages anonRssPages fileRssPages shmemRssPages
    swapPages pgtablesBytes : UInt64) (cgroupName : Vector Int8 128)
    (isGlobalOom rssValid : Bool) : OomEvent :=
  { fpid, tpid, cgroupId, oomScore, oomScoreAdj, fcomm, tcomm, scopeTotalPages, anonRssPages,
    fileRssPages, shmemRssPages, swapPages, pgtablesBytes, cgroupName, isGlobalOom, rssValid }

/-- `binary.Read` into the generated `BpfOomEvent`, in the order of its fields. -/
def bpfOomEvent : Format OomEvent :=
  Format.start OomEvent.of
    |>.field UInt32             -- Fpid
    |>.field UInt32             -- Tpid
    |>.field UInt64             -- CgroupId
    |>.field Int64              -- OomScore
    |>.field Int16              -- OomScoreAdj
    |>.field (Vector Int8 16)   -- Fcomm
    |>.field (Vector Int8 16)   -- Tcomm
    |>.blank 6
    |>.field UInt64             -- ScopeTotalPages
    |>.field UInt64             -- AnonRssPages
    |>.field UInt64             -- FileRssPages
    |>.field UInt64             -- ShmemRssPages
    |>.field UInt64             -- SwapPages
    |>.field UInt64             -- PgtablesBytes
    |>.field (Vector Int8 128)  -- CgroupName
    |>.field Bool               -- IsGlobalOom
    |>.field Bool               -- RssValid
    |>.blank 6

inductive RingbufError where
  | closed
  | other (text : GoString)
  deriving DecidableEq, Repr

inductive ReadEventError where
  | canceled
  | ringbuf (err : RingbufError)
  /-- `failed to parse ringbuf event` -/
  | parse (err : ReadError)
  deriving DecidableEq, Repr

/-- `record` is what the ring buffer's reader returns, `cancelled` whether the context was
cancelled by then. -/
def readEvent (cancelled : Bool) (record : Except RingbufError (List UInt8)) :
    Except ReadEventError OomEvent :=
  match record with
  | .error err => .error (if err = .closed ∧ cancelled then .canceled else .ringbuf err)
  | .ok rawSample =>
      match bpfOomEvent.read rawSample with
      | .error err => .error (.parse err)
      | .ok (event, _) => .ok event

/-! ## The reader sees what was laid out -/

theorem members_align (event : OomEvent) :
    event.members.map Member.align = [4, 4, 8, 8, 2, 1, 1, 8, 8, 8, 8, 8, 8, 1, 1, 1] := rfl

/-- The one gap between two members is before `scope_total_pages`, the other one at the end. -/
theorem reads_memory (event : OomEvent) : Reads bpfOomEvent event.memory event :=
  Reads.start OomEvent.of
    |>.place event.fpid (by decide)
    |>.place event.tpid (by decide)
    |>.place event.cgroupId (by decide)
    |>.place event.oomScore (by decide)
    |>.place event.oomScoreAdj (by decide)
    |>.place event.fcomm (by decide)
    |>.place event.tcomm (by decide)
    |>.placeBehind 6 event.scopeTotalPages (by decide)
    |>.place event.anonRssPages (by decide)
    |>.place event.fileRssPages (by decide)
    |>.place event.shmemRssPages (by decide)
    |>.place event.swapPages (by decide)
    |>.place event.pgtablesBytes (by decide)
    |>.place event.cgroupName (by decide)
    |>.place event.isGlobalOom (by decide)
    |>.place event.rssValid (by decide)
    |>.pad 6 (by rw [members_align]; decide)

theorem bytes_chars {n : Nat} (name : Vector Int8 n) :
    Stored.bytes name = name.toList.map Int8.toUInt8 := by
  show name.toList.flatMap (fun c => [UInt8.ofNat c.toUInt8.toNat]) = name.toList.map Int8.toUInt8
  simp only [UInt8.ofNat_toNat]
  exact (List.map_eq_flatMap ..).symm

theorem parseComm_cons (c : Int8) (chars : List Int8) :
    parseComm (c :: chars) = if c = 0 then [] else c.toUInt8 :: parseComm chars := by
  by_cases nul : c = 0 <;> simp [parseComm, nul]

theorem toUInt8_eq_zero {c : Int8} (zero : c.toUInt8 = 0) : c = 0 := by
  have back := congrArg UInt8.toInt8 zero
  rwa [Int8.toInt8_toUInt8] at back

theorem beforeNul_parseComm (chars : List Int8) :
    BeforeNul (chars.map Int8.toUInt8) (parseComm chars) := by
  induction chars with
  | nil => exact ⟨by simp [parseComm], .inl rfl⟩
  | cons c chars ih =>
      rw [parseComm_cons, List.map_cons]
      split
      case isTrue nul =>
        subst nul
        exact ⟨by simp, .inr ⟨_, rfl⟩⟩
      case isFalse other =>
        obtain ⟨clean, before⟩ := ih
        have head : (0 : UInt8) ≠ c.toUInt8 := fun zero => other (toUInt8_eq_zero zero.symm)
        refine ⟨by simp [head, clean], ?_⟩
        rcases before with whole | ⟨rest, terminated⟩
        · exact .inl (congrArg _ whole)
        · exact .inr ⟨rest, congrArg _ terminated⟩

theorem beforeNul_name {n : Nat} (name : Vector Int8 n) :
    BeforeNul (Stored.bytes name) (parseComm name.toList) := by
  rw [bytes_chars]
  exact beforeNul_parseComm name.toList

theorem read_memory (event : OomEvent) : bpfOomEvent.read event.memory = .ok (event, []) := by
  have whole := (reads_memory event).read []
  rwa [List.append_nil] at whole

theorem readEvent_ok (event : OomEvent) (cancelled : Bool) :
    readEvent cancelled (.ok event.memory) = .ok event := by
  simp only [readEvent, read_memory]

/-- **The agent reads the record the kernel program wrote**, all of it and nothing else, and
takes from each name what is before its terminator. -/
theorem readEvent_memory (event : OomEvent) (cancelled : Bool) :
    readEvent cancelled (.ok event.memory) = .ok event ∧
    bpfOomEvent.read event.memory = .ok (event, []) ∧
    bpfOomEvent.size = event.memory.length ∧
    BeforeNul (Stored.bytes event.fcomm) (parseComm event.fcomm.toList) ∧
    BeforeNul (Stored.bytes event.tcomm) (parseComm event.tcomm.toList) ∧
    BeforeNul (Stored.bytes event.cgroupName) (parseComm event.cgroupName.toList) :=
  ⟨readEvent_ok event cancelled, read_memory event, (reads_memory event).size.symm,
    beforeNul_name event.fcomm, beforeNul_name event.tcomm, beforeNul_name event.cgroupName⟩

example : bpfOomEvent.size = 248 := by decide

end KubeAutopsy.Agent
