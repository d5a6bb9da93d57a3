/-
# KubeAutopsy.Agent.LogAttempts — capturing the end of a log

`CaptureLogTail` of `internal/agent/logcapture.go`.  The container runtime moves the files of
a container that has just died, so the capture is tried three times, and each time it finds
whatever is there then (`Op.logFiles`).  What one attempt makes of it is `attempt`: it finds
the file, reads its last lines, strips their framing and truncates them.
-/
import KubeAutopsy.Agent.LogParse
import KubeAutopsy.Agent.LogTruncate
import KubeAutopsy.Theory.Refinement

namespace KubeAutopsy.Agent

open KubeAutopsy.Api
open KubeAutopsy.Api.Files
open KubeAutopsy.Theory.Bytes (GoString lit itoa)
open KubeAutopsy.Theory.Clock
open KubeAutopsy.Theory.Program
open KubeAutopsy.Theory.Refinement
open KubeAutopsy.Theory.Slices
open KubeAutopsy.Theory.Sorting

set_option autoImplicit false

def logCaptureRetries : Nat := 3
def logCaptureBaseDelay : Int := 100 * (second / 1000)

structure LogCapturer where
  tailLines : Int
  /-- `time.Parse` and `json.Unmarshal`. -/
  decoders : Decoders
  /-- `sort.Slice`. -/
  sorter : SortSlice laterLog

namespace LogCapturer

/-- What one attempt makes of the files it finds; attempts are counted from 0. -/
def attempt (lc : LogCapturer) (podMeta : PodMeta) (files : NodeFiles) (k : Nat) :
    Except GoError (List GoString) :=
  match findLogFile lc.sorter files.fs (logDir podMeta) podMeta.logFileIndex with
  | .error err => .error (.wrap (lit "attempt " ++ itoa (k + 1) ++ lit ": find log file") err)
  | .ok logFile =>
      match settled (tailFile files.openFile logFile lc.tailLines) (tailFile_in_range _ _ _) with
      | .error err => .error (.wrap (lit "attempt " ++ itoa (k + 1) ++ lit ": tail file") err)
      | .ok lines => .ok (truncateLines (parseLogLines lc.decoders lines))

/-- The body of the loop of `CaptureLogTail`. -/
def captureRound (lc : LogCapturer) (podMeta : PodMeta) (k : Nat) (delay : Int) :
    M (Except GoError (List GoString)) := do
  if k > 0 then perform (Op.sleep delay)
  let files ← perform (Op.logFiles (logDir podMeta))
  return lc.attempt podMeta files k

/-- The loop from attempt `k` on, with `left` more behind it. -/
def captureFrom (lc : LogCapturer) (podMeta : PodMeta) :
    Nat → Nat → Int → M (Except GoError (List GoString))
  | 0, k, delay => do
      match ← lc.captureRound podMeta k delay with
      | .ok lines => return .ok lines
      | .error lastErr =>
          return .error (.wrap
            (lit "log capture failed after " ++ itoa logCaptureRetries ++ lit " retries") lastErr)
  | left + 1, k, delay => do
      match ← lc.captureRound podMeta k delay with
      | .ok lines => return .ok lines
      | .error _ => lc.captureFrom podMeta left (k + 1) (if k > 0 then delay * 2 else delay)

def captureLogTail (lc : LogCapturer) (podMeta : PodMeta) : M (Except GoError (List GoString)) :=
  lc.captureFrom podMeta (logCaptureRetries - 1) 0 logCaptureBaseDelay

/-- What an attempt returns is the tail of the file it found, parsed and truncated. -/
theorem attempt_eq_ok {lc : LogCapturer} {podMeta : PodMeta} {files : NodeFiles} {k : Nat}
    {lines : List GoString} (read : lc.attempt podMeta files k = .ok lines) :
    ∃ logFile raw,
      findLogFile lc.sorter files.fs (logDir podMeta) podMeta.logFileIndex = .ok logFile ∧
      tailFile files.openFile logFile lc.tailLines = .ok raw ∧
      lines = truncateLines (parseLogLines lc.decoders raw) := by
  unfold attempt at read
  split at read
  · cases read
  · rename_i logFile found
    split at read
    · cases read
    · rename_i raw ends
      exact ⟨logFile, raw, found, settled_eq_ok ends, (Except.ok.inj read).symm⟩

end LogCapturer

/-! ## The capture as a machine -/

/-- Where a capture is; `k` counts the attempts it has made. -/
inductive Capture where
  | reading (k : Nat)
  | sleeping (k : Nat)
  | captured (logLines : List GoString)
  | failed

/-- The sleep before attempt `k`. -/
def captureDelay (k : Nat) : Int := logCaptureBaseDelay * 2 ^ (k - 1)

/-- What a call and its answer make of a capture. -/
inductive Captures (lc : LogCapturer) (podMeta : PodMeta) : Machine Op Op.Resp Capture
  | read {k : Nat} {files : NodeFiles} {logLines : List GoString}
      (read : lc.attempt podMeta files k = .ok logLines) :
      Captures lc podMeta (.reading k) ⟨.logFiles (logDir podMeta), files⟩ (.captured logLines)
  | missed {k : Nat} {files : NodeFiles} (more : k + 1 < logCaptureRetries) :
      Captures lc podMeta (.reading k) ⟨.logFiles (logDir podMeta), files⟩ (.sleeping (k + 1))
  | slept {k : Nat} : Captures lc podMeta (.sleeping k) ⟨.sleep (captureDelay k), ()⟩ (.reading k)
  | gaveUp {k : Nat} {files : NodeFiles} (last : k + 1 = logCaptureRetries) :
      Captures lc podMeta (.reading k) ⟨.logFiles (logDir podMeta), files⟩ .failed

/-- Where a capture ends with this result. -/
def captureEnds (q : Capture) : Except GoError (List GoString) → Prop
  | .ok logLines => q = .captured logLines
  | .error _ => q = .failed

/-- Before attempt `k`, and before the sleep in front of it. -/
def Capture.next (k : Nat) : Capture := if k > 0 then .sleeping k else .reading k

section Refines

variable {lc : LogCapturer} {podMeta : PodMeta}

/-- A round, with what follows it. -/
theorem captureRound_refines {k : Nat} {delay : Int} (schedule : k > 0 → delay = captureDelay k)
    {f : Except GoError (List GoString) → M (Except GoError (List GoString))}
    (goesOn : ∀ files, ∃ q,
      Captures lc podMeta (.reading k) ⟨.logFiles (logDir podMeta), files⟩ q ∧
        Refines (Captures lc podMeta) captureEnds q (f (lc.attempt podMeta files k))) :
    Refines (Captures lc podMeta) captureEnds (.next k) (lc.captureRound podMeta k delay >>= f) := by
  unfold LogCapturer.captureRound Capture.next
  by_cases later : k > 0
  · rw [if_pos later, if_pos later, schedule later]
    exact fun _ => ⟨_, .slept, goesOn⟩
  · rw [if_neg later, if_neg later]
    exact goesOn

theorem captureFrom_refines {left k : Nat} {delay : Int}
    (schedule : delay = if k > 0 then captureDelay k else logCaptureBaseDelay)
    (count : k + 1 + left = logCaptureRetries) :
    Refines (Captures lc podMeta) captureEnds (.next k) (lc.captureFrom podMeta left k delay) := by
  have sleeps : k > 0 → delay = captureDelay k := fun later => by rw [schedule, if_pos later]
  induction left generalizing k delay with
  | zero =>
      refine captureRound_refines sleeps fun files => ?_
      cases ended : lc.attempt podMeta files k with
      | ok logLines => exact ⟨_, .read ended, rfl⟩
      | error err => exact ⟨_, .gaveUp count, rfl⟩
  | succ left ih =>
      refine captureRound_refines sleeps fun files => ?_
      cases ended : lc.attempt podMeta files k with
      | ok logLines => exact ⟨_, .read ended, rfl⟩
      | error err =>
          have next : (if k > 0 then delay * 2 else delay) = captureDelay (k + 1) := by
            rw [schedule]
            rcases Nat.eq_zero_or_pos k with rfl | later
            · rfl
            · obtain ⟨j, rfl⟩ : ∃ j, k = j + 1 := ⟨k - 1, by omega⟩
              simp only [later, if_true, captureDelay, Nat.add_sub_cancel]
              rw [mul_assoc, ← pow_succ]
          exact ⟨_, .missed (by omega), ih next (by omega) fun _ => next⟩

/-- **What `CaptureLogTail` can do.** -/
theorem captureLogTail_refines (lc : LogCapturer) (podMeta : PodMeta) :
    Refines (Captures lc podMeta) captureEnds (.reading 0) (lc.captureLogTail podMeta) :=
  captureFrom_refines (k := 0) rfl rfl

end Refines

end KubeAutopsy.Agent
