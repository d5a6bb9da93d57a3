/-
# KubeAutopsy.Agent.LogCapture — finding the log file of one incarnation

`internal/agent/logcapture.go`, the choice of the file.  The file system is what the two
calls made on it answer, whatever they answer.
-/
import KubeAutopsy.Agent.Names
import KubeAutopsy.Api.Operations
import KubeAutopsy.Theory.Sorting

namespace KubeAutopsy.Agent

open KubeAutopsy.Api
open KubeAutopsy.Api.Files
open KubeAutopsy.Theory.Bytes (GoString lit itoa)
open KubeAutopsy.Theory.Sorting

set_option autoImplicit false

def podLogBasePath : GoString := lit "/var/log/pods"

/-- The directory `CaptureLogTail` reads for a container. -/
def logDir (podMeta : PodMeta) : Path :=
  [podLogBasePath, podMeta.namespace_ ++ lit "_" ++ podMeta.podName ++ lit "_" ++ podMeta.podUID,
    podMeta.containerName]

/-- The digits of `strconv.Atoi`, read from the left onto `n`. -/
def atoiDigits : GoString → Nat → Option Nat
  | [], n => some n
  | b :: rest, n =>
      if 48 ≤ b ∧ b ≤ 57 then atoiDigits rest (10 * n + (b.toNat - 48)) else none

/-- `strconv.Atoi`: an optional sign, at least one digit, and in the range of a
64-bit integer. -/
def atoi (s : GoString) : Option Int :=
  let digits (t : GoString) : Option Nat := if t = [] then none else atoiDigits t 0
  let value : Option Int :=
    match s with
    | 43 :: rest => (digits rest).map fun n => (n : Int)
    | 45 :: rest => (digits rest).map fun n => -(n : Int)
    | _ => (digits s).map fun n => (n : Int)
  match value with
  | some n => if -2 ^ 63 ≤ n ∧ n ≤ 2 ^ 63 - 1 then some n else none
  | none => none

/-- The number in a name like `3.log`, or -1. -/
def extractLogNumber (name : GoString) : Int :=
  match atoi (trimSuffix name (lit ".log")) with
  | some n => n
  | none => -1

/-- The order `findLatestLogFile` sorts by: the highest number first. -/
def laterLog (a b : GoString × FileInfo) : Bool :=
  decide (extractLogNumber a.1 > extractLogNumber b.1)

def findLatestLogFile (sorter : SortSlice laterLog) (fs : FileSystem) (dir : Path) :
    Except GoError Path :=
  match fs.readDir dir with
  | .error err => .error (.wrap (lit "failed to read log directory " ++ dir.text) err)
  | .ok entries =>
      let logs := entries.filter fun entry => !entry.2.isDir && decide (lit ".log" <:+ entry.1)
      let symlinks := (logs.filter fun entry => entry.2.isSymlink).length
      match sorter.sort (logs.filter fun entry => !entry.2.isSymlink) with
      | [] =>
          if symlinks > 0 then
            .error (.text (lit "the " ++ itoa symlinks ++ lit " log file(s) in " ++ dir.text ++
              lit (" are symlinks, which are not followed; this layout stores the real files " ++
                "outside /var/log/pods, where the agent has no access")))
          else .error (.text (lit "no log files found in " ++ dir.text))
      | first :: _ => .ok (dir ++ [first.1])

def findLogFile (sorter : SortSlice laterLog) (fs : FileSystem) (dir : Path) (index : Int) :
    Except GoError Path :=
  if index < 0 then findLatestLogFile sorter fs dir
  else
    let path := dir ++ [itoa index ++ lit ".log"]
    match fs.lstat path with
    | .error err =>
        .error (.wrap (lit "log file for incarnation " ++ itoa index ++ lit " of " ++ dir.text) err)
    | .ok info =>
        if info.isSymlink then
          .error (.text (path.text ++ lit " is a symlink, refusing to follow it"))
        else .ok path

/-- With the incarnation known there is one file it can be. -/
theorem findLogFile_eq {sorter : SortSlice laterLog} {fs : FileSystem} {dir path : Path} {index : Int}
    (known : 0 ≤ index) (found : findLogFile sorter fs dir index = .ok path) :
    path = dir ++ [itoa index ++ lit ".log"] := by
  unfold findLogFile at found
  rw [if_neg (by omega)] at found
  dsimp only at found
  split at found
  · cases found
  · split at found
    · cases found
    · exact (Except.ok.inj found).symm

end KubeAutopsy.Agent
