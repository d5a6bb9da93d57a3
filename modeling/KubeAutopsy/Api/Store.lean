/-
# KubeAutopsy.Api.Store — what the API server does to the reports it stores

Every write that changes an object gives it the next `resourceVersion`; the store
keeps every version it ever held, because a cache may still serve any of them.  A
server draws the suffix of a generated name at random and refuses a name that is in
use; that it draws none a second time after the first report was deleted is an
assumption of this model, so `create` refuses every name that was ever used.  A status
patch with an outdated precondition is refused without effect, one without a
precondition is applied to whatever is stored, and one that changes nothing is not a
write.

What each operation does when it takes effect is said once, in `create_spec`,
`patchStatus_spec` and `delete_spec`.
-/
import KubeAutopsy.Api.Types
import KubeAutopsy.Theory.History

namespace KubeAutopsy.Api

open KubeAutopsy.Theory.Bytes (GoString)
open KubeAutopsy.Theory.History

set_option autoImplicit false

def PodCrashReport.version (report : PodCrashReport) : Nat := report.metadata.resourceVersion

def PodCrashReport.withVersion (report : PodCrashReport) (n : Nat) : PodCrashReport :=
  { report with metadata := { report.metadata with resourceVersion := n } }

structure Store where
  versions : Versions PodCrashReport.key PodCrashReport.version
  /-- The names of the deleted reports. -/
  gone : List NamespacedName

namespace Store

def empty : Store := ⟨.empty, []⟩

/-- Everything the store ever held, newest first. -/
def history (s : Store) : List PodCrashReport := s.versions.entries

/-- The stored report of that name. -/
def current (s : Store) (key : NamespacedName) : Option PodCrashReport :=
  if key ∈ s.gone then none else s.versions.current key

/-- Store `report` under the next version. -/
def write (s : Store) (report : PodCrashReport) : PodCrashReport × Store :=
  (report.withVersion (s.versions.last + 1),
    { s with
      versions := s.versions.push (report.withVersion (s.versions.last + 1)) (Nat.lt_succ_self _) })

/-- The report as the server first stores it: as it arrives, named, dated, and without a
status, which only the status subresource writes. -/
def admitted (report : PodCrashReport) (suffix : GoString) (createdAt : Int) : PodCrashReport :=
  { report.wire with
    metadata := { report.metadata.wire with
      name := report.metadata.wire.generateName ++ suffix, creationTimestamp := createdAt }
    status := {} }

def create (s : Store) (report : PodCrashReport) (suffix : GoString) (createdAt : Int) :
    Option (PodCrashReport × Store) :=
  if s.history.any fun v => decide (v.key = (admitted report suffix createdAt).key) then none
  else some (s.write (admitted report suffix createdAt))

def patchStatus (s : Store) (key : NamespacedName) (patch : StatusPatch) :
    Option (PodCrashReport × Store) :=
  match s.current key with
  | none => none
  | some stored =>
      if !patch.current stored then none
      else
        let status := patch.applyTo stored.status
        if status = stored.status then some (stored, s)
        else some (s.write { stored with status := status })

def delete (s : Store) (key : NamespacedName) : Option Store :=
  match s.current key with
  | none => none
  | some _ => some { s with gone := key :: s.gone }

variable {s s' : Store} {key : NamespacedName}

theorem mem_of_current {v : PodCrashReport} (found : s.current key = some v) : v ∈ s.history := by
  unfold current at found
  split at found
  · cases found
  · exact Versions.mem_of_current found

theorem key_of_current {v : PodCrashReport} (found : s.current key = some v) : v.key = key := by
  unfold current at found
  split at found
  · cases found
  · exact Versions.key_of_current found

theorem versions_current {v : PodCrashReport} (found : s.current key = some v) :
    s.versions.current key = some v := by
  unfold current at found
  split at found
  · cases found
  · exact found

/-- `s'` is `s` with `stored` written. -/
structure Wrote (s : Store) (stored : PodCrashReport) (s' : Store) : Prop where
  fresh : s.versions.last < stored.version
  versions : s'.versions = s.versions.push stored fresh
  gone : s'.gone = s.gone

theorem Wrote.history {stored : PodCrashReport} (wrote : Wrote s stored s') :
    s'.history = stored :: s.history :=
  congrArg Versions.entries wrote.versions

theorem not_gone_of_current {v : PodCrashReport} (found : s.current key = some v) : key ∉ s.gone := by
  intro gone
  simp [current, gone] at found

/-- A write of a report that was not deleted is what is stored from then on. -/
theorem current_of_wrote {stored : PodCrashReport} (wrote : Wrote s stored s')
    (there : stored.key ∉ s.gone) : s'.current stored.key = some stored := by
  unfold current
  rw [wrote.gone, if_neg there, wrote.versions]
  simp [Versions.current, Versions.push]

theorem write_wrote (s : Store) (report : PodCrashReport) :
    Wrote s (s.write report).1 (s.write report).2 :=
  ⟨Nat.lt_succ_self _, rfl, rfl⟩

theorem create_spec {report stored : PodCrashReport} {suffix : GoString} {createdAt : Int}
    (created : s.create report suffix createdAt = some (stored, s')) :
    Wrote s stored s' ∧ (∀ v ∈ s.history, v.key ≠ stored.key) ∧ stored.status = {} := by
  unfold create at created
  split at created
  · cases created
  · rename_i unused
    cases created
    refine ⟨write_wrote s _, fun v member same => unused ?_, rfl⟩
    exact List.any_eq_true.2 ⟨v, member, decide_eq_true same⟩

/-- A status patch that takes effect: the version it is applied to meets its
precondition, and only the status changes. -/
structure Patched (s : Store) (key : NamespacedName) (patch : StatusPatch)
    (stored : PodCrashReport) (s' : Store) : Prop where
  base : ∃ old, s.current key = some old ∧ patch.current old = true ∧
    stored.status = patch.applyTo old.status ∧
    stored.metadata.creationTimestamp = old.metadata.creationTimestamp
  key : stored.key = key
  effect : (stored ∈ s.history ∧ s' = s) ∨ Wrote s stored s'

theorem patchStatus_spec {patch : StatusPatch} {stored : PodCrashReport}
    (patched : s.patchStatus key patch = some (stored, s')) : Patched s key patch stored s' := by
  unfold patchStatus at patched
  split at patched
  · cases patched
  · rename_i old found
    split at patched
    · cases patched
    · rename_i lock
      dsimp only at patched
      have named := key_of_current found
      split at patched
      · rename_i same
        cases patched
        exact ⟨⟨stored, found, by simpa using lock, same.symm, rfl⟩, named,
          .inl ⟨mem_of_current found, rfl⟩⟩
      · cases patched
        exact ⟨⟨old, found, by simpa using lock, rfl, rfl⟩, named, .inr (write_wrote s _)⟩

theorem delete_spec (deleted : s.delete key = some s') :
    (∃ v, s.current key = some v) ∧ s'.versions = s.versions ∧ s'.gone = key :: s.gone := by
  unfold delete at deleted
  split at deleted
  · cases deleted
  · rename_i v found
    cases deleted
    exact ⟨⟨v, found⟩, rfl, rfl⟩

end Store

end KubeAutopsy.Api
