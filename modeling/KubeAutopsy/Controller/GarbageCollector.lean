/-
# KubeAutopsy.Controller.GarbageCollector — one retention pass

`internal/controller/gc.go`.  `deleteExpiredReports` lists every report, sorts the
listing oldest first and walks it once, deleting what has expired and, while the
countdown lasts, what is over the cap.

What a pass selects does not depend on what its deletes are answered: `sweep` is
the list of its attempts, `sweep_perm` says which reports those are, and
`run_deleteLoop` that the walk performs exactly them.  `pass_exact` puts this
together for a whole pass run on its own; `deleteExpiredReports_meets` is what the
rest of the system may rely on while a pass runs: it deletes only what is `Doomed`
in the listing it read, at the time it read it.
-/
import KubeAutopsy.Api.Operations
import KubeAutopsy.Theory.Sorting

namespace KubeAutopsy.Controller

open KubeAutopsy.Api
open KubeAutopsy.Theory.Bytes (GoString lit)
open KubeAutopsy.Theory.Clock
open KubeAutopsy.Theory.Program
open KubeAutopsy.Theory.Sorting

set_option autoImplicit false

structure GarbageCollector where
  ttl : Int
  /-- Zero disables the cap. -/
  maxReports : Int
  deriving DecidableEq, Repr

/-- The order of a pass: oldest first. -/
def olderReport (a b : PodCrashReport) : Bool :=
  decide (a.metadata.creationTimestamp < b.metadata.creationTimestamp)

namespace GarbageCollector

def age (now : Int) (report : PodCrashReport) : Int := sub now report.metadata.creationTimestamp

def expired (gc : GarbageCollector) (now : Int) (report : PodCrashReport) : Bool :=
  decide (age now report > gc.ttl)

/-- How many of `live` unexpired reports are over the cap. -/
def overCap (gc : GarbageCollector) (live : Nat) : Int :=
  if gc.maxReports > 0 ∧ (live : Int) > gc.maxReports then live - gc.maxReports else 0

/-- One delete of the loop; the loop's variables are the count and the last error. -/
def deleteReport (now : Int) (report : PodCrashReport) (trimmed : Bool) (deleted : Nat)
    (lastErr : Option GoError) : M (Nat × Option GoError) := do
  match (← perform (Op.delete report)).err with
  | some e =>
      -- Already gone is neither an error nor a deletion.
      if e.isNotFound then return (deleted, lastErr)
      perform (Op.count .gcErrors)
      return (deleted, some (.api e))
  | none =>
      perform (Op.count (.reportAge (age now report)))
      if trimmed then
        perform (Op.count .reportsTrimmed)
      return (deleted + 1, lastErr)

/-- The walk over the sorted items. -/
def deleteLoop (gc : GarbageCollector) (now : Int) :
    List PodCrashReport → Int → Nat → Option GoError → M (Nat × Option GoError)
  | [], _, deleted, lastErr => return (deleted, lastErr)
  | report :: rest, remainingTrim, deleted, lastErr => do
      let expired := gc.expired now report
      let trimmed := !expired && decide (remainingTrim > 0)
      let remainingTrim := if trimmed then remainingTrim - 1 else remainingTrim
      if !expired && !trimmed then gc.deleteLoop now rest remainingTrim deleted lastErr
      else
        let (deleted, lastErr) ← deleteReport now report trimmed deleted lastErr
        gc.deleteLoop now rest remainingTrim deleted lastErr

def deleteExpiredReports (gc : GarbageCollector) (sorter : SortSlice olderReport) :
    M (Nat × Option GoError) := do
  match ← perform Op.list with
  | .refused e => return (0, some (.api e))
  | .listed reports =>
      let now ← perform Op.now
      let items := sorter.sort reports
      let live := items.countP fun report => decide (age now report ≤ gc.ttl)
      gc.deleteLoop now items (gc.overCap live) 0 none

end GarbageCollector

/-! ## What a pass selects -/

/-- One delete of a pass and its answer. -/
structure Attempt where
  report : PodCrashReport
  trimmed : Bool
  answer : DeleteAnswer
  deriving DecidableEq, Repr

section Selection

variable {gc : GarbageCollector} {now : Int} {outcome : Nat → DeleteAnswer}

/-- The attempts of a walk over `items`, when the `k`-th delete of the pass is
answered `outcome k`. -/
def sweep (gc : GarbageCollector) (now : Int) (outcome : Nat → DeleteAnswer) :
    List PodCrashReport → Int → Nat → List Attempt
  | [], _, _ => []
  | report :: rest, trim, k =>
      if gc.expired now report then
        ⟨report, false, outcome k⟩ :: sweep gc now outcome rest trim (k + 1)
      else if trim > 0 then
        ⟨report, true, outcome k⟩ :: sweep gc now outcome rest (trim - 1) (k + 1)
      else sweep gc now outcome rest trim k

/-- The reports of a listing that have not expired. -/
def unexpired (gc : GarbageCollector) (now : Int) (items : List PodCrashReport) :
    List PodCrashReport :=
  items.filter fun report => !gc.expired now report

/-- Trimming is what happens to a selected report that has not expired. -/
theorem sweep_trimmed {items : List PodCrashReport} {trim : Int} {k : Nat} {a : Attempt}
    (member : a ∈ sweep gc now outcome items trim k) :
    a.trimmed = !gc.expired now a.report := by
  induction items generalizing trim k with
  | nil => cases member
  | cons report rest ih =>
      simp only [sweep] at member
      split at member
      · rename_i old
        rcases List.mem_cons.1 member with rfl | later
        · simp [old]
        · exact ih later
      · rename_i young
        split at member
        · rcases List.mem_cons.1 member with rfl | later
          · simp [young]
          · exact ih later
        · exact ih member

/-- Every expired report is selected. -/
theorem sweep_expired (items : List PodCrashReport) (trim : Int) (k : Nat) :
    ((sweep gc now outcome items trim k).map Attempt.report).filter (gc.expired now) =
      items.filter (gc.expired now) := by
  induction items generalizing trim k with
  | nil => rfl
  | cons report rest ih =>
      simp only [sweep]
      split
      · rename_i old
        simp [old, ih]
      · rename_i young
        split <;> simp [young, ih]

/-- Of the others, the first ones are selected, as many as there are to trim. -/
theorem sweep_unexpired (items : List PodCrashReport) (trim : Int) (k : Nat) :
    unexpired gc now ((sweep gc now outcome items trim k).map Attempt.report) =
      (unexpired gc now items).take trim.toNat := by
  unfold unexpired
  induction items generalizing trim k with
  | nil => simp [sweep]
  | cons report rest ih =>
      simp only [sweep]
      split
      · rename_i old
        simp [old, ih]
      · rename_i young
        split
        · rename_i positive
          have count : trim.toNat = (trim - 1).toNat + 1 := by omega
          rw [count]
          simp [young, ih]
        · rename_i spent
          have zero : trim.toNat = 0 := by omega
          rw [ih, zero, List.take_zero, List.take_zero]

/-- What the selection leaves: the unexpired reports behind the trimmed ones. -/
theorem sweep_perm (items : List PodCrashReport) (trim : Int) (k : Nat) :
    ((sweep gc now outcome items trim k).map Attempt.report ++
      (unexpired gc now items).drop trim.toNat).Perm items := by
  have selected : ((sweep gc now outcome items trim k).map Attempt.report).Perm
      (items.filter (gc.expired now) ++ (unexpired gc now items).take trim.toNat) := by
    rw [← sweep_expired items trim k, ← sweep_unexpired items trim k]
    exact (List.filter_append_perm _ _).symm
  refine (selected.append_right _).trans ?_
  rw [List.append_assoc, List.take_append_drop]
  exact List.filter_append_perm (gc.expired now) items

end Selection

/-! ## What a pass performs -/

section Run

variable {gc : GarbageCollector} {now : Int} {outcome : Nat → DeleteAnswer}
  {reports : List PodCrashReport}

/-- The world as one pass sees it: the listing, the clock and the answer to its
`k`-th delete.  Nothing else is asked of it. -/
def passHandler (reports : List PodCrashReport) (now : Int) (outcome : Nat → DeleteAnswer) :
    (o : Op) → Nat → o.Resp × Nat
  | .list, k => (.listed reports, k)
  | .now, k => (now, k)
  | .delete _, k => (outcome k, k + 1)
  | .get _, k => (.refused .transport, k)
  | .apiGet _, k => (.refused .transport, k)
  | .create _, k => (.refused .transport, k)
  | .statusPatch _ _, k => (.refused .transport, k)
  | .listPods _, k => (.refused .transport, k)
  | .logFiles _, k => (Files.noFiles, k)
  | .post _, k => (.failed, k)
  | .wait _, k => (.elapsed, k)
  | .sleep _, k => ((), k)
  | .count _, k => ((), k)
  | .event _, k => ((), k)
  | .logInfo _, k => ((), k)

/-- What one attempt leaves in the log, newest first. -/
def Attempt.entries (now : Int) (a : Attempt) : Log :=
  match a.answer.err with
  | some e =>
      if e.isNotFound then [⟨.delete a.report, a.answer⟩]
      else [⟨.count .gcErrors, ()⟩, ⟨.delete a.report, a.answer⟩]
  | none =>
      if a.trimmed then
        [⟨.count .reportsTrimmed, ()⟩, ⟨.count (.reportAge (GarbageCollector.age now a.report)), ()⟩,
          ⟨.delete a.report, a.answer⟩]
      else
        [⟨.count (.reportAge (GarbageCollector.age now a.report)), ()⟩, ⟨.delete a.report, a.answer⟩]

def succeeded (a : Attempt) : Bool := a.answer.err.isNone

/-- The loop's `lastErr` after an attempt. -/
def errAfter (lastErr : Option GoError) (a : Attempt) : Option GoError :=
  match a.answer.err with
  | some e => if e.isNotFound then lastErr else some (.api e)
  | none => lastErr

/-- The log after an attempt. -/
def logAfter (now : Int) (log : Log) (a : Attempt) : Log := a.entries now ++ log

theorem run_deleteReport (report : PodCrashReport) (trimmed : Bool) (deleted : Nat)
    (lastErr : Option GoError) (log : Log) (k : Nat) :
    (GarbageCollector.deleteReport now report trimmed deleted lastErr).interp
        (passHandler reports now outcome) log k =
      ((deleted + [⟨report, trimmed, outcome k⟩].countP succeeded,
          errAfter lastErr ⟨report, trimmed, outcome k⟩),
        logAfter now log ⟨report, trimmed, outcome k⟩, k + 1) := by
  unfold GarbageCollector.deleteReport
  simp only [Prog.interp_perform_bind, passHandler]
  cases err : (outcome k).err with
  | some e =>
      cases missing : e.isNotFound <;>
        simp [missing, err, succeeded, errAfter, logAfter, Attempt.entries, passHandler]
  | none =>
      cases trimmed <;> simp [err, succeeded, errAfter, logAfter, Attempt.entries, passHandler]

/-- The walk performs exactly the attempts of `sweep`. -/
theorem run_deleteLoop (items : List PodCrashReport) (trim : Int) (deleted : Nat)
    (lastErr : Option GoError) (log : Log) (k : Nat) :
    (gc.deleteLoop now items trim deleted lastErr).interp (passHandler reports now outcome) log k =
      ((deleted + (sweep gc now outcome items trim k).countP succeeded,
          (sweep gc now outcome items trim k).foldl errAfter lastErr),
        (sweep gc now outcome items trim k).foldl (logAfter now) log,
        k + (sweep gc now outcome items trim k).length) := by
  induction items generalizing trim deleted lastErr log k with
  | nil => rfl
  | cons report rest ih =>
      unfold GarbageCollector.deleteLoop sweep
      cases old : gc.expired now report with
      | true =>
          simp [Prog.interp_bind, run_deleteReport, ih, List.countP_cons]
          omega
      | false =>
          by_cases positive : trim > 0
          · simp [positive, Prog.interp_bind, run_deleteReport, ih, List.countP_cons]
            omega
          · simp [positive, ih]

/-! ### Reading a pass off its log -/

/-- The deletes of a log with their answers, oldest first. -/
def deletes : Log → List (PodCrashReport × DeleteAnswer)
  | [] => []
  | ⟨.delete report, answer⟩ :: before => deletes before ++ [(report, answer)]
  | _ :: before => deletes before

/-- How often a log increments `ReportsTrimmedTotal`. -/
def trims : Log → Nat
  | [] => 0
  | ⟨.count .reportsTrimmed, _⟩ :: before => trims before + 1
  | _ :: before => trims before

theorem deletes_logAfter (log : Log) (a : Attempt) :
    deletes (logAfter now log a) = deletes log ++ [(a.report, a.answer)] := by
  unfold logAfter Attempt.entries
  split
  · split <;> rfl
  · split <;> rfl

theorem trims_logAfter (log : Log) (a : Attempt) :
    trims (logAfter now log a) = trims log + [a].countP fun a => a.trimmed && succeeded a := by
  unfold logAfter Attempt.entries
  split
  · rename_i e err
    split <;> simp [trims, succeeded, err]
  · rename_i err
    split <;> simp_all [trims, succeeded]

theorem deletes_foldl (attempts : List Attempt) (log : Log) :
    deletes (attempts.foldl (logAfter now) log) =
      deletes log ++ attempts.map fun a => (a.report, a.answer) := by
  induction attempts generalizing log with
  | nil => simp
  | cons a rest ih => simp [ih, deletes_logAfter]

theorem trims_foldl (attempts : List Attempt) (log : Log) :
    trims (attempts.foldl (logAfter now) log) =
      trims log + attempts.countP fun a => a.trimmed && succeeded a := by
  induction attempts generalizing log with
  | nil => simp
  | cons a rest ih =>
      rw [List.foldl_cons, ih, trims_logAfter, Nat.add_assoc, ← List.countP_append]
      rfl

theorem errAfter_foldl (attempts : List Attempt) (lastErr : Option GoError) :
    attempts.foldl errAfter lastErr ≠ none ↔
      lastErr ≠ none ∨ ∃ a ∈ attempts, a.answer.failed = true := by
  induction attempts generalizing lastErr with
  | nil => simp
  | cons a rest ih =>
      rw [List.foldl_cons, ih]
      simp only [List.exists_mem_cons_iff, errAfter, DeleteAnswer.failed]
      cases a.answer.err with
      | none => simp
      | some e => cases missing : e.isNotFound <;> simp [missing]

end Run

/-! ## A whole pass -/

/-- What one pass returns and what it leaves in the log. -/
def pass (gc : GarbageCollector) (sorter : SortSlice olderReport) (reports : List PodCrashReport)
    (now : Int) (outcome : Nat → DeleteAnswer) : (Nat × Option GoError) × Log :=
  let run := (gc.deleteExpiredReports sorter).interp (passHandler reports now outcome) [] 0
  (run.1, run.2.1)

/-- The listed reports that are still there after the pass. -/
def remaining (kept : List PodCrashReport) (attempts : List (PodCrashReport × DeleteAnswer)) :
    List PodCrashReport :=
  kept ++ (attempts.filter fun a => !a.2.gone).map Prod.fst

/-- What a pass has to do with a listing: `attempts` are its deletes, `kept` the listed
reports it leaves alone. -/
structure Retains (gc : GarbageCollector) (now : Int) (reports kept : List PodCrashReport)
    (attempts : List (PodCrashReport × DeleteAnswer)) (result : Nat × Option GoError)
    (trimmedTotal : Nat) : Prop where
  /-- Every listed report is attempted, once, or left alone. -/
  split : (attempts.map Prod.fst ++ kept).Perm reports
  /-- No expired report is left alone. -/
  expired : ∀ report ∈ kept, gc.expired now report = false
  /-- As many unexpired reports are attempted as are over the cap. -/
  trimmed : ((attempts.countP fun a => !gc.expired now a.1 : Nat) : Int) =
    if gc.maxReports > 0 then
      max 0 (((reports.countP fun r => decide (GarbageCollector.age now r ≤ gc.ttl) : Nat) : Int) -
        gc.maxReports)
    else 0
  /-- Nothing unexpired is attempted that is newer than something left alone. -/
  oldest : ∀ a ∈ attempts, gc.expired now a.1 = false → ∀ report ∈ kept,
    ¬ report.metadata.creationTimestamp < a.1.metadata.creationTimestamp
  /-- What is left exceeds the cap only by what could not be deleted. -/
  capped : gc.maxReports > 0 →
    (((remaining kept attempts).countP fun r => !gc.expired now r : Nat) : Int) ≤
      gc.maxReports + ((attempts.countP fun a => !gc.expired now a.1 && a.2.failed : Nat) : Int)
  deleted : result.1 = attempts.countP fun a => a.2.err.isNone
  trimmedTotal : trimmedTotal = attempts.countP fun a => !gc.expired now a.1 && a.2.err.isNone
  err : result.2 ≠ none ↔ ∃ a ∈ attempts, a.2.failed = true

section Pass

variable {gc : GarbageCollector} {now : Int}

theorem countP_live (items : List PodCrashReport) :
    (items.countP fun r => decide (GarbageCollector.age now r ≤ gc.ttl)) =
      (unexpired gc now items).length := by
  rw [unexpired, ← List.countP_eq_length_filter]
  refine List.countP_congr fun r _ => ?_
  simp [GarbageCollector.expired]

/-- The attempts of a pass. -/
def attemptsOf (gc : GarbageCollector) (sorter : SortSlice olderReport)
    (reports : List PodCrashReport) (now : Int) (outcome : Nat → DeleteAnswer) : List Attempt :=
  sweep gc now outcome (sorter.sort reports)
    (gc.overCap (unexpired gc now (sorter.sort reports)).length) 0

theorem pass_eq (sorter : SortSlice olderReport) (reports : List PodCrashReport)
    (outcome : Nat → DeleteAnswer) :
    pass gc sorter reports now outcome =
      (((attemptsOf gc sorter reports now outcome).countP succeeded,
          (attemptsOf gc sorter reports now outcome).foldl errAfter none),
        (attemptsOf gc sorter reports now outcome).foldl (logAfter now)
          [⟨.now, now⟩, ⟨.list, .listed reports⟩]) := by
  simp only [pass, GarbageCollector.deleteExpiredReports, Prog.interp_perform_bind, passHandler,
    countP_live, run_deleteLoop, attemptsOf, Nat.zero_add]

theorem deletes_pass (sorter : SortSlice olderReport) (reports : List PodCrashReport)
    (outcome : Nat → DeleteAnswer) :
    deletes (pass gc sorter reports now outcome).2 =
      (attemptsOf gc sorter reports now outcome).map fun a => (a.report, a.answer) := by
  rw [pass_eq, deletes_foldl]
  rfl

/-- A delete that left its object in place failed. -/
theorem failed_of_not_gone {answer : DeleteAnswer} (there : answer.gone = false) :
    answer.failed = true := by
  cases answer <;> simp_all [DeleteAnswer.gone, DeleteAnswer.failed, DeleteAnswer.err]

/-- With nothing expired and nothing to trim, nothing is attempted. -/
theorem sweep_eq_nil {outcome : Nat → DeleteAnswer} {items : List PodCrashReport} {trim : Int}
    {k : Nat} (young : ∀ r ∈ items, gc.expired now r = false) (spent : trim ≤ 0) :
    sweep gc now outcome items trim k = [] := by
  induction items with
  | nil => rfl
  | cons r rest ih =>
      rw [sweep, if_neg (by simp [young r List.mem_cons_self]), if_neg (by omega)]
      exact ih fun r' member => young r' (List.mem_cons_of_mem r member)

/-- The reports a pass leaves alone. -/
def keptOf (gc : GarbageCollector) (sorter : SortSlice olderReport) (reports : List PodCrashReport)
    (now : Int) : List PodCrashReport :=
  (unexpired gc now (sorter.sort reports)).drop
    (gc.overCap (unexpired gc now (sorter.sort reports)).length).toNat

/-- They fit under the cap. -/
theorem keptOf_length (sorter : SortSlice olderReport) (reports : List PodCrashReport)
    (capped : gc.maxReports > 0) : ((keptOf gc sorter reports now).length : Int) ≤ gc.maxReports := by
  simp only [keptOf, List.length_drop, GarbageCollector.overCap]
  split <;> omega

theorem expired_keptOf {sorter : SortSlice olderReport} {reports : List PodCrashReport}
    {report : PodCrashReport} (member : report ∈ keptOf gc sorter reports now) :
    gc.expired now report = false := by
  have live := List.mem_of_mem_drop member
  simpa using (List.mem_filter.1 live).2

/-- Sorted oldest first, what is trimmed is no newer than what is left alone. -/
theorem trimmed_oldest {sorter : SortSlice olderReport} {reports : List PodCrashReport}
    {outcome : Nat → DeleteAnswer} {a : Attempt} {report : PodCrashReport}
    (attempted : a ∈ attemptsOf gc sorter reports now outcome)
    (young : gc.expired now a.report = false) (left : report ∈ keptOf gc sorter reports now) :
    ¬ report.metadata.creationTimestamp < a.report.metadata.creationTimestamp := by
  have ordered : (unexpired gc now (sorter.sort reports)).Pairwise fun a b => olderReport b a = false :=
    (sorter.sorted reports).sublist List.filter_sublist
  rw [← List.take_append_drop (gc.overCap (unexpired gc now (sorter.sort reports)).length).toNat
    (unexpired gc now (sorter.sort reports))] at ordered
  have trimmed : a.report ∈ (unexpired gc now (sorter.sort reports)).take
      (gc.overCap (unexpired gc now (sorter.sort reports)).length).toNat := by
    rw [← sweep_unexpired _ _ 0, unexpired, List.mem_filter]
    exact ⟨List.mem_map_of_mem attempted, by simp [young]⟩
  have before := (List.pairwise_append.1 ordered).2.2 a.report trimmed report left
  simpa [olderReport] using before

/-- As many unexpired reports are attempted as are over the cap. -/
theorem countP_attemptsOf (sorter : SortSlice olderReport) (reports : List PodCrashReport)
    (outcome : Nat → DeleteAnswer) :
    (((attemptsOf gc sorter reports now outcome).countP fun a => !gc.expired now a.report : Nat) : Int) =
      gc.overCap (unexpired gc now (sorter.sort reports)).length := by
  have counted : ((attemptsOf gc sorter reports now outcome).countP fun a => !gc.expired now a.report) =
      (unexpired gc now ((attemptsOf gc sorter reports now outcome).map Attempt.report)).length := by
    rw [unexpired, ← List.countP_eq_length_filter, List.countP_map]
    rfl
  rw [counted, attemptsOf, sweep_unexpired, List.length_take]
  simp only [GarbageCollector.overCap]
  split <;> omega

theorem remaining_eq_kept {kept : List PodCrashReport}
    {attempts : List (PodCrashReport × DeleteAnswer)} (clean : ∀ a ∈ attempts, a.2.failed = false) :
    remaining kept attempts = kept := by
  have nothing : attempts.filter (fun a => !a.2.gone) = [] := by
    rw [List.filter_eq_nil_iff]
    intro a member there
    have failed := failed_of_not_gone (by simpa using there)
    simp [clean a member] at failed
  rw [remaining, nothing, List.map_nil, List.append_nil]

/-- What is left is what was left alone and what could not be deleted. -/
theorem countP_remaining (gc : GarbageCollector) (now : Int) (kept : List PodCrashReport)
    (attempts : List (PodCrashReport × DeleteAnswer)) :
    ((remaining kept attempts).countP fun r => !gc.expired now r) ≤
      kept.length + attempts.countP fun a => !gc.expired now a.1 && a.2.failed := by
  rw [remaining, List.countP_append, List.countP_map, List.countP_filter]
  refine Nat.add_le_add List.countP_le_length (List.countP_mono_left fun a _ there => ?_)
  simp only [Function.comp_apply, Bool.and_eq_true, Bool.not_eq_true'] at there ⊢
  exact ⟨there.1, failed_of_not_gone there.2⟩

/-- A pass over what an earlier one left alone has nothing to do. -/
theorem pass_of_kept (sorter again : SortSlice olderReport) {reports left : List PodCrashReport}
    (outcome : Nat → DeleteAnswer) (same : left.Perm (keptOf gc sorter reports now)) :
    deletes (pass gc again left now outcome).2 = [] ∧ (pass gc again left now outcome).1 = (0, none) := by
  have young : ∀ r ∈ again.sort left, gc.expired now r = false := by
    intro r member
    exact expired_keptOf (same.mem_iff.1 (again.mem_sort.1 member))
  have live : (unexpired gc now (again.sort left)).length = (keptOf gc sorter reports now).length := by
    rw [unexpired, List.filter_eq_self.2 (by simpa using young), (again.perm left).length_eq,
      same.length_eq]
  have nothing : attemptsOf gc again left now outcome = [] := by
    refine sweep_eq_nil young ?_
    rw [live]
    simp only [GarbageCollector.overCap]
    split
    · rename_i exceeds
      have : ((keptOf gc sorter reports now).length : Int) ≤ gc.maxReports :=
        keptOf_length sorter reports exceeds.1
      omega
    · exact le_refl 0
  rw [deletes_pass, pass_eq, nothing]
  exact ⟨rfl, rfl⟩

/-- **One retention pass**, whatever the order ties are sorted in and whatever each
delete is answered: what it attempts, what it leaves, what it returns and counts.
When no delete failed, a pass at the same instant over what is left, in any order,
attempts nothing. -/
theorem pass_exact (gc : GarbageCollector) (sorter : SortSlice olderReport)
    (reports : List PodCrashReport) (now : Int) (outcome : Nat → DeleteAnswer) :
    ∃ kept,
      Retains gc now reports kept (deletes (pass gc sorter reports now outcome).2)
        (pass gc sorter reports now outcome).1 (trims (pass gc sorter reports now outcome).2) ∧
      ((∀ a ∈ deletes (pass gc sorter reports now outcome).2, a.2.failed = false) →
        ∀ (again : SortSlice olderReport) (outcome' : Nat → DeleteAnswer) (left : List PodCrashReport),
          left.Perm (remaining kept (deletes (pass gc sorter reports now outcome).2)) →
          deletes (pass gc again left now outcome').2 = [] ∧
            (pass gc again left now outcome').1 = (0, none)) := by
  refine ⟨keptOf gc sorter reports now, ?_, ?_⟩
  · rw [deletes_pass]
    constructor
    case split =>
      rw [List.map_map]
      exact (sweep_perm _ _ 0).trans (sorter.perm reports)
    case expired => exact fun _ member => expired_keptOf member
    case trimmed =>
      rw [List.countP_map, countP_live]
      have live : (unexpired gc now reports).length = (unexpired gc now (sorter.sort reports)).length :=
        ((sorter.perm reports).filter _).length_eq.symm
      rw [live]
      refine (countP_attemptsOf sorter reports outcome).trans ?_
      simp only [GarbageCollector.overCap]
      split <;> split <;> omega
    case oldest =>
      intro a member young report left
      obtain ⟨attempt, attempted, rfl⟩ := List.mem_map.1 member
      exact trimmed_oldest attempted young left
    case capped =>
      intro capped
      have kept : ((keptOf gc sorter reports now).length : Int) ≤ gc.maxReports :=
        keptOf_length sorter reports capped
      have left := countP_remaining gc now (keptOf gc sorter reports now)
        ((attemptsOf gc sorter reports now outcome).map fun a => (a.report, a.answer))
      omega
    case deleted =>
      rw [pass_eq, List.countP_map]
      rfl
    case trimmedTotal =>
      rw [pass_eq, trims_foldl, List.countP_map]
      refine (Nat.zero_add _).trans (List.countP_congr fun a member => ?_)
      rw [sweep_trimmed member]
      rfl
    case err =>
      rw [pass_eq, errAfter_foldl]
      simp
  · intro clean again outcome' left same
    rw [remaining_eq_kept clean] at same
    exact pass_of_kept sorter again outcome' same

end Pass

/-! ## A pass among others -/

/-- `report` is selected by a pass over `reports` at `t`: it has expired, or it is among
the oldest unexpired ones, as many as are over the cap. -/
def Doomed (gc : GarbageCollector) (sorter : SortSlice olderReport) (t : Int)
    (reports : List PodCrashReport) (report : PodCrashReport) : Prop :=
  report ∈ reports ∧
    (gc.expired t report = true ∨
      report ∈ (unexpired gc t (sorter.sort reports)).take
        (gc.overCap (unexpired gc t (sorter.sort reports)).length).toNat)

/-- The contract of a pass. -/
def collectContract (gc : GarbageCollector) (sorter : SortSlice olderReport) :
    Contract Op Op.Resp where
  rely := fun _ _ _ => True
  guarantee := fun log o =>
    match o with
    | .list => log = []
    | .now => ∃ reports, log = [⟨.list, .listed reports⟩]
    | .delete report => ∃ reports, ∃ t : Int, Did log .list (.listed reports) ∧ Did log .now t ∧
        Doomed gc sorter t reports report
    | .count _ => True
    | _ => False

section Meets

variable {gc : GarbageCollector} {sorter : SortSlice olderReport} {now : Int} {log : Log}
  {reports : List PodCrashReport}

theorem deleteReport_meets {Q : Log → Nat × Option GoError → Prop} {report : PodCrashReport}
    {trimmed : Bool} {deleted : Nat} {lastErr : Option GoError}
    (allowed : (collectContract gc sorter).guarantee log (.delete report))
    (ends : ∀ later out, Q (later ++ log) out) :
    Meets (collectContract gc sorter) Q log
      (GarbageCollector.deleteReport now report trimmed deleted lastErr) := by
  unfold GarbageCollector.deleteReport
  refine meets_perform_bind.2 ⟨allowed, fun answer _ => ?_⟩
  cases answer.err with
  | some e =>
      dsimp only
      split
      · exact ends [_] _
      · exact meets_perform_bind.2 ⟨trivial, fun _ _ => ends [_, _] _⟩
  | none =>
      refine meets_perform_bind.2 ⟨trivial, fun _ _ => ?_⟩
      cases trimmed with
      | false => exact ends [_, _] _
      | true => exact meets_perform_bind.2 ⟨trivial, fun _ _ => ends [_, _, _] _⟩

/-- The walk over what is left of the items, when what it may still select is doomed. -/
theorem deleteLoop_meets (items : List PodCrashReport) (trim : Int) (deleted : Nat)
    (lastErr : Option GoError) (listed : Did log .list (.listed reports)) (read : Did log .now now)
    (inside : ∀ r ∈ items, r ∈ reports)
    (first : ∀ r ∈ (unexpired gc now items).take trim.toNat, Doomed gc sorter now reports r) :
    Meets (collectContract gc sorter) (fun _ _ => True) log
      (gc.deleteLoop now items trim deleted lastErr) := by
  induction items generalizing trim deleted lastErr log with
  | nil => trivial
  | cons report rest ih =>
      have later := fun r (member : r ∈ rest) => inside r (List.mem_cons_of_mem report member)
      unfold GarbageCollector.deleteLoop
      cases old : gc.expired now report with
      | true =>
          simp only [Bool.not_true, Bool.false_and, Bool.false_eq_true, if_false]
          refine meets_bind.2 (deleteReport_meets
            ⟨reports, now, listed, read, inside report List.mem_cons_self, .inl old⟩ ?_)
          intro since out
          refine ih trim out.1 out.2 (List.mem_append_right since listed)
            (List.mem_append_right since read) later ?_
          simpa [unexpired, old] using first
      | false =>
          by_cases positive : trim > 0
          · have count : trim.toNat = (trim - 1).toNat + 1 := by omega
            simp only [unexpired, List.filter_cons, old, Bool.not_false, if_true, count,
              List.take_succ_cons] at first
            simp only [positive, decide_true, Bool.not_false, Bool.and_true, Bool.not_true,
              Bool.and_false, Bool.false_eq_true, if_true, if_false]
            refine meets_bind.2 (deleteReport_meets
              ⟨reports, now, listed, read, first report List.mem_cons_self⟩ ?_)
            intro since out
            exact ih (trim - 1) out.1 out.2 (List.mem_append_right since listed)
              (List.mem_append_right since read) later
              fun r member => first r (List.mem_cons_of_mem report member)
          · have none_ : trim.toNat = 0 := by omega
            simp only [positive, decide_false, Bool.not_false, Bool.and_false, Bool.and_true,
              Bool.false_eq_true, if_true, if_false]
            exact ih trim deleted lastErr listed read later (by simp [none_])

/-- **What a pass can do**, whatever it is answered. -/
theorem deleteExpiredReports_meets (gc : GarbageCollector) (sorter : SortSlice olderReport) :
    Meets (collectContract gc sorter) (fun _ _ => True) [] (gc.deleteExpiredReports sorter) := by
  unfold GarbageCollector.deleteExpiredReports
  refine meets_perform_bind.2 ⟨rfl, fun answer _ => ?_⟩
  cases answer with
  | refused e => trivial
  | listed reports =>
      refine meets_perform_bind.2 ⟨⟨reports, rfl⟩, fun now _ => ?_⟩
      have listed : Did [⟨.now, now⟩, ⟨.list, .listed reports⟩] .list (.listed reports) :=
        (did_self _ _ _).cons _
      refine deleteLoop_meets _ _ _ _ listed (did_self _ _ _)
        (fun r member => sorter.mem_sort.1 member) ?_
      intro r selected
      rw [countP_live] at selected
      have item := List.mem_of_mem_filter (List.mem_of_mem_take selected)
      exact ⟨sorter.mem_sort.1 item, .inr selected⟩

end Meets

end KubeAutopsy.Controller
