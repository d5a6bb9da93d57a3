/-
# KubeAutopsy.Agent.Kprobe — the program that records a kill in the kernel

`kprobe__oom_kill_process` of `internal/agent/bpf/oom.c`: what it reads of the kernel's
structures and the record it submits.  A pointer that may be null is an option; reads of
live structures succeed.

A kernel keeps a task's resident set in one of two layouts, or in one the program does not
know.  `rss_faithful` follows the four counters of the set from there to the report.
-/
import KubeAutopsy.Agent.OomEvent
import KubeAutopsy.Theory.Words

namespace KubeAutopsy.Agent.Kprobe

open KubeAutopsy.Api (DiagnosticData RSSDissection)
open KubeAutopsy.Theory.Bytes (GoString lit)
open KubeAutopsy.Theory.Words

set_option autoImplicit false

/-! ## What is read -/

-- The kernel's indexes of a task's page counters.
def mmFilePages : Fin 4 := 0
def mmAnonPages : Fin 4 := 1
def mmSwapEnts : Fin 4 := 2
def mmShmemPages : Fin 4 := 3

structure PercpuCounter where
  count : Int64
  deriving DecidableEq, Repr

/-- `rss_stat` of the running kernel's `mm_struct`. -/
inductive RssStat where
  /-- before 6.2: an array of atomic counters in `mm_rss_stat` -/
  | pre62 (count : Vector Int64 4)
  /-- from 6.2 on: an array of batched counters -/
  | percpu (rssStat : Vector PercpuCounter 4)
  /-- neither -/
  | unknown
  deriving DecidableEq, Repr

structure MmStruct where
  pgtablesBytes : Int64
  rssStat : RssStat
  deriving DecidableEq, Repr

structure KernfsNode where
  id : UInt64
  name : Option GoString
  deriving DecidableEq, Repr

structure Cgroup where
  kn : Option KernfsNode
  deriving DecidableEq, Repr

structure CgroupSubsysState where
  cgroup : Option Cgroup
  deriving DecidableEq, Repr

structure CssSet where
  dflCgrp : Option CgroupSubsysState
  deriving DecidableEq, Repr

structure SignalStruct where
  oomScoreAdj : Int16
  deriving DecidableEq, Repr

structure TaskStruct where
  tgid : Int32
  comm : GoString
  signal : Option SignalStruct
  mm : Option MmStruct
  cgroups : Option CssSet
  deriving DecidableEq, Repr

structure OomControl where
  totalpages : UInt64
  chosen : Option TaskStruct
  chosenPoints : Int64
  /-- whether the scope is a memory cgroup -/
  memcg : Bool
  deriving DecidableEq, Repr

/-- What the helpers say of the process that is running. -/
structure Current where
  pidTgid : UInt64
  comm : GoString
  deriving DecidableEq, Repr

/-! ## The program -/

def clampCounter (value : Int64) : UInt64 := if value < 0 then 0 else value.toUInt64

/-- A C string, which has no zero byte, in a zeroed buffer of `n` bytes: as much of it as
leaves room for the terminator. -/
def readStr (n : Nat) (s : GoString) : Vector Int8 n :=
  Vector.ofFn fun i => ((s.take (n - 1)).getD i 0).toInt8

/-- The reservation after it was zeroed. -/
def zeroed : OomEvent where
  fpid := 0
  tpid := 0
  cgroupId := 0
  oomScore := 0
  oomScoreAdj := 0
  fcomm := Vector.replicate 16 0
  tcomm := Vector.replicate 16 0
  scopeTotalPages := 0
  anonRssPages := 0
  fileRssPages := 0
  shmemRssPages := 0
  swapPages := 0
  pgtablesBytes := 0
  cgroupName := Vector.replicate 128 0
  isGlobalOom := false
  rssValid := false

/-- The victim's memory. -/
def fillMm (mm : Option MmStruct) (event : OomEvent) : OomEvent :=
  match mm with
  | none => event
  | some mm =>
      let event := { event with pgtablesBytes := mm.pgtablesBytes.toUInt64 }
      match mm.rssStat with
      | .pre62 count =>
          { event with
            fileRssPages := clampCounter count[mmFilePages]
            anonRssPages := clampCounter count[mmAnonPages]
            shmemRssPages := clampCounter count[mmShmemPages]
            swapPages := clampCounter count[mmSwapEnts]
            rssValid := true }
      | .percpu rssStat =>
          { event with
            fileRssPages := clampCounter rssStat[mmFilePages].count
            anonRssPages := clampCounter rssStat[mmAnonPages].count
            shmemRssPages := clampCounter rssStat[mmShmemPages].count
            swapPages := clampCounter rssStat[mmSwapEnts].count
            rssValid := true }
      | .unknown => event

/-- The victim's node in the cgroup tree, if every pointer on the way is there. -/
def kernfsNode (victim : TaskStruct) : Option KernfsNode := do
  let cgroups ← victim.cgroups
  let dflCgrp ← cgroups.dflCgrp
  let cgrp ← dflCgrp.cgroup
  cgrp.kn

/-- The victim's cgroup. -/
def fillCgroup (victim : TaskStruct) (event : OomEvent) : OomEvent :=
  match kernfsNode victim with
  | none => { event with cgroupId := 0 }
  | some kn =>
      { event with
        cgroupName := (kn.name.map (readStr 128)).getD event.cgroupName
        cgroupId := kn.id }

/-- The record of a victim. -/
def record (current : Current) (oc : OomControl) (victim : TaskStruct) : OomEvent :=
  fillCgroup victim <| fillMm victim.mm
    { zeroed with
      fpid := (current.pidTgid >>> 32).toUInt32
      fcomm := readStr 16 current.comm
      tpid := victim.tgid.toUInt32
      tcomm := readStr 16 victim.comm
      oomScoreAdj := (victim.signal.map SignalStruct.oomScoreAdj).getD 0
      oomScore := oc.chosenPoints
      scopeTotalPages := oc.totalpages
      isGlobalOom := !oc.memcg }

/-- The record that is submitted; `none` if there is no victim yet or the ring buffer has no
room for it. -/
def kprobeOomKillProcess (current : Current) (room : Bool) (oc : OomControl) : Option OomEvent :=
  match oc.chosen with
  | none => none
  | some victim => if room then some (record current oc victim) else none

/-! ## From the counters to the report -/

/-- The diagnostics of the report on a kill: the record as the agent reads it. -/
def diagnosticsOfKill (current : Current) (oc : OomControl) (pageSize : Int64) (now : Int)
    (logLines : List GoString) : Option DiagnosticData := do
  let event ← kprobeOomKillProcess current true oc
  match readEvent false (.ok event.memory) with
  | .error _ => none
  | .ok event => some (diagnosticsOf (crashEvent pageSize event.toBpfOomEvent now) logLines)

/-- A victim's resident set. -/
structure Rss where
  file : Int64
  anon : Int64
  shmem : Int64
  swap : Int64
  deriving DecidableEq, Repr

/-- The counters in the kernel's order. -/
def Rss.counts (rss : Rss) : Vector Int64 4 := #v[rss.file, rss.anon, rss.swap, rss.shmem]

def Rss.pre62 (rss : Rss) : RssStat := .pre62 rss.counts
def Rss.percpu (rss : Rss) : RssStat := .percpu (rss.counts.map PercpuCounter.mk)

/-- No sum of three of the counters overflows as a byte count. -/
def Rss.Fits (rss : Rss) (pageSize : Int64) : Prop :=
  ∀ count ∈ [rss.file, rss.anon, rss.shmem, rss.swap],
    0 < count.toInt → count.toInt * (3 * pageSize.toInt) < 2 ^ 63

/-- A counter as a byte count, over the integers. -/
def bytesOf (pageSize count : Int64) : Int := max 0 count.toInt * pageSize.toInt

/-- The report has the figures of the resident set. -/
structure Rss.Reported (rss : Rss) (pageSize : Int64) (d : DiagnosticData) : Prop where
  dissection : ∃ r, d.rssDissection = some r ∧
    r.anonRSSBytes = bytesOf pageSize rss.anon ∧ r.fileRSSBytes = bytesOf pageSize rss.file ∧
    r.shmemRSSBytes = bytesOf pageSize rss.shmem ∧ r.swapBytes = bytesOf pageSize rss.swap
  victim : d.victimRSSBytes =
    bytesOf pageSize rss.anon + bytesOf pageSize rss.file + bytesOf pageSize rss.shmem
  nonneg : 0 ≤ d.victimRSSBytes

/-- A clamped counter as a signed number of pages. -/
theorem toInt_clampCounter (count : Int64) :
    (clampCounter count).toInt64.toInt = max 0 count.toInt := by
  rw [clampCounter]
  by_cases negative : count < 0
  · have low : count.toInt < 0 := Int64.lt_iff_toInt_lt.1 negative
    rw [if_pos negative, max_eq_left low.le]
    rfl
  · have high : 0 ≤ count.toInt := not_lt.1 fun low => negative (Int64.lt_iff_toInt_lt.2 low)
    rw [if_neg negative, Int64.toInt64_toUInt64, max_eq_right high]

/-- A counter that fits is reported as its byte count. -/
theorem toInt_pagesToBytes {pageSize count : Int64} (positive : 0 < pageSize.toInt)
    (fits : 0 < count.toInt → count.toInt * (3 * pageSize.toInt) < 2 ^ 63) :
    (pagesToBytes pageSize (clampCounter count)).toInt = bytesOf pageSize count ∧
      0 ≤ bytesOf pageSize count ∧ 3 * bytesOf pageSize count < 2 ^ 63 := by
  have nonneg : 0 ≤ bytesOf pageSize count := mul_nonneg (le_max_left _ _) positive.le
  have third : 3 * bytesOf pageSize count < 2 ^ 63 := by
    rcases le_or_gt count.toInt 0 with low | high
    · rw [bytesOf, max_eq_left low]
      omega
    · have short := fits high
      rw [bytesOf, max_eq_right high.le]
      linarith
  refine ⟨?_, nonneg, third⟩
  have pages := toInt_clampCounter count
  rw [pagesToBytes, toInt_mul, pages]
  · rfl
  · rw [pages]
    exact ⟨by show _ ≤ bytesOf pageSize count; omega, by show bytesOf pageSize count < _; omega⟩

/-- The record has the counters of the resident set. -/
structure Rss.Carried (rss : Rss) (event : BpfOomEvent) : Prop where
  file : event.fileRssPages = clampCounter rss.file
  anon : event.anonRssPages = clampCounter rss.anon
  shmem : event.shmemRssPages = clampCounter rss.shmem
  swap : event.swapPages = clampCounter rss.swap
  valid : event.rssValid = true

/-- What is recorded of a task's memory is not touched by what is recorded of its cgroup. -/
theorem fillCgroup_rss {rss : Rss} {victim : TaskStruct} {event : OomEvent}
    (carried : rss.Carried event.toBpfOomEvent) :
    rss.Carried (fillCgroup victim event).toBpfOomEvent := by
  rw [fillCgroup]
  split
  all_goals exact ⟨carried.file, carried.anon, carried.shmem, carried.swap, carried.valid⟩

theorem fillCgroup_rssValid (victim : TaskStruct) (event : OomEvent) :
    (fillCgroup victim event).rssValid = event.rssValid := by
  rw [fillCgroup]
  split <;> rfl

/-- A counter has one place in both arrays. -/
theorem fillMm_percpu (pgtablesBytes : Int64) (rss : Rss) (event : OomEvent) :
    fillMm (some ⟨pgtablesBytes, rss.percpu⟩) event =
      fillMm (some ⟨pgtablesBytes, rss.pre62⟩) event := by
  simp only [fillMm, Rss.percpu, Rss.pre62, Fin.getElem_fin, Vector.getElem_map]

theorem fillMm_carried (pgtablesBytes : Int64) (rss : Rss) (event : OomEvent) :
    rss.Carried (fillMm (some ⟨pgtablesBytes, rss.pre62⟩) event).toBpfOomEvent :=
  ⟨rfl, rfl, rfl, rfl, rfl⟩

/-- **A carried resident set is reported.** -/
theorem reported_of_carried {rss : Rss} {event : BpfOomEvent} {pageSize : Int64}
    (carried : rss.Carried event) (positive : 0 < pageSize.toInt) (fits : rss.Fits pageSize)
    (now : Int) (logLines : List GoString) :
    rss.Reported pageSize (diagnosticsOf (crashEvent pageSize event now) logLines) := by
  obtain ⟨anon, anon_nonneg, anon_third⟩ := toInt_pagesToBytes positive (fits rss.anon (by simp))
  obtain ⟨file, file_nonneg, file_third⟩ := toInt_pagesToBytes positive (fits rss.file (by simp))
  obtain ⟨shmem, shmem_nonneg, shmem_third⟩ :=
    toInt_pagesToBytes positive (fits rss.shmem (by simp))
  obtain ⟨swap, -, -⟩ := toInt_pagesToBytes positive (fits rss.swap (by simp))
  have total : (crashEvent pageSize event now).victimRSSBytes =
      bytesOf pageSize rss.anon + bytesOf pageSize rss.file + bytesOf pageSize rss.shmem := by
    show (pagesToBytes pageSize event.anonRssPages + pagesToBytes pageSize event.fileRssPages +
      pagesToBytes pageSize event.shmemRssPages).toInt = _
    rw [carried.anon, carried.file, carried.shmem]
    have two := toInt_add (a := pagesToBytes pageSize (clampCounter rss.anon))
      (b := pagesToBytes pageSize (clampCounter rss.file)) ⟨by omega, by omega⟩
    rw [toInt_add ⟨by omega, by omega⟩, two, anon, file, shmem]
  have victim : (diagnosticsOf (crashEvent pageSize event now) logLines).victimRSSBytes =
      bytesOf pageSize rss.anon + bytesOf pageSize rss.file + bytesOf pageSize rss.shmem := by
    rw [← total]
    exact if_pos carried.valid
  refine ⟨⟨_, if_pos carried.valid, ?_, ?_, ?_, ?_⟩, victim, by omega⟩
  · show (pagesToBytes pageSize event.anonRssPages).toInt = _
    rw [carried.anon, anon]
  · show (pagesToBytes pageSize event.fileRssPages).toInt = _
    rw [carried.file, file]
  · show (pagesToBytes pageSize event.shmemRssPages).toInt = _
    rw [carried.shmem, shmem]
  · show (pagesToBytes pageSize event.swapPages).toInt = _
    rw [carried.swap, swap]

theorem diagnosticsOfKill_eq {oc : OomControl} {victim : TaskStruct}
    (chosen : oc.chosen = some victim) (current : Current) (pageSize : Int64) (now : Int)
    (logLines : List GoString) :
    diagnosticsOfKill current oc pageSize now logLines =
      some (diagnosticsOf (crashEvent pageSize (record current oc victim).toBpfOomEvent now)
        logLines) := by
  simp only [diagnosticsOfKill, kprobeOomKillProcess, chosen, if_true, Option.bind_eq_bind,
    Option.bind_some, readEvent_ok]

/-- The scope with a victim that has this memory. -/
def OomControl.killing (oc : OomControl) (victim : TaskStruct) (mm : Option MmStruct) :
    OomControl :=
  { oc with chosen := some { victim with mm := mm } }

theorem record_percpu (current : Current) (oc : OomControl) (victim : TaskStruct)
    (pgtablesBytes : Int64) (rss : Rss) :
    record current oc { victim with mm := some ⟨pgtablesBytes, rss.percpu⟩ } =
      record current oc { victim with mm := some ⟨pgtablesBytes, rss.pre62⟩ } := by
  simp only [record, fillMm_percpu]
  rfl

/-- The figures of a record without a resident set are left out. -/
theorem omitted_of_invalid {event : BpfOomEvent} (invalid : event.rssValid = false)
    (pageSize : Int64) (now : Int) (logLines : List GoString) :
    (diagnosticsOf (crashEvent pageSize event now) logLines).rssDissection = none ∧
      (diagnosticsOf (crashEvent pageSize event now) logLines).victimRSSBytes = 0 := by
  have unset : ¬ (crashEvent pageSize event now).rssValid = true := by
    show ¬ event.rssValid = true
    rw [invalid]
    decide
  exact ⟨if_neg unset, if_neg unset⟩

/-- **The resident set in the report is the one in the kernel**, in either layout; without
one that is known there are no figures. -/
theorem rss_faithful (current : Current) (oc : OomControl) (victim : TaskStruct)
    (pgtablesBytes : Int64) (rss : Rss) (pageSize : Int64) (now : Int)
    (logLines : List GoString) (positive : 0 < pageSize.toInt) (fits : rss.Fits pageSize) :
    (∀ room, kprobeOomKillProcess current room
        (oc.killing victim (some ⟨pgtablesBytes, rss.pre62⟩)) =
      kprobeOomKillProcess current room
        (oc.killing victim (some ⟨pgtablesBytes, rss.percpu⟩))) ∧
    (∀ rssStat ∈ [rss.pre62, rss.percpu], ∃ d,
      diagnosticsOfKill current (oc.killing victim (some ⟨pgtablesBytes, rssStat⟩)) pageSize now
        logLines = some d ∧ rss.Reported pageSize d) ∧
    (∀ mm ∈ [none, some ⟨pgtablesBytes, .unknown⟩], ∃ d,
      diagnosticsOfKill current (oc.killing victim mm) pageSize now logLines = some d ∧
        d.rssDissection = none ∧ d.victimRSSBytes = 0) := by
  have old : rss.Carried (record current oc
      { victim with mm := some ⟨pgtablesBytes, rss.pre62⟩ }).toBpfOomEvent :=
    fillCgroup_rss (fillMm_carried pgtablesBytes rss _)
  have new := record_percpu current oc victim pgtablesBytes rss
  refine ⟨?_, ?_, ?_⟩
  · intro room
    show (if room then some (record current oc _) else none) =
      if room then some (record current oc _) else none
    rw [new]
  · intro rssStat known
    refine ⟨_, diagnosticsOfKill_eq rfl .., reported_of_carried ?_ positive fits now logLines⟩
    simp only [List.mem_cons, List.not_mem_nil, or_false] at known
    obtain rfl | rfl := known
    · exact old
    · show rss.Carried (record current oc _).toBpfOomEvent
      rw [new]
      exact old
  · intro mm missing
    refine ⟨_, diagnosticsOfKill_eq rfl .., omitted_of_invalid ?_ pageSize now logLines⟩
    simp only [List.mem_cons, List.not_mem_nil, or_false] at missing
    obtain rfl | rfl := missing
    all_goals exact fillCgroup_rssValid _ _

/-- A resident set one of whose counters was read while it was below zero. -/
def tearingDown : Rss := ⟨-3, 100, 7, 0⟩

def java : TaskStruct := ⟨42, lit "java", some ⟨0⟩, none, none⟩

theorem rss_faithful_tearingDown : ∃ d,
    diagnosticsOfKill ⟨0, lit "java"⟩ ((⟨1000, none, 107, true⟩ : OomControl).killing java
      (some ⟨0, tearingDown.percpu⟩)) 4096 0 [] = some d ∧ tearingDown.Reported 4096 d := by
  have fits : tearingDown.Fits 4096 := by
    have page : (4096 : Int64).toInt = 4096 := by decide
    simp [Rss.Fits, tearingDown, page]
  exact (rss_faithful ⟨0, lit "java"⟩ ⟨1000, none, 107, true⟩ java 0 tearingDown 4096 0 []
    (by decide) fits).2.1 _ (List.mem_cons_of_mem _ List.mem_cons_self)

end KubeAutopsy.Agent.Kprobe
