/-
# KubeAutopsy.Agent.Fidelity — a report says what the kernel saw

A kill goes a long way before it is a report: the kprobe's record, the bytes in the ring
buffer, the tracer's `BpfOomEvent`, a crash event, a worker that looks the pod up, a creation
and a status patch.  `report_of_kernel_kill` follows it through every run of the agent: what a
worker creates names a container that publishes the ID of the cgroup the victim was in, and the
patch it sends has the figures of the kernel's own structures and quotes the log files of that
container.

`figures_of_record` is what the event has of the kernel's structures.  Process names are the
kernel's bytes as far as JSON can carry them: an invalid one arrives as U+FFFD (`toValid`).
-/
import KubeAutopsy.Agent.Identity
import KubeAutopsy.Agent.LogText
import KubeAutopsy.Agent.Pending
import KubeAutopsy.Agent.Suppression

namespace KubeAutopsy.Agent

open KubeAutopsy.Api
open KubeAutopsy.Agent.Kprobe
open KubeAutopsy.Theory.Bytes (GoString lit)
open KubeAutopsy.Theory.Clock
open KubeAutopsy.Theory.Program
open KubeAutopsy.Theory.Runes (toValid toValid_of_valid)
open KubeAutopsy.Theory.Words

set_option autoImplicit false

namespace Fidelity

/-! ## A kill in the kernel -/

/-- A process name as the kernel keeps it. -/
structure Comm (name : GoString) : Prop where
  nulFree : 0 ∉ name
  short : name.length < 16

/-- A call of `oom_kill_process` that has a victim. -/
structure KernelKill where
  current : Current
  oc : OomControl
  victim : TaskStruct
  chosen : oc.chosen = some victim
  triggered : Comm current.comm
  named : Comm victim.comm

/-- The victim is in the cgroup that the driver made for the container. -/
structure KernelKill.Under (kill : KernelKill) (driver : CgroupDriver) (id : ContainerID) : Prop where
  clean : driver.NulFree
  short : (driver.directory id).length ≤ 127
  node : ∃ kn, kernfsNode kill.victim = some kn ∧ kn.name = some (driver.directory id)

/-- What the tracer makes of the bytes the kprobe submitted. -/
def KernelKill.Read (kill : KernelKill) (raw : BpfOomEvent) : Prop :=
  ∃ submitted event, kprobeOomKillProcess kill.current true kill.oc = some submitted ∧
    readEvent false (.ok submitted.memory) = .ok event ∧ raw = event.toBpfOomEvent

theorem KernelKill.Read.eq {kill : KernelKill} {raw : BpfOomEvent} (read : kill.Read raw) :
    raw = (record kill.current kill.oc kill.victim).toBpfOomEvent := by
  obtain ⟨submitted, event, submits, reads, rfl⟩ := read
  simp only [kprobeOomKillProcess, kill.chosen, if_true, Option.some.injEq] at submits
  rw [← submits, readEvent_ok] at reads
  cases reads
  rfl

/-- The figures of a report are those of the kernel's structures.  A count of bytes is compared
where it is one: where the product with the page size is a 64-bit number. -/
structure Figures (pageSize : Int64) (kill : KernelKill) (d : DiagnosticData) : Prop where
  victimPID : d.oomVictimPID = kill.victim.tgid.toInt
  victimComm : d.oomVictimComm = toValid kill.victim.comm
  triggerPID : kill.current.pidTgid.toNat / 2 ^ 32 < 2 ^ 31 →
    d.triggerPID = (kill.current.pidTgid.toNat / 2 ^ 32 : Nat)
  triggerComm : d.triggerComm = toValid kill.current.comm
  score : d.oomScore = kill.oc.chosenPoints.toInt
  adjustment : d.oomScoreAdj = ((kill.victim.signal.map SignalStruct.oomScoreAdj).getD 0).toInt
  scope : d.oomContext = if kill.oc.memcg then .containerLimit else .nodeExhaustion
  limit : kill.oc.totalpages.toNat * pageSize.toInt < 2 ^ 63 →
    d.oomScopeLimitBytes = kill.oc.totalpages.toNat * pageSize.toInt
  resident : ∀ (pgtablesBytes : Int64) (rss : Rss), ∀ rssStat ∈ [rss.pre62, rss.percpu],
    kill.victim.mm = some ⟨pgtablesBytes, rssStat⟩ → rss.Fits pageSize →
    rss.Reported pageSize d ∧
      ∃ r, d.rssDissection = some r ∧ r.pageTablesBytes = pgtablesBytes.toInt
  unknown : (kill.victim.mm = none ∨ ∃ pgtablesBytes, kill.victim.mm = some ⟨pgtablesBytes, .unknown⟩) →
    d.rssDissection = none ∧ d.victimRSSBytes = 0

/-- What the record says besides the victim's memory and its cgroup. -/
def heading (event : BpfOomEvent) :
    (UInt32 × UInt32) × (Int64 × Int16) × (Vector Int8 16 × Vector Int8 16) × UInt64 × Bool :=
  ((event.fpid, event.tpid), (event.oomScore, event.oomScoreAdj), (event.fcomm, event.tcomm),
    event.scopeTotalPages, event.isGlobalOom)

theorem heading_fillMm (mm : Option MmStruct) (event : OomEvent) :
    heading (fillMm mm event).toBpfOomEvent = heading event.toBpfOomEvent := by
  unfold fillMm
  split
  · rfl
  · dsimp only
    split <;> rfl

theorem heading_fillCgroup (victim : TaskStruct) (event : OomEvent) :
    heading (fillCgroup victim event).toBpfOomEvent = heading event.toBpfOomEvent := by
  unfold fillCgroup
  split <;> rfl

section Record

variable {kill : KernelKill} {pageSize : Int64}

theorem heading_record (current : Current) (oc : OomControl) (victim : TaskStruct) :
    heading (record current oc victim).toBpfOomEvent =
      (((current.pidTgid >>> 32).toUInt32, victim.tgid.toUInt32),
        (oc.chosenPoints, (victim.signal.map SignalStruct.oomScoreAdj).getD 0),
        (readStr 16 current.comm, readStr 16 victim.comm), oc.totalpages, !oc.memcg) := by
  rw [record, heading_fillCgroup, heading_fillMm]
  rfl

theorem pgtablesBytes_record {mm : MmStruct} (current : Current) (oc : OomControl)
    {victim : TaskStruct} (has : victim.mm = some mm) :
    (record current oc victim).pgtablesBytes = mm.pgtablesBytes.toUInt64 := by
  have cgroup : ∀ event : OomEvent, (fillCgroup victim event).pgtablesBytes = event.pgtablesBytes := by
    intro event
    unfold fillCgroup
    split <;> rfl
  rw [record, cgroup, has]
  unfold fillMm
  dsimp only
  split <;> rfl

/-- The record of a victim whose resident set is known, in either layout. -/
theorem carried_record {rss : Rss} {rssStat : RssStat} {pgtablesBytes : Int64} (current : Current)
    (oc : OomControl) {victim : TaskStruct} (known : rssStat ∈ [rss.pre62, rss.percpu])
    (has : victim.mm = some ⟨pgtablesBytes, rssStat⟩) :
    rss.Carried (record current oc victim).toBpfOomEvent := by
  rw [record, has]
  refine fillCgroup_rss ?_
  simp only [List.mem_cons, List.not_mem_nil, or_false] at known
  obtain rfl | rfl := known
  · exact fillMm_carried pgtablesBytes rss _
  · rw [fillMm_percpu]
    exact fillMm_carried pgtablesBytes rss _

theorem rssValid_record (current : Current) (oc : OomControl) {victim : TaskStruct}
    (missing : victim.mm = none ∨ ∃ pgtablesBytes, victim.mm = some ⟨pgtablesBytes, .unknown⟩) :
    (record current oc victim).rssValid = false := by
  rw [record, fillCgroup_rssValid]
  obtain none_ | ⟨pgtablesBytes, unknown⟩ := missing
  · rw [none_]
    rfl
  · rw [unknown]
    rfl

theorem parseComm_readStr {name : GoString} (comm : Comm name) :
    parseComm (readStr 16 name).toList = name :=
  (terminated_readStr comm.short).parseComm comm.nulFree

/-- A count of pages whose bytes are a 64-bit number. -/
theorem toInt_pagesToBytes_of_lt {pages : UInt64} (positive : 0 < pageSize.toInt)
    (fits : pages.toNat * pageSize.toInt < 2 ^ 63) :
    (pagesToBytes pageSize pages).toInt = pages.toNat * pageSize.toInt := by
  have few : (pages.toNat : Int) < 2 ^ 63 := by nlinarith
  have same : pages.toInt64.toInt = pages.toNat := toInt_toInt64_of_lt (by exact_mod_cast few)
  have nonneg : 0 ≤ (pages.toNat : Int) * pageSize.toInt := by positivity
  rw [pagesToBytes, toInt_mul, same]
  rw [same]
  exact ⟨by omega, fits⟩

/-- **The figures of a report are the kernel's.** -/
theorem figures_of_record (positive : 0 < pageSize.toInt) (kill : KernelKill) (now : Int)
    (logLines : List GoString) :
    Figures pageSize kill (diagnosticsOf
      (crashEvent pageSize (record kill.current kill.oc kill.victim).toBpfOomEvent now)
      logLines).wire := by
  have head := heading_record kill.current kill.oc kill.victim
  simp only [heading, Prod.mk.injEq] at head
  obtain ⟨⟨fpid, tpid⟩, ⟨score, adjustment⟩, ⟨fcomm, tcomm⟩, total, global⟩ := head
  constructor
  case victimPID =>
    simp only [DiagnosticData.wire, diagnosticsOf, crashEvent, tpid, Int32.toInt32_toUInt32]
  case victimComm =>
    simp only [DiagnosticData.wire, diagnosticsOf, crashEvent, tcomm]
    rw [parseComm_readStr kill.named]
  case triggerPID =>
    intro small
    simp only [DiagnosticData.wire, diagnosticsOf, crashEvent, fpid]
    rw [toInt_toInt32_of_lt, toNat_upper]
    rw [toNat_upper]
    exact small
  case triggerComm =>
    simp only [DiagnosticData.wire, diagnosticsOf, crashEvent, fcomm]
    rw [parseComm_readStr kill.triggered]
  case score => simp only [DiagnosticData.wire, diagnosticsOf, crashEvent, score]
  case adjustment =>
    simp only [DiagnosticData.wire, diagnosticsOf, crashEvent, adjustment, Int16.toInt_toInt32]
  case scope =>
    simp only [DiagnosticData.wire, diagnosticsOf, crashEvent, global]
    cases kill.oc.memcg <;> rfl
  case limit =>
    intro fits
    simp only [DiagnosticData.wire, diagnosticsOf, crashEvent, total]
    exact toInt_pagesToBytes_of_lt positive fits
  case resident =>
    intro pgtablesBytes rss rssStat known has fits
    have reported := reported_of_carried (carried_record kill.current kill.oc known has) positive
      fits now logLines
    obtain ⟨r, dissection, -⟩ := reported.dissection
    refine ⟨⟨reported.dissection, reported.victim, reported.nonneg⟩, r, dissection, ?_⟩
    have valid := (carried_record kill.current kill.oc known has).valid
    simp only [diagnosticsOf, crashEvent, valid, if_true, Option.some.injEq] at dissection
    rw [← dissection, pgtablesBytes_record kill.current kill.oc has, Int64.toInt64_toUInt64]
  case unknown =>
    intro missing
    exact omitted_of_invalid (rssValid_record kill.current kill.oc missing) pageSize now logLines

end Record

/-! ## The container a report names -/

section Lookup

variable {victim : GoString}

theorem shown_of_findStatus {statuses : List ContainerStatus} (pod : Pod)
    (named : (findStatus victim statuses).1 ≠ []) :
    ∃ cs ∈ statuses, Pending.Shows victim cs ∧
      findStatus victim statuses = (cs.name, (Pending.foundIn victim pod cs).logFileIndex) := by
  induction statuses with
  | nil => exact absurd rfl named
  | cons cs rest ih =>
      by_cases shown : Pending.Shows victim cs
      · exact ⟨cs, List.mem_cons_self, shown, Pending.findStatus_cons_of_shows shown pod rest⟩
      · rw [Pending.findStatus_cons_of_not_shows shown] at named ⊢
        obtain ⟨found, member, rest_⟩ := ih named
        exact ⟨found, List.mem_cons_of_mem cs member, rest_⟩

/-- What a lookup finds is a status of a listed pod that shows the ID. -/
theorem shown_of_findPod {pods : List Pod} {podMeta : PodMeta}
    (found : findPod victim pods = some podMeta) :
    ∃ pod ∈ pods, ∃ cs ∈ podStatuses pod, Pending.Shows victim cs ∧
      podMeta = Pending.foundIn victim pod cs := by
  induction pods with
  | nil => cases found
  | cons pod rest ih =>
      rw [findPod] at found
      split at found
      · rename_i named
        cases found
        obtain ⟨cs, member, shown, same⟩ := shown_of_findStatus pod named
        refine ⟨pod, List.mem_cons_self, cs, member, shown, ?_⟩
        rw [findContainerByID, same]
        rfl
      · obtain ⟨pod', member, there⟩ := ih found
        exact ⟨pod', List.mem_cons_of_mem pod member, there⟩

end Lookup

/-! ## Over whole runs -/

/-- Every event the tracer reads is the kprobe's record of one of these kills. -/
def traces (happened : KernelKill → Prop) (_ : Run.State) (l : Run.Label) : Prop :=
  ∀ raw, l = .pool (.read (.event raw)) → ∃ kill, happened kill ∧ kill.Read raw

/-- The crash event is what the agent makes of the kernel's record of the kill. -/
def Stems (cfg : AgentConfig) (kill : KernelKill) (event : CrashEvent) : Prop :=
  event = crashEvent cfg.pageSize (record kill.current kill.oc kill.victim).toBpfOomEvent
    event.detectedAt

/-- The report names a container that a listing in the log shows with the ID of the cgroup the
victim was killed in. -/
def Names (cfg : AgentConfig) (kill : KernelKill) (log : Log) (report : PodCrashReport) : Prop :=
  ∃ pods, Did log (.listPods cfg.nodeName) (.listed pods) ∧ ∃ pod ∈ pods, ∃ cs ∈ podStatuses pod,
    (∀ driver id, kill.Under driver id → Pending.Shows id.text cs) ∧
    report.spec.podName = pod.name ∧ report.spec.namespace_ = pod.namespace_ ∧
    report.spec.podUID = pod.uid ∧ report.spec.containerName = cs.name

/-- The log lines are none, or those an attempt of the capture made of the files it found in the
log directory of the reported container.  They are the files' own bytes if these are valid text. -/
def Quotes (cfg : AgentConfig) (log : Log) (report : PodCrashReport) (d : DiagnosticData) : Prop :=
  d.lastLogLines = [] ∨
    ∃ lc podMeta files k lines, cfg.capturing = some lc ∧
      report.spec.namespace_ = podMeta.namespace_ ∧ report.spec.podName = podMeta.podName ∧
      report.spec.podUID = podMeta.podUID ∧ report.spec.containerName = podMeta.containerName ∧
      Did log (.logFiles (logDir podMeta)) files ∧ lc.attempt podMeta files k = .ok lines ∧
      d.lastLogLines = lines.map toValid ∧
      ∀ n : Nat, lc.tailLines = n → n ≤ maxLogLines → Readable n files → d.lastLogLines = lines

theorem quotes_of_captured {cfg : AgentConfig} {event : CrashEvent} {log : Log} {podMeta : PodMeta}
    {logLines : List GoString} (captured : Captured cfg.capturing log podMeta logLines) :
    Quotes cfg log (newReport cfg.reporter event podMeta) (diagnosticsOf event logLines).wire := by
  rcases captured with rfl | ⟨lc, files, k, set, did, read⟩
  · exact .inl rfl
  · rw [Quotes, newReport_spec]
    refine .inr ⟨lc, podMeta, files, k, logLines, set, rfl, rfl, rfl, rfl, did, read, rfl, ?_⟩
    intro n tail few readable
    have valid := lc.attempt_valid tail few readable read
    show logLines.map toValid = logLines
    calc logLines.map toValid = logLines.map id :=
          List.map_congr_left fun line member => toValid_of_valid (valid line member)
      _ = logLines := List.map_id logLines

theorem containerID_of_stems {cfg : AgentConfig} {kill : KernelKill} {event : CrashEvent}
    (stems : Stems cfg kill event) {driver : CgroupDriver} {id : ContainerID}
    (under : kill.Under driver id) : event.containerID = id.text := by
  obtain ⟨clean, short, kn, node, named⟩ := under
  have stored : Terminated (readStr 128 (driver.directory id)) (driver.directory id) :=
    terminated_readStr (by omega)
  rw [stems]
  show containerIDFromCgroup (parseComm (record kill.current kill.oc kill.victim).cgroupName.toList) = _
  rw [record_cgroupName node named, stored.parseComm (driver.directory_clean clean id),
    containerIDFromCgroup_directory]

section Reach

open KubeAutopsy.Theory.Transition

variable {cfg : AgentConfig} {happened : KernelKill → Prop} {s : Run.State}

theorem stems_of_reach (reached : Reach (Run.system cfg) (traces happened) s) :
    ∀ k ∈ s.pool.kills, ∃ kill, happened kill ∧ Stems cfg kill k.crash := by
  refine reached.invariant (I := fun s : Run.State =>
    ∀ k ∈ s.pool.kills, ∃ kill, happened kill ∧ Stems cfg kill k.crash) ?_ ?_
  · intro s start k member
    rw [start.2.2.2] at member
    simp [Run.Pool.kills, Run.Reader.inHand] at member
  · intro s l s' stems traced taken k member
    cases Run.moved_of_step taken with
    | pool stirs =>
        rcases stirs.kills with ⟨-, moved⟩ | ⟨raw, rfl, -, kills⟩
        · exact stems k (moved.mem_iff.1 member)
        · rw [kills, List.mem_append, List.mem_singleton] at member
          rcases member with old | rfl
          · exact stems k old
          · obtain ⟨kill, happens, read⟩ := traced raw rfl
            exact ⟨kill, happens, by rw [Stems, read.eq]; rfl⟩
    | main steers =>
        rw [steers.pool] at member
        exact stems k member

/-- **A report says what the kernel saw.**  In every run of an agent whose tracer reads the
kprobe's records, every worker is about one kill: what it creates names a container that publishes
the ID of the victim's cgroup, and what it writes to the report it created are the figures of the
kernel and lines of that container's log. -/
theorem report_of_kernel_kill (cfg : AgentConfig) (happened : KernelKill → Prop) (s : Run.State)
    (positive : 0 < cfg.pageSize.toInt) (reached : Reach (Run.system cfg) (traces happened) s) :
    ∀ u ∈ s.pool.workers, ∃ kill, happened kill ∧
      (∀ report answer, Did u.log (.create report) answer → Names cfg kill u.log report) ∧
      ∀ key patch answer, Did u.log (.statusPatch key patch) answer →
        ∃ report stored d, Did u.log (.create report) (.acked stored) ∧ key = stored.key ∧
          patch.applyTo stored.status.wire = { diagnostics := d, phase := .pending } ∧
          Figures cfg.pageSize kill d ∧ Quotes cfg u.log report d := by
  intro u member
  obtain ⟨kill, happens, stems⟩ := stems_of_reach reached u.kill (Run.worker_kills member)
  have works := (Run.books_of_reach reached).works u member
  refine ⟨kill, happens, ?_, ?_⟩
  · intro report answer did
    obtain ⟨podMeta, ⟨-, pods, listed, found⟩, rfl⟩ := works.creates did
    obtain ⟨pod, inList, cs, status, shown, rfl⟩ := shown_of_findPod found
    refine ⟨pods, listed, pod, inList, cs, status, ?_, ?_⟩
    · intro driver id under
      rw [← containerID_of_stems stems under]
      exact shown
    · rw [newReport_spec]
      exact ⟨rfl, rfl, rfl, rfl⟩
  · intro key patch answer did
    obtain ⟨podMeta, stored, logLines, found, created, captured, named, rfl⟩ := works.patches did
    refine ⟨_, stored, _, created, named, diagnosticsPatch_applyTo stored _, ?_,
      quotes_of_captured captured⟩
    rw [stems]
    exact figures_of_record positive kill _ logLines

/-- A process of the container `c0ffee`, killed at its limit of 25600 pages. -/
def cartProcess : TaskStruct where
  tgid := 42
  comm := lit "java"
  signal := some ⟨-3⟩
  mm := some ⟨8192, tearingDown.percpu⟩
  cgroups := some ⟨some ⟨some ⟨some ⟨7, some (lit "cri-containerd-c0ffee.scope")⟩⟩⟩⟩

theorem comm_java : Comm (lit "java") := ⟨by decide, by decide⟩

def cartKill : KernelKill where
  current := ⟨0x2A00000001, lit "java"⟩
  oc := ⟨25600, some cartProcess, 107, true⟩
  victim := cartProcess
  chosen := rfl
  triggered := comm_java
  named := comm_java

theorem cartKill_read :
    cartKill.Read (record cartKill.current cartKill.oc cartProcess).toBpfOomEvent :=
  ⟨_, _, rfl, readEvent_ok _ false, rfl⟩

/-- The kill is read and reported. -/
def cartReported : List Run.Label :=
  [.pool (.read (.event (record cartKill.current cartKill.oc cartProcess).toBpfOomEvent)),
    .pool .decide, .pool .takeSlot, .pool .add, .pool .launch] ++
    List.replicate 4 (.pool (.perform 0 Run.online))

theorem cartReported_traced : ∀ l ∈ cartReported, ∀ s, traces (· = cartKill) s l := by
  intro l member s raw same
  subst same
  simp only [cartReported, List.mem_append, List.mem_cons, List.mem_replicate] at member
  have first : raw = (record cartKill.current cartKill.oc cartProcess).toBpfOomEvent := by
    simpa using member
  exact ⟨cartKill, rfl, first ▸ cartKill_read⟩

theorem report_of_kernel_kill_cart :
    ∃ s, Reach (Run.system Run.nodeAgent) (traces (· = cartKill)) s ∧
      ∃ u ∈ s.pool.workers, Created u.log ∧
        ∀ report answer, Did u.log (.create report) answer →
          Names Run.nodeAgent cartKill u.log report := by
  have within : Within (Run.system Run.nodeAgent) (traces (· = cartKill))
      (Run.attached Run.nodeAgent) cartReported :=
    ((within_anyStep _ _).and_labels cartReported_traced).mono fun s l both => both.1 s
  obtain ⟨s, reached, created⟩ := exists_guarded
    (Q := fun s => s.pool.workers.any fun u => decide (Created u.log))
    (Run.attached_initial Run.nodeAgent) within (by decide)
  obtain ⟨u, member, reported⟩ := List.any_eq_true.1 created
  obtain ⟨kill, rfl, names, -⟩ :=
    report_of_kernel_kill Run.nodeAgent (· = cartKill) s (by decide) reached u member
  exact ⟨s, reached, u, member, of_decide_eq_true reported, names⟩

end Reach

end Fidelity

end KubeAutopsy.Agent
