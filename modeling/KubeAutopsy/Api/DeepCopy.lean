/-
# KubeAutopsy.Api.DeepCopy — reports in memory

`api/v1alpha1/zz_generated.deepcopy.go`.  The rest of the development takes a report for a
value.  In memory it is a structure some of whose fields are pointers, and two structures may
lead to the same cells: the informer hands one object to every reader, and a patch is computed
between an object and an earlier state of the same object.

An image is the structure itself, and its piece says what it stands for in a heap.  `deepCopy` is
the generated code: all fields are copied, then each pointer is replaced by one to a new cell, and
a list is copied item after item into a new array.

The generated code leaves `metav1.ObjectMeta`, `metav1.ListMeta` and `*metav1.Time` to copies of
their own.  These are no code of this repository, so they are a parameter, `Metav1`, and what is
needed of them is a hypothesis, `Metav1.Copies`.
-/
import KubeAutopsy.Api.Types
import KubeAutopsy.Theory.Heaps

namespace KubeAutopsy.Api.DeepCopy

open KubeAutopsy.Theory.Bytes (GoString lit)
open KubeAutopsy.Theory.Heaps

set_option autoImplicit false

/-! ## Structures and cells -/

/-- The types of `metav1`: in memory, the cells their own pointers lead to, and as values. -/
structure MetaTypes where
  objectMeta : Type
  listMeta : Type
  cell : Type
  objectValue : Type
  listValue : Type

structure TypeMeta where
  kind : GoString := []
  apiVersion : GoString := []
  deriving DecidableEq, Repr

structure DiagnosticImage where
  oomScopeLimitBytes : Int := 0
  victimRSSBytes : Int := 0
  oomVictimPID : Int := 0
  oomVictimComm : GoString := []
  triggerPID : Int := 0
  triggerComm : GoString := []
  oomScore : Int := 0
  oomScoreAdj : Int := 0
  rssDissection : Option Addr := none
  oomContext : OOMContext := .unset
  lastLogLines : Option Addr := none
  deriving DecidableEq, Repr

structure StatusImage where
  diagnostics : DiagnosticImage := {}
  phase : Phase := .unset
  notifiedAt : Option Addr := none
  deriving DecidableEq, Repr

structure ReportImage (T : MetaTypes) where
  typeMeta : TypeMeta := {}
  metadata : T.objectMeta
  spec : PodCrashReportSpec := {}
  status : StatusImage := {}

/-- `PodCrashReportList`: the items are in one array. -/
structure ListImage (T : MetaTypes) where
  typeMeta : TypeMeta := {}
  metadata : T.listMeta
  items : Option Addr

/-- What a pointer of a report, or of a list of reports, leads to. -/
inductive Cell (T : MetaTypes) where
  | rssDissection (d : RSSDissection)
  | lines (ls : List GoString)
  | time (t : Int)
  | reports (items : List (ReportImage T))
  | metav1 (cell : T.cell)

namespace Cell

variable {T : MetaTypes}

def asRSSDissection : Cell T → Option RSSDissection
  | .rssDissection d => some d
  | _ => none

def asLines : Cell T → Option (List GoString)
  | .lines ls => some ls
  | _ => none

def asTime : Cell T → Option Int
  | .time t => some t
  | _ => none

def asReports : Cell T → Option (List (ReportImage T))
  | .reports items => some items
  | _ => none

def asMetav1 : Cell T → Option T.cell
  | .metav1 cell => some cell
  | _ => none

end Cell

abbrev Memory (T : MetaTypes) := Heap (Cell T)

/-- `metav1` in memory: what its structures stand for, and its copies. -/
structure Metav1 (T : MetaTypes) where
  objectMeta : T.objectMeta → Piece (Cell T) T.objectValue
  listMeta : T.listMeta → Piece (Cell T) T.listValue
  /-- An `ObjectMeta` with no field set. -/
  zero : T.objectMeta
  /-- `ObjectMeta.DeepCopyInto`. -/
  copyObjectMeta : Memory T → T.objectMeta → T.objectMeta × Memory T
  /-- `ListMeta.DeepCopyInto`. -/
  copyListMeta : Memory T → T.listMeta → T.listMeta × Memory T
  /-- `(*Time).DeepCopy`. -/
  copyTime : Memory T → Option Addr → Option Addr × Memory T

/-- The copies of `metav1` are copies: they stand for the same, and all of their cells are new. -/
structure Metav1.Copies {T : MetaTypes} (lib : Metav1 T) : Prop where
  objectMeta : ∀ {h m v}, (lib.objectMeta m).value h = some v →
    Copied h (lib.objectMeta m) (lib.copyObjectMeta h m).2 (lib.objectMeta (lib.copyObjectMeta h m).1)
  listMeta : ∀ {h m v}, (lib.listMeta m).value h = some v →
    Copied h (lib.listMeta m) (lib.copyListMeta h m).2 (lib.listMeta (lib.copyListMeta h m).1)
  time : ∀ {h p v}, (Piece.pointer Cell.asTime p).value h = some v →
    Copied h (.pointer Cell.asTime p) (lib.copyTime h p).2
      (.pointer Cell.asTime (lib.copyTime h p).1)

/-! ## What a structure stands for -/

/-- A report as a value, with all its metadata. -/
structure ReportValue (T : MetaTypes) where
  typeMeta : TypeMeta := {}
  metadata : T.objectValue
  spec : PodCrashReportSpec := {}
  status : PodCrashReportStatus := {}

structure ListValue (T : MetaTypes) where
  typeMeta : TypeMeta := {}
  metadata : T.listValue
  items : List (ReportValue T)

section Pieces

variable {T : MetaTypes} (lib : Metav1 T)

def DiagnosticImage.piece (d : DiagnosticImage) : Piece (Cell T) DiagnosticData :=
  (Piece.pair (.pointer Cell.asRSSDissection d.rssDissection)
    (.pointer Cell.asLines d.lastLogLines)).map fun held =>
      { oomScopeLimitBytes := d.oomScopeLimitBytes
        victimRSSBytes := d.victimRSSBytes
        oomVictimPID := d.oomVictimPID
        oomVictimComm := d.oomVictimComm
        triggerPID := d.triggerPID
        triggerComm := d.triggerComm
        oomScore := d.oomScore
        oomScoreAdj := d.oomScoreAdj
        rssDissection := held.1
        oomContext := d.oomContext
        lastLogLines := held.2.getD [] }

def StatusImage.piece (s : StatusImage) : Piece (Cell T) PodCrashReportStatus :=
  (Piece.pair s.diagnostics.piece (.pointer Cell.asTime s.notifiedAt)).map fun held =>
    { diagnostics := held.1, phase := s.phase, notifiedAt := held.2 }

def ReportImage.piece (r : ReportImage T) : Piece (Cell T) (ReportValue T) :=
  (Piece.pair (lib.objectMeta r.metadata) r.status.piece).map fun held =>
    { typeMeta := r.typeMeta, metadata := held.1, spec := r.spec, status := held.2 }

def ListImage.piece (l : ListImage T) : Piece (Cell T) (ListValue T) :=
  (Piece.pair (lib.listMeta l.metadata)
    (.behind Cell.asReports l.items (.all (ReportImage.piece lib)))).map fun held =>
      { typeMeta := l.typeMeta, metadata := held.1, items := held.2.getD [] }

/-! ## The generated code -/

def DiagnosticImage.deepCopy (h : Memory T) (d : DiagnosticImage) : DiagnosticImage × Memory T :=
  let (rssDissection, h) := clone h d.rssDissection
  let (lastLogLines, h) := clone h d.lastLogLines
  ({ d with rssDissection := rssDissection, lastLogLines := lastLogLines }, h)

def StatusImage.deepCopy (h : Memory T) (s : StatusImage) : StatusImage × Memory T :=
  let (diagnostics, h) := s.diagnostics.deepCopy h
  let (notifiedAt, h) := if s.notifiedAt.isSome then lib.copyTime h s.notifiedAt else (none, h)
  ({ s with diagnostics := diagnostics, notifiedAt := notifiedAt }, h)

/-- The specification has no pointer. -/
def ReportImage.deepCopy (h : Memory T) (r : ReportImage T) : ReportImage T × Memory T :=
  let (metadata, h) := lib.copyObjectMeta h r.metadata
  let (status, h) := r.status.deepCopy lib h
  ({ r with metadata := metadata, status := status }, h)

def ListImage.deepCopy (h : Memory T) (l : ListImage T) : ListImage T × Memory T :=
  let (metadata, h) := lib.copyListMeta h l.metadata
  let (items, h) :=
    copySlice Cell.reports { metadata := lib.zero } (ReportImage.deepCopy lib) Cell.asReports h l.items
  ({ l with metadata := metadata, items := items }, h)

end Pieces

/-! ## A copy shares nothing -/

section Copies

variable {T : MetaTypes} {lib : Metav1 T} {h : Memory T}

theorem DiagnosticImage.copied {d : DiagnosticImage} {v : DiagnosticData}
    (stands : d.piece.value h = some v) :
    Copied h d.piece (d.deepCopy h).2 (d.deepCopy h).1.piece := by
  obtain ⟨held, stands, -⟩ := Option.map_eq_some_iff.1 stands
  obtain ⟨rss, lines⟩ := Piece.pair_eq_some.1 stands
  have first := clone_copied rss
  have second := clone_copied ((Piece.pointer _ _).keep lines first.keeps).1
  exact (first.pair second rss lines).map

/-- A time that is nil stays so. -/
theorem Metav1.Copies.optionalTime (copies : lib.Copies) {p : Option Addr} {v : Option Int}
    (stands : (Piece.pointer Cell.asTime p).value h = some v) :
    Copied h (.pointer Cell.asTime p) (if p.isSome then lib.copyTime h p else (none, h)).2
      (.pointer Cell.asTime (if p.isSome then lib.copyTime h p else (none, h)).1) := by
  cases p with
  | none => exact ⟨.refl _ _, rfl, by simp [Piece.pointer]⟩
  | some a => exact copies.time stands

theorem StatusImage.copied (copies : lib.Copies) {s : StatusImage} {v : PodCrashReportStatus}
    (stands : s.piece.value h = some v) :
    Copied h s.piece (s.deepCopy lib h).2 (s.deepCopy lib h).1.piece := by
  obtain ⟨held, stands, -⟩ := Option.map_eq_some_iff.1 stands
  obtain ⟨diagnostics, notifiedAt⟩ := Piece.pair_eq_some.1 stands
  have first := DiagnosticImage.copied diagnostics
  have second := copies.optionalTime ((Piece.pointer _ _).keep notifiedAt first.keeps).1
  exact (first.pair second diagnostics notifiedAt).map

theorem ReportImage.copied (copies : lib.Copies) {r : ReportImage T} {v : ReportValue T}
    (stands : (r.piece lib).value h = some v) :
    Copied h (r.piece lib) (r.deepCopy lib h).2 ((r.deepCopy lib h).1.piece lib) := by
  obtain ⟨held, stands, -⟩ := Option.map_eq_some_iff.1 stands
  obtain ⟨metadata, status⟩ := Piece.pair_eq_some.1 stands
  have first := copies.objectMeta metadata
  have second := StatusImage.copied copies (r.status.piece.keep status first.keeps).1
  exact (first.pair second metadata status).map

theorem ListImage.copied (copies : lib.Copies) {l : ListImage T} {v : ListValue T}
    (stands : (l.piece lib).value h = some v) :
    Copied h (l.piece lib) (l.deepCopy lib h).2 ((l.deepCopy lib h).1.piece lib) := by
  obtain ⟨held, stands, -⟩ := Option.map_eq_some_iff.1 stands
  obtain ⟨metadata, items⟩ := Piece.pair_eq_some.1 stands
  have first := copies.listMeta metadata
  have there := ((Piece.behind _ _ _).keep items first.keeps).1
  have wrapped : ∀ items : List (ReportImage T), (Cell.reports items).asReports = some items :=
    fun _ => rfl
  exact (first.pair (copySlice_copied (ReportImage.deepCopy lib) wrapped
    (fun stands => ReportImage.copied copies stands) there) metadata items).map

end Copies

/-- **A copy and what it was copied from do not know of each other**, if the copies of `metav1` do
not.  For a report and for a list of reports: the copy stands for the same, whatever is written
later to cells that were there before it was made; and everything that was there before, what it was
copied from and any other report or list, stands for what it did, whatever is written later to the
cells of the copy or to newer ones. -/
theorem deepCopy_independent (T : MetaTypes) (lib : Metav1 T) (copies : lib.Copies) (h : Memory T)
    (r : ReportImage T) (v : ReportValue T) (l : ListImage T) (vs : ListValue T)
    (report : (r.piece lib).value h = some v) (list : (l.piece lib).value h = some vs) :
    (∀ h' : Memory T,
      (∀ a, h.length ≤ a → a < (r.deepCopy lib h).2.length → h'[a]? = (r.deepCopy lib h).2[a]?) →
        ((r.deepCopy lib h).1.piece lib).value h' = some v) ∧
    (∀ h' : Memory T,
      (∀ a, h.length ≤ a → a < (l.deepCopy lib h).2.length → h'[a]? = (l.deepCopy lib h).2[a]?) →
        ((l.deepCopy lib h).1.piece lib).value h' = some vs) ∧
    ∀ copied ∈ [(r.deepCopy lib h).2, (l.deepCopy lib h).2], ∀ h', Keeps h.length copied h' →
      (∀ (x : ReportImage T) w, (x.piece lib).value h = some w → (x.piece lib).value h' = some w) ∧
      ∀ (x : ListImage T) ws, (x.piece lib).value h = some ws → (x.piece lib).value h' = some ws := by
  have ofReport := ReportImage.copied copies report
  have ofList := ListImage.copied copies list
  refine ⟨fun h' kept => ofReport.copy report kept, fun h' kept => ofList.copy list kept, ?_⟩
  intro copied member h' keeps
  simp only [List.mem_cons, List.not_mem_nil, or_false] at member
  obtain rfl | rfl := member
  · exact ⟨fun x w stands => ofReport.original stands keeps,
      fun x ws stands => ofReport.original stands keeps⟩
  · exact ⟨fun x w stands => ofList.original stands keeps,
      fun x ws stands => ofList.original stands keeps⟩

/-! ### A report with labels -/

/-- Metadata of which only the labels are in use. -/
def labelled : MetaTypes where
  objectMeta := Option Addr
  listMeta := Unit
  cell := List (GoString × GoString)
  objectValue := Option (List (GoString × GoString))
  listValue := Unit

def labelledLib : Metav1 labelled where
  objectMeta p := .pointer Cell.asMetav1 p
  listMeta _ := .const ()
  zero := none
  copyObjectMeta h p := clone h p
  copyListMeta h m := (m, h)
  copyTime h p := clone h p

theorem labelledLib_copies : labelledLib.Copies where
  objectMeta stands := clone_copied stands
  listMeta _ := ⟨.refl _ _, rfl, by simp [labelledLib, Piece.const]⟩
  time stands := clone_copied stands

/-- A report with a label and two log lines, alone in memory and as the only item of a list. -/
def sampleReport : ReportImage labelled where
  metadata := some 2
  status := { diagnostics := { lastLogLines := some 0 }, notifiedAt := some 1 }

def sampleMemory : Memory labelled :=
  [.lines [lit "a", lit "b"], .time 7, .metav1 [(lit "app", lit "cart")], .reports [sampleReport]]

def sampleValue : ReportValue labelled where
  metadata := some [(lit "app", lit "cart")]
  status := { diagnostics := { lastLogLines := [lit "a", lit "b"] }, notifiedAt := some 7 }

/-- The first log line of the original is overwritten behind the copy's back. -/
def overwritten : Memory labelled :=
  (sampleReport.deepCopy labelledLib sampleMemory).2.set 0 (.lines [lit "x", lit "b"])

theorem deepCopy_independent_overwritten :
    ((sampleReport.deepCopy labelledLib sampleMemory).1.piece labelledLib).value overwritten =
      some sampleValue ∧
    (((sampleReport.piece labelledLib).value overwritten).map fun v =>
      v.status.diagnostics.lastLogLines) = some [lit "x", lit "b"] := by
  refine ⟨?_, by decide⟩
  refine (deepCopy_independent labelled labelledLib labelledLib_copies sampleMemory sampleReport
    sampleValue ⟨{}, (), some 3⟩ ⟨{}, (), [sampleValue]⟩ rfl rfl).1 _ ?_
  intro a above _
  refine List.getElem?_set_ne ?_
  have : sampleMemory.length = 4 := rfl
  omega

end KubeAutopsy.Api.DeepCopy
