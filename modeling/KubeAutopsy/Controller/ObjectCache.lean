/-
# KubeAutopsy.Controller.ObjectCache — no reader can change what the cache holds

The informer keeps one object of each report and hands a copy to whoever asks.  Everything the
development says about a cached version rests on two things: `StripCachedLogLines` must not write to
the object it is given, and a reader must not get a pointer into the cache.

Here the cache and its readers share one memory.  The decoder that makes an object of a notification
and the read that hands a copy out are libraries, so they are a parameter, `Informer`, of which only
`Informer.Separates` is known; `StripCachedLogLines` between them is the code.  A reader does to its
own object what Go lets it: it writes to any cell its object leads to, and it assigns any field, to
nil, to a pointer its object had or to something new.  `Sound` is that no two objects lead to the
same cell; `cache_unchanged` follows for every run.
-/
import KubeAutopsy.Api.DeepCopy
import KubeAutopsy.Controller.Reconciler
import KubeAutopsy.Theory.Transition

namespace KubeAutopsy.Controller.ObjectCache

open KubeAutopsy.Api
open KubeAutopsy.Api.DeepCopy
open KubeAutopsy.Theory.Bytes (GoString lit)
open KubeAutopsy.Theory.Heaps
open KubeAutopsy.Theory.Transition

set_option autoImplicit false

variable {T : MetaTypes}

/-! ## Into the cache and out of it -/

/-- The libraries around `StripCachedLogLines`. -/
structure Informer (T : MetaTypes) where
  /-- The object made of a notification. -/
  decode : Memory T → ReportValue T → ReportImage T × Memory T
  /-- The object a reader of the cache gets. -/
  handOut : Memory T → ReportImage T → ReportImage T × Memory T

/-- Objects are made of new cells, and stand for what they are made of. -/
structure Informer.Separates (lib : Metav1 T) (informer : Informer T) : Prop where
  decode : ∀ h report, Copied h (.const report) (informer.decode h report).2
    ((informer.decode h report).1.piece lib)
  handOut : ∀ {h} {image : ReportImage T} {v}, (image.piece lib).value h = some v →
    Copied h (image.piece lib) (informer.handOut h image).2 ((informer.handOut h image).1.piece lib)

/-- `stripped.Status.Diagnostics.LastLogLines = nil`. -/
def withoutLines (report : ReportImage T) : ReportImage T :=
  { report with
    status := { report.status with
      diagnostics := { report.status.diagnostics with lastLogLines := none } } }

/-- `StripCachedLogLines` on an object in memory. -/
def stripCachedLogLinesAt (lib : Metav1 T) (h : Memory T) (report : ReportImage T) :
    ReportImage T × Memory T :=
  match report.status.diagnostics.lastLogLines with
  | none => (report, h)
  | some _ =>
      let (stripped, h) := report.deepCopy lib h
      (withoutLines stripped, h)

/-! ## What is cached -/

/-- The report as the rest of the development has it, with what `read` takes from its metadata. -/
def report (read : T.objectValue → ObjectMeta) (v : ReportValue T) : PodCrashReport where
  metadata := read v.metadata
  spec := v.spec
  status := v.status

/-- `v` is `delivered` as `StripCachedLogLines` leaves it, with all of its metadata. -/
structure Strips (delivered v : ReportValue T) : Prop where
  typeMeta : v.typeMeta = delivered.typeMeta
  metadata : v.metadata = delivered.metadata
  report : ∀ read, report read v = stripCachedLogLines (report read delivered)

/-- The object stands for the delivered report without its log lines. -/
def Holds (lib : Metav1 T) (h : Memory T) (image : ReportImage T) (delivered : ReportValue T) : Prop :=
  ∃ v, (image.piece lib).value h = some v ∧ Strips delivered v

section Into

variable {lib : Metav1 T} {h : Memory T}

/-- What a report's parts stand for. -/
theorem value_parts {image : ReportImage T} {v : ReportValue T}
    (stands : (image.piece lib).value h = some v) :
    image.typeMeta = v.typeMeta ∧ (lib.objectMeta image.metadata).value h = some v.metadata ∧
      image.spec = v.spec ∧ image.status.phase = v.status.phase ∧
      image.status.diagnostics.piece.value h = some v.status.diagnostics ∧
      (Piece.pointer Cell.asTime image.status.notifiedAt).value h = some v.status.notifiedAt := by
  obtain ⟨held, both, rfl⟩ := Option.map_eq_some_iff.1 stands
  obtain ⟨metadata, status⟩ := Piece.pair_eq_some.1 both
  obtain ⟨held', both', same⟩ := Option.map_eq_some_iff.1 status
  obtain ⟨diagnostics, notifiedAt⟩ := Piece.pair_eq_some.1 both'
  rw [← same]
  exact ⟨rfl, metadata, rfl, rfl, diagnostics, notifiedAt⟩

theorem strips_cleared (v : ReportValue T) :
    Strips v { v with status := { v.status with
      diagnostics := { v.status.diagnostics with lastLogLines := [] } } } := by
  refine ⟨rfl, rfl, fun read => ?_⟩
  obtain ⟨_, _, _, ⟨⟨_, _, _, _, _, _, _, _, _, _, lines⟩, _, _⟩⟩ := v
  unfold stripCachedLogLines
  split
  · rename_i empty
    obtain rfl : lines = [] := empty
    rfl
  · rfl

theorem holds_withoutLines {image : ReportImage T} {v : ReportValue T}
    (stands : (image.piece lib).value h = some v) : Holds lib h (withoutLines image) v := by
  obtain ⟨typeMeta, metadata, spec, phase, diagnostics, notifiedAt⟩ := value_parts stands
  obtain ⟨held, both, same⟩ := Option.map_eq_some_iff.1 diagnostics
  obtain ⟨rss, -⟩ := Piece.pair_eq_some.1 both
  refine ⟨_, ?_, strips_cleared v⟩
  have cleared : (withoutLines image).status.diagnostics.piece.value h =
      some { v.status.diagnostics with lastLogLines := [] } := by
    rw [← same]
    exact Option.map_eq_some_iff.2 ⟨(held.1, none), Piece.pair_eq_some.2 ⟨rss, rfl⟩, rfl⟩
  have status : (withoutLines image).status.piece.value h =
      some { v.status with diagnostics := { v.status.diagnostics with lastLogLines := [] } } := by
    refine Option.map_eq_some_iff.2
      ⟨(_, v.status.notifiedAt), Piece.pair_eq_some.2 ⟨cleared, notifiedAt⟩, ?_⟩
    have unchanged : (withoutLines image).status.phase = v.status.phase := phase
    rw [unchanged]
  rw [← typeMeta, ← spec]
  exact Option.map_eq_some_iff.2 ⟨(v.metadata, _), Piece.pair_eq_some.2 ⟨metadata, status⟩, rfl⟩

theorem addrs_withoutLines (image : ReportImage T) :
    ∀ a ∈ ((withoutLines image).piece lib).addrs h, a ∈ (image.piece lib).addrs h := by
  intro a member
  simp only [withoutLines, ReportImage.piece, StatusImage.piece, DiagnosticImage.piece, Piece.map,
    Piece.pair, Piece.pointer, Option.toList_none, List.append_nil, List.mem_append] at member ⊢
  tauto

/-- **Stripping writes to nothing that was there.**  What it returns stands for the stripped report
and leads to the object it was given, or to new cells only. -/
theorem strip_spec (copies : lib.Copies) {image : ReportImage T} {v : ReportValue T}
    (stands : (image.piece lib).value h = some v) :
    Keeps h.length h (stripCachedLogLinesAt lib h image).2 ∧
    Holds lib (stripCachedLogLinesAt lib h image).2 (stripCachedLogLinesAt lib h image).1 v ∧
    ∀ a ∈ ((stripCachedLogLinesAt lib h image).1.piece lib).addrs (stripCachedLogLinesAt lib h image).2,
      a ∈ (image.piece lib).addrs h ∨ h.length ≤ a := by
  obtain ⟨-, -, -, -, diagnostics, -⟩ := value_parts stands
  unfold stripCachedLogLinesAt
  cases lines : image.status.diagnostics.lastLogLines with
  | none =>
      refine ⟨.refl _ _, ⟨v, stands, rfl, rfl, fun read => ?_⟩, fun a member => .inl member⟩
      have empty : v.status.diagnostics.lastLogLines = [] := by
        obtain ⟨held, both, same⟩ := Option.map_eq_some_iff.1 diagnostics
        obtain ⟨-, held⟩ := Piece.pair_eq_some.1 both
        rw [lines] at held
        rw [← same]
        simp only [Piece.pointer, Piece.load, Option.some.injEq] at held
        simp [← held]
      exact (if_pos empty).symm
  | some lines =>
      have copied := ReportImage.copied copies stands
      refine ⟨copied.keeps, holds_withoutLines (copied.same.trans stands), ?_⟩
      intro a member
      exact .inr (copied.fresh a (addrs_withoutLines _ a member))

end Into

/-! ## The cache and its readers -/

inductive Role where
  | cached
  | reader
  deriving DecidableEq, Repr

/-- Whoever holds an object. -/
structure Holder (T : MetaTypes) where
  role : Role
  image : ReportImage T

structure State (T : MetaTypes) where
  memory : Memory T
  holders : List (Holder T)

inductive Label (T : MetaTypes) where
  /-- The watch delivers a report, which goes into the cache. -/
  | deliver (delivered : ReportValue T)
  /-- Someone gets a copy of the cached object `i`. -/
  | get (i : Nat)
  /-- Reader `j` writes to a cell its object leads to. -/
  | write (j : Nat) (a : Addr) (cell : Cell T)
  /-- Reader `j` allocates cells and assigns its object's fields. -/
  | assign (j : Nat) (cells : List (Cell T)) (image : ReportImage T)

section System

variable (lib : Metav1 T) (informer : Informer T)

/-- Where a reader's object may lead when the reader has changed it: where it led before, or to new
cells. -/
def Own (h : Memory T) (image : ReportImage T) (h' : Memory T) (image' : ReportImage T) : Prop :=
  ∀ a ∈ (image'.piece lib).addrs h', a ∈ (image.piece lib).addrs h ∨ h.length ≤ a

instance (h : Memory T) (image : ReportImage T) (h' : Memory T) (image' : ReportImage T) :
    Decidable (Own lib h image h' image') :=
  inferInstanceAs (Decidable (∀ a ∈ (image'.piece lib).addrs h', _))

/-- Reader `j` has turned its `image` into `image'`, in memory `h`. -/
def State.changed (s : State T) (j : Nat) (image : ReportImage T) (h : Memory T)
    (image' : ReportImage T) : Option (State T) :=
  if Own lib s.memory image h image' ∧ ((image'.piece lib).value h).isSome = true then
    some ⟨h, s.holders.set j ⟨.reader, image'⟩⟩
  else none

def step (s : State T) : Label T → Option (State T)
  | .deliver delivered =>
      let (image, h) := informer.decode s.memory delivered
      let (image, h) := stripCachedLogLinesAt lib h image
      some ⟨h, s.holders ++ [⟨.cached, image⟩]⟩
  | .get i =>
      match s.holders[i]? with
      | some ⟨.cached, image⟩ =>
          let (copy, h) := informer.handOut s.memory image
          some ⟨h, s.holders ++ [⟨.reader, copy⟩]⟩
      | _ => none
  | .write j a cell =>
      match s.holders[j]? with
      | some ⟨.reader, image⟩ =>
          if a ∈ (image.piece lib).addrs s.memory then
            s.changed lib j image (s.memory.set a cell) image
          else none
      | _ => none
  | .assign j cells image' =>
      match s.holders[j]? with
      | some ⟨.reader, image⟩ => s.changed lib j image (s.memory ++ cells) image'
      | _ => none

def system : System (State T) (Label T) where
  init := fun s => s.holders = []
  step := step lib informer

/-- Everything a step can do. -/
inductive Moved (s : State T) : State T → Prop
  /-- An object of new cells. -/
  | held {h : Memory T} {x : Holder T} {v : ReportValue T} (keeps : Keeps s.memory.length s.memory h)
      (stands : (x.image.piece lib).value h = some v)
      (fresh : ∀ a ∈ (x.image.piece lib).addrs h, s.memory.length ≤ a) :
      Moved s ⟨h, s.holders ++ [x]⟩
  /-- A reader's own object, made of cells it had or of new ones. -/
  | changed {h : Memory T} {j : Nat} {x : Holder T} {image : ReportImage T} {v : ReportValue T}
      (found : s.holders[j]? = some x) (reader : x.role = .reader)
      (kept : ∀ a, a < s.memory.length → a ∉ (x.image.piece lib).addrs s.memory →
        h[a]? = s.memory[a]?)
      (own : Own lib s.memory x.image h image) (stands : (image.piece lib).value h = some v) :
      Moved s ⟨h, s.holders.set j ⟨.reader, image⟩⟩

/-- Every object stands for something, and no two lead to one cell. -/
structure Sound (s : State T) : Prop where
  stands : ∀ (i : Nat) (x : Holder T), s.holders[i]? = some x →
    ∃ v, (x.image.piece lib).value s.memory = some v
  apart : ∀ (i : Nat) (x : Holder T) (j : Nat) (y : Holder T), s.holders[i]? = some x →
    s.holders[j]? = some y → i ≠ j →
      ∀ a ∈ (x.image.piece lib).addrs s.memory, a ∉ (y.image.piece lib).addrs s.memory

end System

section Steps

variable {lib : Metav1 T} {informer : Informer T} {s t : State T} {l : Label T}

/-! ### The steps of the cache -/

/-- A delivery puts an object of new cells into the cache that stands for the stripped report. -/
theorem deliver_spec (copies : lib.Copies) (separates : informer.Separates lib)
    {delivered : ReportValue T} (taken : (system lib informer).step s (.deliver delivered) = some t) :
    ∃ image, t.holders = s.holders ++ [⟨.cached, image⟩] ∧
      Keeps s.memory.length s.memory t.memory ∧ Holds lib t.memory image delivered ∧
      ∀ a ∈ (image.piece lib).addrs t.memory, s.memory.length ≤ a := by
  cases taken
  have made := separates.decode s.memory delivered
  obtain ⟨keeps, holds, from_⟩ := strip_spec copies made.same
  refine ⟨_, rfl, made.keeps.trans keeps made.keeps.grows, holds, fun a member => ?_⟩
  rcases from_ a member with inside | new
  · exact made.fresh a inside
  · exact made.keeps.grows.trans new

/-- A read hands out an object of new cells that stands for what the cached one does. -/
theorem get_spec (separates : informer.Separates lib) {i : Nat} {image : ReportImage T}
    {v : ReportValue T} (found : s.holders[i]? = some ⟨.cached, image⟩)
    (stands : (image.piece lib).value s.memory = some v) :
    ∃ t copy, (system lib informer).step s (.get i) = some t ∧
      t.holders = s.holders ++ [⟨.reader, copy⟩] ∧ Keeps s.memory.length s.memory t.memory ∧
      (copy.piece lib).value t.memory = some v ∧
      ∀ a ∈ (copy.piece lib).addrs t.memory, s.memory.length ≤ a := by
  have copied := separates.handOut stands
  refine ⟨⟨_, s.holders ++ [⟨.reader, _⟩]⟩, _, ?_, rfl, copied.keeps, copied.same.trans stands,
    copied.fresh⟩
  simp only [system, step, found]

theorem changed_cases {j : Nat} {image image' : ReportImage T} {h : Memory T}
    (taken : s.changed lib j image h image' = some t) :
    Own lib s.memory image h image' ∧ (∃ v, (image'.piece lib).value h = some v) ∧
      t = ⟨h, s.holders.set j ⟨.reader, image'⟩⟩ := by
  unfold State.changed at taken
  split at taken
  · rename_i allowed
    cases taken
    exact ⟨allowed.1, Option.isSome_iff_exists.1 allowed.2, rfl⟩
  · cases taken

theorem moved_of_step (copies : lib.Copies) (separates : informer.Separates lib)
    (sound : Sound lib s) (taken : (system lib informer).step s l = some t) : Moved lib s t := by
  cases l with
  | deliver delivered =>
      obtain ⟨image, holders, keeps, ⟨v, stands, -⟩, fresh⟩ := deliver_spec copies separates taken
      obtain ⟨memory, _⟩ := t
      cases holders
      exact .held keeps stands fresh
  | get i =>
      have step := taken
      simp only [system, ObjectCache.step] at step
      split at step
      · rename_i image found
        obtain ⟨v, stands⟩ := sound.stands i _ found
        obtain ⟨t', copy, taken', holders, keeps, same, fresh⟩ := get_spec separates found stands
        obtain rfl := Option.some.inj (taken.symm.trans taken')
        obtain ⟨memory, _⟩ := t
        cases holders
        exact .held keeps same fresh
      · cases step
  | write j a cell =>
      simp only [system, step] at taken
      split at taken
      · rename_i image found
        split at taken
        · rename_i mine
          obtain ⟨own, ⟨v, stands⟩, rfl⟩ := changed_cases taken
          refine .changed found rfl (fun b _ other => List.getElem?_set_ne ?_) own stands
          rintro rfl
          exact other mine
        · cases taken
      · cases taken
  | assign j cells image' =>
      simp only [system, step] at taken
      split at taken
      · rename_i image found
        obtain ⟨own, ⟨v, stands⟩, rfl⟩ := changed_cases taken
        exact .changed found rfl (fun b inside _ => List.getElem?_append_left inside) own stands
      · cases taken

theorem getElem?_held {holders : List (Holder T)} {new x : Holder T} {i : Nat}
    (found : (holders ++ [new])[i]? = some x) :
    i ≠ holders.length ∧ holders[i]? = some x ∨ i = holders.length ∧ x = new := by
  by_cases inside : i < holders.length
  · rw [List.getElem?_append_left inside] at found
    exact .inl ⟨Nat.ne_of_lt inside, found⟩
  · rw [List.getElem?_append_right (Nat.not_lt.1 inside), List.getElem?_singleton] at found
    split at found
    · cases found
      exact .inr ⟨by omega, rfl⟩
    · cases found

theorem getElem?_changed {holders : List (Holder T)} {new x : Holder T} {i j : Nat}
    (found : (holders.set j new)[i]? = some x) : i ≠ j ∧ holders[i]? = some x ∨ i = j ∧ x = new := by
  by_cases same : i = j
  · subst same
    rw [List.getElem?_set_self'] at found
    obtain ⟨_, -, rfl⟩ := Option.map_eq_some_iff.1 found
    exact .inr ⟨rfl, rfl⟩
  · rw [List.getElem?_set_ne (Ne.symm same)] at found
    exact .inl ⟨same, found⟩

/-- What leads elsewhere than a reader's object is as it was when that reader is done. -/
theorem Sound.kept (sound : Sound lib s) {h : Memory T} {k : Nat} {mine : Holder T}
    (found : s.holders[k]? = some mine)
    (kept : ∀ a, a < s.memory.length → a ∉ (mine.image.piece lib).addrs s.memory →
      h[a]? = s.memory[a]?)
    {i : Nat} {x : Holder T} {v : ReportValue T} (other : i ≠ k) (at_ : s.holders[i]? = some x)
    (stands : (x.image.piece lib).value s.memory = some v) :
    (x.image.piece lib).value h = some v ∧
      (x.image.piece lib).addrs h = (x.image.piece lib).addrs s.memory := by
  have agree : ∀ a ∈ (x.image.piece lib).addrs s.memory, h[a]? = s.memory[a]? := fun a member =>
    kept a ((x.image.piece lib).inside stands a member) (sound.apart i x k mine at_ found other a member)
  obtain ⟨value, addrs⟩ := (x.image.piece lib).local_ agree
  exact ⟨value.trans stands, addrs⟩

/-- One object is new, the others are as they were, and it leads to none of their cells. -/
theorem Sound.renewed (sound : Sound lib s) {k : Nat} {new : Holder T} {w : ReportValue T}
    (places : ∀ (i : Nat) (x : Holder T), t.holders[i]? = some x →
      i ≠ k ∧ s.holders[i]? = some x ∨ i = k ∧ x = new)
    (kept : ∀ (i : Nat) (x : Holder T) (v : ReportValue T), i ≠ k → s.holders[i]? = some x →
      (x.image.piece lib).value s.memory = some v →
        (x.image.piece lib).value t.memory = some v ∧
          (x.image.piece lib).addrs t.memory = (x.image.piece lib).addrs s.memory)
    (stands : (new.image.piece lib).value t.memory = some w)
    (elsewhere : ∀ (i : Nat) (x : Holder T) (v : ReportValue T), i ≠ k → s.holders[i]? = some x →
      (x.image.piece lib).value s.memory = some v → ∀ a ∈ (x.image.piece lib).addrs s.memory,
        a ∉ (new.image.piece lib).addrs t.memory) : Sound lib t := by
  have others : ∀ (i : Nat) (x : Holder T), i ≠ k → s.holders[i]? = some x →
      (∃ v, (x.image.piece lib).value t.memory = some v) ∧
        (x.image.piece lib).addrs t.memory = (x.image.piece lib).addrs s.memory ∧
        ∀ a ∈ (x.image.piece lib).addrs t.memory, a ∉ (new.image.piece lib).addrs t.memory := by
    intro i x other found
    obtain ⟨v, before⟩ := sound.stands i x found
    obtain ⟨after, addrs⟩ := kept i x v other found before
    rw [addrs]
    exact ⟨⟨v, after⟩, rfl, elsewhere i x v other found before⟩
  refine ⟨fun i x found => ?_, fun i x j y first second other a member => ?_⟩
  · rcases places i x found with ⟨old, before⟩ | ⟨-, rfl⟩
    · exact (others i x old before).1
    · exact ⟨w, stands⟩
  · rcases places i x first with ⟨oldX, beforeX⟩ | ⟨rfl, rfl⟩
    · obtain ⟨-, addrsX, apartX⟩ := others i x oldX beforeX
      rcases places j y second with ⟨oldY, beforeY⟩ | ⟨rfl, rfl⟩
      · rw [addrsX] at member
        rw [(others j y oldY beforeY).2.1]
        exact sound.apart i x j y beforeX beforeY other a member
      · exact apartX a member
    · rcases places j y second with ⟨oldY, beforeY⟩ | ⟨rfl, rfl⟩
      · exact fun there => (others j y oldY beforeY).2.2 a there member
      · exact absurd rfl other

theorem Sound.step (sound : Sound lib s) (moved : Moved lib s t) : Sound lib t := by
  cases moved with
  | held keeps stands fresh =>
      refine sound.renewed (fun i x => getElem?_held) (fun i x v _ _ before => ?_) stands ?_
      · exact (x.image.piece lib).keep before keeps
      · intro i x v _ _ before a member there
        exact absurd (fresh a there) (Nat.not_le.2 ((x.image.piece lib).inside before a member))
  | @changed h k mine image w found reader kept own stands =>
      refine sound.renewed (fun i x => getElem?_changed) (fun i x v other at_ before => ?_) stands ?_
      · exact sound.kept found kept other at_ before
      · intro i x v other at_ before a member there
        rcases own a there with old | new
        · exact sound.apart i x k mine at_ found other a member old
        · exact absurd new (Nat.not_le.2 ((x.image.piece lib).inside before a member))

theorem sound_of_reach (copies : lib.Copies) (separates : informer.Separates lib)
    (reached : Reach (system lib informer) anyStep s) : Sound lib s := by
  refine reached.invariant ?_ ?_
  · intro s start
    rw [system] at start
    constructor <;> simp [show s.holders = [] from start]
  · intro s l t sound _ taken
    exact sound.step (moved_of_step copies separates sound taken)

/-- A cached object stays where it is and stands for what it did. -/
theorem Sound.cached (sound : Sound lib s) (moved : Moved lib s t) {i : Nat} {image : ReportImage T}
    {v : ReportValue T} (found : s.holders[i]? = some ⟨.cached, image⟩)
    (stands : (image.piece lib).value s.memory = some v) :
    t.holders[i]? = some ⟨.cached, image⟩ ∧ (image.piece lib).value t.memory = some v := by
  cases moved with
  | held keeps newStands fresh =>
      exact ⟨(List.getElem?_append_left (List.getElem?_eq_some_iff.1 found).1).trans found,
        ((image.piece lib).keep stands keeps).1⟩
  | @changed h j mine image' w at_ reader kept own newStands =>
      have other : i ≠ j := by
        rintro rfl
        obtain rfl := Option.some.inj (at_.symm.trans found)
        cases reader
      exact ⟨(List.getElem?_set_ne (Ne.symm other)).trans found,
        (sound.kept at_ kept other found stands).1⟩

/-- The same over a run. -/
theorem Sound.cached_of_path (copies : lib.Copies) (separates : informer.Separates lib)
    (sound : Sound lib s) (run : Path (system lib informer) anyStep s t) {i : Nat}
    {image : ReportImage T} {v : ReportValue T} (found : s.holders[i]? = some ⟨.cached, image⟩)
    (stands : (image.piece lib).value s.memory = some v) :
    t.holders[i]? = some ⟨.cached, image⟩ ∧ (image.piece lib).value t.memory = some v := by
  refine (run.invariant (I := fun u => Sound lib u ∧ u.holders[i]? = some ⟨.cached, image⟩ ∧
    (image.piece lib).value u.memory = some v) ⟨sound, found, stands⟩ ?_).2
  rintro u l u' ⟨sound, here, still⟩ _ taken
  have moved := moved_of_step copies separates sound taken
  exact ⟨sound.step moved, sound.cached moved here still⟩

end Steps

/-- A field as a decoder fills it: a new cell, or nil for what there is none of. -/
def hold {β : Type} (wrap : β → Cell T) (h : Memory T) (content : Option β) : Option Addr × Memory T :=
  match content with
  | some b => (some h.length, h ++ [wrap b])
  | none => (none, h)

def decodedDiagnostics (h : Memory T) (d : DiagnosticData) : DiagnosticImage × Memory T :=
  let (rssDissection, h) := hold Cell.rssDissection h d.rssDissection
  let (lastLogLines, h) := hold Cell.lines h (some d.lastLogLines)
  ({ oomScopeLimitBytes := d.oomScopeLimitBytes
     victimRSSBytes := d.victimRSSBytes
     oomVictimPID := d.oomVictimPID
     oomVictimComm := d.oomVictimComm
     triggerPID := d.triggerPID
     triggerComm := d.triggerComm
     oomScore := d.oomScore
     oomScoreAdj := d.oomScoreAdj
     rssDissection := rssDissection
     oomContext := d.oomContext
     lastLogLines := lastLogLines }, h)

def decodedStatus (h : Memory T) (s : PodCrashReportStatus) : StatusImage × Memory T :=
  let (diagnostics, h) := decodedDiagnostics h s.diagnostics
  let (notifiedAt, h) := hold Cell.time h s.notifiedAt
  ({ diagnostics := diagnostics, phase := s.phase, notifiedAt := notifiedAt }, h)

/-- A decoder that makes a new cell for each field, and a cache that hands out deep copies. -/
def copying : Informer labelled where
  decode h v :=
    let (metadata, h) := hold Cell.metav1 h v.metadata
    let (status, h) := decodedStatus h v.status
    ({ typeMeta := v.typeMeta, metadata := metadata, spec := v.spec, status := status }, h)
  handOut h image := image.deepCopy labelledLib h

section Decoded

variable {h : Memory T}

theorem hold_copied {β : Type} (view : Cell T → Option β) (wrap : β → Cell T)
    (seen : ∀ b, view (wrap b) = some b) (content : Option β) :
    Copied h (.const content) (hold wrap h content).2 (.pointer view (hold wrap h content).1) := by
  cases content with
  | none => exact ⟨.refl _ _, rfl, by simp [hold, Piece.pointer]⟩
  | some b =>
      refine ⟨keeps_alloc h _, ?_, by simp [hold, Piece.pointer]⟩
      simp [hold, Piece.pointer, Piece.load, Piece.const, seen]

/-- Two parts that were made one after the other, put together. -/
theorem made_pair {γ δ ε : Type} {h' h'' : Memory T} {x : Piece (Cell T) γ} {y : Piece (Cell T) δ}
    {v : γ} {w : δ} (first : Copied h (.const v) h' x) (second : Copied h' (.const w) h'' y)
    (f : γ × δ → ε) {out : ε} (same : f (v, w) = out) :
    Copied h (.const out) h'' ((x.pair y).map f) := by
  obtain ⟨keeps, value, fresh⟩ := (first.pair second rfl rfl).map (f := f)
  exact ⟨keeps, value.trans (congrArg some same), fresh⟩

theorem decodedDiagnostics_copied (d : DiagnosticData) :
    Copied h (.const d) (decodedDiagnostics h d).2 (decodedDiagnostics h d).1.piece :=
  made_pair (hold_copied Cell.asRSSDissection Cell.rssDissection (fun _ => rfl) d.rssDissection)
    (hold_copied Cell.asLines Cell.lines (fun _ => rfl) (some d.lastLogLines)) _ rfl

theorem decodedStatus_copied (s : PodCrashReportStatus) :
    Copied h (.const s) (decodedStatus h s).2 (decodedStatus h s).1.piece :=
  made_pair (decodedDiagnostics_copied s.diagnostics)
    (hold_copied Cell.asTime Cell.time (fun _ => rfl) s.notifiedAt) _ rfl

end Decoded

theorem copying_separates : copying.Separates labelledLib where
  decode h v := by
    have metadata := hold_copied (h := h) Cell.asMetav1 Cell.metav1 (fun _ => rfl) v.metadata
    exact made_pair metadata (decodedStatus_copied v.status)
      (fun held => ({ typeMeta := v.typeMeta, metadata := held.1, spec := v.spec, status := held.2 } :
        ReportValue labelled)) rfl
  handOut stands := ReportImage.copied labelledLib_copies stands

/-- A report with a log line that was notified at instant seven. -/
def notified : ReportValue labelled where
  metadata := none
  status := { diagnostics := { lastLogLines := [lit "a"] }, notifiedAt := some 7 }

/-- When an object was notified. -/
def State.timeOf (s : State labelled) (i : Nat) : Option Int :=
  s.holders[i]?.bind fun x =>
    ((x.image.piece labelledLib).value s.memory).bind fun v => v.status.notifiedAt

end KubeAutopsy.Controller.ObjectCache
