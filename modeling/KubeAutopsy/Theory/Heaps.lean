/-
# KubeAutopsy.Theory.Heaps — memory, and copies that share none of it

A heap is the list of its cells in the order of their allocation, and an address a place in
it.  A pointer is `none` where the source has nil.

A `Piece` is something held in memory: what it stands for in a heap and which addresses it leads
to there.  It carries that nothing else of the heap matters to it.  Pieces are put together from
pointers (`Piece.pointer`), side by side (`Piece.pair`, `Piece.all`) and one behind a pointer to
the other (`Piece.behind`).

`Copied` is a copy made in cells that are all behind a heap's end.  Whoever writes to the copy
keeps everything that was there before, and whoever writes to what was there before keeps the copy
(`Copied.original`, `Copied.copy`).
-/
import Mathlib.Data.List.Forall2

namespace KubeAutopsy.Theory.Heaps

set_option autoImplicit false

abbrev Addr := Nat

abbrev Heap (κ : Type) := List κ

variable {κ β γ δ : Type}

/-- No cell is taken away, and the cells below `n` are as they were. -/
structure Keeps (n : Nat) (h h' : Heap κ) : Prop where
  grows : h.length ≤ h'.length
  same : ∀ a < n, h'[a]? = h[a]?

theorem Keeps.refl (n : Nat) (h : Heap κ) : Keeps n h h := ⟨Nat.le_refl _, fun _ _ => rfl⟩

theorem Keeps.trans {n m : Nat} {h h' h'' : Heap κ} (first : Keeps n h h') (second : Keeps m h' h'')
    (below : n ≤ m) : Keeps n h h'' :=
  ⟨Nat.le_trans first.grows second.grows,
    fun a low => (second.same a (Nat.lt_of_lt_of_le low below)).trans (first.same a low)⟩

/-- A new cell is behind all others. -/
theorem keeps_alloc (h : Heap κ) (cell : κ) : Keeps h.length h (h ++ [cell]) :=
  ⟨by simp, fun _ low => List.getElem?_append_left low⟩

theorem keeps_set {n a : Nat} (h : Heap κ) (cell : κ) (above : n ≤ a) : Keeps n h (h.set a cell) :=
  ⟨by simp, fun _ low => List.getElem?_set_ne (by omega)⟩

/-! ## Pieces -/

structure Piece (κ γ : Type) where
  value : Heap κ → Option γ
  addrs : Heap κ → List Addr
  local_ : ∀ {h h' : Heap κ}, (∀ a ∈ addrs h, h'[a]? = h[a]?) →
    value h' = value h ∧ addrs h' = addrs h
  inside : ∀ {h : Heap κ} {v : γ}, value h = some v → ∀ a ∈ addrs h, a < h.length

namespace Piece

/-- What a piece stands for below `n` it stands for wherever those cells are the same. -/
theorem keep {x : Piece κ γ} {h h' : Heap κ} {v : γ} (stands : x.value h = some v)
    (keeps : Keeps h.length h h') : x.value h' = some v ∧ x.addrs h' = x.addrs h := by
  obtain ⟨value, addrs⟩ := x.local_ fun a member => keeps.same a (x.inside stands a member)
  exact ⟨value.trans stands, addrs⟩

/-- What a pointer leads to, seen through `view`; `none` if it leads nowhere. -/
def load (view : κ → Option β) (h : Heap κ) : Option Addr → Option (Option β)
  | none => some none
  | some a => (h[a]?.bind view).map some

theorem lt_of_load {view : κ → Option β} {h : Heap κ} {p : Option Addr} {v : Option β}
    (leads : load view h p = some v) : ∀ a ∈ p, a < h.length := by
  rintro a rfl
  by_contra beyond
  rw [load, List.getElem?_eq_none (Nat.not_lt.1 beyond)] at leads
  cases leads

theorem load_congr (view : κ → Option β) {h h' : Heap κ} {p : Option Addr}
    (agree : ∀ a ∈ p, h'[a]? = h[a]?) : load view h' p = load view h p := by
  cases p with
  | none => rfl
  | some a => simp only [load, agree a rfl]

def pointer (view : κ → Option β) (p : Option Addr) : Piece κ (Option β) where
  value h := load view h p
  addrs _ := p.toList
  local_ agree := ⟨load_congr view fun a member => agree a (by simpa using member), rfl⟩
  inside leads a member := lt_of_load leads a (by simpa using member)

def map (f : γ → δ) (x : Piece κ γ) : Piece κ δ where
  value h := (x.value h).map f
  addrs := x.addrs
  local_ agree := by
    obtain ⟨value, addrs⟩ := x.local_ agree
    exact ⟨by rw [value], addrs⟩
  inside stands := by
    obtain ⟨v, stands, -⟩ := Option.map_eq_some_iff.1 stands
    exact x.inside stands

def pair (x : Piece κ γ) (y : Piece κ δ) : Piece κ (γ × δ) where
  value h := (x.value h).bind fun a => (y.value h).map fun b => (a, b)
  addrs h := x.addrs h ++ y.addrs h
  local_ agree := by
    obtain ⟨xValue, xAddrs⟩ := x.local_ fun a member => agree a (List.mem_append_left _ member)
    obtain ⟨yValue, yAddrs⟩ := y.local_ fun a member => agree a (List.mem_append_right _ member)
    exact ⟨by rw [xValue, yValue], by rw [xAddrs, yAddrs]⟩
  inside stands := by
    obtain ⟨a, left, rest⟩ := Option.bind_eq_some_iff.1 stands
    obtain ⟨b, right, -⟩ := Option.map_eq_some_iff.1 rest
    exact List.forall_mem_append.2 ⟨x.inside left, y.inside right⟩

theorem pair_eq_some {x : Piece κ γ} {y : Piece κ δ} {h : Heap κ} {v : γ × δ} :
    (x.pair y).value h = some v ↔ x.value h = some v.1 ∧ y.value h = some v.2 := by
  obtain ⟨a, b⟩ := v
  simp [pair, Option.bind_eq_some_iff]

/-- A constant, which is held in no cell. -/
def const (v : γ) : Piece κ γ where
  value _ := some v
  addrs _ := []
  local_ _ := ⟨rfl, rfl⟩
  inside _ _ member := absurd member List.not_mem_nil

/-- The pieces of a list, side by side. -/
def all (piece : β → Piece κ γ) : List β → Piece κ (List γ)
  | [] => const []
  | b :: rest => ((piece b).pair (all piece rest)).map fun v => v.1 :: v.2

theorem all_eq_some {piece : β → Piece κ γ} {items : List β} {h : Heap κ} {vs : List γ} :
    (all piece items).value h = some vs ↔
      List.Forall₂ (fun b v => (piece b).value h = some v) items vs := by
  induction items generalizing vs with
  | nil =>
      rw [List.forall₂_nil_left_iff]
      simp [all, const, eq_comm]
  | cons b rest ih =>
      cases vs with
      | nil =>
          rw [List.forall₂_nil_right_iff]
          simp [all, map]
      | cons v vs =>
          have both : (all piece (b :: rest)).value h = some (v :: vs) ↔
              ((piece b).pair (all piece rest)).value h = some (v, vs) := by
            simp [all, map]
          rw [both, pair_eq_some, List.forall₂_cons, ih]

theorem addrs_all (piece : β → Piece κ γ) (items : List β) (h : Heap κ) :
    (all piece items).addrs h = items.flatMap fun b => (piece b).addrs h := by
  induction items with
  | nil => rfl
  | cons b rest ih => rw [List.flatMap_cons, ← ih]; rfl

/-- What is behind a pointer that may be nil. -/
def nilable (piece : β → Piece κ γ) : Option β → Piece κ (Option γ)
  | none => const none
  | some b => (piece b).map some

/-- A piece behind a pointer to another. -/
def behind (view : κ → Option β) (p : Option Addr) (piece : β → Piece κ γ) : Piece κ (Option γ) where
  value h := (load view h p).bind fun b => (nilable piece b).value h
  addrs h := p.toList ++ ((load view h p).map fun b => (nilable piece b).addrs h).getD []
  local_ := by
    intro h h' agree
    obtain ⟨here, rest⟩ := List.forall_mem_append.1 agree
    have same : load view h' p = load view h p :=
      load_congr view fun a member => here a (by simpa using member)
    rw [same]
    cases leads : load view h p with
    | none => exact ⟨rfl, rfl⟩
    | some b =>
        rw [leads] at rest
        obtain ⟨value, addrs⟩ := (nilable piece b).local_ rest
        exact ⟨value, congrArg (p.toList ++ ·) addrs⟩
  inside := by
    intro h v stands
    obtain ⟨b, leads, stands⟩ := Option.bind_eq_some_iff.1 stands
    refine List.forall_mem_append.2 ⟨fun a member => lt_of_load leads a (by simpa using member), ?_⟩
    rw [leads]
    exact (nilable piece b).inside stands

end Piece

/-! ## Copies -/

/-- `x'` in `h'` is a copy of `x` in `h`, made of new cells only. -/
structure Copied (h : Heap κ) (x : Piece κ γ) (h' : Heap κ) (x' : Piece κ γ) : Prop where
  keeps : Keeps h.length h h'
  same : x'.value h' = x.value h
  fresh : ∀ a ∈ x'.addrs h', h.length ≤ a

namespace Copied

variable {h h' h'' : Heap κ} {x x' : Piece κ γ} {v : γ}

/-- Whatever is done to the new cells, what was there before is as it was. -/
theorem original {y : Piece κ δ} {w : δ} (copied : Copied h x h' x') (stands : y.value h = some w)
    (keeps : Keeps h.length h' h'') : y.value h'' = some w :=
  (y.keep stands (copied.keeps.trans keeps (Nat.le_refl _))).1

/-- Whatever is done to the cells that were there before, the copy is as it was. -/
theorem copy (copied : Copied h x h' x') (stands : x.value h = some v)
    (kept : ∀ a, h.length ≤ a → a < h'.length → h''[a]? = h'[a]?) : x'.value h'' = some v := by
  have there : x'.value h' = some v := copied.same.trans stands
  have agree : ∀ a ∈ x'.addrs h', h''[a]? = h'[a]? := fun a member =>
    kept a (copied.fresh a member) (x'.inside there a member)
  exact (x'.local_ agree).1.trans there

theorem map {f : γ → δ} (copied : Copied h x h' x') : Copied h (x.map f) h' (x'.map f) :=
  ⟨copied.keeps, congrArg (Option.map f) copied.same, copied.fresh⟩

/-- One piece is copied after the other. -/
theorem pair {y y' : Piece κ δ} {w : δ} (first : Copied h x h' x') (second : Copied h' y h'' y')
    (left : x.value h = some v) (right : y.value h = some w) :
    Copied h (x.pair y) h'' (x'.pair y') := by
  have grown := first.keeps.grows
  obtain ⟨yThere, -⟩ := y.keep right first.keeps
  obtain ⟨copyThere, copyAddrs⟩ := x'.keep (first.same.trans left) second.keeps
  refine ⟨first.keeps.trans second.keeps grown, ?_, ?_⟩
  · have whole : (x.pair y).value h = some (v, w) := Piece.pair_eq_some.2 ⟨left, right⟩
    rw [whole]
    exact Piece.pair_eq_some.2 ⟨copyThere, second.same.trans yThere⟩
  · refine List.forall_mem_append.2 ⟨?_, fun a member => Nat.le_trans grown (second.fresh a member)⟩
    rw [copyAddrs]
    exact first.fresh

end Copied

/-- A pointer to a new cell that has what the old one has. -/
def clone (h : Heap κ) (p : Option Addr) : Option Addr × Heap κ :=
  match p.bind (h[·]?) with
  | some cell => (some h.length, h ++ [cell])
  | none => (none, h)

theorem clone_copied {view : κ → Option β} {h : Heap κ} {p : Option Addr} {v : Option β}
    (leads : (Piece.pointer view p).value h = some v) :
    Copied h (.pointer view p) (clone h p).2 (.pointer view (clone h p).1) := by
  cases p with
  | none => exact ⟨.refl _ _, rfl, by simp [clone, Piece.pointer]⟩
  | some a =>
      obtain ⟨cell, found⟩ : ∃ cell, h[a]? = some cell :=
        ⟨_, List.getElem?_eq_getElem
          ((Piece.pointer view (some a)).inside leads a (by simp [Piece.pointer]))⟩
      have copied : clone h (some a) = (some h.length, h ++ [cell]) := by simp [clone, found]
      rw [copied]
      refine ⟨keeps_alloc h cell, ?_, by simp [Piece.pointer]⟩
      simp only [Piece.pointer, Piece.load, found, List.getElem?_concat_length]

/-! ## Copying a slice -/

section Slice

variable (wrap : List β → κ) (zero : β) (copy : Heap κ → β → β × Heap κ)

/-- The loop: item after item is copied into the new array at `b`. -/
def copyInto (b : Addr) : List β → List β → Heap κ → Heap κ
  | _, [], h => h
  | done, item :: rest, h =>
      let (out, h) := copy h item
      copyInto b (done ++ [out]) rest (h.set b (wrap (done ++ [out] ++ rest.map fun _ => zero)))

/-- A new array of the same length, and each item copied into it. -/
def copySlice (view : κ → Option (List β)) (h : Heap κ) (p : Option Addr) : Option Addr × Heap κ :=
  match p.bind fun a => h[a]?.bind view with
  | some items =>
      (some h.length,
        copyInto wrap zero copy h.length [] items (h ++ [wrap (items.map fun _ => zero)]))
  | none => (none, h)

end Slice

section CopySlice

variable {wrap : List β → κ} {zero : β} {piece : β → Piece κ γ}

/-- A piece of new cells, all of them behind the one at `n`. -/
def Beyond (n : Nat) (h : Heap κ) (x : Piece κ γ) (v : γ) : Prop :=
  x.value h = some v ∧ ∀ a ∈ x.addrs h, n < a

theorem Beyond.of_same {n : Nat} {h h' : Heap κ} {x : Piece κ γ} {v : γ} (beyond : Beyond n h x v)
    (same : ∀ a ∈ x.addrs h, h'[a]? = h[a]?) : Beyond n h' x v := by
  obtain ⟨value, addrs⟩ := x.local_ same
  exact ⟨value.trans beyond.1, addrs ▸ beyond.2⟩

/-- The array behind the end of `h₀` is new, and its first items are copies that are newer still. -/
structure Filled (wrap : List β → κ) (zero : β) (piece : β → Piece κ γ) (h₀ : Heap κ)
    (done rest : List β) (vs : List γ) (h : Heap κ) : Prop where
  keeps : Keeps h₀.length h₀ h
  array : h[h₀.length]? = some (wrap (done ++ rest.map fun _ => zero))
  copies : List.Forall₂ (fun b v => Beyond h₀.length h (piece b) v) done vs

theorem Filled.step {h₀ h : Heap κ} {done rest : List β} {vs : List γ} {item : β} {v : γ}
    (copy : Heap κ → β → β × Heap κ)
    (copies : ∀ {h v}, (piece item).value h = some v →
      Copied h (piece item) (copy h item).2 (piece (copy h item).1))
    (filled : Filled wrap zero piece h₀ done (item :: rest) vs h)
    (stands : (piece item).value h₀ = some v) :
    Filled wrap zero piece h₀ (done ++ [(copy h item).1]) rest (vs ++ [v])
      ((copy h item).2.set h₀.length
        (wrap (done ++ [(copy h item).1] ++ rest.map fun _ => zero))) := by
  have inside : h₀.length < h.length := (List.getElem?_eq_some_iff.1 filled.array).1
  have here := ((piece item).keep stands filled.keeps).1
  have copied := copies here
  -- The array is written; every copy is elsewhere.
  have written : ∀ {x : Piece κ γ} {w : γ} (cell : κ), Beyond h₀.length (copy h item).2 x w →
      Beyond h₀.length ((copy h item).2.set h₀.length cell) x w := by
    intro x w cell beyond
    exact beyond.of_same fun a member => List.getElem?_set_ne (Nat.ne_of_lt (beyond.2 a member))
  refine ⟨?_, ?_, ?_⟩
  · exact (filled.keeps.trans copied.keeps (Nat.le_of_lt inside)).trans
      (keeps_set _ _ (Nat.le_refl _)) (Nat.le_refl _)
  · exact List.getElem?_set_self (Nat.lt_of_lt_of_le inside copied.keeps.grows)
  · refine List.rel_append (filled.copies.imp fun b w old => ?_) (.cons ?_ .nil)
    · exact written _ (old.of_same fun a member =>
        copied.keeps.same a ((piece b).inside old.1 a member))
    · exact written _ ⟨copied.same.trans here, fun a member =>
        Nat.lt_of_lt_of_le inside (copied.fresh a member)⟩

/-- The loop fills the array. -/
theorem filled_copyInto (copy : Heap κ → β → β × Heap κ)
    (copies : ∀ {h item v}, (piece item).value h = some v →
      Copied h (piece item) (copy h item).2 (piece (copy h item).1))
    {h₀ h : Heap κ} {done rest : List β} {vs ws : List γ}
    (filled : Filled wrap zero piece h₀ done rest vs h)
    (stand : List.Forall₂ (fun b v => (piece b).value h₀ = some v) rest ws) :
    ∃ all, Filled wrap zero piece h₀ all [] (vs ++ ws)
      (copyInto wrap zero copy h₀.length done rest h) := by
  induction stand generalizing done vs h with
  | nil => exact ⟨done, by simpa [copyInto] using filled⟩
  | @cons item v rest ws here later ih =>
      have next := filled.step copy copies here
      obtain ⟨all, full⟩ := ih next
      exact ⟨all, by simpa [copyInto] using full⟩

theorem copySlice_copied (copy : Heap κ → β → β × Heap κ) {view : κ → Option (List β)}
    {h : Heap κ} {p : Option Addr} {v : Option (List γ)}
    (wrapped : ∀ items, view (wrap items) = some items)
    (copies : ∀ {h item v}, (piece item).value h = some v →
      Copied h (piece item) (copy h item).2 (piece (copy h item).1))
    (stands : (Piece.behind view p (.all piece)).value h = some v) :
    Copied h (.behind view p (.all piece)) (copySlice wrap zero copy view h p).2
      (.behind view (copySlice wrap zero copy view h p).1 (.all piece)) := by
  cases p with
  | none => exact ⟨.refl _ _, rfl, by simp [copySlice, Piece.behind, Piece.load, Piece.nilable,
      Piece.const]⟩
  | some a =>
      obtain ⟨b, leads, inner⟩ := Option.bind_eq_some_iff.1 stands
      obtain ⟨items, found, rfl⟩ := Option.map_eq_some_iff.1 leads
      obtain ⟨vs, values, rfl⟩ := Option.map_eq_some_iff.1 inner
      have start : Filled wrap zero piece h [] items [] (h ++ [wrap (items.map fun _ => zero)]) :=
        ⟨keeps_alloc _ _, by simp, .nil⟩
      obtain ⟨done, full⟩ := filled_copyInto copy copies start (Piece.all_eq_some.1 values)
      have made : copySlice wrap zero copy view h (some a) = (some h.length,
          copyInto wrap zero copy h.length [] items (h ++ [wrap (items.map fun _ => zero)])) := by
        simp [copySlice, found]
      rw [made]
      generalize copyInto wrap zero copy h.length [] items
        (h ++ [wrap (items.map fun _ => zero)]) = h' at full ⊢
      have array : Piece.load view h' (some h.length) = some (some done) := by
        simp [Piece.load, full.array, wrapped]
      obtain ⟨fresh, values⟩ := (List.forall₂_and_left _ _).1 (full.copies.imp fun b v => And.symm)
      refine ⟨full.keeps, ?_, ?_⟩
      · have copied : (Piece.all piece done).value h' = some vs := Piece.all_eq_some.2 values
        rw [stands]
        simp only [Piece.behind, array, Option.bind_some, Piece.nilable, Piece.map, copied,
          Option.map_some]
      · simp only [Piece.behind, array, Option.map_some, Option.getD_some, Piece.nilable, Piece.map,
          Piece.addrs_all, Option.toList_some]
        refine List.forall_mem_append.2 ⟨by simp, fun a member => ?_⟩
        obtain ⟨b, inside, address⟩ := List.mem_flatMap.1 member
        exact Nat.le_of_lt (fresh b inside a address)

end CopySlice

end KubeAutopsy.Theory.Heaps
