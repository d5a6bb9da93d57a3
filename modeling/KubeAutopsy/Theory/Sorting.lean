/-
# KubeAutopsy.Theory.Sorting — a sort that is not stable

`sort.Slice` promises a permutation in which no element is less than one before
it, and nothing about ties.  A `SortSlice less` is one way to keep that promise;
code that sorts takes one as a parameter, and a statement over every `SortSlice`
is a statement about whatever order the library leaves ties in.
-/
import Mathlib.Data.List.Sort

namespace KubeAutopsy.Theory.Sorting

set_option autoImplicit false

/-- A sort by `less`, with its promise. -/
structure SortSlice {α : Type} (less : α → α → Bool) where
  sort : List α → List α
  perm : ∀ l, (sort l).Perm l
  sorted : ∀ l, (sort l).Pairwise fun a b => less b a = false

variable {α : Type} {less : α → α → Bool}

theorem SortSlice.mem_sort (s : SortSlice less) {a : α} {l : List α} : a ∈ s.sort l ↔ a ∈ l :=
  (s.perm l).mem_iff

/-- Insertion sort is one, for any comparison of an integer rank. -/
def SortSlice.ofRank (rank : α → Int) (agrees : ∀ a b, less a b = decide (rank a < rank b)) :
    SortSlice less where
  sort l := l.insertionSort fun a b => rank a ≤ rank b
  perm l := List.perm_insertionSort _ l
  sorted l := by
    have total : Std.Total fun a b : α => rank a ≤ rank b := ⟨fun a b => le_total (rank a) (rank b)⟩
    have trans : IsTrans α fun a b => rank a ≤ rank b := ⟨fun a b c => le_trans⟩
    refine (List.pairwise_insertionSort _ l).imp fun below => ?_
    rw [agrees, decide_eq_false_iff_not]
    exact not_lt.2 below

end KubeAutopsy.Theory.Sorting
