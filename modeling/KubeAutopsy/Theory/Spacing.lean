/-
# KubeAutopsy.Theory.Spacing — calls of one key, a window apart

Calls have a key and a time.  A call is admitted if no admitted call of its key is less than
the window ago.  The decision looks at the ledger of everything admitted before, which only
grows; that is what a limiter with a bounded memory is measured against.

What is admitted of one key depends on the calls of that key alone (`admitted_filter`), and
two admitted calls of one key are at least the window apart (`admitted_apart`).
-/
import Mathlib.Data.List.Sublists
import Mathlib.Algebra.Order.Ring.Int

namespace KubeAutopsy.Theory.Spacing

set_option autoImplicit false

variable {κ : Type} [DecidableEq κ] {window : Int}

/-- Whether a call is admitted, given those admitted before. -/
def admits (window : Int) (ledger : List (κ × Int)) (call : κ × Int) : Bool :=
  ledger.all fun earlier => decide (earlier.1 = call.1 → window ≤ call.2 - earlier.2)

/-- The calls that are admitted, given those admitted before. -/
def admitted (window : Int) : List (κ × Int) → List (κ × Int) → List (κ × Int)
  | _, [] => []
  | ledger, call :: calls =>
      if admits window ledger call then call :: admitted window (ledger ++ [call]) calls
      else admitted window ledger calls

theorem admits_iff {ledger : List (κ × Int)} {call : κ × Int} :
    admits window ledger call = true ↔ ∀ t, (call.1, t) ∈ ledger → window ≤ call.2 - t := by
  simp only [admits, List.all_eq_true, decide_eq_true_eq]
  constructor
  · intro all t member
    exact all (call.1, t) member rfl
  · rintro all ⟨key, t⟩ member rfl
    exact all t member

theorem admitted_sublist (ledger calls : List (κ × Int)) :
    (admitted window ledger calls).Sublist calls := by
  induction calls generalizing ledger with
  | nil => exact List.Sublist.slnil
  | cons call calls ih =>
      rw [admitted]
      split
      · exact (ih _).cons_cons call
      · exact (ih _).cons call

/-- Two calls of one key are at least the window apart. -/
def Apart (window : Int) (earlier later : κ × Int) : Prop :=
  earlier.1 = later.1 → window ≤ later.2 - earlier.2

/-- **Admitted calls of one key are at least the window apart.** -/
theorem admitted_apart {ledger : List (κ × Int)} (apart : ledger.Pairwise (Apart window))
    (calls : List (κ × Int)) : (ledger ++ admitted window ledger calls).Pairwise (Apart window) := by
  induction calls generalizing ledger with
  | nil => simpa [admitted] using apart
  | cons call calls ih =>
      rw [admitted]
      split
      · rename_i new
        have next : (ledger ++ [call]).Pairwise (Apart window) := by
          rw [List.pairwise_append]
          refine ⟨apart, List.pairwise_singleton _ _, ?_⟩
          rintro ⟨key, t⟩ member later last same
          obtain rfl := List.mem_singleton.1 last
          dsimp only at same
          subst same
          exact admits_iff.1 new t member
        have := ih next
        rwa [List.append_assoc, List.singleton_append] at this
      · exact ih apart

/-- **What is admitted of one key depends on its calls alone.** -/
theorem admitted_filter (key : κ) (ledger calls : List (κ × Int)) :
    (admitted window ledger calls).filter (fun call => call.1 = key) =
      admitted window (ledger.filter fun call => call.1 = key)
        (calls.filter fun call => call.1 = key) := by
  induction calls generalizing ledger with
  | nil => rfl
  | cons call calls ih =>
      by_cases own : call.1 = key
      · have same : admits window (ledger.filter fun call => call.1 = key) call =
            admits window ledger call := by
          rw [Bool.eq_iff_iff, admits_iff, admits_iff]
          simp [own]
        rw [List.filter_cons_of_pos (by simpa using own), admitted, admitted, same]
        split
        · rw [List.filter_cons_of_pos (by simpa using own), ih, List.filter_append,
            List.filter_cons_of_pos (by simpa using own), List.filter_nil]
        · exact ih ledger
      · -- A call of another key leaves no trace.
        rw [List.filter_cons_of_neg (by simpa using own), admitted]
        split
        · rw [List.filter_cons_of_neg (by simpa using own), ih, List.filter_append,
            List.filter_cons_of_neg (by simpa using own), List.filter_nil, List.append_nil]
        · exact ih ledger

/-! ## The last call of a key -/

/-- The time of the last call of a key. -/
def lastOf (key : κ) (calls : List (κ × Int)) : Option Int :=
  ((calls.filter fun call => call.1 = key).getLast?).map Prod.snd

/-- In calls in the order of their times, the last one of a key is the latest. -/
theorem lastOf_eq_some_iff {calls : List (κ × Int)} (ordered : calls.Pairwise fun a b => a.2 ≤ b.2)
    {key : κ} {t : Int} :
    lastOf key calls = some t ↔ (key, t) ∈ calls ∧ ∀ u, (key, u) ∈ calls → u ≤ t := by
  have sorted := ordered.filter fun call => decide (call.1 = key)
  have of_key : ∀ call, call ∈ calls.filter (fun call => call.1 = key) ↔
      call.1 = key ∧ call ∈ calls := by
    intro call
    rw [List.mem_filter, decide_eq_true_eq, and_comm]
  unfold lastOf
  generalize calls.filter (fun call => call.1 = key) = own at sorted of_key
  have latest : ∀ last, own.getLast? = some last →
      last.1 = key ∧ last ∈ calls ∧ ∀ u, (key, u) ∈ calls → u ≤ last.2 := by
    intro last found
    obtain ⟨front, rfl⟩ := List.getLast?_eq_some_iff.1 found
    obtain ⟨named, member⟩ := (of_key last).1 (by simp)
    refine ⟨named, member, ?_⟩
    intro u called
    rcases List.mem_append.1 ((of_key (key, u)).2 ⟨rfl, called⟩) with earlier | here
    · exact (List.pairwise_append.1 sorted).2.2 _ earlier last (by simp)
    · rw [← List.mem_singleton.1 here]
  constructor
  · intro found
    obtain ⟨⟨_, _⟩, last, rfl⟩ := Option.map_eq_some_iff.1 found
    obtain ⟨rfl, member, upper⟩ := latest _ last
    exact ⟨member, upper⟩
  · rintro ⟨member, upper⟩
    have some_ : own ≠ [] := List.ne_nil_of_mem ((of_key _).2 ⟨rfl, member⟩)
    have last := List.getLast?_eq_some_getLast some_
    obtain ⟨named, among, bound⟩ := latest _ last
    rw [last, Option.map_some, Option.some.injEq]
    refine Int.le_antisymm ?_ (bound t member)
    refine upper _ ?_
    rw [← named]
    exact among

end KubeAutopsy.Theory.Spacing
