/-
# KubeAutopsy.Agent.Cooldown — one report per container and window

`reportCooldown` of `internal/agent/agent.go`.  The map is its lookup function: a key
that is not in it has no time.  Everything `allow` does is done under the mutex, so a
call is one step.

`Tracks` says what the map knows of the calls it allowed: its entries are such calls, and
a call that has no entry any more is at least the window old.  So eviction never changes
a decision (`Tracks.refuses_iff`), and a whole sequence of calls is decided as by a ledger
that forgets nothing (`allow_spaced`).
-/
import KubeAutopsy.Theory.Bytes
import KubeAutopsy.Theory.Clock
import KubeAutopsy.Theory.Spacing

namespace KubeAutopsy.Agent

open KubeAutopsy.Theory.Bytes (GoString lit)
open KubeAutopsy.Theory.Clock
open KubeAutopsy.Theory.Spacing

set_option autoImplicit false

structure ReportCooldown where
  window : Int
  last : GoString → Option Int

def newReportCooldown (window : Int) : ReportCooldown := ⟨window, fun _ => none⟩

namespace ReportCooldown

/-- The entries that have not aged out. -/
def evict (c : ReportCooldown) (now : Int) : GoString → Option Int :=
  fun k => (c.last k).filter fun seen => !decide (sub now seen ≥ c.window)

/-- Whether a crash for `key` should produce a report now, and the cooldown afterwards. -/
def allow (c : ReportCooldown) (key : GoString) (now : Int) : Bool × ReportCooldown :=
  if c.window ≤ 0 then (true, c)
  else if (c.last key).any fun seen => decide (sub now seen < c.window) then (false, c)
  else (true, { c with last := Function.update (c.evict now) key (some now) })

section Allow

variable {c : ReportCooldown} {key : GoString} {now : Int}

theorem allow_false (refused : (c.allow key now).1 = false) :
    (c.allow key now).2 = c ∧ ∃ seen, c.last key = some seen ∧ sub now seen < c.window := by
  unfold allow at refused ⊢
  split at refused
  · cases refused
  · rename_i positive
    split at refused
    · rename_i recent
      obtain ⟨seen, found, young⟩ := (Option.any_eq_true _ _).1 recent
      simp only [positive, if_false, recent, if_true, true_and]
      exact ⟨seen, found, of_decide_eq_true young⟩
    · cases refused

/-- An allowed call of a cooldown with a window. -/
theorem allow_true (positive : 0 < c.window) (allowed : (c.allow key now).1 = true) :
    (∀ seen, c.last key = some seen → c.window ≤ sub now seen) ∧
      (c.allow key now).2 = { c with last := Function.update (c.evict now) key (some now) } := by
  unfold allow at allowed ⊢
  rw [if_neg (by omega)] at allowed ⊢
  split at allowed
  · cases allowed
  · rename_i old
    rw [if_neg old]
    refine ⟨fun seen found => ?_, rfl⟩
    simpa [found] using old

theorem allow_off (off : c.window ≤ 0) : c.allow key now = (true, c) := if_pos off

theorem allow_window : (c.allow key now).2.window = c.window := by
  unfold allow
  split
  · rfl
  · split <;> rfl

end Allow

/-- What a cooldown knows at `now` of the calls it has allowed. -/
structure Tracks (c : ReportCooldown) (allowed : List (GoString × Int)) (now : Int) : Prop where
  past : ∀ call ∈ allowed, call.2 ≤ now
  entry : ∀ key seen, c.last key = some seen → (key, seen) ∈ allowed
  aged : ∀ call ∈ allowed, c.window ≤ sub now call.2 ∨
    ∃ seen, c.last call.1 = some seen ∧ call.2 ≤ seen

namespace Tracks

variable {c : ReportCooldown} {calls : List (GoString × Int)} {key : GoString} {now later : Int}

theorem fresh (window now : Int) : Tracks (newReportCooldown window) [] now :=
  ⟨fun _ member => absurd member List.not_mem_nil, fun _ _ found => (nomatch found),
    fun _ member => absurd member List.not_mem_nil⟩

theorem mono (tracks : Tracks c calls now) (le : now ≤ later) : Tracks c calls later := by
  refine ⟨fun call member => (tracks.past call member).trans le, tracks.entry, fun call member => ?_⟩
  exact (tracks.aged call member).imp_left fun old => old.trans (sub_mono le)

/-- Which calls were allowed matters, not in which order. -/
theorem congr {calls' : List (GoString × Int)} (tracks : Tracks c calls now)
    (same : ∀ call, call ∈ calls' ↔ call ∈ calls) : Tracks c calls' now :=
  ⟨fun call member => tracks.past call ((same call).1 member),
    fun key seen found => (same _).2 (tracks.entry key seen found),
    fun call member => tracks.aged call ((same call).1 member)⟩

/-- **A call is refused exactly within the window of one that was allowed.** -/
theorem refuses_iff (tracks : Tracks c calls now) :
    (c.allow key now).1 = false ↔ ∃ t, (key, t) ∈ calls ∧ sub now t < c.window := by
  constructor
  · intro refused
    obtain ⟨-, seen, found, young⟩ := allow_false refused
    exact ⟨seen, tracks.entry key seen found, young⟩
  · rintro ⟨t, member, young⟩
    have positive : 0 < c.window := by
      have past := tracks.past _ member
      unfold sub minDuration maxDuration at young
      dsimp only at past
      omega
    rcases tracks.aged _ member with old | ⟨seen, found, le⟩
    · dsimp only at old
      omega
    · cases decision : (c.allow key now).1 with
      | false => rfl
      | true =>
          have old := (allow_true positive decision).1 seen found
          have closer := sub_anti (t := now) le
          dsimp only at closer
          omega

theorem refused (tracks : Tracks c calls now) (decision : (c.allow key now).1 = false) :
    Tracks (c.allow key now).2 calls now := by
  rwa [(allow_false decision).1]

theorem allowed (tracks : Tracks c calls now) (decision : (c.allow key now).1 = true) :
    Tracks (c.allow key now).2 ((key, now) :: calls) now := by
  have zero : sub now now = 0 := by
    unfold sub minDuration maxDuration
    omega
  rcases lt_or_ge 0 c.window with positive | off
  · obtain ⟨old, after⟩ := allow_true positive decision
    rw [after]
    refine ⟨List.forall_mem_cons.2 ⟨le_refl now, tracks.past⟩, fun k seen found => ?_, ?_⟩
    · by_cases here : k = key
      · subst here
        simp only [Function.update_self, Option.some.injEq] at found
        subst found
        exact List.mem_cons_self
      · simp only [Function.update_of_ne here, evict, Option.filter_eq_some_iff] at found
        exact List.mem_cons_of_mem _ (tracks.entry k seen found.1)
    · refine List.forall_mem_cons.2 ⟨.inr ⟨now, by simp, le_refl now⟩, fun call member => ?_⟩
      rcases tracks.aged call member with aged | ⟨seen, found, le⟩
      · exact .inl aged
      -- The entry that stood for the call was evicted, replaced, or is still there.
      by_cases young : sub now seen < c.window
      · refine .inr ⟨seen, ?_, le⟩
        have other : call.1 ≠ key := by
          rintro rfl
          have := old seen found
          omega
        simp [Function.update_of_ne other, evict, found, young]
      · exact .inl ((not_lt.1 young).trans (sub_anti le))
  · rw [allow_off off]
    refine ⟨List.forall_mem_cons.2 ⟨le_refl now, tracks.past⟩, fun k seen found => ?_, ?_⟩
    · exact List.mem_cons_of_mem _ (tracks.entry k seen found)
    · exact List.forall_mem_cons.2 ⟨.inl (by dsimp only; omega), tracks.aged⟩

end Tracks

/-! ## Sequences of calls -/

/-- The cooldown after a sequence of calls. -/
def after (c : ReportCooldown) (calls : List (GoString × Int)) : ReportCooldown :=
  calls.foldl (fun c call => (c.allow call.1 call.2).2) c

/-- The calls of a sequence that are allowed. -/
def granted (c : ReportCooldown) : List (GoString × Int) → List (GoString × Int)
  | [] => []
  | call :: calls =>
      if (c.allow call.1 call.2).1 then call :: (c.allow call.1 call.2).2.granted calls
      else (c.allow call.1 call.2).2.granted calls

section Sequence

variable {c : ReportCooldown} {ledger calls : List (GoString × Int)} {now : Int}

/-- One call is decided as by the ledger. -/
theorem Tracks.decides {key : GoString} (tracks : Tracks c ledger now) (positive : 0 < c.window)
    (range : c.window ≤ maxDuration) :
    (c.allow key now).1 = true ↔ ∀ t, (key, t) ∈ ledger → ¬ now - t < c.window := by
  have short : ∀ t, sub now t < c.window ↔ now - t < c.window := fun t =>
    sub_lt_iff (by unfold minDuration; omega) range
  rw [← Bool.not_eq_false, tracks.refuses_iff]
  simp only [short, not_exists, not_and]

/-- **The map simulates the ledger** of everything that was allowed. -/
theorem Tracks.simulates (tracks : Tracks c ledger now) (positive : 0 < c.window)
    (range : c.window ≤ maxDuration) (ordered : calls.Pairwise fun a b => a.2 ≤ b.2)
    (from_ : ∀ call ∈ calls, now ≤ call.2) :
    c.granted calls = admitted c.window ledger calls ∧ (c.after calls).window = c.window ∧
      ∀ later, now ≤ later → (∀ call ∈ calls, call.2 ≤ later) →
        Tracks (c.after calls) (ledger ++ c.granted calls) later := by
  induction calls generalizing c ledger now with
  | nil =>
      refine ⟨rfl, rfl, fun later past _ => ?_⟩
      simpa [granted, after] using tracks.mono past
  | cons call calls ih =>
      obtain ⟨first, rest⟩ := List.pairwise_cons.1 ordered
      have here : Tracks c ledger call.2 := tracks.mono (from_ call List.mem_cons_self)
      have window : (c.allow call.1 call.2).2.window = c.window := allow_window
      have decision : (c.allow call.1 call.2).1 = admits c.window ledger call := by
        rw [Bool.eq_iff_iff, here.decides positive range, admits_iff]
        simp only [not_lt]
      rw [granted, admitted, ← decision]
      by_cases allowed : (c.allow call.1 call.2).1 = true
      · have next : Tracks (c.allow call.1 call.2).2 (ledger ++ [call]) call.2 :=
          (here.allowed allowed).congr fun other => by simp [or_comm]
        obtain ⟨same, kept, tracked⟩ := ih next (by omega) (by omega) rest first
        rw [if_pos allowed, if_pos allowed]
        refine ⟨by rw [same, window], kept.trans window, fun later _ until_ => ?_⟩
        obtain ⟨passed, others⟩ := List.forall_mem_cons.1 until_
        have := tracked later passed others
        rwa [List.append_assoc, List.singleton_append] at this
      · have next := here.refused (by simpa using allowed)
        obtain ⟨same, kept, tracked⟩ := ih next (by omega) (by omega) rest first
        rw [if_neg allowed, if_neg allowed]
        refine ⟨by rw [same, window], kept.trans window, fun later _ until_ => ?_⟩
        obtain ⟨passed, others⟩ := List.forall_mem_cons.1 until_
        exact tracked later passed others

/-- From the start there is nothing in either. -/
theorem simulates_fresh {window : Int} (positive : 0 < window) (range : window ≤ maxDuration)
    (ordered : calls.Pairwise fun a b => a.2 ≤ b.2) :
    (newReportCooldown window).granted calls = admitted window [] calls ∧
      ((newReportCooldown window).after calls).window = window ∧
      ∀ later, (∀ call ∈ calls, call.2 ≤ later) →
        Tracks ((newReportCooldown window).after calls) ((newReportCooldown window).granted calls)
          later := by
  cases calls with
  | nil => exact ⟨rfl, rfl, fun later _ => Tracks.fresh window later⟩
  | cons call calls =>
      have from_ : ∀ other ∈ call :: calls, call.2 ≤ other.2 :=
        List.forall_mem_cons.2 ⟨Int.le_refl _, (List.pairwise_cons.1 ordered).1⟩
      obtain ⟨same, kept, tracked⟩ :=
        (Tracks.fresh window call.2).simulates positive range ordered from_
      exact ⟨same, kept, fun later until_ => tracked later (until_ call List.mem_cons_self) until_⟩

theorem granted_snoc (c : ReportCooldown) (calls : List (GoString × Int)) (call : GoString × Int) :
    c.granted (calls ++ [call]) =
      c.granted calls ++ if ((c.after calls).allow call.1 call.2).1 then [call] else [] := by
  induction calls generalizing c with
  | nil => rfl
  | cons first calls ih =>
      rw [List.cons_append, granted, granted]
      split
      · rw [ih, List.cons_append]
        rfl
      · exact ih _

/-- Without a window every call is allowed. -/
theorem granted_off (off : c.window ≤ 0) (calls : List (GoString × Int)) : c.granted calls = calls := by
  induction calls with
  | nil => rfl
  | cons call calls ih => rw [granted, allow_off off, if_pos rfl, ih]

/-- After an allowed call the map holds the last allowed call of every key that has one
within the window, and nothing else. -/
theorem Tracks.holds {key : GoString} (tracks : Tracks c ledger now) (positive : 0 < c.window)
    (range : c.window ≤ maxDuration) (allowed : (c.allow key now).1 = true)
    (ordered : (ledger ++ [(key, now)]).Pairwise fun a b => a.2 ≤ b.2) (k : GoString) (t : Int) :
    (c.allow key now).2.last k = some t ↔
      lastOf k (ledger ++ [(key, now)]) = some t ∧ now - t < c.window := by
  have next : Tracks (c.allow key now).2 (ledger ++ [(key, now)]) now :=
    (tracks.allowed allowed).congr fun other => by simp [or_comm]
  have window : (c.allow key now).2.window = c.window := allow_window
  have short : ∀ t, sub now t < c.window ↔ now - t < c.window := fun t =>
    sub_lt_iff (by unfold minDuration; omega) range
  -- Eviction leaves nothing that is as old as the window.
  have young : ∀ t, (c.allow key now).2.last k = some t → sub now t < c.window := by
    intro t found
    rw [(allow_true positive allowed).2] at found
    by_cases here : k = key
    · subst here
      simp only [Function.update_self, Option.some.injEq] at found
      rw [short]
      omega
    · simp only [Function.update_of_ne here, evict, Option.filter_eq_some_iff] at found
      simpa using found.2
  rw [lastOf_eq_some_iff ordered, ← short]
  constructor
  · intro found
    refine ⟨⟨next.entry k t found, fun u called => ?_⟩, young t found⟩
    rcases next.aged (k, u) called with old | ⟨seen, entry, le⟩
    · by_contra newer
      have closer := sub_anti (t := now) (Int.le_of_lt (Int.not_le.1 newer))
      have := young t found
      dsimp only at old
      omega
    · rw [found, Option.some.injEq] at entry
      exact entry ▸ le
  · rintro ⟨⟨called, upper⟩, recent⟩
    rcases next.aged (k, t) called with old | ⟨seen, entry, le⟩
    · dsimp only at old
      omega
    · rw [entry, Option.some.injEq]
      exact Int.le_antisymm (upper seen (next.entry k seen entry)) le

end Sequence

/-- **A cooldown forgets without a trace.**  In a sequence of calls at non-decreasing times
each call is allowed exactly if no allowed call of its key is less than the window ago, and
an allowed call leaves in the map the last allowed call of every key that has one within
the window; allowed calls of one key are at least the window apart, and they depend on the
calls of that key alone.  Without a window every call is allowed. -/
theorem allow_spaced (window : Int) (range : window ≤ maxDuration) (calls : List (GoString × Int))
    (ordered : calls.Pairwise fun a b => a.2 ≤ b.2) :
    (0 < window →
      (∀ before key now rest, calls = before ++ (key, now) :: rest →
        ((((newReportCooldown window).after before).allow key now).1 = true ↔
          ∀ t, (key, t) ∈ (newReportCooldown window).granted before → ¬ now - t < window) ∧
        ((((newReportCooldown window).after before).allow key now).1 = true →
          ∀ k t, (((newReportCooldown window).after before).allow key now).2.last k = some t ↔
            lastOf k ((newReportCooldown window).granted (before ++ [(key, now)])) = some t ∧
              now - t < window)) ∧
      ((newReportCooldown window).granted calls).Pairwise (Apart window) ∧
      ∀ key, ((newReportCooldown window).granted calls).filter (fun call => call.1 = key) =
        (newReportCooldown window).granted (calls.filter fun call => call.1 = key)) ∧
    (window ≤ 0 → (newReportCooldown window).granted calls = calls) := by
  refine ⟨fun positive => ⟨?_, ?_, ?_⟩, fun off => granted_off off calls⟩
  · rintro before key now rest rfl
    have past : ∀ call ∈ before, call.2 ≤ now := fun call member =>
      (List.pairwise_append.1 ordered).2.2 call member (key, now) List.mem_cons_self
    have front : before.Pairwise fun a b => a.2 ≤ b.2 := (List.pairwise_append.1 ordered).1
    obtain ⟨same, kept, tracked⟩ := simulates_fresh positive range front
    have tracks := tracked now past
    have next := granted_snoc (newReportCooldown window) before (key, now)
    have sorted : ((newReportCooldown window).granted before ++ [(key, now)]).Pairwise
        fun a b => a.2 ≤ b.2 := by
      rw [same]
      refine List.Pairwise.sublist ?_ ordered
      exact (admitted_sublist [] before).append (List.singleton_sublist.2 List.mem_cons_self)
    generalize (newReportCooldown window).after before = c at kept tracks next
    subst kept
    refine ⟨?_, fun allowed k t => ?_⟩
    · exact tracks.decides positive range
    · rw [next, if_pos allowed]
      exact tracks.holds positive range allowed sorted k t
  · rw [(simulates_fresh positive range ordered).1]
    exact admitted_apart List.Pairwise.nil calls
  · intro key
    rw [(simulates_fresh positive range ordered).1, admitted_filter,
      (simulates_fresh positive range (ordered.filter _)).1]
    rfl

/-- Two containers, one of which is killed again too early and again exactly on time. -/
def twoContainers : List (GoString × Int) :=
  [(lit "c0ffee", 0), (lit "decaf0", second), (lit "c0ffee", 10 * second), (lit "c0ffee", 30 * second)]

theorem allow_spaced_twoContainers :
    (newReportCooldown (30 * second)).granted twoContainers =
        [(lit "c0ffee", 0), (lit "decaf0", second), (lit "c0ffee", 30 * second)] ∧
      ((newReportCooldown (30 * second)).granted twoContainers).Pairwise (Apart (30 * second)) := by
  refine ⟨by decide +kernel, ?_⟩
  exact ((allow_spaced (30 * second) (by decide) twoContainers (by decide +kernel)).1 (by decide)).2.1

end ReportCooldown

end KubeAutopsy.Agent
