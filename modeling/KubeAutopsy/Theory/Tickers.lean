/-
# KubeAutopsy.Theory.Tickers — a ticker that drops what nobody takes

A ticker fires once per period.  A tick that fires while another one is waiting is dropped,
so a slow receiver finds one tick, not as many as it missed.  `elapse` moves the time on: it
is the runtime's own arithmetic, which skips the dropped ticks at once.  When the tick that is
taken next fires, or has fired, does not change while the time goes by (`due_elapse`).

`Armed` is what a ticker keeps: the next tick is ahead, by a period at most.  `Earned` counts
the other way round: the ticks that were taken, with the one that is waiting, are no more than
there were periods since the start, so whoever waits for ticks runs at most once a period.
-/
import Mathlib.Algebra.Order.Ring.Int
import Mathlib.Tactic.Linarith

namespace KubeAutopsy.Theory.Tickers

set_option autoImplicit false

structure Ticker where
  next : Int
  /-- The tick in the channel: the time it fired. -/
  waiting : Option Int
  deriving DecidableEq, Repr

namespace Ticker

variable (period : Int)

def start (now : Int) : Ticker := ⟨now + period, none⟩

def pending (tk : Ticker) : Bool := tk.waiting.isSome

/-- When the tick that is taken next fires, or has fired. -/
def due (tk : Ticker) : Int := tk.waiting.getD tk.next

/-- The time has come to be `now`. -/
def elapse (tk : Ticker) (now : Int) : Ticker :=
  if tk.next ≤ now then ⟨tk.next + period * (1 + (now - tk.next) / period), some tk.due⟩ else tk

/-- The tick that was waiting is taken. -/
def take (tk : Ticker) : Ticker := { tk with waiting := none }

/-- The next tick is ahead, by a period at most. -/
structure Armed (tk : Ticker) (now : Int) : Prop where
  ahead : now < tk.next
  soon : tk.next ≤ now + period

/-- `taken` ticks were taken since the start, and there was a period for each. -/
def Earned (tk : Ticker) (since : Int) (taken : Nat) : Prop :=
  since + period * (taken + 1 + if tk.pending then 1 else 0) ≤ tk.next

variable {period : Int} {tk : Ticker} {now : Int}

theorem elapse_of_lt (early : now < tk.next) : tk.elapse period now = tk :=
  if_neg (Int.not_le.2 early)

theorem pending_elapse :
    (tk.elapse period now).pending = (tk.pending || decide (tk.next ≤ now)) := by
  unfold elapse
  split
  · rename_i fired
    simp [pending, fired]
  · rename_i early
    simp [early]

/-- A tick that waits is not replaced by a later one. -/
theorem due_elapse : (tk.elapse period now).due = tk.due := by
  unfold elapse
  split <;> rfl

section Positive

variable (positive : 0 < period)
include positive

theorem armed_start (now : Int) : (start period now).Armed period now :=
  ⟨by simp only [start]; omega, Int.le_refl _⟩

/-- The fired ticks go beyond `now`, and the last of them not by a whole period. -/
theorem elapse_next (fired : tk.next ≤ now) :
    now < (tk.elapse period now).next ∧ (tk.elapse period now).next ≤ now + period ∧
      tk.next + period ≤ (tk.elapse period now).next := by
  have whole := Int.mul_ediv_add_emod (now - tk.next) period
  have least := Int.emod_nonneg (now - tk.next) (Int.ne_of_gt positive)
  have most := Int.emod_lt_of_pos (now - tk.next) positive
  have some_ : 0 ≤ (now - tk.next) / period :=
    Int.ediv_nonneg (by omega) (Int.le_of_lt positive)
  have product : 0 ≤ period * ((now - tk.next) / period) :=
    Int.mul_nonneg (Int.le_of_lt positive) some_
  simp only [elapse, if_pos fired, Int.mul_add, Int.mul_one]
  omega

theorem Armed.elapse {before : Int} (armed : tk.Armed period before) (later : before ≤ now) :
    (tk.elapse period now).Armed period now := by
  by_cases fired : tk.next ≤ now
  · obtain ⟨ahead, soon, -⟩ := elapse_next positive fired
    exact ⟨ahead, soon⟩
  · rw [elapse_of_lt (Int.not_le.1 fired)]
    exact ⟨Int.not_le.1 fired, armed.soon.trans (by omega)⟩

theorem Earned.elapse {since : Int} {taken : Nat} (earned : tk.Earned period since taken)
    (now : Int) : (tk.elapse period now).Earned period since taken := by
  by_cases fired : tk.next ≤ now
  · obtain ⟨-, -, more⟩ := elapse_next positive fired
    have waiting : (tk.elapse period now).pending = true := by
      rw [pending_elapse, decide_eq_true fired, Bool.or_true]
    unfold Earned at earned ⊢
    rw [if_pos waiting]
    have before : 0 ≤ period * (if tk.pending then 1 else 0 : Int) := by
      split
      · omega
      · omega
    simp only [Int.mul_add] at earned ⊢
    omega
  · rw [elapse_of_lt (Int.not_le.1 fired)]
    exact earned

end Positive

theorem earned_start (since : Int) : (start period since).Earned period since 0 := by
  simp [Earned, start, pending]

/-- A tick that is taken was waiting. -/
theorem Earned.take {since : Int} {taken : Nat} (earned : tk.Earned period since taken)
    (pending : tk.pending = true) : tk.take.Earned period since (taken + 1) := by
  unfold Earned at earned ⊢
  rw [if_pos pending] at earned
  simpa [Ticker.take, Ticker.pending] using earned

/-- **At most one tick is taken in a period.** -/
theorem Earned.bound {since : Int} {taken : Nat} (earned : tk.Earned period since taken)
    (armed : tk.Armed period now) (positive : 0 < period) : period * taken ≤ now - since := by
  have soon := armed.soon
  have waiting : 0 ≤ period * (if tk.pending then 1 else 0 : Int) := by
    split
    · omega
    · omega
  unfold Earned at earned
  simp only [Int.mul_add] at earned
  omega

end Ticker

/-! ## Instants that follow each other closely -/

/-- Of instants, newest first, that are at most `gap` apart, one is in every window of that
length that begins after the first of them and before the last. -/
theorem exists_mem_window {gap x latest first : Int} {earlier : List Int}
    (close : (latest :: earlier).IsChain fun later before => later ≤ before + gap)
    (ends : (latest :: earlier).getLast? = some first) (begun : first ≤ x) (reaches : x ≤ latest) :
    ∃ y ∈ latest :: earlier, x ≤ y ∧ y ≤ x + max 0 gap := by
  induction earlier generalizing latest with
  | nil =>
      obtain rfl : latest = first := by simpa using ends
      exact ⟨latest, List.mem_cons_self, reaches, by omega⟩
  | cons before rest ih =>
      obtain ⟨near, closeRest⟩ := List.isChain_cons_cons.1 close
      by_cases inside : x ≤ before
      · obtain ⟨y, member, window⟩ := ih closeRest (by simpa using ends) inside
        exact ⟨y, List.mem_cons_of_mem _ member, window⟩
      · exact ⟨latest, List.mem_cons_self, reaches, by omega⟩

end KubeAutopsy.Theory.Tickers
