/-
# KubeAutopsy.Theory.Refinement — programs that follow a machine

A machine says what an operation and its answer make of a state.  `Refines step final q p`
says that from the state `q` on, every operation the program `p` performs is a step of the
machine, whatever it is answered, and that it ends in a state within `final`.  It is defined
by recursion over the program, with a rule for each constructor and one for sequencing
(`refines_bind`).

A program is walked once, to show that it refines its machine; the machine of a program is
put together of those of its parts (`Refines.lift`).  What holds of its logs is then an
invariant of the machine (`Ran.invariant`), one case for each kind of step:

* a scheduler that performs one operation at a time keeps `Tracks` (`Tracks.next`);
* a run against a handler ends in a state the machine has come to (`Tracks.interp`);
* a contract whose guarantees follow from an invariant of the machine is met
  (`Refines.meets`).
-/
import KubeAutopsy.Theory.Program

namespace KubeAutopsy.Theory.Refinement

open KubeAutopsy.Theory.Program

set_option autoImplicit false

variable {Op : Type} {Resp : Op → Type} {σ α β : Type}

/-- What an operation and its answer make of a state. -/
abbrev Machine (Op : Type) (Resp : Op → Type) (σ : Type) := σ → Entry Op Resp → σ → Prop

/-- The operations of the log, newest first, take the machine from `start` to the state. -/
inductive Ran (step : Machine Op Resp σ) (start : σ) : List (Entry Op Resp) → σ → Prop
  | nil : Ran step start [] start
  | cons {log : List (Entry Op Resp)} {q q' : σ} {e : Entry Op Resp} (ran : Ran step start log q)
      (moved : step q e q') : Ran step start (e :: log) q'

/-- The judgement of the module header. -/
def Refines (step : Machine Op Resp σ) (final : σ → α → Prop) : σ → Prog Op Resp α → Prop
  | q, .pure a => final q a
  | q, .op o k => ∀ r, ∃ q', step q ⟨o, r⟩ q' ∧ Refines step final q' (k r)

/-- The log has taken the machine to a state from which the rest of the program refines it. -/
def Tracks (step : Machine Op Resp σ) (start : σ) (final : σ → α → Prop)
    (log : List (Entry Op Resp)) (p : Prog Op Resp α) : Prop :=
  ∃ q, Ran step start log q ∧ Refines step final q p

variable {step : Machine Op Resp σ} {start q : σ} {final : σ → α → Prop}
  {log : List (Entry Op Resp)}

section Ran

theorem Ran.invariant {I : List (Entry Op Resp) → σ → Prop} (ran : Ran step start log q)
    (starts : I [] start)
    (keeps : ∀ log q e q', I log q → step q e q' → I (e :: log) q') : I log q := by
  induction ran with
  | nil => exact starts
  | cons ran moved ih => exact keeps _ _ _ _ ih moved

/-- Where the machine was when an entry of the log was made. -/
theorem Ran.of_mem {e : Entry Op Resp} (ran : Ran step start log q) (member : e ∈ log) :
    ∃ before q q', e :: before <:+ log ∧ Ran step start before q ∧ step q e q' := by
  induction ran with
  | nil => cases member
  | cons ran moved ih =>
      rcases List.mem_cons.1 member with rfl | inside
      · exact ⟨_, _, _, List.suffix_refl _, ran, moved⟩
      · obtain ⟨before, q, q', suffix, there⟩ := ih inside
        exact ⟨before, q, q', suffix.trans (List.suffix_cons _ _), there⟩

end Ran

section Refines

@[simp] theorem refines_pure (a : α) :
    Refines step final q (Pure.pure a : Prog Op Resp α) ↔ final q a := Iff.rfl

theorem refines_perform_bind {o : Op} {f : Resp o → Prog Op Resp α} :
    Refines step final q (perform o >>= f) ↔
      ∀ r, ∃ q', step q ⟨o, r⟩ q' ∧ Refines step final q' (f r) := Iff.rfl

/-- Sequencing: the rest of the program is part of what the first half ends in. -/
theorem refines_bind {p : Prog Op Resp α} {f : α → Prog Op Resp β} {final : σ → β → Prop} :
    Refines step final q (p >>= f) ↔ Refines step (fun q a => Refines step final q (f a)) q p := by
  induction p generalizing q with
  | pure a => rfl
  | op o k ih =>
      simp only [Prog.op_bind, Refines]
      exact forall_congr' fun r => exists_congr fun q' => and_congr_right fun _ => ih r

theorem Refines.mono {p : Prog Op Resp α} {final' : σ → α → Prop} (refines : Refines step final q p)
    (ends : ∀ q a, final q a → final' q a) : Refines step final' q p := by
  induction p generalizing q with
  | pure a => exact ends q a refines
  | op o k ih =>
      intro r
      obtain ⟨q', moved, rest⟩ := refines r
      exact ⟨q', moved, ih r rest⟩

/-- A part of a machine, with its states as those of the whole. -/
theorem Refines.lift {τ : Type} {step' : Machine Op Resp τ} {p : Prog Op Resp α} (f : σ → τ)
    (refines : Refines step final q p) (lifts : ∀ q e q', step q e q' → step' (f q) e (f q')) :
    Refines step' (fun t a => ∃ q, t = f q ∧ final q a) (f q) p := by
  induction p generalizing q with
  | pure a => exact ⟨q, rfl, refines⟩
  | op o k ih =>
      intro r
      obtain ⟨q', moved, rest⟩ := refines r
      exact ⟨f q', lifts _ _ _ moved, ih r rest⟩

/-- A contract is met if its guarantees follow from an invariant of the machine that every
answer within the rely keeps. -/
theorem Refines.meets [∀ o, Nonempty (Resp o)] {p : Prog Op Resp α} {c : Contract Op Resp}
    {post : List (Entry Op Resp) → α → Prop} {I : List (Entry Op Resp) → σ → Prop}
    (refines : Refines step final q p) (start : I log q)
    (keeps : ∀ log q o r q', I log q → step q ⟨o, r⟩ q' →
      c.guarantee log o ∧ (c.rely log o r → I (⟨o, r⟩ :: log) q'))
    (ends : ∀ log q a, I log q → final q a → post log a) : Meets c post log p := by
  induction p generalizing log q with
  | pure a => exact ends log q a start refines
  | op o k ih =>
      obtain ⟨r⟩ := ‹∀ o, Nonempty (Resp o)› o
      obtain ⟨q', moved, -⟩ := refines r
      refine ⟨(keeps log q o r q' start moved).1, fun r within => ?_⟩
      obtain ⟨q', moved, rest⟩ := refines r
      exact ih r rest ((keeps log q o r q' start moved).2 within)

end Refines

section Tracks

theorem tracks_start {p : Prog Op Resp α} (refines : Refines step final start p) :
    Tracks step start final [] p :=
  ⟨start, .nil, refines⟩

theorem Tracks.next {o : Op} {k : Resp o → Prog Op Resp α}
    (tracks : Tracks step start final log (.op o k)) (r : Resp o) :
    Tracks step start final (⟨o, r⟩ :: log) (k r) := by
  obtain ⟨q, ran, refines⟩ := tracks
  obtain ⟨q', moved, rest⟩ := refines r
  exact ⟨q', ran.cons moved, rest⟩

/-- However the rest of the program is answered, it ends, and in `final`. -/
theorem Tracks.interp {τ : Type} {h : (o : Op) → τ → Resp o × τ} {p : Prog Op Resp α}
    (tracks : Tracks step start final log p) (s : τ) :
    ∃ q, Ran step start (p.interp h log s).2.1 q ∧ final q (p.interp h log s).1 := by
  induction p generalizing log s with
  | pure a => exact tracks
  | op o k ih => exact ih _ (tracks.next _) _

end Tracks

end KubeAutopsy.Theory.Refinement
