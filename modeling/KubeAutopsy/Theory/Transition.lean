/-
# KubeAutopsy.Theory.Transition — labelled systems, their runs, what runs preserve

A `System` is a partial step function: the label says who moves and what the
environment answers, and `step s l = none` means that the label is not enabled
in `s`.  Everything a run can do is in the step function, so a safety claim is
two goals, the initial states and one step (`Reach.invariant`), and a claim that
compares an earlier state with a later one is a preorder that one step respects
(`Path.monotone`).

The guard `G` restricts the steps a run may take.  A system without restriction
uses `anyStep`; a claim about the runs that keep to a discipline names it.
-/
import Mathlib.Logic.Basic

namespace KubeAutopsy.Theory.Transition

set_option autoImplicit false

universe u v

/-- A labelled system: where a run may start and what each label does. -/
structure System (σ : Type u) (ℓ : Type v) where
  init : σ → Prop
  step : σ → ℓ → Option σ

/-- The guard that every step meets. -/
def anyStep {σ : Type u} {ℓ : Type v} : σ → ℓ → Prop := fun _ _ => True

variable {σ : Type u} {ℓ : Type v}

/-- `Path S G s t`: a finite run from `s` to `t`, every step of it within `G`. -/
inductive Path (S : System σ ℓ) (G : σ → ℓ → Prop) : σ → σ → Prop
  | refl (s : σ) : Path S G s s
  | snoc {s t u : σ} {l : ℓ} (run : Path S G s t) (within : G t l)
      (step : S.step t l = some u) : Path S G s u

/-- A state some run from an initial state reaches. -/
def Reach (S : System σ ℓ) (G : σ → ℓ → Prop) (s : σ) : Prop :=
  ∃ s₀, S.init s₀ ∧ Path S G s₀ s

variable {S : System σ ℓ} {G : σ → ℓ → Prop}

theorem Path.trans {s t u : σ} (first : Path S G s t) (second : Path S G t u) :
    Path S G s u := by
  induction second with
  | refl => exact first
  | snoc _ within step ih => exact .snoc ih within step

theorem Path.mono {H : σ → ℓ → Prop} {s t : σ} (run : Path S G s t)
    (weaker : ∀ s l, G s l → H s l) : Path S H s t := by
  induction run with
  | refl => exact .refl _
  | snoc _ within step ih => exact .snoc ih (weaker _ _ within) step

/-- What the start satisfies and every step keeps, the end satisfies. -/
theorem Path.invariant {I : σ → Prop} {s t : σ} (run : Path S G s t) (start : I s)
    (keeps : ∀ s l t, I s → G s l → S.step s l = some t → I t) : I t := by
  induction run with
  | refl => exact start
  | snoc _ within step ih => exact keeps _ _ _ ih within step

/-- A preorder that every step respects, under an invariant, orders the two ends
of a run. -/
theorem Path.monotone {I : σ → Prop} {R : σ → σ → Prop} {s t : σ} (run : Path S G s t)
    (start : I s) (keeps : ∀ s l t, I s → G s l → S.step s l = some t → I t)
    (refl : ∀ s, R s s) (trans : ∀ s t u, R s t → R t u → R s u)
    (step : ∀ s l t, I s → G s l → S.step s l = some t → R s t) : R s t := by
  induction run with
  | refl => exact refl _
  | snoc before within taken ih =>
      exact trans _ _ _ ih (step _ _ _ (before.invariant start keeps) within taken)

theorem Reach.extend {s t : σ} (reached : Reach S G s) (run : Path S G s t) : Reach S G t := by
  obtain ⟨s₀, start, before⟩ := reached
  exact ⟨s₀, start, before.trans run⟩

theorem Reach.mono {H : σ → ℓ → Prop} {s : σ} (reached : Reach S G s)
    (weaker : ∀ s l, G s l → H s l) : Reach S H s := by
  obtain ⟨s₀, start, run⟩ := reached
  exact ⟨s₀, start, run.mono weaker⟩

/-- **The invariant rule.**  What holds initially and is kept by every step holds
in every reachable state. -/
theorem Reach.invariant {I : σ → Prop} {s : σ} (reached : Reach S G s)
    (initial : ∀ s, S.init s → I s)
    (keeps : ∀ s l t, I s → G s l → S.step s l = some t → I t) : I s := by
  obtain ⟨s₀, start, run⟩ := reached
  exact run.invariant (initial s₀ start) keeps

/-- The invariant rule with what is already known of reachable states: a step may be
taken to start from one. -/
theorem Reach.induction {I : σ → Prop} {s : σ} (reached : Reach S G s)
    (initial : ∀ s, S.init s → I s)
    (keeps : ∀ s l t, Reach S G s → I s → G s l → S.step s l = some t → I t) : I s := by
  obtain ⟨s₀, start, run⟩ := reached
  induction run with
  | refl => exact initial s₀ start
  | snoc before within taken ih => exact keeps _ _ _ ⟨s₀, start, before⟩ ih within taken

/-! ## Concrete runs -/

/-- Take the labels one after another. -/
def run (S : System σ ℓ) : σ → List ℓ → Option σ
  | s, [] => some s
  | s, l :: rest =>
      match S.step s l with
      | some t => run S t rest
      | none => none

/-- Every step the labels take is within the guard. -/
def Within (S : System σ ℓ) (G : σ → ℓ → Prop) : σ → List ℓ → Prop
  | _, [] => True
  | s, l :: rest =>
      G s l ∧
        match S.step s l with
        | some t => Within S G t rest
        | none => True

instance Within.decidable (S : System σ ℓ) (G : σ → ℓ → Prop) [∀ s l, Decidable (G s l)] :
    ∀ (s : σ) (labels : List ℓ), Decidable (Within S G s labels)
  | _, [] => inferInstanceAs (Decidable True)
  | s, l :: rest =>
      have : Decidable (match S.step s l with
          | some t => Within S G t rest
          | none => True) :=
        match S.step s l with
        | some t => Within.decidable S G t rest
        | none => inferInstanceAs (Decidable True)
      inferInstanceAs (Decidable (_ ∧ _))

theorem path_of_run {s t : σ} {labels : List ℓ} (within : Within S G s labels)
    (ran : run S s labels = some t) : Path S G s t := by
  induction labels generalizing s with
  | nil =>
      cases ran
      exact .refl _
  | cons l rest ih =>
      obtain ⟨here, later⟩ := within
      simp only [run] at ran
      cases taken : S.step s l with
      | none => simp [taken] at ran
      | some u =>
          simp only [taken] at ran later
          exact (Path.snoc (.refl s) here taken).trans (ih later ran)

theorem within_anyStep (s : σ) (labels : List ℓ) : Within S anyStep s labels := by
  induction labels generalizing s with
  | nil => trivial
  | cons l rest ih =>
      refine ⟨trivial, ?_⟩
      cases S.step s l with
      | none => trivial
      | some t => exact ih t

theorem Within.mono {H : σ → ℓ → Prop} {s : σ} {labels : List ℓ} (within : Within S G s labels)
    (weaker : ∀ s l, G s l → H s l) : Within S H s labels := by
  induction labels generalizing s with
  | nil => trivial
  | cons l rest ih =>
      obtain ⟨here, later⟩ := within
      refine ⟨weaker s l here, ?_⟩
      cases taken : S.step s l with
      | none => trivial
      | some t =>
          rw [taken] at later
          exact ih later

/-- A guard that looks at the labels alone, beside another. -/
theorem Within.and_labels {A : ℓ → Prop} {s : σ} {labels : List ℓ} (all : ∀ l ∈ labels, A l)
    (within : Within S G s labels) : Within S (fun s l => A l ∧ G s l) s labels := by
  induction labels generalizing s with
  | nil => trivial
  | cons l rest ih =>
      obtain ⟨here, later⟩ := within
      refine ⟨⟨all l List.mem_cons_self, here⟩, ?_⟩
      cases taken : S.step s l with
      | none => trivial
      | some t =>
          rw [taken] at later
          exact ih (fun l member => all l (List.mem_cons_of_mem _ member)) later

/-- A concrete run from an initial state reaches its last state. -/
theorem reach_of_run {s t : σ} {labels : List ℓ} (start : S.init s)
    (ran : run S s labels = some t) : Reach S anyStep t :=
  ⟨s, start, path_of_run (within_anyStep s labels) ran⟩

/-- A concrete run that ends in `Q`, within a guard. -/
theorem exists_guarded {Q : σ → Prop} [DecidablePred Q] {s : σ} {labels : List ℓ} (start : S.init s)
    (within : Within S G s labels)
    (ran : ((run S s labels).any fun t => decide (Q t)) = true) : ∃ t, Reach S G t ∧ Q t := by
  simp only [Option.any_eq_true, decide_eq_true_eq] at ran
  obtain ⟨t, reaches, holds⟩ := ran
  exact ⟨t, ⟨s, start, path_of_run within reaches⟩, holds⟩

theorem exists_reached (labels : List ℓ) {Q : σ → Prop} [DecidablePred Q] {s : σ} (start : S.init s)
    (ran : ((run S s labels).any fun t => decide (Q t)) = true) : ∃ t, Reach S anyStep t ∧ Q t :=
  exists_guarded start (within_anyStep s labels) ran

end KubeAutopsy.Theory.Transition
