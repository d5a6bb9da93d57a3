/-
# KubeAutopsy.Theory.Program — programs that talk to an environment

A `Prog` is a sequential program over operations `Op`: it either ends with a
value or performs an operation and goes on with the environment's answer.  It is
a well-founded tree, so a property of everything a program may do is defined by
recursion over it and no execution has to be unfolded to use it.

`Meets c post log p` is the one judgement: from the log of what has been
performed so far, as long as the answers stay within `c.rely`, every operation
`p` performs is within `c.guarantee` at the log it is performed at, and `p` can
only end in `post`.  It has a rule for each constructor and a sequencing rule
(`meets_bind`).  A scheduler that performs one operation at a time keeps `Follows`
at every step (`Follows.step`): the log so far is `Honest`, every operation in it
was within the guarantee and every answer within the rely, and what is left of the
program still meets the contract.  That is how the threads of an interleaved system
are covered.

`Prog.interp` runs a program to its end against a handler.
-/
import Mathlib.Data.List.Infix

namespace KubeAutopsy.Theory.Program

set_option autoImplicit false

/-- A sequential program over operations with typed answers. -/
inductive Prog (Op : Type) (Resp : Op → Type) (α : Type) where
  | pure (a : α)
  | op (o : Op) (k : Resp o → Prog Op Resp α)

/-- One performed operation and its answer. -/
structure Entry (Op : Type) (Resp : Op → Type) where
  op : Op
  resp : Resp op

/-- What a program may rely on in an answer and what it guarantees of an
operation, both at the log of what it performed before, newest first. -/
structure Contract (Op : Type) (Resp : Op → Type) where
  rely : List (Entry Op Resp) → (o : Op) → Resp o → Prop
  guarantee : List (Entry Op Resp) → Op → Prop

namespace Prog

variable {Op : Type} {Resp : Op → Type} {α β : Type}

def bind : Prog Op Resp α → (α → Prog Op Resp β) → Prog Op Resp β
  | .pure a, f => f a
  | .op o k, f => .op o fun r => (k r).bind f

instance : Monad (Prog Op Resp) where
  pure := .pure
  bind := .bind

@[simp] theorem op_bind (o : Op) (k : Resp o → Prog Op Resp α) (f : α → Prog Op Resp β) :
    (Prog.op o k >>= f) = .op o fun r => k r >>= f := rfl

/-- Whether the program has ended. -/
def ended : Prog Op Resp α → Bool
  | .pure _ => true
  | .op _ _ => false

end Prog

/-- Perform one operation and return its answer. -/
def perform {Op : Type} {Resp : Op → Type} (o : Op) : Prog Op Resp (Resp o) :=
  .op o .pure

section Meets

variable {Op : Type} {Resp : Op → Type} {α β : Type}

/-- The judgement of the module header. -/
def Meets (c : Contract Op Resp) (post : List (Entry Op Resp) → α → Prop) :
    List (Entry Op Resp) → Prog Op Resp α → Prop
  | log, .pure a => post log a
  | log, .op o k =>
      c.guarantee log o ∧ ∀ r, c.rely log o r → Meets c post (⟨o, r⟩ :: log) (k r)

variable {c d : Contract Op Resp} {post post' : List (Entry Op Resp) → α → Prop}
  {log : List (Entry Op Resp)}

@[simp] theorem meets_pure (a : α) :
    Meets c post log (Pure.pure a : Prog Op Resp α) ↔ post log a := Iff.rfl

/-- Sequencing: the rest of the program is part of the first half's postcondition. -/
theorem meets_bind {p : Prog Op Resp α} {f : α → Prog Op Resp β}
    {post : List (Entry Op Resp) → β → Prop} :
    Meets c post log (p >>= f) ↔ Meets c (fun log a => Meets c post log (f a)) log p := by
  induction p generalizing log with
  | pure a => rfl
  | op o k ih =>
      simp only [Prog.op_bind, Meets]
      exact and_congr_right fun _ => forall_congr' fun r => imp_congr_right fun _ => ih r

theorem meets_perform_bind {o : Op} {f : Resp o → Prog Op Resp β}
    {post : List (Entry Op Resp) → β → Prop} :
    Meets c post log (perform o >>= f) ↔
      c.guarantee log o ∧ ∀ r, c.rely log o r → Meets c post (⟨o, r⟩ :: log) (f r) := Iff.rfl

/-- Relying on more, guaranteeing less and ending in more keeps the judgement. -/
theorem Meets.mono {p : Prog Op Resp α} (met : Meets c post log p)
    (rely : ∀ log o r, d.rely log o r → c.rely log o r)
    (guarantee : ∀ log o, c.guarantee log o → d.guarantee log o)
    (ends : ∀ log a, post log a → post' log a) : Meets d post' log p := by
  induction p generalizing log with
  | pure a => exact ends log a met
  | op o k ih =>
      exact ⟨guarantee log o met.1, fun r within => ih r (met.2 r (rely log o r within))⟩

theorem Meets.post_mono {p : Prog Op Resp α} (met : Meets c post log p)
    (ends : ∀ log a, post log a → post' log a) : Meets c post' log p :=
  met.mono (fun _ _ _ h => h) (fun _ _ h => h) ends

/-- One operation, answered within the rely, keeps the judgement. -/
theorem Meets.step {o : Op} {k : Resp o → Prog Op Resp α} (met : Meets c post log (.op o k))
    {r : Resp o} (within : c.rely log o r) : Meets c post (⟨o, r⟩ :: log) (k r) :=
  met.2 r within

/-- Every operation of the log was within the guarantee, and every answer within
the rely, at the log it was performed at. -/
def Honest (c : Contract Op Resp) : List (Entry Op Resp) → Prop
  | [] => True
  | e :: before => c.guarantee before e.op ∧ c.rely before e.op e.resp ∧ Honest c before

theorem Honest.of_suffix {log before : List (Entry Op Resp)} (honest : Honest c log)
    (suffix : before <:+ log) : Honest c before := by
  induction log with
  | nil =>
      obtain rfl := List.suffix_nil.1 suffix
      trivial
  | cons e rest ih =>
      rcases List.suffix_cons_iff.1 suffix with rfl | inside
      · exact honest
      · exact ih honest.2.2 inside

/-- What was known when an entry of the log was performed. -/
theorem Honest.of_mem {e : Entry Op Resp} (honest : Honest c log) (member : e ∈ log) :
    ∃ before, e :: before <:+ log ∧ c.guarantee before e.op ∧ c.rely before e.op e.resp := by
  obtain ⟨later, before, rfl⟩ := List.append_of_mem member
  have suffix : e :: before <:+ later ++ e :: before := List.suffix_append later _
  obtain ⟨guarantee, rely, -⟩ := honest.of_suffix suffix
  exact ⟨before, suffix, guarantee, rely⟩

/-- A thread that kept its contract so far and keeps it from here on. -/
def Follows (c : Contract Op Resp) (post : List (Entry Op Resp) → α → Prop)
    (log : List (Entry Op Resp)) (p : Prog Op Resp α) : Prop :=
  Honest c log ∧ Meets c post log p

theorem Follows.start {p : Prog Op Resp α} (met : Meets c post [] p) : Follows c post [] p :=
  ⟨trivial, met⟩

theorem Follows.step {o : Op} {k : Resp o → Prog Op Resp α} (kept : Follows c post log (.op o k))
    {r : Resp o} (within : c.rely log o r) : Follows c post (⟨o, r⟩ :: log) (k r) :=
  ⟨⟨kept.2.1, within, kept.1⟩, kept.2.step within⟩

end Meets

/-! ## Running against a handler -/

section Interp

variable {Op : Type} {Resp : Op → Type} {α β : Type} {σ : Type}

/-- Run to the end against a handler with state, keeping the log. -/
def Prog.interp (h : (o : Op) → σ → Resp o × σ) :
    Prog Op Resp α → List (Entry Op Resp) → σ → α × List (Entry Op Resp) × σ
  | .pure a, log, s => (a, log, s)
  | .op o k, log, s => (k (h o s).1).interp h (⟨o, (h o s).1⟩ :: log) (h o s).2

@[simp] theorem Prog.interp_pure (h : (o : Op) → σ → Resp o × σ) (a : α)
    (log : List (Entry Op Resp)) (s : σ) :
    (Pure.pure a : Prog Op Resp α).interp h log s = (a, log, s) := rfl

@[simp] theorem Prog.interp_perform_bind (h : (o : Op) → σ → Resp o × σ) (o : Op)
    (f : Resp o → Prog Op Resp β) (log : List (Entry Op Resp)) (s : σ) :
    (perform o >>= f).interp h log s =
      (f (h o s).1).interp h (⟨o, (h o s).1⟩ :: log) (h o s).2 := rfl

theorem Prog.interp_bind (h : (o : Op) → σ → Resp o × σ) (p : Prog Op Resp α)
    (f : α → Prog Op Resp β) (log : List (Entry Op Resp)) (s : σ) :
    (p >>= f).interp h log s =
      (f (p.interp h log s).1).interp h (p.interp h log s).2.1 (p.interp h log s).2.2 := by
  induction p generalizing log s with
  | pure a => rfl
  | op o k ih => exact ih _ _ _

end Interp

end KubeAutopsy.Theory.Program
