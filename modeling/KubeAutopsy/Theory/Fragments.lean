/-
# KubeAutopsy.Theory.Fragments — messages that arrive in pieces, from several senders

A piece names its sender and says whether it is the last of its message.  `assemble` keeps
one open message per sender and lets a last piece complete it; messages that are still open
at the end come out behind the completed ones.

* `textsOf_assemble`: what comes out for one sender depends on its own pieces alone, and
  is these put together group by group (`groups`).
* `completed_order`: completed messages come out in the order of the pieces that complete
  them.
* `groups_drop`: without its first pieces, a sender's messages are the last of those it has
  with them, the first of them perhaps without its beginning.
* `groups_pieces`: messages cut into pieces are put together again.
-/
import Mathlib.Data.List.Basic
import Mathlib.Data.List.Forall2
import Mathlib.Data.List.Infix
import Mathlib.Logic.Function.Basic

namespace KubeAutopsy.Theory.Fragments

set_option autoImplicit false

structure Piece (κ α : Type) where
  key : κ
  last : Bool
  text : List α
  deriving DecidableEq, Repr

/-! ## One sender -/

section Groups

variable {α : Type}

/-- The messages of one sender: its pieces, each with whether it is a last one, put together
up to every last one, and what is open at the end. -/
def groups : Option (List α) → List (Bool × List α) → List (List α)
  | opened, [] => opened.toList
  | opened, (true, text) :: rest => (opened.getD [] ++ text) :: groups none rest
  | opened, (false, text) :: rest => groups (some (opened.getD [] ++ text)) rest

/-- What is open goes in front of the first message. -/
theorem groups_some (pieces : List (Bool × List α)) :
    ∃ text rest, ∀ opened, groups (some opened) pieces = (opened ++ text) :: rest := by
  induction pieces with
  | nil =>
      refine ⟨[], [], ?_⟩
      intro opened
      simp [groups]
  | cons piece pieces ih =>
      obtain ⟨last, text⟩ := piece
      cases last with
      | true => exact ⟨text, groups none pieces, fun opened => rfl⟩
      | false =>
          obtain ⟨more, rest, whole⟩ := ih
          refine ⟨text ++ more, rest, ?_⟩
          intro opened
          show groups (some (opened ++ text)) pieces = _
          rw [whole, List.append_assoc]

theorem groups_none_cons (piece : Bool × List α) (pieces : List (Bool × List α)) :
    groups none (piece :: pieces) = groups (some []) (piece :: pieces) := by
  obtain ⟨last, text⟩ := piece
  cases last <;> rfl

/-- What was completed by the first pieces is in front of what the others make of the rest. -/
theorem groups_append (opened : Option (List α)) (front rest : List (Bool × List α)) :
    ∃ done left, groups opened (front ++ rest) = done ++ groups left rest := by
  induction front generalizing opened with
  | nil => exact ⟨[], opened, rfl⟩
  | cons piece front ih =>
      obtain ⟨last, text⟩ := piece
      cases last with
      | true =>
          obtain ⟨done, left, whole⟩ := ih none
          refine ⟨(opened.getD [] ++ text) :: done, left, ?_⟩
          show _ :: groups none (front ++ rest) = _
          rw [whole]
          rfl
      | false => exact ih (some (opened.getD [] ++ text))

/-- `part` are the last entries of `whole`, the first of them perhaps without its
beginning. -/
def TailOf (part whole : List (List α)) : Prop :=
  part <:+ whole ∨ ∃ first text rest, part = text :: rest ∧ first :: rest <:+ whole ∧ text <:+ first

theorem TailOf.entry {part whole : List (List α)} (tail : TailOf part whole) {text : List α}
    (member : text ∈ part) : ∃ entry ∈ whole, text <:+ entry := by
  rcases tail with suffix | ⟨first, cut, rest, rfl, suffix, ends⟩
  · exact ⟨text, suffix.subset member, List.suffix_rfl⟩
  · rcases List.mem_cons.1 member with rfl | later
    · exact ⟨first, suffix.subset List.mem_cons_self, ends⟩
    · exact ⟨text, suffix.subset (List.mem_cons_of_mem _ later), List.suffix_rfl⟩

/-- **Pieces that are missing at the front.** -/
theorem groups_drop (front rest : List (Bool × List α)) :
    TailOf (groups none rest) (groups none (front ++ rest)) := by
  obtain ⟨done, left, whole⟩ := groups_append none front rest
  rw [whole]
  cases left with
  | none => exact .inl (List.suffix_append _ _)
  | some opened =>
      cases rest with
      | nil => exact .inl List.nil_suffix
      | cons piece rest =>
          obtain ⟨text, others, shape⟩ := groups_some (piece :: rest)
          right
          refine ⟨opened ++ text, text, others, ?_, ?_, List.suffix_append _ _⟩
          · rw [groups_none_cons, shape]
            rfl
          · rw [shape]
            exact List.suffix_append _ _

/-- A message cut into pieces, the last of which is told apart. -/
structure Cut (α : Type) where
  front : List (List α)
  last : List α
  deriving DecidableEq, Repr

def Cut.text (c : Cut α) : List α := c.front.flatten ++ c.last

def Cut.pieces (c : Cut α) : List (Bool × List α) := c.front.map (false, ·) ++ [(true, c.last)]

theorem groups_cut (opened : Option (List α)) (c : Cut α) (rest : List (Bool × List α)) :
    groups opened (c.pieces ++ rest) = (opened.getD [] ++ c.text) :: groups none rest := by
  obtain ⟨front, last⟩ := c
  induction front generalizing opened with
  | nil => rfl
  | cons text front ih =>
      show groups (some (opened.getD [] ++ text)) (Cut.pieces ⟨front, last⟩ ++ rest) = _
      rw [ih]
      simp [Cut.text]

/-- **Messages cut into pieces are put together again.** -/
theorem groups_pieces (cuts : List (Cut α)) :
    groups none (cuts.flatMap Cut.pieces) = cuts.map Cut.text := by
  induction cuts with
  | nil => rfl
  | cons c cuts ih =>
      rw [List.flatMap_cons, groups_cut, ih]
      rfl

/-- The last of such pieces completes a message. -/
theorem getLast?_pieces (cuts : List (Cut α)) :
    ((cuts.flatMap Cut.pieces).getLast?.any fun piece => !piece.1) = false := by
  induction cuts using List.reverseRecOn with
  | nil => rfl
  | append_singleton cuts c ih => simp [Cut.pieces]

/-- Messages that are never cut. -/
theorem groups_whole (texts : List (List α)) : groups none (texts.map (true, ·)) = texts := by
  induction texts with
  | nil => rfl
  | cons text texts ih =>
      show text :: groups none (texts.map (true, ·)) = _
      rw [ih]

/-- What holds of the pieces and is kept by joining holds of the messages. -/
theorem groups_closed {P : List α → Prop} (empty : P []) (join : ∀ s t, P s → P t → P (s ++ t))
    {opened : Option (List α)} {pieces : List (Bool × List α)} (begun : ∀ text ∈ opened, P text)
    (all : ∀ piece ∈ pieces, P piece.2) : ∀ text ∈ groups opened pieces, P text := by
  induction pieces generalizing opened with
  | nil =>
      intro text member
      exact begun text (Option.mem_toList.1 member)
  | cons piece pieces ih =>
      obtain ⟨last, text⟩ := piece
      have front : P (opened.getD []) := by
        cases opened with
        | none => exact empty
        | some text => exact begun text rfl
      have whole : P (opened.getD [] ++ text) := join _ _ front (all _ List.mem_cons_self)
      have later : ∀ piece ∈ pieces, P piece.2 := fun piece member =>
        all piece (List.mem_cons_of_mem _ member)
      cases last with
      | true =>
          intro other member
          rcases List.mem_cons.1 member with rfl | rest
          · exact whole
          · exact ih (by simp) later other rest
      | false =>
          refine ih ?_ later
          intro other found
          obtain rfl := Option.some.inj found
          exact whole

end Groups

/-! ## Several senders -/

section Assemble

variable {κ α : Type} [DecidableEq κ]

/-- The open messages after a piece. -/
def absorb (opened : κ → Option (List α)) (p : Piece κ α) : κ → Option (List α) :=
  Function.update opened p.key
    (if p.last then none else some ((opened p.key).getD [] ++ p.text))

/-- The messages the pieces complete, each with its sender. -/
def completed : (κ → Option (List α)) → List (Piece κ α) → List (κ × List α)
  | _, [] => []
  | opened, p :: rest =>
      if p.last then (p.key, (opened p.key).getD [] ++ p.text) :: completed (absorb opened p) rest
      else completed (absorb opened p) rest

/-- What is open, in the order of `keys`. -/
def leftOpen (keys : List κ) (opened : κ → Option (List α)) : List (κ × List α) :=
  keys.filterMap fun k => (opened k).map (k, ·)

/-- Everything that comes out. -/
def assemble (keys : List κ) (ps : List (Piece κ α)) : List (κ × List α) :=
  completed (fun _ => none) ps ++ leftOpen keys (ps.foldl absorb fun _ => none)

/-- The pieces of one sender. -/
def piecesOf (k : κ) (ps : List (Piece κ α)) : List (Bool × List α) :=
  (ps.filter fun p => p.key = k).map fun p => (p.last, p.text)

/-- What came out for one sender. -/
def textsOf (k : κ) (out : List (κ × List α)) : List (List α) :=
  (out.filter fun e => e.1 = k).map Prod.snd

theorem textsOf_append (k : κ) (out more : List (κ × List α)) :
    textsOf k (out ++ more) = textsOf k out ++ textsOf k more := by
  simp [textsOf]

theorem completed_append (opened : κ → Option (List α)) (front rest : List (Piece κ α)) :
    completed opened (front ++ rest) =
      completed opened front ++ completed (front.foldl absorb opened) rest := by
  induction front generalizing opened with
  | nil => rfl
  | cons p front ih =>
      rw [List.cons_append, completed, completed, ih, List.foldl_cons]
      split <;> rfl

theorem textsOf_completed (k : κ) (opened : κ → Option (List α)) (ps : List (Piece κ α)) :
    textsOf k (completed opened ps) ++ ((ps.foldl absorb opened) k).toList =
      groups (opened k) (piecesOf k ps) := by
  induction ps generalizing opened with
  | nil => simp [completed, textsOf, piecesOf, groups]
  | cons p ps ih =>
      obtain ⟨key, last, text⟩ := p
      have step := ih (absorb opened ⟨key, last, text⟩)
      by_cases here : key = k
      · subst here
        cases last with
        | true => simp_all [completed, textsOf, piecesOf, groups, absorb]
        | false => simp_all [completed, textsOf, piecesOf, groups, absorb]
      · have other : absorb opened ⟨key, last, text⟩ k = opened k :=
          Function.update_of_ne (Ne.symm here) _ _
        rw [other] at step
        cases last with
        | true => simp_all [completed, textsOf, piecesOf]
        | false => simp_all [completed, textsOf, piecesOf]

theorem textsOf_leftOpen {keys : List κ} (distinct : keys.Nodup) (k : κ)
    (opened : κ → Option (List α)) :
    textsOf k (leftOpen keys opened) = if k ∈ keys then (opened k).toList else [] := by
  induction keys with
  | nil => simp [leftOpen, textsOf]
  | cons key keys ih =>
      obtain ⟨absent, distinct⟩ := List.nodup_cons.1 distinct
      have rest := ih distinct
      have shape : leftOpen (key :: keys) opened =
          ((opened key).map (key, ·)).toList ++ leftOpen keys opened := by
        unfold leftOpen
        cases found : opened key <;> simp [found]
      rw [shape, textsOf_append, rest]
      by_cases here : k = key
      · subst here
        cases found : opened k <;> simp [textsOf, absent]
      · cases found : opened key <;> simp [textsOf, here, Ne.symm here]

theorem piecesOf_append (k : κ) (front rest : List (Piece κ α)) :
    piecesOf k (front ++ rest) = piecesOf k front ++ piecesOf k rest := by
  simp [piecesOf]

/-- A message is open exactly behind a piece that is not a last one. -/
theorem isSome_absorb (k : κ) (ps : List (Piece κ α)) :
    ((ps.foldl absorb fun _ => none) k).isSome =
      (piecesOf k ps).getLast?.any fun piece => !piece.1 := by
  induction ps using List.reverseRecOn with
  | nil => rfl
  | append_singleton ps p ih =>
      rw [List.foldl_append, piecesOf_append]
      show (absorb _ p k).isSome = _
      by_cases here : p.key = k
      · subst here
        cases last : p.last <;> simp [absorb, piecesOf, last]
      · simp [absorb, Function.update_of_ne (Ne.symm here), ih, piecesOf, here]

omit [DecidableEq κ] in
/-- Which senders have an open message at the end. -/
theorem leftOpen_keys (keys : List κ) (opened : κ → Option (List α)) :
    (leftOpen keys opened).map Prod.fst = keys.filter fun k => (opened k).isSome := by
  induction keys with
  | nil => rfl
  | cons key keys ih =>
      unfold leftOpen at ih ⊢
      cases found : opened key <;> simp [found, ih]

/-- A sender that never cuts a message has none open. -/
theorem absorb_whole {k : κ} {ps : List (Piece κ α)} (whole : ∀ p ∈ ps, p.key = k → p.last = true)
    (opened : κ → Option (List α)) (closed : opened k = none) : (ps.foldl absorb opened) k = none := by
  induction ps generalizing opened with
  | nil => exact closed
  | cons p ps ih =>
      obtain ⟨first, others⟩ := List.forall_mem_cons.1 whole
      refine ih others (absorb opened p) ?_
      by_cases here : p.key = k
      · simp [absorb, here, first here]
      · rw [absorb, Function.update_of_ne (Ne.symm here), closed]

/-- **What comes out for one sender** is its own pieces put together. -/
theorem textsOf_assemble {keys : List κ} (distinct : keys.Nodup) {k : κ} {ps : List (Piece κ α)}
    (listed : k ∈ keys ∨ ∀ p ∈ ps, p.key = k → p.last = true) :
    textsOf k (assemble keys ps) = groups none (piecesOf k ps) := by
  have projected := textsOf_completed k (fun _ => none) ps
  unfold assemble
  rw [textsOf_append, textsOf_leftOpen distinct, ← projected]
  by_cases member : k ∈ keys
  · rw [if_pos member]
  · have closed := absorb_whole (listed.resolve_left member) (fun _ => none) rfl
    rw [if_neg member, closed]
    rfl

/-- **Completed messages come out in the order of the pieces that complete them.** -/
theorem completed_order (opened : κ → Option (List α)) (ps : List (Piece κ α)) :
    List.Forall₂ (fun out p => out.1 = p.key ∧ p.text <:+ out.2) (completed opened ps)
      (ps.filter Piece.last) := by
  induction ps generalizing opened with
  | nil => exact .nil
  | cons p ps ih =>
      cases last : p.last with
      | true =>
          rw [List.filter_cons_of_pos last, completed, if_pos last]
          exact .cons ⟨rfl, List.suffix_append _ _⟩ (ih _)
      | false =>
          rw [List.filter_cons_of_neg (by simp [last]), completed, if_neg (by simp [last])]
          exact ih _

theorem completed_keys (opened : κ → Option (List α)) (ps : List (Piece κ α)) :
    (completed opened ps).map Prod.fst = (ps.filter Piece.last).map Piece.key := by
  have order := completed_order opened ps
  have keys : List.Forall₂ Eq ((completed opened ps).map Prod.fst)
      ((ps.filter Piece.last).map Piece.key) := by
    rw [List.forall₂_map_left_iff, List.forall₂_map_right_iff]
    exact order.imp fun _ _ same => same.1
  rwa [List.forall₂_eq_eq_eq] at keys

end Assemble

end KubeAutopsy.Theory.Fragments
