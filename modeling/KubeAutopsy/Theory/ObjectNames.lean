/-
# KubeAutopsy.Theory.ObjectNames — names and label values an API server accepts

Every rule here asks for the first and the last letter what it does not ask of those between:
a string is `Framed` by its edge letters.  Trimming the other letters off frames whatever it
leaves (`trim_framed`), and leaves a framed string alone (`Framed.trim_eq`).

* `Label` — a DNS-1123 label; `Subdomain` — labels of any length between dots.
* `LabelValue` — the value of an object's label.
* `dotted_iff` — the parts of a name between its dots are well formed exactly if the name is
  framed and every dot in it has alphanumeric neighbours.  A cut or a join changes the
  neighbours of few letters, so `Dotted` names are easy to cut (`Dotted.shorten`) and to join
  (`Dotted.join`).
-/
import Mathlib.Data.List.Chain
import KubeAutopsy.Theory.Bytes

namespace KubeAutopsy.Theory.ObjectNames

open KubeAutopsy.Theory.Bytes (GoString)

set_option autoImplicit false

/-! ## Framed lists -/

section Framed

variable {α : Type} {edge cut : α → Bool} {s t : List α}

/-- The first and the last letter are edge letters. -/
structure Framed (edge : α → Bool) (s : List α) : Prop where
  first : s.head?.any edge = true
  last : s.getLast?.any edge = true

instance (edge : α → Bool) (s : List α) : Decidable (Framed edge s) :=
  decidable_of_iff (s.head?.any edge = true ∧ s.getLast?.any edge = true)
    ⟨fun ⟨first, last⟩ => ⟨first, last⟩, fun ⟨first, last⟩ => ⟨first, last⟩⟩

theorem Framed.ne_nil (framed : Framed edge s) : s ≠ [] := by
  rintro rfl
  simpa using framed.first

theorem Framed.edge_first {a : α} (framed : Framed edge s) (headIs : a ∈ s.head?) :
    edge a = true := by
  have good := framed.first
  rwa [headIs, Option.any_some] at good

theorem Framed.edge_last {a : α} (framed : Framed edge s) (lastIs : a ∈ s.getLast?) :
    edge a = true := by
  have good := framed.last
  rwa [lastIs, Option.any_some] at good

theorem Framed.append (left : Framed edge s) (right : Framed edge t) (middle : List α) :
    Framed edge (s ++ middle ++ t) := by
  obtain ⟨a, headIs, good⟩ := (Option.any_eq_true edge _).1 left.first
  obtain ⟨z, lastIs, fine⟩ := (Option.any_eq_true edge _).1 right.last
  constructor
  · simp [List.head?_append, headIs, good]
  · simp [List.getLast?_append, lastIs, fine]

theorem framed_of_forall (nonempty : s ≠ []) (all : ∀ a ∈ s, edge a = true) : Framed edge s := by
  constructor
  · rw [List.head?_eq_some_head nonempty]
    exact all _ (List.head_mem nonempty)
  · rw [List.getLast?_eq_some_getLast nonempty]
    exact all _ (List.getLast_mem nonempty)

/-- Where every letter is an edge letter or of the cutset, which has no edge letters, the edge
letters are those that are not trimmed. -/
theorem kinds_of_letters [DecidableEq α] {cutset : List α} (apart : ∀ c ∈ cutset, edge c = false)
    (letters : ∀ a ∈ s, edge a = true ∨ a ∈ cutset) : ∀ a ∈ s, edge a = !decide (a ∈ cutset) := by
  intro a member
  rcases letters a member with good | trimmed
  · have other : a ∉ cutset := by
      intro trimmed
      rw [apart a trimmed] at good
      exact Bool.noConfusion good
    simp [good, other]
  · simp [apart a trimmed, trimmed]

/-- **Trimming behind an edge letter frames a list.** -/
theorem framed_rdropWhile (kinds : ∀ a ∈ s, edge a = !cut a) (first : s.head?.any edge = true) :
    Framed edge (s.rdropWhile cut) := by
  obtain ⟨a, headIs, good⟩ := (Option.any_eq_true edge _).1 first
  have member : a ∈ s := List.mem_of_mem_head? headIs
  have kept : s.rdropWhile cut ≠ [] := by
    intro none
    have gone := List.rdropWhile_eq_nil_iff.1 none a member
    rw [kinds a member, gone] at good
    exact Bool.noConfusion good
  constructor
  · -- What is left is in front of what went, so it starts as the list did.
    obtain ⟨trimmed, whole⟩ := List.rdropWhile_prefix cut s
    rw [← whole, List.head?_append_of_ne_nil _ kept] at first
    exact first
  · have stays : (s.rdropWhile cut).getLast kept ∈ s :=
      (List.rdropWhile_prefix cut s).subset (List.getLast_mem kept)
    rw [List.getLast?_eq_some_getLast kept, Option.any_some, kinds _ stays, Bool.not_eq_true']
    exact Bool.eq_false_iff.2 (List.rdropWhile_last_not cut s kept)

/-- **What trimming leaves is framed.** -/
theorem trim_framed (kinds : ∀ a ∈ s, edge a = !cut a) :
    (s.dropWhile cut).rdropWhile cut = [] ∨ Framed edge ((s.dropWhile cut).rdropWhile cut) := by
  cases left : s.dropWhile cut with
  | nil => exact .inl (List.rdropWhile_nil cut)
  | cons a rest =>
      have within : ∀ b ∈ a :: rest, b ∈ s := fun b member =>
        (List.dropWhile_suffix cut).subset (left ▸ member)
      have stop := List.head?_dropWhile_not cut s
      rw [left] at stop
      refine .inr (framed_rdropWhile (fun b member => kinds b (within b member)) ?_)
      rw [List.head?_cons, Option.any_some, kinds a (within a List.mem_cons_self),
        Bool.not_eq_true']
      exact stop

/-- **A framed list cut and trimmed is framed.** -/
theorem Framed.shorten (framed : Framed edge s) (kinds : ∀ a ∈ s, edge a = !cut a) {n : Nat}
    (positive : 0 < n) : Framed edge ((s.take n).rdropWhile cut) := by
  refine framed_rdropWhile (fun a member => kinds a (List.mem_of_mem_take member)) ?_
  rw [List.head?_take, if_neg (by omega)]
  exact framed.first

/-- **Trimming leaves a framed list alone.** -/
theorem Framed.trim_eq (framed : Framed edge s) (kinds : ∀ a ∈ s, edge a = !cut a) :
    (s.dropWhile cut).rdropWhile cut = s := by
  have nonempty := framed.ne_nil
  have last := framed.last
  have kept : s.dropWhile cut = s := by
    cases s with
    | nil => rfl
    | cons a s =>
        have good := framed.first
        rw [List.head?_cons, Option.any_some, kinds a List.mem_cons_self, Bool.not_eq_true'] at good
        exact List.dropWhile_cons_of_neg (by simp [good])
  rw [kept, List.rdropWhile_eq_self_iff]
  intro _
  rw [List.getLast?_eq_some_getLast nonempty, Option.any_some, kinds _ (List.getLast_mem nonempty),
    Bool.not_eq_true'] at last
  exact Bool.eq_false_iff.1 last

end Framed

/-! ## Framed parts -/

section Parts

variable {α : Type} {edge : α → Bool} {sep : α} {s t : List α}

/-- A separator has edge letters for neighbours. -/
def Beside (edge : α → Bool) (sep a b : α) : Prop :=
  (a = sep → edge b = true) ∧ (b = sep → edge a = true)

theorem isChain_beside_of_absent (absent : sep ∉ s) : s.IsChain (Beside edge sep) := by
  refine (List.pairwise_of_forall_mem_list fun a first b second => ⟨?_, ?_⟩).isChain
  · rintro rfl
    exact absurd first absent
  · rintro rfl
    exact absurd second absent

/-- Two parts and the separator between them. -/
theorem framed_append_cons_iff (outside : edge sep = false) (absent : sep ∉ s) :
    Framed edge (s ++ sep :: t) ∧ (s ++ sep :: t).IsChain (Beside edge sep) ↔
      Framed edge s ∧ Framed edge t ∧ t.IsChain (Beside edge sep) := by
  rw [List.isChain_append, List.isChain_cons]
  constructor
  · rintro ⟨⟨first, last⟩, -, ⟨after, chain⟩, before⟩
    -- The separator is no edge letter, so there are letters on both sides of it.
    have front : s ≠ [] := by
      rintro rfl
      simp [outside] at first
    have back : t ≠ [] := by
      rintro rfl
      simp [outside] at last
    rw [List.head?_append_of_ne_nil _ front] at first
    rw [List.getLast?_append_of_ne_nil _ (List.cons_ne_nil sep t),
      List.getLast?_cons_of_ne_nil back] at last
    refine ⟨⟨first, ?_⟩, ⟨?_, last⟩, chain⟩
    · rw [List.getLast?_eq_some_getLast front]
      exact (before _ (List.getLast?_eq_some_getLast front) sep rfl).2 rfl
    · rw [List.head?_eq_some_head back]
      exact (after _ (List.head?_eq_some_head back)).1 rfl
  · rintro ⟨left, right, chain⟩
    refine ⟨?_, isChain_beside_of_absent absent, ⟨?_, chain⟩, ?_⟩
    · have both := left.append right [sep]
      rwa [List.append_assoc, List.singleton_append] at both
    · intro y headIs
      have good := right.edge_first headIs
      refine ⟨fun _ => good, ?_⟩
      rintro rfl
      rw [outside] at good
      exact Bool.noConfusion good
    · rintro x lastIs y headIs
      obtain rfl := Option.some.inj headIs
      have good := left.edge_last lastIs
      refine ⟨?_, fun _ => good⟩
      rintro rfl
      rw [outside] at good
      exact Bool.noConfusion good

variable [DecidableEq α]

/-- **The parts of a list are framed exactly if the list is and its separators have edge
letters for neighbours.** -/
theorem framed_splitOn_iff (outside : edge sep = false) :
    (∀ part ∈ s.splitOn sep, Framed edge part) ↔
      Framed edge s ∧ s.IsChain (Beside edge sep) := by
  induction length : s.length using Nat.strong_induction_on generalizing s with
  | _ n ih =>
      by_cases present : sep ∈ s
      · obtain ⟨part, rest, rfl, absent⟩ := List.eq_append_cons_of_mem present
        have shorter : rest.length < n := by
          rw [← length, List.length_append, List.length_cons]
          omega
        rw [List.splitOn_append_cons_self_of_not_mem absent, List.forall_mem_cons,
          ih rest.length shorter rfl, framed_append_cons_iff outside absent]
      · rw [List.splitOn_eq_singleton present, List.forall_mem_singleton]
        exact ⟨fun framed => ⟨framed, isChain_beside_of_absent present⟩, And.left⟩

theorem forall_mem_splitOn_iff {P : α → Prop} :
    (∀ part ∈ s.splitOn sep, ∀ a ∈ part, P a) ↔ ∀ a ∈ s, a ≠ sep → P a := by
  induction s with
  | nil => simp
  | cons a s ih =>
      obtain ⟨part, rest, parts⟩ := List.exists_cons_of_ne_nil (List.splitOn_ne_nil sep s)
      rw [List.forall_mem_cons, ← ih, List.splitOn_cons_eq_if_modifyHead]
      by_cases separator : a = sep
      · simp [separator]
      · simp [separator, parts, and_assoc]

end Parts

/-! ## Letters -/

def lower (b : UInt8) : Bool := 0x61 ≤ b && b ≤ 0x7A
def upper (b : UInt8) : Bool := 0x41 ≤ b && b ≤ 0x5A
def digit (b : UInt8) : Bool := 0x30 ≤ b && b ≤ 0x39

/-- A letter at the edge of a name: of lower case, or a digit. -/
def alphanumeric (b : UInt8) : Bool := lower b || digit b

/-- A letter at the edge of a label's value, where the case is free. -/
def anyAlphanumeric (b : UInt8) : Bool := lower b || upper b || digit b

def dash : UInt8 := 0x2D
def dot : UInt8 := 0x2E
def underscore : UInt8 := 0x5F

/-! ## Names -/

/-- A part of a name: `[a-z0-9]([-a-z0-9]*[a-z0-9])?`. -/
def Part (s : GoString) : Prop :=
  Framed alphanumeric s ∧ ∀ b ∈ s, alphanumeric b = true ∨ b = dash

/-- A DNS-1123 label. -/
def Label (s : GoString) : Prop := Part s ∧ s.length ≤ 63

/-- A DNS-1123 subdomain. -/
def Subdomain (s : GoString) : Prop := (∀ part ∈ s.splitOn dot, Part part) ∧ s.length ≤ 253

/-- The value of a label: `(([A-Za-z0-9][-A-Za-z0-9_.]*)?[A-Za-z0-9])?`. -/
def LabelValue (s : GoString) : Prop :=
  s = [] ∨ Framed anyAlphanumeric s ∧
    (∀ b ∈ s, anyAlphanumeric b = true ∨ b ∈ [dash, underscore, dot]) ∧ s.length ≤ 63

-- Letter by letter: instance search would rather go through all the 256 bytes there are.
instance (s : GoString) : Decidable (Part s) :=
  letI := List.decidableBAll (fun b => alphanumeric b = true ∨ b = dash) s
  inferInstanceAs (Decidable (_ ∧ _))

instance (s : GoString) : Decidable (Label s) := inferInstanceAs (Decidable (_ ∧ _))

instance (s : GoString) : Decidable (Subdomain s) := inferInstanceAs (Decidable (_ ∧ _))

instance (s : GoString) : Decidable (LabelValue s) :=
  letI := List.decidableBAll (fun b => anyAlphanumeric b = true ∨ b ∈ [dash, underscore, dot]) s
  inferInstanceAs (Decidable (_ ∨ _ ∧ _ ∧ _))

theorem nameKinds {s : GoString} (letters : ∀ b ∈ s, alphanumeric b = true ∨ b ∈ [dash, dot]) :
    ∀ b ∈ s, alphanumeric b = !decide (b ∈ [dash, dot]) := by
  have apart : ∀ c ∈ [dash, dot], alphanumeric c = false :=
    List.forall_mem_cons.2 ⟨rfl, List.forall_mem_singleton.2 rfl⟩
  exact kinds_of_letters apart letters

theorem valueKinds {s : GoString}
    (letters : ∀ b ∈ s, anyAlphanumeric b = true ∨ b ∈ [dash, underscore, dot]) :
    ∀ b ∈ s, anyAlphanumeric b = !decide (b ∈ [dash, underscore, dot]) := by
  have apart : ∀ c ∈ [dash, underscore, dot], anyAlphanumeric c = false :=
    List.forall_mem_cons.2 ⟨rfl, List.forall_mem_cons.2 ⟨rfl, List.forall_mem_singleton.2 rfl⟩⟩
  exact kinds_of_letters apart letters

/-- What a name looks like letter by letter. -/
structure Dotted (s : GoString) : Prop where
  framed : Framed alphanumeric s
  letters : ∀ b ∈ s, alphanumeric b = true ∨ b ∈ [dash, dot]
  dots : s.IsChain (Beside alphanumeric dot)

/-- **A name is made of parts exactly if it looks like one letter by letter.** -/
theorem dotted_iff {s : GoString} : (∀ part ∈ s.splitOn dot, Part part) ↔ Dotted s := by
  have parts : (∀ part ∈ s.splitOn dot, Part part) ↔
      (∀ part ∈ s.splitOn dot, Framed alphanumeric part) ∧
        ∀ part ∈ s.splitOn dot, ∀ b ∈ part, alphanumeric b = true ∨ b = dash := by
    simp only [Part, imp_and, forall_and]
  rw [parts, framed_splitOn_iff rfl, forall_mem_splitOn_iff]
  constructor
  · rintro ⟨⟨framed, dots⟩, letters⟩
    refine ⟨framed, fun b member => ?_, dots⟩
    by_cases separator : b = dot
    · exact .inr (by simp [separator])
    · exact (letters b member separator).imp_right fun same => by simp [same]
  · rintro ⟨framed, letters, dots⟩
    refine ⟨⟨framed, dots⟩, fun b member other => ?_⟩
    rcases letters b member with good | trimmed
    · exact .inl good
    · rw [List.mem_pair] at trimmed
      exact .inr (trimmed.resolve_right other)

theorem Part.dotted {s : GoString} (part : Part s) : Dotted s := by
  have absent : dot ∉ s := by
    intro member
    rcases part.2 dot member with good | same
    · exact absurd good (by decide)
    · exact absurd same (by decide)
  rw [← dotted_iff, List.splitOn_eq_singleton absent, List.forall_mem_singleton]
  exact part

/-- **Two names with a dash between them are one name.** -/
theorem Dotted.join {s t : GoString} (left : Dotted s) (right : Dotted t) :
    Dotted (s ++ [dash] ++ t) := by
  refine ⟨left.framed.append right.framed [dash], ?_, ?_⟩
  · intro b member
    rw [List.mem_append, List.mem_append, List.mem_singleton] at member
    rcases member with (member | rfl) | member
    · exact left.letters b member
    · exact .inr List.mem_cons_self
    · exact right.letters b member
  · rw [List.append_assoc, List.isChain_append, List.singleton_append, List.isChain_cons]
    refine ⟨left.dots, ⟨?_, right.dots⟩, ?_⟩
    · intro y headIs
      refine ⟨fun same => absurd same (by decide), ?_⟩
      rintro rfl
      exact absurd (right.framed.edge_first headIs) (by decide)
    · intro x lastIs y headIs
      obtain rfl := Option.some.inj headIs
      refine ⟨?_, fun same => absurd same (by decide)⟩
      rintro rfl
      exact absurd (left.framed.edge_last lastIs) (by decide)

/-- **A name cut and trimmed is a name.** -/
theorem Dotted.shorten {s : GoString} (dotted : Dotted s) {n : Nat} (positive : 0 < n) :
    Dotted ((s.take n).rdropWhile (· ∈ [dash, dot])) := by
  have front : (s.take n).rdropWhile (· ∈ [dash, dot]) <+: s :=
    (List.rdropWhile_prefix _ _).trans (List.take_prefix n s)
  refine ⟨dotted.framed.shorten (nameKinds dotted.letters) positive, ?_, ?_⟩
  · exact fun b member => dotted.letters b (front.subset member)
  · exact dotted.dots.prefix front

end KubeAutopsy.Theory.ObjectNames
