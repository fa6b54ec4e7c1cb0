import ApiDocs.Proofs.Ancestors
import Mathlib.Order.Lattice.Nat

/-!
# Breadth first

The walk over supertypes comes to an end of its own accord and lists the types that can be reached,
nearest first. Of two types at one distance the one comes first whose first parent does, and of two
with the same first parent the one that this parent declares first.
-/

namespace ApiDocs

namespace Supertypes

variable {types : Supertypes} {start : Text}

/-! ### Distances -/

/-- What can be reached from a type in a number of steps from types to their supertypes. -/
inductive Steps (types : Supertypes) (start : Text) : Nat → Text → Prop
  | zero : Steps types start 0 start
  | succ {k : Nat} {n p : Text} : Steps types start k n → types.Extends n p →
      Steps types start (k + 1) p

/-- The least number of steps in which a type can be reached. -/
noncomputable def distance (types : Supertypes) (start a : Text) : Nat :=
  sInf {k | types.Steps start k a}

lemma exists_steps {a : Text} (h : Relation.TransGen types.Extends start a) :
    ∃ k, types.Steps start k a := by
  induction h with
  | single hp => exact ⟨1, .succ .zero hp⟩
  | tail _ hp ih =>
    obtain ⟨k, hk⟩ := ih
    exact ⟨k + 1, hk.succ hp⟩

lemma Steps.eq_or_reached {k : Nat} {a : Text} (h : types.Steps start k a) :
    a = start ∨ Relation.TransGen types.Extends start a := by
  induction h with
  | zero => exact .inl rfl
  | succ _ hp ih =>
    rcases ih with rfl | hreached
    · exact .inr (.single hp)
    · exact .inr (hreached.tail hp)

/-- A type is no farther away than any number of steps in which it can be reached. -/
lemma Steps.distance_le {k : Nat} {a : Text} (h : types.Steps start k a) :
    types.distance start a ≤ k :=
  Nat.sInf_le h

lemma steps_distance {a : Text} (h : Relation.TransGen types.Extends start a) :
    types.Steps start (types.distance start a) a :=
  Nat.sInf_mem (exists_steps h)

/-! ### Parents -/

/-- The place in a list of types of the first one that declares a supertype. -/
def firstParent (types : Supertypes) (order : List Text) (a : Text) : Nat :=
  order.findIdx (a ∈ types.parents ·)

/-- The first type in a list that declares `a` comes before the first one that declares `b`, or it
is the same one and declares `a` first. -/
def DeclaredBefore (types : Supertypes) (order : List Text) (a b : Text) : Prop :=
  types.firstParent order a < types.firstParent order b ∨
    types.firstParent order a = types.firstParent order b ∧
      ∃ p, order[types.firstParent order a]? = some p ∧
        (types.parents p).idxOf a < (types.parents p).idxOf b

/-- Of two names in the joined lists of supertypes the first is declared before the other. -/
lemma declaredBefore_of_idxOf_lt {order : List Text} {a b : Text}
    (h : (order.flatMap types.parents).idxOf a < (order.flatMap types.parents).idxOf b) :
    types.DeclaredBefore order a b := by
  induction order with
  | nil => exact absurd h (Nat.lt_irrefl _)
  | cons n order ih =>
    rw [List.flatMap_cons] at h
    simp only [DeclaredBefore, firstParent, List.findIdx_cons] at ih ⊢
    by_cases ha : a ∈ types.parents n
    · by_cases hb : b ∈ types.parents n
      · rw [List.idxOf_append_of_mem ha, List.idxOf_append_of_mem hb] at h
        exact .inr (by simpa [ha, hb] using h)
      · exact .inl (by simp [ha, hb])
    · have hb : b ∉ types.parents n := by
        intro hb
        rw [List.idxOf_append_of_notMem ha, List.idxOf_append_of_mem hb] at h
        have := List.idxOf_lt_length_of_mem hb
        omega
      rw [List.idxOf_append_of_notMem ha, List.idxOf_append_of_notMem hb] at h
      simpa [ha, hb] using ih (Nat.lt_of_add_lt_add_left h)

/-! ### Nearest first -/

section

variable {order : List Text}
  (h : Listed types start order ((start :: order).flatMap types.parents))

include h

/-- Before a supertype of `m` only supertypes are listed that are declared by `m`, by the start, or
by a type that is listed before `m`. -/
lemma Listed.exists_parent {a b m : Text} (hm : m ∈ start :: order) (hb : b ∈ types.parents m)
    (hbefore : ((start :: order).flatMap types.parents).idxOf a <
      ((start :: order).flatMap types.parents).idxOf b) :
    ∃ p, a ∈ types.parents p ∧ (p = start ∨ p = m ∨ p ∈ order ∧ m ∈ order ∧
      ((start :: order).flatMap types.parents).idxOf p <
        ((start :: order).flatMap types.parents).idxOf m) := by
  obtain ⟨before, after, hsplit, hbefore'⟩ : ∃ before after,
      start :: order = before ++ m :: after ∧ ∀ p ∈ before, p = start ∨ p ∈ order ∧ m ∈ order ∧
        ((start :: order).flatMap types.parents).idxOf p <
          ((start :: order).flatMap types.parents).idxOf m := by
    rcases List.mem_cons.1 hm with rfl | hm
    · exact ⟨[], order, rfl, by simp⟩
    · obtain ⟨before, after, hsplit⟩ := List.append_of_mem hm
      refine ⟨start :: before, after, by rw [hsplit]; rfl, fun p hp => ?_⟩
      rcases List.mem_cons.1 hp with rfl | hp
      · exact .inl rfl
      · have hordered := h.ordered
        generalize (start :: order).flatMap types.parents = met at hordered
        rw [hsplit, List.pairwise_append] at hordered
        refine .inr ⟨?_, hm, hordered.2.2 p hp m (List.mem_cons_self ..)⟩
        rw [hsplit]
        exact List.mem_append_left _ hp
  -- `b` is met with the supertypes of `m` at the latest, and `a` before it
  have hb' : b ∈ (before ++ [m]).flatMap types.parents :=
    List.mem_flatMap.2 ⟨m, by simp, hb⟩
  have hstream : (start :: order).flatMap types.parents =
      (before ++ [m]).flatMap types.parents ++ after.flatMap types.parents := by
    rw [hsplit, ← List.flatMap_append, List.append_assoc, List.singleton_append]
  have ha : a ∈ (before ++ [m]).flatMap types.parents := by
    by_contra ha
    rw [hstream, List.idxOf_append_of_notMem ha, List.idxOf_append_of_mem hb'] at hbefore
    have := List.idxOf_lt_length_of_mem hb'
    omega
  obtain ⟨p, hp, ha⟩ := List.mem_flatMap.1 ha
  refine ⟨p, ha, ?_⟩
  rcases List.mem_append.1 hp with hp | hp
  · exact (hbefore' p hp).imp_right .inr
  · exact .inr (.inl (List.mem_singleton.1 hp))

/-- What is listed before a type can be reached in no more steps. -/
lemma Listed.exists_steps_le
    (hclosed : ∀ k n, types.Steps start k n → n ∈ start :: order) {k : Nat} {a b : Text}
    (ha : a ∈ order) (hb : b ∈ order)
    (hbefore : ((start :: order).flatMap types.parents).idxOf a <
      ((start :: order).flatMap types.parents).idxOf b)
    (hsteps : types.Steps start k b) : ∃ j ≤ k, types.Steps start j a := by
  induction k generalizing a b with
  | zero =>
    cases hsteps
    exact absurd rfl ((h.mem_iff start).1 hb).2.1
  | succ k ih =>
    cases hsteps with
    | @succ _ m _ hm hextends =>
      obtain ⟨p, hp, hnear⟩ := h.exists_parent (hclosed k m hm) hextends.1 hbefore
      have hextends : types.Extends p a := ⟨hp, ((h.mem_iff a).1 ha).2.2⟩
      obtain ⟨j, hj, hsteps⟩ : ∃ j ≤ k, types.Steps start j p := by
        rcases hnear with rfl | rfl | ⟨hp, hmem, hlt⟩
        · exact ⟨0, Nat.zero_le k, .zero⟩
        · exact ⟨k, Nat.le_refl k, hm⟩
        · exact ih hp hmem hlt hm
      exact ⟨j + 1, Nat.succ_le_succ hj, hsteps.succ hextends⟩

end

/-! ### The breadth-first order -/

/-- A list of types is the breadth-first order of those that can be reached from a start. -/
structure BreadthFirst (types : Supertypes) (start : Text) (order : List Text) : Prop where
  /-- The walk ends with an empty queue and has then listed the types. -/
  ends : types.Walk start [] (types.parents start) order
  distinct : order.Nodup
  reached : ∀ a, a ∈ order ↔ a ≠ start ∧ Relation.TransGen types.Extends start a
  nearestFirst : order.Pairwise (types.distance start · ≤ types.distance start ·)
  declaredFirst : order.Pairwise fun a b => types.distance start a = types.distance start b →
    types.DeclaredBefore (start :: order) a b

lemma breadthFirst_ancestorsOf (hkeys : types.keys.Nodup) (hhas : types.has start = true) :
    types.BreadthFirst start (types.ancestorsOf start) := by
  have hlisted := listed_ancestorsOf hkeys hhas
  have hreached (a : Text) := mem_ancestorsOf_iff_reached hkeys hhas (a := a)
  have hclosed : ∀ k n, types.Steps start k n → n ∈ start :: types.ancestorsOf start := by
    intro k n hn
    by_cases hne : n = start
    · rw [hne]
      exact List.mem_cons_self ..
    · exact List.mem_cons_of_mem _ ((hreached n).2 ⟨hne, hn.eq_or_reached.resolve_left hne⟩)
  exact
  { ends := walk_ancestorsOf hkeys hhas
    distinct := by
      refine hlisted.ordered.imp ?_
      rintro a b hlt rfl
      exact Nat.lt_irrefl _ hlt
    reached := hreached
    nearestFirst := by
      refine hlisted.ordered.imp_of_mem fun {a b} ha hb hlt => ?_
      obtain ⟨j, hj, hsteps⟩ := hlisted.exists_steps_le hclosed ha hb hlt
        (steps_distance ((hreached b).1 hb).2)
      exact hsteps.distance_le.trans hj
    declaredFirst := by
      refine hlisted.ordered.imp ?_
      intro a b hlt _
      exact declaredBefore_of_idxOf_lt hlt }

/-- The declared supertypes of types that are put in a table one after the other: of each type its
superclass, where that has a name, then its interfaces. -/
def ofTypes (infos : List (Text × TypeInfo)) : Supertypes :=
  .ofEntries (infos.map fun e => (e.1, e.2.parents))

/-- Whatever supertypes types declare, each type in the table has an entry with its ancestors, and
these are in breadth-first order. -/
theorem ancestors_breadthFirst (infos : List (Text × TypeInfo)) :
    (ofTypes infos).ancestors.keys = (ofTypes infos).keys ∧
      ∀ start ∈ (ofTypes infos).keys, ∃ order,
        (ofTypes infos).ancestors.get? start = some order ∧
          (ofTypes infos).BreadthFirst start order := by
  refine ⟨Model.keys_ancestors _, fun start hstart => ⟨(ofTypes infos).ancestorsOf start, ?_, ?_⟩⟩
  · rw [Model.get?_ancestors, if_pos hstart]
  · exact breadthFirst_ancestorsOf (Table.nodup_keys_ofEntries _)
      ((Table.has_iff_mem_keys _ _).2 hstart)

/-- Types that inherit from each other and from themselves, with repeated and unknown supertypes. -/
def tangled : List (Text × TypeInfo) :=
  [ ("A", { supertype := some "B", interfaces := ["C", "X", "C"] }),
    ("B", { supertype := some "D", interfaces := ["B", "A"] }),
    ("C", { interfaces := ["E", "D"] }),
    ("D", { supertype := some "A" }),
    ("E", { supertype := some "X", interfaces := ["C"] }) ]

theorem ancestors_breadthFirst_tangled :
    (ofTypes tangled).ancestors.get? "A" = some (["B", "C", "D", "E"] : List Text) ∧
      (ofTypes tangled).BreadthFirst "A" ["B", "C", "D", "E"] := by
  obtain ⟨order, horder, hbreadth⟩ := (ancestors_breadthFirst tangled).2 "A" (by decide)
  have hancestors :
      (ofTypes tangled).ancestors.get? "A" = some (["B", "C", "D", "E"] : List Text) := by
    decide
  rw [hancestors, Option.some_inj] at horder
  exact ⟨hancestors, horder ▸ hbreadth⟩

end Supertypes

end ApiDocs
