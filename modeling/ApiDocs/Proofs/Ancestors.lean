import ApiDocs.Proofs.Lineage

/-!
# All ancestors are found

Every step of the walk over supertypes takes a name from the queue, and a type puts its supertypes
in at most once, so the steps suffice to empty the queue. What is listed is then closed under
supertypes: without cycles, the ancestors of a type are exactly the types that it inherits from.
-/

namespace ApiDocs

namespace Supertypes

variable {types : Supertypes} {start : Text}

/-- How many names are put in the queue by the types that have not been met. -/
def pending (types : Supertypes) (met : List Text) : Nat :=
  (types.entries.filter (·.1 ∉ met)).foldr (fun e n => e.2.length + n) 0

lemma pending_nil (types : Supertypes) : types.pending [] = types.edgeCount := by
  simp [pending, edgeCount]

lemma pending_congr {met met' : List Text} (h : ∀ n, n ∈ met ↔ n ∈ met') :
    types.pending met = types.pending met' := by
  simp only [pending, h]

/-- Meeting a type takes its supertypes from what is pending. -/
lemma pending_eq_add (hkeys : types.keys.Nodup) {name : Text} {met : List Text}
    (hhas : types.has name = true) (hnew : name ∉ met) :
    types.pending met = (types.parents name).length + types.pending (name :: met) := by
  obtain ⟨ps, hps⟩ := Table.exists_of_mem_keys ((Table.has_iff_mem_keys _ _).1 hhas)
  have hmem := (Table.get?_eq_some_iff hkeys name ps).1 hps
  rw [parents, hps, Option.getD_some, pending, pending]
  rw [Table.keys] at hkeys
  generalize types.entries = es at hkeys hmem
  induction es with
  | nil => cases hmem
  | cons e es ih =>
    obtain ⟨hfresh, hrest⟩ := List.nodup_cons.1 hkeys
    rcases List.mem_cons.1 hmem with rfl | hmem
    · -- the other entries are of other types, which are met or not as before
      have hothers : es.filter (·.1 ∉ name :: met) = es.filter (·.1 ∉ met) := by
        apply List.filter_congr
        intro e he
        have hne : e.1 ≠ name := fun hname => hfresh (List.mem_map.2 ⟨e, he, hname⟩)
        simp [hne]
      rw [List.filter_cons_of_pos (by simpa using hnew), List.filter_cons_of_neg (by simp), hothers,
        List.foldr_cons]
    · have hne : e.1 ≠ name := fun hname => hfresh (List.mem_map.2 ⟨_, hmem, hname.symm⟩)
      have hsum := ih hrest hmem
      by_cases he : e.1 ∈ met
      · simpa [he] using hsum
      · simp only [List.filter_cons, List.mem_cons, hne, he, or_self, not_false_eq_true,
          decide_true, if_true, List.foldr_cons] at hsum ⊢
        omega

lemma mem_cons_concat {start name n : Text} {found : List Text} :
    n ∈ start :: (found ++ [name]) ↔ n ∈ name :: start :: found := by
  simp only [List.mem_cons, List.mem_append, List.not_mem_nil, or_false]
  tauto

/-- Listing a type takes its supertypes from what is pending. -/
lemma pending_take (hkeys : types.keys.Nodup) {start name : Text} {found : List Text}
    (hnew : name ∉ start :: found) (hhas : types.has name = true) :
    types.pending (start :: found) =
      (types.parents name).length + types.pending (start :: (found ++ [name])) := by
  rw [pending_eq_add hkeys hhas hnew, pending_congr fun _ => mem_cons_concat]

/-- The walk of a type has a step for each name that is or may come in the queue. -/
lemma edgeCount_eq_add (hkeys : types.keys.Nodup) {name : Text} (hhas : types.has name = true) :
    types.edgeCount = (types.parents name).length + types.pending [name] := by
  rw [← pending_nil, pending_eq_add hkeys hhas List.not_mem_nil]

/-- A walk that has steps for all names that are or may come in the queue makes no use of more. -/
lemma visit_of_le (hkeys : types.keys.Nodup) {start : Text} {steps more : Nat}
    {found queue : List Text}
    (hsteps : queue.length + types.pending (start :: found) ≤ steps) (hle : steps ≤ more) :
    visit types start found queue more = visit types start found queue steps := by
  induction steps generalizing more found queue with
  | zero =>
    have hqueue : queue = [] := List.eq_nil_of_length_eq_zero (by omega)
    subst hqueue
    cases more <;> rfl
  | succ steps ih =>
    obtain ⟨more, rfl⟩ : ∃ k, more = k + 1 := ⟨more - 1, by omega⟩
    cases queue with
    | nil => rfl
    | cons name rest =>
      rw [List.length_cons] at hsteps
      rw [visit, visit]
      split
      · exact ih (by omega) (by omega)
      · rename_i hnew
        have hnew : name ∉ start :: found ∧ types.has name = true := by simpa using hnew
        have hpending := pending_take hkeys hnew.1 hnew.2
        apply ih
        · rw [List.length_append]
          omega
        · omega

/-- A walk that takes names from the queue until it is empty, from what is found so far to what is
found in the end. -/
inductive Walk (types : Supertypes) (start : Text) : List Text → List Text → List Text → Prop
  | done {found : List Text} : Walk types start found [] found
  | skip {found rest result : List Text} {name : Text} :
      name ∈ start :: found ∨ types.has name = false → Walk types start found rest result →
      Walk types start found (name :: rest) result
  | take {found rest result : List Text} {name : Text} :
      name ∉ start :: found → types.has name = true →
      Walk types start (found ++ [name]) (rest ++ types.parents name) result →
      Walk types start found (name :: rest) result

/-- With steps for all names that are or may come in the queue, a walk takes them all. -/
lemma walk_visit (hkeys : types.keys.Nodup) {steps : Nat} {found queue : List Text}
    (hsteps : queue.length + types.pending (start :: found) ≤ steps) :
    Walk types start found queue (visit types start found queue steps) := by
  induction steps generalizing found queue with
  | zero =>
    have hqueue : queue = [] := List.eq_nil_of_length_eq_zero (by omega)
    subst hqueue
    exact .done
  | succ steps ih =>
    cases queue with
    | nil => exact .done
    | cons name rest =>
      rw [List.length_cons] at hsteps
      rw [visit]
      split
      · rename_i hskip
        exact .skip (by simpa [or_assoc] using hskip) (ih (by omega))
      · rename_i hnew
        have hnew : name ∉ start :: found ∧ types.has name = true := by simpa using hnew
        have hpending := pending_take hkeys hnew.1 hnew.2
        refine .take hnew.1 hnew.2 (ih ?_)
        rw [List.length_append]
        omega

/-- What a walk has listed of the names that it has met: each type among them, the start left out,
in the order in which they were first met. -/
structure Listed (types : Supertypes) (start : Text) (found met : List Text) : Prop where
  mem_iff : ∀ a, a ∈ found ↔ a ∈ met ∧ a ≠ start ∧ types.has a = true
  ordered : found.Pairwise (met.idxOf · < met.idxOf ·)

namespace Listed

variable {found met : List Text} (h : Listed types start found met) {name : Text}

include h

/-- Meeting more names does not change the order of those that are listed. -/
lemma ordered_append (more : List Text) :
    found.Pairwise ((met ++ more).idxOf · < (met ++ more).idxOf ·) := by
  refine h.ordered.imp_of_mem fun {a b} ha hb hab => ?_
  rwa [List.idxOf_append_of_mem ((h.mem_iff a).1 ha).1,
    List.idxOf_append_of_mem ((h.mem_iff b).1 hb).1]

lemma skip (hskip : name ∈ start :: found ∨ types.has name = false) :
    Listed types start found (met ++ [name]) where
  mem_iff a := by
    rw [h.mem_iff, List.mem_append, List.mem_singleton]
    refine ⟨fun ⟨hmet, htype⟩ => ⟨.inl hmet, htype⟩, ?_⟩
    rintro ⟨hmet | rfl, hne, hhas⟩
    · exact ⟨hmet, hne, hhas⟩
    · rcases hskip with hfound | hnone
      · exact (h.mem_iff a).1 ((List.mem_cons.1 hfound).resolve_left hne)
      · exact absurd hhas (by simp [hnone])
  ordered := h.ordered_append [name]

lemma take (hnew : name ∉ start :: found) (hhas : types.has name = true) :
    Listed types start (found ++ [name]) (met ++ [name]) := by
  obtain ⟨hne, hfound⟩ := not_or.1 (mt List.mem_cons.2 hnew)
  have hmet : name ∉ met := fun hmet => hfound ((h.mem_iff name).2 ⟨hmet, hne, hhas⟩)
  constructor
  · intro a
    rw [List.mem_append, List.mem_append, h.mem_iff, List.mem_singleton]
    constructor
    · rintro (⟨hmet, htype⟩ | rfl)
      · exact ⟨.inl hmet, htype⟩
      · exact ⟨.inr rfl, hne, hhas⟩
    · rintro ⟨hmet | rfl, htype⟩
      · exact .inl ⟨hmet, htype⟩
      · exact .inr rfl
  · rw [List.pairwise_append]
    refine ⟨h.ordered_append [name], List.pairwise_singleton .., fun a ha b hb => ?_⟩
    rw [List.mem_singleton.1 hb, List.idxOf_append_of_mem ((h.mem_iff a).1 ha).1,
      List.idxOf_append_of_notMem hmet]
    exact Nat.lt_add_right _ (List.idxOf_lt_length_of_mem ((h.mem_iff a).1 ha).1)

end Listed

/-- The names that a walk meets are the supertypes of the start and of what it lists. -/
lemma Walk.listed {found queue result : List Text} (h : Walk types start found queue result)
    {met : List Text} (hlisted : Listed types start found met)
    (hmet : met ++ queue = (start :: found).flatMap types.parents) :
    Listed types start result ((start :: result).flatMap types.parents) := by
  induction h generalizing met with
  | done =>
    rw [List.append_nil] at hmet
    rwa [← hmet]
  | skip hskip _ ih =>
    apply ih (hlisted.skip hskip)
    rwa [List.append_assoc, List.singleton_append]
  | @take found rest result name hnew hhas _ ih =>
    apply ih (hlisted.take hnew hhas)
    rw [← List.cons_append, List.flatMap_append, ← hmet, List.flatMap_singleton]
    simp

lemma walk_ancestorsOf (hkeys : types.keys.Nodup) (hhas : types.has start = true) :
    Walk types start [] (types.parents start) (types.ancestorsOf start) :=
  walk_visit hkeys (edgeCount_eq_add hkeys hhas).ge

lemma listed_ancestorsOf (hkeys : types.keys.Nodup) (hhas : types.has start = true) :
    Listed types start (types.ancestorsOf start)
      ((start :: types.ancestorsOf start).flatMap types.parents) := by
  have hnothing : Listed types start [] [] := ⟨by simp, .nil⟩
  exact (walk_ancestorsOf hkeys hhas).listed hnothing (by simp)

/-- The ancestors of a type, with the type itself, are closed under supertypes. -/
lemma ancestorsOf_closed (hkeys : types.keys.Nodup) {name : Text} (hhas : types.has name = true) :
    ∀ n ∈ name :: types.ancestorsOf name, ∀ p ∈ types.parents n, types.has p = true →
      p ∈ name :: types.ancestorsOf name := by
  intro n hn p hp hsuper
  have hmet : p ∈ (name :: types.ancestorsOf name).flatMap types.parents :=
    List.mem_flatMap.2 ⟨n, hn, hp⟩
  by_cases hne : p = name
  · rw [hne]
    exact List.mem_cons_self ..
  · exact List.mem_cons_of_mem _
      (((listed_ancestorsOf hkeys hhas).mem_iff p).2 ⟨hmet, hne, hsuper⟩)

/-- A type declares another one as a supertype. -/
def Extends (types : Supertypes) (n p : Text) : Prop := p ∈ types.parents n ∧ types.has p = true

/-- The ancestors of a type are the other types that can be reached from it. -/
lemma mem_ancestorsOf_iff_reached (hkeys : types.keys.Nodup) (hhas : types.has start = true)
    {a : Text} : a ∈ types.ancestorsOf start ↔
      a ≠ start ∧ Relation.TransGen types.Extends start a := by
  constructor
  · intro ha
    refine ⟨(((listed_ancestorsOf hkeys hhas).mem_iff a).1 ha).2.1, ?_⟩
    revert a
    apply ancestorsOf_induction
    · exact fun p hp hsuper => .single ⟨hp, hsuper⟩
    · exact fun n hn p hp hsuper => hn.tail ⟨hp, hsuper⟩
  · rintro ⟨hne, hreached⟩
    have hclosed := ancestorsOf_closed hkeys hhas
    have hmem : a ∈ start :: types.ancestorsOf start := by
      clear hne
      induction hreached with
      | single hp => exact hclosed start (List.mem_cons_self ..) _ hp.1 hp.2
      | tail _ hp ih => exact hclosed _ ih _ hp.1 hp.2
    exact (List.mem_cons.1 hmem).resolve_left hne

end Supertypes

namespace Model

variable {m : Model} (h : m.Consistent)

include h

lemma extends_of_inherits {n p : Text} (hp : m.Inherits n p) :
    m.supertypes.has n = true ∧ m.supertypes.Extends n p := by
  obtain ⟨⟨t, ht, rfl, hparents⟩, hsuper⟩ := hp
  have hentry : m.supertypes.get? t.qualifiedName = some t.info.parents := by
    rw [supertypes, Table.get?_ofEntries]
    · exact List.mem_map.2 ⟨t, ht, rfl⟩
    · rw [List.map_map]
      exact typeNames_nodup h.distinct
  refine ⟨(has_supertypes h.distinct).2 ⟨t, ht, rfl⟩, ?_, (has_supertypes h.distinct).2 hsuper⟩
  rw [Supertypes.parents, hentry]
  exact hparents

/-- Every other type that a type inherits from is an ancestor of it. -/
lemma mem_ancestorsOf_of_inherits {n a : Text} (hinherits : Relation.TransGen m.Inherits n a)
    (hne : a ≠ n) : a ∈ m.ancestorsOf n := by
  have hkeys : m.supertypes.keys.Nodup := by
    rw [keys_supertypes h.distinct]
    exact typeNames_nodup h.distinct
  obtain ⟨p, hp, -⟩ := Relation.TransGen.head'_iff.1 hinherits
  have hhas := (extends_of_inherits h hp).1
  rw [ancestorsOf, h.ancestors, get?_ancestors, if_pos ((Table.has_iff_mem_keys _ _).1 hhas)]
  have hsteps : m.Inherits ≤ m.supertypes.Extends := fun _ _ hp => (extends_of_inherits h hp).2
  exact (Supertypes.mem_ancestorsOf_iff_reached hkeys hhas).2
    ⟨hne, Relation.TransGen.mono hsteps n a hinherits⟩

/-- Without cycles the ancestors of a type are the types that it inherits from. -/
theorem mem_ancestorsOf_iff (ha : m.Acyclic) {n a : Text} :
    a ∈ m.ancestorsOf n ↔ Relation.TransGen m.Inherits n a := by
  refine ⟨h.inherits_of_mem_ancestorsOf, fun hinherits => ?_⟩
  apply mem_ancestorsOf_of_inherits h hinherits
  rintro rfl
  exact ha a hinherits

end Model

end ApiDocs
