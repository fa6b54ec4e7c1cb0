import ApiDocs.Proofs.Ancestors
import ApiDocs.Proofs.PageAnchors

/-!
# Paths of superclasses

The page of a type shows its superclass, the superclass of that, and so on. The walk comes to an end
of its own accord, also where superclasses go round in a circle, and it takes the one path that
repeats no name and goes as far as it can. The types on the path are ancestors of the type.
-/

namespace ApiDocs

open Text

namespace Model

variable {m : Model}

/-! ### Superclasses -/

/-- A type of the model names its superclass, which may be outside the model. -/
def Superclass (m : Model) (n p : Text) : Prop :=
  p ≠ [] ∧ ∃ t ∈ m.types, t.qualifiedName = n ∧ t.info.supertype = some p

/-- From a name the path leads from each type to its superclass, repeats no name, and ends only at a
name that has no superclass or at one whose superclass was met before. -/
structure SuperclassPath (m : Model) (start : Text) (path : List Text) : Prop where
  distinct : (start :: path).Nodup
  chain : (start :: path).IsChain m.Superclass
  ends : ∀ n ∈ (start :: path).getLast?, ∀ p, m.Superclass n p → p ∈ start :: path

/-- The walk over superclasses, from the names that were met and the name at hand to the names that
are listed. -/
inductive SuperclassWalk (m : Model) : List Text → Option Text → List Text → Prop
  | stop {met : List Text} {current : Option Text} :
      (∀ name ∈ current, name = [] ∨ name ∈ met) → SuperclassWalk m met current []
  | step {met path : List Text} {name : Text} : name ≠ [] → name ∉ met →
      SuperclassWalk m (name :: met) ((m.findType? name).bind (·.info.supertype)) path →
      SuperclassWalk m met (some name) (name :: path)

lemma superclassWalk_nil_iff {met : List Text} {current : Option Text} :
    m.SuperclassWalk met current [] ↔ ∀ name ∈ current, name = [] ∨ name ∈ met := by
  constructor
  · intro h
    cases h with
    | stop hstop => exact hstop
  · exact .stop

lemma superclassWalk_cons_iff {met path : List Text} {current : Option Text} {name : Text} :
    m.SuperclassWalk met current (name :: path) ↔ current = some name ∧ name ≠ [] ∧ name ∉ met ∧
      m.SuperclassWalk (name :: met) ((m.findType? name).bind (·.info.supertype)) path := by
  constructor
  · intro h
    cases h with
    | step hname hnew hrest => exact ⟨rfl, hname, hnew, hrest⟩
  · rintro ⟨rfl, hname, hnew, hrest⟩
    exact .step hname hnew hrest

/-- A walk lists one thing only. -/
lemma SuperclassWalk.unique {met path path' : List Text} {current : Option Text}
    (h : m.SuperclassWalk met current path) (h' : m.SuperclassWalk met current path') :
    path = path' := by
  induction h generalizing path' with
  | stop hstop =>
    cases h' with
    | stop => rfl
    | step hname hnew => exact absurd (hstop _ rfl) (not_or.2 ⟨hname, hnew⟩)
  | step hname hnew _ ih =>
    cases h' with
    | stop hstop => exact absurd (hstop _ rfl) (not_or.2 ⟨hname, hnew⟩)
    | step _ _ hrest => rw [ih hrest]

section

variable (h : m.Consistent)

include h

lemma superclass_iff {n p : Text} :
    m.Superclass n p ↔ (m.findType? n).bind (·.info.supertype) = some p ∧ p ≠ [] := by
  simp only [Superclass, Option.bind_eq_some_iff, h.findType?_eq_some_iff, and_assoc]
  exact and_comm.trans (by simp only [and_assoc, ← exists_and_right])

/-! ### The walk takes the path -/

/-- A walk from a type takes a path that avoids what was met before, and no other one. -/
lemma superclassWalk_iff {met path : List Text} {n : Text} :
    m.SuperclassWalk met ((m.findType? n).bind (·.info.supertype)) path ↔
      path.Nodup ∧ (∀ p ∈ path, p ∉ met) ∧ (n :: path).IsChain m.Superclass ∧
        ∀ last ∈ (n :: path).getLast?, ∀ p, m.Superclass last p → p ∈ met ∨ p ∈ path := by
  induction path generalizing met n with
  | nil =>
    simp only [superclassWalk_nil_iff, List.nodup_nil, List.not_mem_nil, false_imp_iff,
      implies_true, List.IsChain.singleton, List.getLast?_singleton, Option.mem_some_iff,
      forall_eq', or_false, true_and, superclass_iff h, and_imp]
    simp only [Option.mem_def, or_iff_not_imp_left]
  | cons name path ih =>
    rw [superclassWalk_cons_iff, ih, List.nodup_cons, List.isChain_cons_cons,
      List.getLast?_cons_cons, superclass_iff h]
    simp only [List.mem_cons, not_or, forall_eq_or_imp]
    constructor
    · rintro ⟨hsuper, hname, hnew, hdistinct, havoids, hchain, hends⟩
      refine ⟨⟨fun hmem => (havoids name hmem).1 rfl, hdistinct⟩,
        ⟨hnew, fun p hp => (havoids p hp).2⟩, ⟨⟨hsuper, hname⟩, hchain⟩, fun last hlast p hp => ?_⟩
      have := hends last hlast p hp
      tauto
    · rintro ⟨⟨hfresh, hdistinct⟩, ⟨hnew, havoids⟩, ⟨⟨hsuper, hname⟩, hchain⟩, hends⟩
      refine ⟨hsuper, hname, hnew, hdistinct, fun p hp => ⟨?_, havoids p hp⟩, hchain,
        fun last hlast p hp => ?_⟩
      · rintro rfl
        exact hfresh hp
      · have := hends last hlast p hp
        tauto

/-- What a walk from a type lists is the path of its superclasses. -/
lemma superclassWalk_iff_path {t : TypeEntity} (ht : t ∈ m.types) {path : List Text} :
    m.SuperclassWalk [t.qualifiedName] t.info.supertype path ↔
      m.SuperclassPath t.qualifiedName path := by
  have hsupertype : t.info.supertype =
      (m.findType? t.qualifiedName).bind (·.info.supertype) := by
    rw [h.findType?_of_mem ht]
    rfl
  rw [hsupertype, superclassWalk_iff h]
  constructor
  · rintro ⟨hdistinct, havoids, hchain, hends⟩
    refine ⟨List.nodup_cons.2 ⟨fun hmem => havoids _ hmem (by simp), hdistinct⟩, hchain, ?_⟩
    simpa using hends
  · rintro ⟨hdistinct, hchain, hends⟩
    obtain ⟨hfresh, hdistinct⟩ := List.nodup_cons.1 hdistinct
    refine ⟨hdistinct, fun p hp hmem => ?_, hchain, by simpa using hends⟩
    exact hfresh (List.mem_singleton.1 hmem ▸ hp)

end

/-! ### The walk ends -/

/-- How many types have not been met. -/
def unmetCount (m : Model) (met : List Text) : Nat :=
  (m.types.filter (·.qualifiedName ∉ met)).length

lemma unmetCount_lt {t : TypeEntity} (ht : t ∈ m.types) {met : List Text}
    (hnew : t.qualifiedName ∉ met) : m.unmetCount (t.qualifiedName :: met) < m.unmetCount met := by
  have hothers : m.types.filter (·.qualifiedName ∉ t.qualifiedName :: met) =
      (m.types.filter (·.qualifiedName ∉ met)).filter (·.qualifiedName ≠ t.qualifiedName) := by
    rw [List.filter_filter]
    apply List.filter_congr
    intro u _
    simp
  rw [unmetCount, unmetCount, hothers, List.length_filter_lt_length_iff_exists]
  exact ⟨t, by simp [ht, hnew], by simp⟩

end Model

namespace Page

open Model

variable {m : Model}

lemma superclassPath_none (m : Model) (met : List Text) (steps : Nat) :
    superclassPath m met none steps = [] := by
  cases steps <;> rfl

/-- With a step for each type that has not been met and two more, the walk comes to its end. -/
lemma superclassWalk_superclassPath (h : m.Consistent) {steps : Nat} {met : List Text}
    {current : Option Text} (hsteps : m.unmetCount met + 2 ≤ steps) :
    m.SuperclassWalk met current (superclassPath m met current steps) := by
  induction steps generalizing met current with
  | zero => omega
  | succ steps ih =>
    cases current with
    | none => exact .stop (by simp)
    | some name =>
      rw [superclassPath]
      split
      · rename_i hstop
        exact .stop (by simpa using hstop)
      · rename_i hgo
        obtain ⟨hname, hnew⟩ : name ≠ [] ∧ name ∉ met := by simpa using hgo
        refine .step hname hnew ?_
        cases hfind : m.findType? name with
        | none =>
          -- outside the model no superclass is named, and no step is needed
          rw [Option.bind_none, superclassPath_none]
          exact .stop (by simp)
        | some t =>
          obtain ⟨ht, rfl⟩ := h.findType?_eq_some_iff.1 hfind
          have hfewer := unmetCount_lt ht hnew
          exact ih (by omega)

lemma superclassWalk_superclasses (h : m.Consistent) {t : TypeEntity} (ht : t ∈ m.types) :
    m.SuperclassWalk [t.qualifiedName] t.info.supertype (superclasses m t) := by
  apply superclassWalk_superclassPath h
  calc m.unmetCount [t.qualifiedName] + 2
    _ ≤ m.unmetCount [] + 1 := Nat.succ_le_succ (unmetCount_lt ht (by simp))
    _ ≤ m.types.length + 1 := Nat.succ_le_succ (List.length_filter_le _ _)
    _ ≤ m.entities.length + 1 := Nat.succ_le_succ (List.length_filterMap_le _ _)

end Page

namespace Model

variable {m : Model}

/-! ### Superclasses are ancestors -/

/-- A type inherits from every type that its superclasses lead to. -/
lemma inherits_of_superclass {n a : Text} (h : Relation.TransGen m.Superclass n a)
    (ha : ∃ t ∈ m.types, t.qualifiedName = a) : Relation.TransGen m.Inherits n a := by
  have hinherits {n p : Text} (hsuper : m.Superclass n p)
      (hp : ∃ t ∈ m.types, t.qualifiedName = p) : m.Inherits n p := by
    obtain ⟨hne, t, ht, hname, hsupertype⟩ := hsuper
    exact ⟨⟨t, ht, hname, by simp [TypeInfo.parents, hsupertype, hne]⟩, hp⟩
  induction h with
  | single hsuper => exact .single (hinherits hsuper ha)
  | tail _ hsuper ih =>
    obtain ⟨-, t, ht, hname, -⟩ := id hsuper
    exact (ih ⟨t, ht, hname⟩).tail (hinherits hsuper ha)

lemma SuperclassPath.reached {start : Text} {path : List Text} (h : m.SuperclassPath start path)
    {a : Text} (ha : a ∈ path) : Relation.TransGen m.Superclass start a := by
  have hchain := h.chain.imp fun _ _ => Relation.TransGen.single
  exact (List.pairwise_cons.1 hchain.pairwise).1 a ha

end Model

open Page Model

/-- The walk over the superclasses of an extracted type ends, whatever superclasses are declared. It
takes the one path of its superclasses, which is shown from its end on, with the title of the type
as the last; there is no section if the path is empty. The types on the path are ancestors. -/
theorem inheritanceLines_eq {n : Nat} {limit : Visibility} {ds : List Declaration} {x : Extracted}
    (h : extract n limit ds = .ok x) {s : Source} (hs : s.model = x.model) (level : Nat)
    {t : TypeEntity} (ht : t ∈ x.model.types) :
    ∃ path, x.model.SuperclassWalk [t.qualifiedName] t.info.supertype path ∧
      (∀ path', x.model.SuperclassPath t.qualifiedName path' ↔ path' = path) ∧
      inheritanceLines s level t =
        (if path = [] then []
        else
          let shown := t.title :: path.map fun name => s.linking.linkOr name (Markdown.code name)
          [.heading level "Inheritance", .text (joinWith " → " shown.reverse), blank]) ∧
      ∀ a ∈ path, (∃ u ∈ x.model.types, u.qualifiedName = a) →
        a ∈ x.model.ancestorsOf t.qualifiedName := by
  have hc : x.model.Consistent := consistent_of_extract h
  have hwalk := superclassWalk_superclasses hc ht
  have hpath := (superclassWalk_iff_path hc ht).1 hwalk
  refine ⟨superclasses x.model t, hwalk, fun path' => ⟨fun hpath' => ?_, ?_⟩, ?_,
    fun a ha htype => ?_⟩
  · exact ((superclassWalk_iff_path hc ht).2 hpath').unique hwalk
  · rintro rfl
    exact hpath
  · rw [inheritanceLines, hs]
    cases superclasses x.model t <;> simp
  · have hne : a ≠ t.qualifiedName := by
      rintro rfl
      exact (List.nodup_cons.1 hpath.distinct).1 ha
    exact mem_ancestorsOf_of_inherits hc (inherits_of_superclass (hpath.reached ha) htype) hne

/-- A type below two types that are superclasses of each other. -/
def circularShapes : List Declaration :=
  [ { kind := "package", name := "shapes" },
    { kind := "class", name := "Square", scope := "shapes", superclass := some "Box" },
    { kind := "class", name := "Box", scope := "shapes", superclass := some "Shape" },
    { kind := "class", name := "Shape", scope := "shapes", superclass := some "Box" } ]

theorem inheritanceLines_eq_circularShapes :
    ∃ x v, extract 0 .declaring circularShapes = .ok x ∧ x.model.view true = .ok v ∧
      ∃ t ∈ x.model.types, t.qualifiedName = "shapes.Square" ∧
        x.model.SuperclassPath t.qualifiedName ["shapes.Box", "shapes.Shape"] ∧
        inheritanceLines (x.model.source v .defaults {}) 2 t =
          [ .heading 2 "Inheritance",
            .text "[Shape](/api/shapes/Shape) → [Box](/api/shapes/Box) → Square", blank ] ∧
        ("shapes.Shape" : Text) ∈ x.model.ancestorsOf t.qualifiedName := by
  obtain ⟨x, hx, v, hv, ⟨t, ht, hname, hlisted, htitle⟩, htype, hshape, hbox⟩ :
      ∃ x, extract 0 .declaring circularShapes = .ok x ∧ ∃ v, x.model.view true = .ok v ∧
        (∃ t ∈ x.model.types, t.qualifiedName = "shapes.Square" ∧
          superclasses x.model t = (["shapes.Box", "shapes.Shape"] : List Text) ∧
          t.title = "Square") ∧
        (∃ u ∈ x.model.types, u.qualifiedName = "shapes.Shape") ∧
        (x.model.source v .defaults {}).linking.linkOr "shapes.Shape"
          (Markdown.code "shapes.Shape") = "[Shape](/api/shapes/Shape)" ∧
        (x.model.source v .defaults {}).linking.linkOr "shapes.Box"
          (Markdown.code "shapes.Box") = "[Box](/api/shapes/Box)" := by
    refine ⟨_, rfl, _, rfl, ?_⟩
    decide +kernel
  have hc : x.model.Consistent := consistent_of_extract hx
  obtain ⟨path, hwalk, hpath, hlines, hancestors⟩ :=
    inheritanceLines_eq hx (s := x.model.source v .defaults {}) rfl 2 ht
  obtain rfl : path = (["shapes.Box", "shapes.Shape"] : List Text) :=
    (hwalk.unique (superclassWalk_superclasses hc ht)).trans hlisted
  refine ⟨x, v, hx, hv, t, ht, hname, (hpath _).2 rfl, ?_, ?_⟩
  · rw [hlines, List.map_cons, List.map_cons, hshape, hbox, htitle]
    rfl
  · exact hancestors _ (by simp) htype

end ApiDocs
