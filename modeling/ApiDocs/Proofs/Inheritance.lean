import ApiDocs.Proofs.Lineage
import ApiDocs.View.MergedDoc

/-!
# Merged documentation

Without cycles among the supertypes, the documentation of an entity is merged with that of members
of lower types only. An entry that stands for a member still being merged is therefore never read,
and the one table for all entities gives each its documentation whatever the order.
-/

namespace ApiDocs.Model

variable {m : Model}

/-! ### Overridden members -/

lemma mem_entities_of_mem_overridden {e o : Entity} (ho : o ∈ m.overridden e) : o ∈ m.entities := by
  rw [overridden] at ho
  split at ho
  · split at ho
    · obtain ⟨a, -, hfind⟩ := List.mem_filterMap.1 ho
      exact mem_entities_of_mem_membersOf (List.mem_of_find?_eq_some hfind)
    · cases ho
  · cases ho

/-- An overridden member is in the model, and its type is one that the member's type inherits
from. -/
lemma Consistent.inherits_of_mem_overridden (h : m.Consistent) {e o : Entity}
    (ho : o ∈ m.overridden e) :
    o ∈ m.entities ∧ Relation.TransGen m.Inherits e.scope o.scope := by
  rw [overridden] at ho
  split at ho
  · cases htype : m.findType? e.scope with
    | none => simp [htype] at ho
    | some t =>
      obtain ⟨-, hname⟩ := h.findType?_eq_some_iff.1 htype
      simp only [htype, List.mem_filterMap, hname] at ho
      obtain ⟨a, ha, hfind⟩ := ho
      have hmem := List.mem_of_find?_eq_some hfind
      have hinherits := h.inherits_of_mem_ancestorsOf ha
      refine ⟨mem_entities_of_mem_membersOf hmem, ?_⟩
      -- the ancestor is a type, so its members say that it is their scope
      obtain ⟨t', ht', rfl⟩ : ∃ t' ∈ m.types, t'.qualifiedName = a := by
        cases hinherits with
        | single hp => exact hp.2
        | tail _ hp => exact hp.2
      rw [h.membersOf_eq ht'] at hmem
      have hscope : o.scope = t'.qualifiedName := by
        simpa using ((Bool.and_eq_true _ _).mp (List.mem_filter.1 hmem).2).2
      rw [hscope]
      exact hinherits
  · cases ho

/-! ### The documentation without a table -/

/-- The documentation of an entity, merged over at most a number of levels. -/
def docAt (m : Model) : Nat → Entity → MergedDoc
  | 0, e => .own e
  | levels + 1, e => mergeDoc e ((m.overridden e).map fun o => (o, m.docAt levels o))

/-- The documentation of an entity, merged over all levels. -/
def fullDoc (m : Model) (e : Entity) : MergedDoc := m.docAt m.mergeDepth e

lemma height_lt_mergeDepth (m : Model) (e : Entity) : m.height e.scope < m.mergeDepth :=
  Nat.lt_succ_of_le (m.height_le e.scope)

section

variable (h : m.Consistent) (ha : m.Acyclic)

include h ha

lemma height_lt_of_mem_overridden {e o : Entity} (ho : o ∈ m.overridden e) :
    m.height o.scope < m.height e.scope :=
  ha.height_lt (h.inherits_of_mem_overridden ho).2

/-- What holds of a member if it holds of all that it overrides, holds of every entity. -/
lemma overridden_induction {P : Entity → Prop}
    (hstep : ∀ e ∈ m.entities, (∀ o ∈ m.overridden e, P o) → P e) {e : Entity}
    (he : e ∈ m.entities) : P e := by
  induction hheight : m.height e.scope using Nat.strong_induction_on generalizing e with
  | _ n ih =>
    refine hstep e he fun o ho => ?_
    have hlower := height_lt_of_mem_overridden h ha ho
    exact ih _ (hheight ▸ hlower) (mem_entities_of_mem_overridden ho) rfl

/-- More levels than the type is high change nothing. -/
lemma docAt_succ {levels : Nat} {e : Entity} (he : m.height e.scope < levels) :
    m.docAt (levels + 1) e = m.docAt levels e := by
  induction levels generalizing e with
  | zero => cases he
  | succ levels ih =>
    rw [docAt, docAt]
    congr 1
    apply List.map_congr_left
    intro o ho
    have hlt := height_lt_of_mem_overridden h ha ho
    rw [ih (by omega)]

/-- The documentation of an entity is merged with that of the members it overrides. -/
lemma fullDoc_eq (e : Entity) :
    m.fullDoc e = mergeDoc e ((m.overridden e).map fun o => (o, m.fullDoc o)) := by
  rw [fullDoc, ← docAt_succ h ha (height_lt_mergeDepth m e), docAt]
  rfl

end

/-! ### The documentation with a table -/

/-- The merged documentation of an entity, with the docs merged so far, where any documentation may
stand in for the members that are being merged. -/
def mergeFromWith (m : Model) (standIn : Entity → MergedDoc) :
    Nat → Entity → Table MergedDoc → MergedDoc × Table MergedDoc
  | 0, e, docs => (standIn e, docs)
  | depth + 1, e, docs =>
    match docs.get? e.qualifiedName with
    | some doc => (doc, docs)
    | none =>
      let (above, docs) := throughTable
        (fun o docs => let (doc, docs) := mergeFromWith m standIn depth o docs; ((o, doc), docs))
        (m.overridden e) (docs.put e.qualifiedName (standIn e))
      let doc := mergeDoc e above
      (doc, docs.put e.qualifiedName doc)

/-- The merged documentation of entities, in the order given, with one table for all. -/
def mergedInOrder (m : Model) (standIn : Entity → MergedDoc) (order : List Entity) :
    List (Text × MergedDoc) :=
  (throughTable
    (fun e docs =>
      let (doc, docs) := m.mergeFromWith standIn m.mergeDepth e docs
      ((e.qualifiedName, doc), docs))
    order .empty).1

/-- A member that is being merged counts with its own documentation. -/
lemma mergeFrom_eq (m : Model) (depth : Nat) : m.mergeFrom depth = m.mergeFromWith .own depth := by
  induction depth with
  | zero => rfl
  | succ depth ih =>
    funext e docs
    cases hget : docs.get? e.qualifiedName with
    | some d => simp only [mergeFrom, mergeFromWith, hget]
    | none => simp only [mergeFrom, mergeFromWith, hget, ih]

lemma mergedDocs_eq_mergedInOrder (m : Model) :
    m.mergedDocs = m.mergedInOrder .own m.entities := by
  rw [mergedDocs, mergedInOrder, mergeFrom_eq]

/-- What stands in a table for an entity is its documentation. -/
def Settled (m : Model) (docs : Table MergedDoc) (e : Entity) : Prop :=
  ∀ d, docs.get? e.qualifiedName = some d → d = m.fullDoc e

lemma Settled.put {docs : Table MergedDoc} {e x : Entity} {d : MergedDoc}
    (hx : m.Settled docs x) (hne : x.qualifiedName ≠ e.qualifiedName) :
    m.Settled (docs.put e.qualifiedName d) x := by
  intro d' hd'
  rw [Table.get?_put, if_neg hne] at hd'
  exact hx d' hd'

/-- A step that gives the right results from each table of a sort, and leaves a table of that sort,
does so all along a list. -/
lemma throughTable_spec {α β : Type} (step : α → Table MergedDoc → β × Table MergedDoc) {g : α → β}
    {P : Table MergedDoc → Prop} {as : List α}
    (hstep : ∀ a ∈ as, ∀ docs, P docs → (step a docs).1 = g a ∧ P (step a docs).2)
    {docs : Table MergedDoc} (hdocs : P docs) :
    (throughTable step as docs).1 = as.map g ∧ P (throughTable step as docs).2 := by
  induction as generalizing docs with
  | nil => exact ⟨rfl, hdocs⟩
  | cons a as ih =>
    obtain ⟨hresult, hafter⟩ := hstep a (List.mem_cons_self ..) docs hdocs
    obtain ⟨hresults, hend⟩ := ih (fun b hb => hstep b (List.mem_cons_of_mem _ hb)) hafter
    rw [throughTable, List.map_cons, ← hresult, ← hresults]
    exact ⟨rfl, hend⟩

section

variable (h : m.Consistent) (ha : m.Acyclic) (standIn : Entity → MergedDoc)

include h ha

/-- From a table that is right about the entities that are no higher, an entity gets its
documentation. What the table says rightly of other entities stays so. -/
theorem mergeFromWith_spec {depth : Nat} {e : Entity} (he : e ∈ m.entities)
    (hdepth : m.height e.scope < depth) {docs : Table MergedDoc}
    (hdocs : ∀ x ∈ m.entities, m.height x.scope ≤ m.height e.scope → m.Settled docs x) :
    (m.mergeFromWith standIn depth e docs).1 = m.fullDoc e ∧
      ∀ x ∈ m.entities, m.Settled docs x →
        m.Settled (m.mergeFromWith standIn depth e docs).2 x := by
  induction depth generalizing e docs with
  | zero => cases hdepth
  | succ depth ih =>
    rw [mergeFromWith]
    cases hget : docs.get? e.qualifiedName with
    | some d => exact ⟨hdocs e he (Nat.le_refl _) d hget, fun x _ hx => hx⟩
    | none =>
      -- what stands in for `e` itself may be wrong, but only lower entities are read
      let started := docs.put e.qualifiedName (standIn e)
      let P (docs : Table MergedDoc) : Prop :=
        ∀ x ∈ m.entities, m.Settled started x → m.Settled docs x
      have hlower : ∀ x ∈ m.entities, m.height x.scope < m.height e.scope →
          m.Settled started x := by
        intro x hx hlt
        apply (hdocs x hx (Nat.le_of_lt hlt)).put
        intro hname
        rw [List.inj_on_of_nodup_map h.distinct hx he hname] at hlt
        exact Nat.lt_irrefl _ hlt
      have hstep : ∀ o ∈ m.overridden e, ∀ docs, P docs →
          (o, (m.mergeFromWith standIn depth o docs).1) = (o, m.fullDoc o) ∧
            P (m.mergeFromWith standIn depth o docs).2 := by
        intro o ho docs hP
        have hmem := (h.inherits_of_mem_overridden ho).1
        have hlt := height_lt_of_mem_overridden h ha ho
        obtain ⟨hdoc, hkeeps⟩ := ih hmem (by omega) fun x hx hle => hP x hx (hlower x hx (by omega))
        exact ⟨by rw [hdoc], fun x hx hstarted => hkeeps x hx (hP x hx hstarted)⟩
      obtain ⟨habove, hend⟩ := throughTable_spec
        (fun o docs => ((o, (m.mergeFromWith standIn depth o docs).1),
          (m.mergeFromWith standIn depth o docs).2)) hstep (fun _ _ hx => hx)
      have hdoc : mergeDoc e ((throughTable (fun o docs =>
          ((o, (m.mergeFromWith standIn depth o docs).1),
            (m.mergeFromWith standIn depth o docs).2)) (m.overridden e) started).1) =
          m.fullDoc e := by
        rw [habove, fullDoc_eq h ha]
      refine ⟨hdoc, fun x hx hright => ?_⟩
      by_cases hname : x.qualifiedName = e.qualifiedName
      · intro d hd
        simp only [Table.get?_put, hname, if_true, Option.some_inj] at hd
        rw [← hd, List.inj_on_of_nodup_map h.distinct hx he hname]
        exact hdoc
      · exact (hend x hx (hright.put hname)).put hname

/-- With one table for all, entities get their documentation in whatever order they come and
whatever stands in for members that are being merged. -/
theorem mergedInOrder_eq {order : List Entity} (horder : ∀ e ∈ order, e ∈ m.entities) :
    m.mergedInOrder standIn order = order.map fun e => (e.qualifiedName, m.fullDoc e) := by
  let P (docs : Table MergedDoc) : Prop := ∀ x ∈ m.entities, m.Settled docs x
  have hstep : ∀ e ∈ order, ∀ docs, P docs →
      (e.qualifiedName, (m.mergeFromWith standIn m.mergeDepth e docs).1) =
        (e.qualifiedName, m.fullDoc e) ∧ P (m.mergeFromWith standIn m.mergeDepth e docs).2 := by
    intro e he docs hP
    obtain ⟨hdoc, hkeeps⟩ := mergeFromWith_spec h ha standIn (horder e he)
      (height_lt_mergeDepth m e) fun x hx _ => hP x hx
    exact ⟨by rw [hdoc], fun x hx => hkeeps x hx (hP x hx)⟩
  have hempty : P .empty := fun x _ d hd => by simp at hd
  exact (throughTable_spec (fun e docs =>
    ((e.qualifiedName, (m.mergeFromWith standIn m.mergeDepth e docs).1),
      (m.mergeFromWith standIn m.mergeDepth e docs).2)) hstep hempty).1

end

section

variable (h : m.Consistent) (ha : m.Acyclic)

include h ha

/-- With one table for all entities, each gets the documentation merged over all levels. -/
theorem mergedDocs_eq : m.mergedDocs = m.entities.map fun e => (e.qualifiedName, m.fullDoc e) := by
  rw [mergedDocs_eq_mergedInOrder, mergedInOrder_eq h ha .own fun _ he => he]

/-- By itself, an entity gets the documentation merged over all levels. -/
theorem mergedDoc_eq {e : Entity} (he : e ∈ m.entities) : m.mergedDoc e = m.fullDoc e := by
  have hempty : ∀ x ∈ m.entities, m.height x.scope ≤ m.height e.scope → m.Settled .empty x :=
    fun x _ _ d hd => by simp at hd
  rw [mergedDoc, mergeFrom_eq]
  exact (mergeFromWith_spec h ha .own he (height_lt_mergeDepth m e) hempty).1

end

end ApiDocs.Model
