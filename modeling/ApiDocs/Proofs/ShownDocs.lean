import ApiDocs.Proofs.Emission
import ApiDocs.Proofs.Inheritance

/-!
# What holds of all documentation shown

What holds of the documentation that entities have of their own, and carries over to an entity when
documentation of other entities is merged into its own, holds of all documentation in a view. That
takes no order on the types: it is so for supertypes with cycles too.
-/

namespace ApiDocs.Model

variable {m : Model}

/-! ### Passing a table along -/

section

variable {α β γ : Type} (step : α → Table MergedDoc → β × Table MergedDoc)

/-- What each step gives from a table of a sort, leaving a table of that sort, is given all along a
list. -/
lemma throughTable_forall {S : β → Prop} {P : Table MergedDoc → Prop} {as : List α}
    (hstep : ∀ a ∈ as, ∀ docs, P docs → S (step a docs).1 ∧ P (step a docs).2)
    {docs : Table MergedDoc} (hdocs : P docs) :
    (∀ b ∈ (throughTable step as docs).1, S b) ∧ P (throughTable step as docs).2 := by
  induction as generalizing docs with
  | nil => exact ⟨fun _ hb => absurd hb List.not_mem_nil, hdocs⟩
  | cons a as ih =>
    obtain ⟨hresult, hafter⟩ := hstep a (List.mem_cons_self ..) docs hdocs
    obtain ⟨hresults, hend⟩ := ih (fun b hb => hstep b (List.mem_cons_of_mem _ hb)) hafter
    exact ⟨List.forall_mem_cons.2 ⟨hresult, hresults⟩, hend⟩

/-- What a result says of its element alone is known without the table. -/
lemma map_throughTable {f : β → γ} {g : α → γ} (h : ∀ a docs, f (step a docs).1 = g a)
    (as : List α) (docs : Table MergedDoc) : (throughTable step as docs).1.map f = as.map g := by
  induction as generalizing docs with
  | nil => rfl
  | cons a as ih => rw [throughTable, List.map_cons, List.map_cons, h, ih]

end

/-! ### What merging hands on -/

/-- A property of documentation that merging hands on: entities have it on their own, and they keep
it when documentation of members that they override is merged in, if that has it. -/
structure Inherited (m : Model) (Q : Entity → MergedDoc → Prop) : Prop where
  own : ∀ e ∈ m.entities, Q e (.own e)
  merge : ∀ e ∈ m.entities, ∀ above : List Overridden,
    (∀ o ∈ above, o.1 ∈ m.overridden e ∧ Q o.1 o.2) → Q e (mergeDoc e above)

/-- Documentation merged over any number of levels has the property. -/
lemma Inherited.docAt {Q : Entity → MergedDoc → Prop} (h : m.Inherited Q) (levels : Nat)
    {e : Entity} (he : e ∈ m.entities) : Q e (m.docAt levels e) := by
  induction levels generalizing e with
  | zero => exact h.own e he
  | succ levels ih =>
    rw [Model.docAt]
    refine h.merge e he _ fun p hp => ?_
    obtain ⟨o, ho, rfl⟩ := List.mem_map.1 hp
    exact ⟨ho, ih (mem_entities_of_mem_overridden ho)⟩

/-- What stands in a table for entities has a property. -/
def Holding (m : Model) (Q : Entity → MergedDoc → Prop) (docs : Table MergedDoc) : Prop :=
  ∀ e ∈ m.entities, ∀ d, docs.get? e.qualifiedName = some d → Q e d

section

variable {Q : Entity → MergedDoc → Prop} (hdistinct : m.names.Nodup)

include hdistinct

lemma Holding.put {docs : Table MergedDoc} (h : m.Holding Q docs) {e : Entity}
    (he : e ∈ m.entities) {d : MergedDoc} (hd : Q e d) :
    m.Holding Q (docs.put e.qualifiedName d) := by
  intro x hx d' hd'
  rw [Table.get?_put] at hd'
  split at hd'
  · rename_i hname
    cases hd'
    rw [List.inj_on_of_nodup_map hdistinct hx he hname]
    exact hd
  · exact h x hx d' hd'

namespace Inherited

variable (h : m.Inherited Q)

include h

/-- Merging keeps the property in the table and gives documentation that has it. -/
theorem mergeFrom {depth : Nat} {e : Entity} (he : e ∈ m.entities) {docs : Table MergedDoc}
    (hdocs : m.Holding Q docs) :
    Q e (m.mergeFrom depth e docs).1 ∧ m.Holding Q (m.mergeFrom depth e docs).2 := by
  induction depth generalizing e docs with
  | zero => exact ⟨h.own e he, hdocs⟩
  | succ depth ih =>
    rw [Model.mergeFrom]
    cases hget : docs.get? e.qualifiedName with
    | some d => exact ⟨hdocs e he d hget, hdocs⟩
    | none =>
      have hstep : ∀ o ∈ m.overridden e, ∀ docs, m.Holding Q docs →
          (o ∈ m.overridden e ∧ Q o (m.mergeFrom depth o docs).1) ∧
            m.Holding Q (m.mergeFrom depth o docs).2 := by
        intro o ho docs hdocs
        obtain ⟨hdoc, hafter⟩ := ih (mem_entities_of_mem_overridden ho) hdocs
        exact ⟨⟨ho, hdoc⟩, hafter⟩
      -- until it is merged, the entity stands in the table with its own documentation
      have hstarted := hdocs.put hdistinct he (h.own e he)
      obtain ⟨habove, hend⟩ := throughTable_forall
        (fun o docs => ((o, (m.mergeFrom depth o docs).1), (m.mergeFrom depth o docs).2))
        (S := fun o : Overridden => o.1 ∈ m.overridden e ∧ Q o.1 o.2) hstep hstarted
      have hdoc := h.merge e he _ habove
      exact ⟨hdoc, hend.put hdistinct he hdoc⟩

/-- Shown documentation has the property for the entity that it is shown for. -/
lemma of_mem_docs (inherits : Bool) : ∀ p ∈ m.docs inherits,
    ∃ e ∈ m.entities, e.qualifiedName = p.1 ∧ Q e p.2 := by
  intro p hp
  cases inherits with
  | false =>
    obtain ⟨e, he, rfl⟩ := List.mem_map.1 hp
    exact ⟨e, he, rfl, h.own e he⟩
  | true =>
    refine (throughTable_forall _
      (S := fun p : Text × MergedDoc => ∃ e ∈ m.entities, e.qualifiedName = p.1 ∧ Q e p.2)
      (P := m.Holding Q) (fun e he docs hdocs => ?_) fun _ _ _ hd => ?_).1 p hp
    · obtain ⟨hdoc, hafter⟩ := h.mergeFrom hdistinct he hdocs
      exact ⟨⟨e, he, rfl, hdoc⟩, hafter⟩
    · simp at hd

end Inherited

omit hdistinct in
lemma names_docs (inherits : Bool) : (m.docs inherits).map (·.1) = m.names := by
  cases inherits with
  | false => exact List.map_map ..
  | true =>
    exact map_throughTable _ (f := Prod.fst) (g := Entity.qualifiedName) (fun _ _ => rfl) _ _

/-- A property that merging hands on holds of the documentation of each entity in a view. -/
theorem Inherited.exists_doc (h : m.Inherited Q) (inherits : Bool) {e : Entity}
    (he : e ∈ m.entities) :
    ∃ d, (m.viewOf inherits).docs.get? e.qualifiedName = some d ∧ Q e d := by
  have hnames : ((m.docs inherits).map (·.1)).Nodup := by rwa [names_docs]
  have hkey : e.qualifiedName ∈ (m.docs inherits).map (·.1) := by
    rw [names_docs]
    exact List.mem_map_of_mem he
  obtain ⟨⟨_, d⟩, hp, rfl⟩ := List.mem_map.1 hkey
  obtain ⟨e', he', hname, hd⟩ := h.of_mem_docs hdistinct inherits _ hp
  rw [List.inj_on_of_nodup_map hdistinct he' he hname] at hd
  exact ⟨d, (Table.get?_ofEntries hnames).2 hp, hd⟩

end

end ApiDocs.Model
