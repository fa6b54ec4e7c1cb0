import ApiDocs.Proofs.Inheritance
import ApiDocs.View

/-!
# Merging ends

Whatever the supertypes are, cycles included, merging the documentation of a model comes to an end.
An entity is entered in the table before the members that it overrides are merged, so each merging
begins with one more name in the table, and each name is merged once.
-/

namespace ApiDocs.Model

/-- Merging the documentation of entities in the order given, from the docs merged so far: the names
of the entities that are merged, in the order in which this begins, what each of the entities given
gets, and the docs afterwards. An entity in the table is looked up; any other is entered with its
own documentation, the members it overrides go first, and then it is merged with them. Nothing
bounds how many members may be in the course of being merged. -/
inductive Merges (m : Model) :
    List Entity → Table MergedDoc → List Text → List Overridden → Table MergedDoc → Prop
  | done {docs : Table MergedDoc} : Merges m [] docs [] [] docs
  | lookedUp {e : Entity} {es : List Entity} {docs docs' : Table MergedDoc} {doc : MergedDoc}
      {names : List Text} {results : List Overridden} :
      docs.get? e.qualifiedName = some doc → Merges m es docs names results docs' →
      Merges m (e :: es) docs names ((e, doc) :: results) docs'
  | merged {e : Entity} {es : List Entity} {docs docs₁ docs₂ : Table MergedDoc}
      {names₁ names₂ : List Text} {above results : List Overridden} :
      docs.get? e.qualifiedName = none →
      Merges m (m.overridden e) (docs.put e.qualifiedName (.own e)) names₁ above docs₁ →
      Merges m es (docs₁.put e.qualifiedName (mergeDoc e above)) names₂ results docs₂ →
      Merges m (e :: es) docs (e.qualifiedName :: (names₁ ++ names₂))
        ((e, mergeDoc e above) :: results) docs₂

variable {m : Model}

namespace Merges

variable {es : List Entity} {docs docs' : Table MergedDoc} {names : List Text}
  {results : List Overridden}

/-- Merging takes one course only. -/
lemma deterministic (h : m.Merges es docs names results docs') {names' : List Text}
    {results' : List Overridden} {docs'' : Table MergedDoc}
    (h' : m.Merges es docs names' results' docs'') :
    names' = names ∧ results' = results ∧ docs'' = docs' := by
  induction h generalizing names' results' docs'' with
  | done =>
    cases h'
    exact ⟨rfl, rfl, rfl⟩
  | lookedUp hget _ ih =>
    cases h' with
    | lookedUp hget' hrest =>
      obtain rfl := Option.some.inj (hget'.symm.trans hget)
      obtain ⟨rfl, rfl, rfl⟩ := ih hrest
      exact ⟨rfl, rfl, rfl⟩
    | merged hnone _ _ => simp [hget] at hnone
  | merged hnone _ _ ihabove ihrest =>
    cases h' with
    | lookedUp hget' _ => simp [hnone] at hget'
    | merged _ habove hrest =>
      obtain ⟨rfl, rfl, rfl⟩ := ihabove habove
      obtain ⟨rfl, rfl, rfl⟩ := ihrest hrest
      exact ⟨rfl, rfl, rfl⟩

/-- The names that are merged are those that are new in the table. -/
lemma keys_eq (h : m.Merges es docs names results docs') : docs'.keys = docs.keys ++ names := by
  induction h with
  | done => simp
  | lookedUp _ _ ih => exact ih
  | @merged e _ docs docs₁ docs₂ names₁ names₂ _ _ hnone _ _ ihabove ihrest =>
    have hnew : e.qualifiedName ∉ docs.keys := (Table.get?_eq_none_iff _ _).1 hnone
    rw [Table.keys_put, if_neg hnew] at ihabove
    have hentered : e.qualifiedName ∈ docs₁.keys := by simp [ihabove]
    rw [ihrest, Table.keys_put_of_mem _ hentered, ihabove]
    simp

/-- A table with each name once keeps each name once. -/
lemma nodup_keys (h : m.Merges es docs names results docs') (hdocs : docs.keys.Nodup) :
    docs'.keys.Nodup := by
  induction h with
  | done => exact hdocs
  | lookedUp _ _ ih => exact ih hdocs
  | merged _ _ _ ihabove ihrest =>
    exact ihrest (Table.nodup_keys_put _ _ (ihabove (Table.nodup_keys_put _ _ hdocs)))

/-- Every entity given is in the table afterwards. -/
lemma mem_keys (h : m.Merges es docs names results docs') :
    ∀ e ∈ es, e.qualifiedName ∈ docs'.keys := by
  induction h with
  | done => exact nofun
  | lookedUp hget hrest ih =>
    refine List.forall_mem_cons.2 ⟨?_, ih⟩
    rw [hrest.keys_eq]
    exact List.mem_append_left _ (Table.mem_keys_of_get? hget)
  | merged _ _ hrest _ ih =>
    refine List.forall_mem_cons.2 ⟨?_, ih⟩
    rw [hrest.keys_eq]
    exact List.mem_append_left _ ((Table.mem_keys_put ..).2 (.inr rfl))

/-- Only names of the model are merged. -/
lemma mem_names (h : m.Merges es docs names results docs') (hes : ∀ e ∈ es, e ∈ m.entities) :
    ∀ n ∈ names, n ∈ m.names := by
  induction h with
  | done => exact nofun
  | lookedUp _ _ ih => exact ih (List.forall_mem_cons.1 hes).2
  | merged _ _ _ ihabove ihrest =>
    obtain ⟨he, hes⟩ := List.forall_mem_cons.1 hes
    refine List.forall_mem_cons.2 ⟨List.mem_map.2 ⟨_, he, rfl⟩, fun n hn => ?_⟩
    rcases List.mem_append.1 hn with hn | hn
    · exact ihabove (fun _ => mem_entities_of_mem_overridden) n hn
    · exact ihrest hes n hn

/-- Merging one entity and then others is merging them all. -/
lemma cons {e : Entity} {doc : MergedDoc} {docs₁ docs₂ : Table MergedDoc}
    {names₁ names₂ : List Text}
    (h : m.Merges [e] docs names₁ [(e, doc)] docs₁) (hes : m.Merges es docs₁ names₂ results docs₂) :
    m.Merges (e :: es) docs (names₁ ++ names₂) ((e, doc) :: results) docs₂ := by
  cases h with
  | lookedUp hget hrest =>
    cases hrest
    exact .lookedUp hget hes
  | merged hnone habove hrest =>
    cases hrest
    rw [List.append_nil, List.cons_append]
    exact .merged hnone habove hes

end Merges

/-! ### The bound is never reached -/

/-- How many entities are not in a table. -/
def missing (m : Model) (docs : Table MergedDoc) : Nat :=
  m.entities.countP (·.qualifiedName ∉ docs.keys)

lemma missing_le_of_keys {docs docs' : Table MergedDoc} (h : ∀ n ∈ docs.keys, n ∈ docs'.keys) :
    m.missing docs' ≤ m.missing docs :=
  List.countP_mono_left fun e _ he => by simpa using mt (h _) (by simpa using he)

/-- One entity fewer is missing when one is entered. -/
lemma missing_put_lt {docs : Table MergedDoc} {e : Entity} (he : e ∈ m.entities)
    (hnew : e.qualifiedName ∉ docs.keys) (doc : MergedDoc) :
    m.missing (docs.put e.qualifiedName doc) < m.missing docs := by
  have hsub : m.entities.filter (·.qualifiedName ∉ (docs.put e.qualifiedName doc).keys) =
      (m.entities.filter (·.qualifiedName ∉ docs.keys)).filter
        (·.qualifiedName ≠ e.qualifiedName) := by
    rw [List.filter_filter]
    refine List.filter_congr fun x _ => ?_
    simp [Table.mem_keys_put, and_comm]
  rw [missing, missing, List.countP_eq_length_filter, List.countP_eq_length_filter, hsub,
    List.length_filter_lt_length_iff_exists]
  exact ⟨e, List.mem_filter.2 ⟨he, by simpa using hnew⟩, by simp⟩

/-- A step that merges each entity of a list from the tables in which few enough are missing merges
all of them, one after the other. -/
lemma throughTable_merges {β : Type} {step : Entity → Table MergedDoc → β × Table MergedDoc}
    (g : Overridden → β) {bound : Nat} {es : List Entity}
    (hstep : ∀ e ∈ es, ∀ docs, m.missing docs < bound →
      ∃ names doc docs', step e docs = (g (e, doc), docs') ∧
        m.Merges [e] docs names [(e, doc)] docs')
    {docs : Table MergedDoc} (hdocs : m.missing docs < bound) :
    ∃ names results docs', throughTable step es docs = (results.map g, docs') ∧
      m.Merges es docs names results docs' := by
  induction es generalizing docs with
  | nil => exact ⟨[], [], docs, rfl, .done⟩
  | cons e es ih =>
    obtain ⟨he, hes⟩ := List.forall_mem_cons.1 hstep
    obtain ⟨names₁, doc, docs₁, hfirst, hmerged⟩ := he docs hdocs
    have hfewer : m.missing docs₁ ≤ m.missing docs := missing_le_of_keys fun n hn => by
      rw [hmerged.keys_eq]
      exact List.mem_append_left _ hn
    obtain ⟨names₂, results, docs₂, hrest, hmergedRest⟩ := ih hes (Nat.lt_of_le_of_lt hfewer hdocs)
    exact ⟨names₁ ++ names₂, (e, doc) :: results, docs₂, by simp [throughTable, hfirst, hrest],
      hmerged.cons hmergedRest⟩

/-- With a bound above the number of entities that are missing, merging an entity is not cut
short. -/
lemma mergeFrom_merges {depth : Nat} {e : Entity} (he : e ∈ m.entities) {docs : Table MergedDoc}
    (hdepth : m.missing docs < depth) :
    ∃ names, m.Merges [e] docs names [(e, (m.mergeFrom depth e docs).1)]
      (m.mergeFrom depth e docs).2 := by
  induction depth generalizing e docs with
  | zero => omega
  | succ depth ih =>
    rw [mergeFrom]
    cases hget : docs.get? e.qualifiedName with
    | some doc => exact ⟨[], .lookedUp hget .done⟩
    | none =>
      have hlt := missing_put_lt he ((Table.get?_eq_none_iff _ _).1 hget) (.own e)
      have hstep : ∀ o ∈ m.overridden e, ∀ docs, m.missing docs < depth →
          ∃ names doc docs', ((o, (m.mergeFrom depth o docs).1), (m.mergeFrom depth o docs).2) =
            (id (o, doc), docs') ∧ m.Merges [o] docs names [(o, doc)] docs' := by
        intro o ho docs hdocs
        obtain ⟨names, h⟩ := ih (mem_entities_of_mem_overridden ho) hdocs
        exact ⟨names, _, _, rfl, h⟩
      obtain ⟨names, above, docs₁, hall, hmerged⟩ :=
        throughTable_merges id hstep (Nat.lt_of_lt_of_le hlt (Nat.le_of_lt_succ hdepth))
      rw [List.map_id] at hall
      simp only [hall]
      exact ⟨_, .merged hget hmerged .done⟩

/-- Merging the documentation of all entities takes its course to the end. -/
lemma mergedDocs_merges (m : Model) :
    ∃ names results docs, m.Merges m.entities .empty names results docs ∧
      m.mergedDocs = results.map fun r => (r.1.qualifiedName, r.2) := by
  have hbound : m.missing .empty < m.mergeDepth := Nat.lt_succ_of_le List.countP_le_length
  have hstep : ∀ e ∈ m.entities, ∀ docs, m.missing docs < m.mergeDepth →
      ∃ names doc docs', ((e.qualifiedName, (m.mergeFrom m.mergeDepth e docs).1),
        (m.mergeFrom m.mergeDepth e docs).2) = ((e.qualifiedName, doc), docs') ∧
          m.Merges [e] docs names [(e, doc)] docs' := by
    intro e he docs hdocs
    obtain ⟨names, h⟩ := mergeFrom_merges he hdocs
    exact ⟨names, _, _, rfl, h⟩
  obtain ⟨names, results, docs, hall, hmerged⟩ :=
    throughTable_merges (fun r : Overridden => (r.1.qualifiedName, r.2)) hstep hbound
  exact ⟨names, results, docs, hmerged, congrArg Prod.fst hall⟩

/-! ### The view -/

/-- Members can be put in order unless something else is among them. -/
lemma orderMembers_error {es : List Entity} {f : Failure} (h : orderMembers es = .error f) :
    f = .noEntry ∧ ∃ e ∈ es, ∀ k, e.category ≠ .member k := by
  rw [orderMembers] at h
  rcases bind_eq_error_iff.1 h with h | ⟨ranked, -, h⟩
  · obtain ⟨e, he, h⟩ := exists_of_mapM_error h
    rw [map_eq_error_iff, Entity.memberRank] at h
    split at h
    · cases h
    · rename_i hno
      cases h
      exact ⟨rfl, e, he, hno⟩
  · cases h

/-- A view holds the documentation of the model. There is none only if a type lists something that
is no member. -/
lemma view_cases (m : Model) (inherits : Bool) :
    (∃ v, m.view inherits = .ok v ∧ v.docs = .ofEntries (m.docs inherits)) ∨
      (m.view inherits = .error .noEntry ∧
        ∃ t ∈ m.types, ∃ e ∈ m.membersOf t.qualifiedName, ∀ k, e.category ≠ .member k) := by
  cases hview : m.view inherits with
  | ok v =>
    obtain ⟨members, -, h⟩ := bind_eq_ok_iff.1 hview
    cases h
    exact .inl ⟨_, rfl, rfl⟩
  | error f =>
    rcases bind_eq_error_iff.1 hview with h | ⟨members, -, h⟩
    · obtain ⟨t, ht, h⟩ := exists_of_mapM_error h
      rcases bind_eq_error_iff.1 h with h | ⟨ordered, -, h⟩
      · obtain ⟨rfl, e, he, hno⟩ := orderMembers_error h
        exact .inr ⟨rfl, t, ht, e, he, hno⟩
      · cases h
    · cases h

/-- For every model, whatever its supertypes, merging the documentation of all entities takes one
course, which comes to an end; on it, each name of the model is merged once. What it gives is the
documentation in the view with inheritance, and a view with inheritance or without is made unless a
type lists something that is no member. -/
theorem mergedDocs_each_once (m : Model) :
    (∃ names results docs, m.Merges m.entities .empty names results docs ∧
      (∀ names' results' docs', m.Merges m.entities .empty names' results' docs' →
        names' = names ∧ results' = results ∧ docs' = docs) ∧
      names.Nodup ∧ (∀ n, n ∈ names ↔ n ∈ m.names) ∧
      m.docs true = results.map fun r => (r.1.qualifiedName, r.2)) ∧
    ∀ inherits, (∃ v, m.view inherits = .ok v ∧ v.docs = .ofEntries (m.docs inherits)) ∨
      (m.view inherits = .error .noEntry ∧
        ∃ t ∈ m.types, ∃ e ∈ m.membersOf t.qualifiedName, ∀ k, e.category ≠ .member k) := by
  obtain ⟨names, results, docs, hmerged, hresults⟩ := mergedDocs_merges m
  have hkeys : docs.keys = names := hmerged.keys_eq
  refine ⟨⟨names, results, docs, hmerged, fun _ _ _ h => hmerged.deterministic h, ?_, fun n => ?_,
    hresults⟩, m.view_cases⟩
  · rw [← hkeys]
    exact hmerged.nodup_keys List.nodup_nil
  · constructor
    · exact hmerged.mem_names (fun _ he => he) n
    · intro hn
      obtain ⟨e, he, rfl⟩ := List.mem_map.1 hn
      exact hkeys ▸ hmerged.mem_keys e he

end ApiDocs.Model
