import ApiDocs.Proofs.ShownDocs

/-!
# References in merged documentation

Merging makes no references: what stands in the text or in the tags of a documentation was written
by an entity of the model.
-/

namespace ApiDocs

/-- The references of a documentation: those of its text, then those of its tags. -/
def MergedDoc.references (d : MergedDoc) : List Reference :=
  d.links ++ d.tags.flatMap Tag.references

/-! ### Merged texts -/

lemma mem_of_mem_spliceLinks {donor links : List Reference} {segments : List Text} {r : Reference}
    (h : r ∈ spliceLinks donor links segments) : r ∈ links ∨ r ∈ donor := by
  induction segments generalizing links with
  | nil => cases h
  | cons s segments ih =>
    cases segments with
    | nil => exact .inl (List.mem_of_mem_take h)
    | cons s' segments =>
      rw [spliceLinks, List.mem_append, List.mem_append] at h
      · rcases h with (h | h) | h
        · exact .inl (List.mem_of_mem_take h)
        · exact .inr h
        · exact (ih h).imp_left List.mem_of_mem_drop
      · exact List.cons_ne_nil _ _

lemma mem_of_mem_splitLinks {s : Text} {links : List Reference} {r : Reference}
    (h : r ∈ (splitLinks s links).1 ∨ r ∈ (splitLinks s links).2) : r ∈ links := by
  rw [splitLinks, List.splitAt_eq] at h
  exact h.elim List.mem_of_mem_take List.mem_of_mem_drop

section

variable {e : Entity} {above : List Overridden}

lemma mem_of_donor? {o : Overridden} (h : donor? above = some o) : o ∈ above :=
  List.mem_of_find?_eq_some h

/-- The links of a merged text are those of the entity and of overridden members. -/
lemma mem_links_mergeText {r : Reference} (h : r ∈ (mergeText e above).links) :
    r ∈ e.links ∨ ∃ o ∈ above, r ∈ o.2.links := by
  rw [mergeText] at h
  split at h
  · rename_i source doc _ hdonor
    exact .inr ⟨_, mem_of_donor? hdonor, h⟩
  · split at h
    · have hsubstituted {s donorText : Text} {links donorLinks : List Reference}
          (hr : r ∈ (substituteMarkers s links donorText donorLinks).2) :
          r ∈ links ∨ r ∈ donorLinks := mem_of_mem_spliceLinks hr
      have hdonor (hr : r ∈ (((donor? above).map Prod.snd).getD {} : MergedDoc).links) :
          ∃ o ∈ above, r ∈ o.2.links := by
        cases ho : donor? above with
        | none => simp [ho] at hr
        | some o =>
          rw [ho] at hr
          exact ⟨o, mem_of_donor? ho, hr⟩
      rcases List.mem_append.1 h with h | h
      · rcases hsubstituted h with h | h
        · exact .inl (mem_of_mem_splitLinks (.inl h))
        · exact .inr (hdonor (mem_of_mem_splitLinks (.inl h)))
      · rcases hsubstituted h with h | h
        · exact .inl (mem_of_mem_splitLinks (.inr h))
        · exact .inr (hdonor (mem_of_mem_splitLinks (.inr h)))
    · exact .inl h

lemma tags_mergeText (e : Entity) (above : List Overridden) :
    (mergeText e above).tags = e.tags := by
  rw [mergeText]
  split
  · rfl
  · split <;> rfl

/-! ### Inherited tags -/

lemma mem_tagsOf {kind : Text} {tags : List Tag} {t : Tag} :
    t ∈ tagsOf kind tags ↔ t ∈ tags ∧ t.kind = kind := by
  rw [tagsOf, List.mem_filter, decide_eq_true_eq]

/-- An inherited tag has the references of a tag of an overridden member. -/
lemma exists_references_of_mem_inheritedTags {t : Tag} (h : t ∈ inheritedTags e above) :
    ∃ o ∈ above, ∃ t' ∈ o.2.tags, t.references = t'.references := by
  rw [inheritedTags, List.mem_append, List.mem_append] at h
  rcases h with (h | h) | h
  · obtain ⟨p, -, hp⟩ := List.mem_filterMap.1 h
    split at hp
    · cases hp
    · obtain ⟨t', ht', rfl⟩ := Option.map_eq_some_iff.1 hp
      obtain ⟨o, ho, hparam⟩ := List.exists_of_findSome?_eq_some ht'
      obtain ⟨name, -, hname⟩ := Option.bind_eq_some_iff.1 hparam
      exact ⟨o, ho, t', (mem_tagsOf.1 (List.mem_of_find?_eq_some hname)).1, rfl⟩
  · rw [inheritedReturn] at h
    split at h
    · obtain ⟨o, ho, ht⟩ := List.mem_flatMap.1 (List.mem_of_mem_take h)
      exact ⟨o, ho, t, (mem_tagsOf.1 ht).1, rfl⟩
    · cases h
  · rw [inheritedThrows] at h
    split at h
    · cases hfind : above.findSome? (fun o =>
        let tags := tagsOf "throws" o.2.tags
        if tags.isEmpty then none else some tags) with
      | none =>
        rw [hfind] at h
        cases h
      | some tags =>
        rw [hfind] at h
        obtain ⟨o, ho, htags⟩ := List.exists_of_findSome?_eq_some hfind
        simp only at htags
        split at htags
        · cases htags
        · cases htags
          exact ⟨o, ho, t, (mem_tagsOf.1 h).1, rfl⟩
    · cases h

/-- The references of merged documentation are those of the entity and of overridden members. -/
theorem mem_references_mergeDoc {r : Reference} (h : r ∈ (mergeDoc e above).references) :
    r ∈ e.references ∨ ∃ o ∈ above, r ∈ o.2.references := by
  have htext (hr : r ∈ (mergeText e above).links) :
      r ∈ e.references ∨ ∃ o ∈ above, r ∈ o.2.references :=
    (mem_links_mergeText hr).imp (List.mem_append_left _) fun ⟨o, ho, hlinks⟩ =>
      ⟨o, ho, List.mem_append_left _ hlinks⟩
  have htags (hr : r ∈ e.tags.flatMap Tag.references) : r ∈ e.references :=
    List.mem_append_right _ hr
  rw [mergeDoc] at h
  split at h
  · exact .inl h
  · split at h
    · simp only [MergedDoc.references, tags_mergeText, List.flatMap_append, List.mem_append] at h
      rcases h with h | h | h
      · exact htext h
      · exact .inl (htags h)
      · obtain ⟨t, ht, hr⟩ := List.mem_flatMap.1 h
        obtain ⟨o, ho, t', ht', heq⟩ := exists_references_of_mem_inheritedTags ht
        rw [heq] at hr
        exact .inr ⟨o, ho, List.mem_append_right _ (List.mem_flatMap.2 ⟨t', ht', hr⟩)⟩
    · rw [MergedDoc.references, tags_mergeText, List.mem_append] at h
      exact h.elim htext fun hr => .inl (htags hr)

end

/-! ### Documentation in views -/

lemma Model.map_snd_references (m : Model) :
    m.references.map (·.2) = m.entities.flatMap Entity.references := by
  rw [Model.references, List.map_flatMap]
  simp

/-- The references of the documentation that a view shows are references of the model. -/
theorem Model.inherited_references (m : Model) :
    m.Inherited fun _ d => ∀ r ∈ d.references, r ∈ m.references.map (·.2) := by
  have hown {e : Entity} (he : e ∈ m.entities) {r : Reference} (hr : r ∈ e.references) :
      r ∈ m.references.map (·.2) := by
    rw [map_snd_references]
    exact List.mem_flatMap.2 ⟨e, he, hr⟩
  refine ⟨fun e he r hr => hown he hr, fun e he above habove r hr => ?_⟩
  rcases mem_references_mergeDoc hr with hr | ⟨o, ho, hr⟩
  · exact hown he hr
  · exact (habove o ho).2 r hr

end ApiDocs
