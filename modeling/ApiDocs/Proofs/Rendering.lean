import ApiDocs.Documents
import ApiDocs.Proofs.DataTree

/-!
# Pages can be made

What pages need of the entities that they show is that parameters have as many names as types. In
a consistent model they have, so the documents of its view can always be made.
-/

namespace ApiDocs

namespace Page

variable {s : Source}

/-! ### Sections -/

lemma parameterLines_ok (l : Linking) (level : Nat) {e : Entity} (d : MergedDoc)
    (h : e.parameterNames.length = e.parameterTypes.length) :
    ∃ ls, parameterLines l level e d = .ok ls := by
  rw [parameterLines, parameterPairs, if_pos h]
  split
  · exact ⟨[], rfl⟩
  · exact ⟨_, rfl⟩

lemma memberLines_ok (s : Source) (level : Nat) {e : Entity}
    (h : e.parameterNames.length = e.parameterTypes.length) :
    ∃ ls, memberLines s level e = .ok ls := by
  obtain ⟨ls, hok⟩ := parameterLines_ok s.linking (level + 1) (s.view.doc e.qualifiedName) h
  rw [memberLines, hok]
  exact ⟨_, rfl⟩

lemma groupLines_ok (s : Source) (level : Nat) {members : List Entity}
    (h : ∀ e ∈ members, e.parameterNames.length = e.parameterTypes.length)
    (group : MemberKind × Text) : ∃ ls, groupLines s level members group = .ok ls := by
  have hmembers : ∀ e ∈ members.filter (·.category = .member group.1),
      ∃ ls, memberLines s (level + 1) e = .ok ls := fun e he =>
    memberLines_ok s _ (h e (List.mem_filter.1 he).1)
  obtain ⟨sections, hok⟩ := exists_mapM_ok hmembers
  rw [groupLines]
  split
  · exact ⟨[], rfl⟩
  · rw [hok]
    exact ⟨_, rfl⟩

section

variable (h : s.model.Consistent)

include h

lemma typeSection_ok (level : Nat) (t : TypeEntity) : ∃ ls, typeSection s level t = .ok ls := by
  have hmembers : ∀ e ∈ (s.view.membersOf t.qualifiedName).filterMap s.model.find?,
      e.parameterNames.length = e.parameterTypes.length := by
    intro e he
    obtain ⟨n, -, hn⟩ := List.mem_filterMap.1 he
    exact h.parameters e (List.mem_of_find?_eq_some hn)
  obtain ⟨groups, hok⟩ := exists_mapM_ok fun group (_ : group ∈ memberGroups) =>
    groupLines_ok s (level + 1) hmembers group
  rw [typeSection, hok]
  exact ⟨_, rfl⟩

lemma typePage_ok (t : TypeEntity) : ∃ ls, typePage s t = .ok ls := by
  obtain ⟨ls, hok⟩ := typeSection_ok h 1 t
  rw [typePage, hok]
  exact ⟨_, rfl⟩

lemma packagePage_ok (package : Text) : ∃ ls, packagePage s package = .ok ls := by
  obtain ⟨sections, hok⟩ := exists_mapM_ok fun t (_ : t ∈ typesOf s package) => typeSection_ok h 2 t
  rw [packagePage, hok]
  exact ⟨_, rfl⟩

end

end Page

/-! ### Documents -/

namespace Documents

open Page

variable {s : Source} (h : s.model.Consistent)

include h

lemma addType_ok (docs : Documents) (t : TypeEntity) : ∃ docs', addType s docs t = .ok docs' := by
  obtain ⟨ls, hok⟩ := typePage_ok h t
  rw [addType, hok]
  exact ⟨_, rfl⟩

lemma addPackage_ok (settings : Settings) (docs : Documents) (package : Text) :
    ∃ docs', addPackage s settings docs package = .ok docs' := by
  rw [addPackage]
  split
  · obtain ⟨ls, hok⟩ := packagePage_ok h package
    rw [hok]
    exact ⟨_, rfl⟩
  · exact exists_foldlM_ok (addType_ok h) _ _

/-- The documents of a view of names of a consistent model can be made. -/
theorem ofSource_ok (hnames : ∀ n ∈ s.view.sequence, n ∈ s.model.names) (settings : Settings) :
    ∃ docs, ofSource s settings = .ok docs := by
  rw [ofSource]
  split
  · obtain ⟨v, hok, -⟩ := tree_ok h hnames
    rw [dataDocument, hok]
    exact ⟨_, rfl⟩
  · obtain ⟨docs, hok⟩ := exists_foldlM_ok (addPackage_ok h settings) s.view.packages .empty
    rw [hok, ok_bind]
    split
    · exact ⟨_, rfl⟩
    · exact ⟨_, rfl⟩

end Documents

end ApiDocs
