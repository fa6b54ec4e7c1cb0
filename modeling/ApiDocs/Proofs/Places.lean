import ApiDocs.Proofs.VisibilityLevels

/-!
# Places in scopes

Types and members are numbered in the scopes that they are declared in, all types before all
members. So a type has as its number how many types stand before it, and to a member the types after
it are counted too: the numbers follow the source exactly where no member stands before a type of
its scope.
-/

namespace ApiDocs

open Extraction

namespace Extraction

/-- The types and members that are kept, in source order. -/
def keptInOrder (limit : Visibility) (ds : List Declaration) : List Declaration :=
  ds.filter fun d => d ∈ keptTypes limit ds ∨ d ∈ keptMembers limit ds

section

variable {limit : Visibility} {ds : List Declaration} {d : Declaration}

/-! ### Types and members -/

lemma mem_membersOf : d ∈ membersOf ds ↔ d ∈ ds ∧ (Kind.ofDeclared? d.kind).any Kind.isMember := by
  simp [membersOf]

lemma mem_keptMembers : d ∈ keptMembers limit ds ↔
    d ∈ membersOf ds ∧ ¬ Hidden limit (typesOf ds) d.scope ∧ d.visibility.rank ≤ limit.rank := by
  simp [keptMembers]

/-- No declaration is one of a type and of a member. -/
lemma notMem_membersOf_of_mem_typesOf {ds' : List Declaration} (h : d ∈ typesOf ds) :
    d ∉ membersOf ds' := by
  intro hmember
  have hkind := (mem_membersOf.1 hmember).2
  rw [(mem_typesOf.1 h).2] at hkind
  cases hkind

lemma mem_keptInOrder :
    d ∈ keptInOrder limit ds ↔ d ∈ keptTypes limit ds ∨ d ∈ keptMembers limit ds := by
  rw [keptInOrder, List.mem_filter, decide_eq_true_eq, and_iff_right_iff_imp]
  rintro (h | h)
  · exact (mem_typesOf.1 (mem_keptTypes.1 h).1).1
  · exact (mem_membersOf.1 (mem_keptMembers.1 h).1).1

/-- The types among what is kept are the types that are kept. -/
lemma typesOf_keptInOrder : typesOf (keptInOrder limit ds) = keptTypes limit ds := by
  rw [keptTypes, typesOf, keptInOrder, typesOf, List.filter_filter, List.filter_filter]
  apply List.filter_congr
  intro d hd
  rw [Bool.and_comm, Bool.eq_iff_iff]
  simp only [Bool.and_eq_true, decide_eq_true_eq]
  constructor
  · rintro ⟨hkept | hkept, htype⟩
    · exact ⟨(mem_keptTypes.1 hkept).2, htype⟩
    · exact absurd (mem_keptMembers.1 hkept).1
        (notMem_membersOf_of_mem_typesOf (mem_typesOf.2 ⟨hd, htype⟩))
  · rintro ⟨hshown, htype⟩
    exact ⟨.inl (mem_keptTypes.2 ⟨mem_typesOf.2 ⟨hd, htype⟩, hshown⟩), htype⟩

/-- The members among what is kept are the members that are kept. -/
lemma membersOf_keptInOrder : membersOf (keptInOrder limit ds) = keptMembers limit ds := by
  rw [keptMembers, membersOf, keptInOrder, membersOf, List.filter_filter, List.filter_filter]
  apply List.filter_congr
  intro d hd
  rw [Bool.and_comm, Bool.eq_iff_iff]
  simp only [Bool.and_eq_true, decide_eq_true_eq]
  constructor
  · rintro ⟨hkept | hkept, hmember⟩
    · exact absurd (mem_membersOf.2 ⟨hd, hmember⟩)
        (notMem_membersOf_of_mem_typesOf (mem_keptTypes.1 hkept).1)
    · exact ⟨(mem_keptMembers.1 hkept).2, hmember⟩
  · rintro ⟨hshown, hmember⟩
    exact ⟨.inr (mem_keptMembers.2 ⟨mem_membersOf.2 ⟨hd, hmember⟩, hshown⟩), hmember⟩

/-! ### Counting in a scope -/

lemma countInScope_append (scope : Text) (ds ds' : List Declaration) :
    countInScope scope (ds ++ ds') = countInScope scope ds + countInScope scope ds' :=
  List.countP_append ..

lemma countInScope_eq_zero_iff {scope : Text} :
    countInScope scope ds = 0 ↔ ∀ d ∈ ds, d.scope ≠ scope := by
  simp [countInScope, List.countP_eq_zero]

/-- In a list of types and members, a scope has the types and the members declared in it. -/
lemma countInScope_eq_add (h : ∀ d ∈ ds, d ∈ typesOf ds ∨ d ∈ membersOf ds) (scope : Text) :
    countInScope scope ds =
      countInScope scope (typesOf ds) + countInScope scope (membersOf ds) := by
  have hmembers : membersOf ds =
      ds.filter fun d => ! decide (Kind.ofDeclared? d.kind = some .type) := by
    apply List.filter_congr
    intro d hd
    rcases h d hd with htype | hmember
    · rw [(mem_typesOf.1 htype).2]
      rfl
    · have hno : Kind.ofDeclared? d.kind ≠ some .type := fun htype =>
        notMem_membersOf_of_mem_typesOf (mem_typesOf.2 ⟨hd, htype⟩) hmember
      simp [(mem_membersOf.1 hmember).2, hno]
  rw [hmembers]
  exact List.countP_eq_countP_filter_add ..

/-- The number of a declaration in a list is how many declarations of its scope stand before it. -/
lemma mem_numbered_append (start before after : List Declaration) (d : Declaration) :
    (countInScope d.scope (start ++ before), d) ∈ numbered start (before ++ d :: after) := by
  induction before generalizing start with
  | nil =>
    rw [List.append_nil, List.nil_append, numbered]
    exact List.mem_cons_self ..
  | cons e before ih =>
    rw [List.cons_append, numbered, List.append_cons start e before]
    exact List.mem_cons_of_mem _ (ih (start ++ [e]))

end

/-! ### The entities of declarations -/

section

variable {n : Nat} {limit : Visibility} {ds before after : List Declaration} {x : Extracted}
  {d : Declaration}

/-- In source order only types and members are kept. -/
lemma countInScope_before (h : keptInOrder limit ds = before ++ d :: after) (scope : Text) :
    countInScope scope before =
      countInScope scope (typesOf before) + countInScope scope (membersOf before) := by
  apply countInScope_eq_add
  intro e he
  have hkept : e ∈ keptInOrder limit ds := h ▸ List.mem_append_left _ he
  rcases mem_keptInOrder.1 hkept with htype | hmember
  · exact .inl (mem_typesOf.2 ⟨he, (mem_typesOf.1 (mem_keptTypes.1 htype).1).2⟩)
  · exact .inr (mem_membersOf.2 ⟨he, (mem_membersOf.1 (mem_keptMembers.1 hmember).1).2⟩)

lemma exists_type_at (hx : extract n limit ds = .ok x)
    (h : keptInOrder limit ds = before ++ d :: after) (hd : d ∈ typesOf ds) :
    ∃ e, x.model.find? d.typeName = some e ∧ e.index = countInScope d.scope (typesOf before) := by
  have hc := consistent_of_extract hx
  obtain ⟨known, ht, hfits, rfl⟩ := exists_table_of_extract hx
  have htypes : keptTypes limit ds = typesOf before ++ d :: typesOf after := by
    rw [← typesOf_keptInOrder, h, typesOf, List.filter_append,
      List.filter_cons_of_pos (by simpa using (mem_typesOf.1 hd).2)]
    rfl
  have hnumbered := mem_numbered_append [] (typesOf before) (typesOf after) d
  rw [← htypes] at hnumbered
  have hmem := (mem_entitiesOf (n := n) ht hfits).2 (.inr (.inl ⟨_, hnumbered, rfl⟩))
  exact ⟨_, Model.find?_of_mem hc.distinct hmem, rfl⟩

lemma exists_member_at (hx : extract n limit ds = .ok x)
    (h : keptInOrder limit ds = before ++ d :: after) (hd : d ∈ membersOf ds) :
    ∃ e, x.model.find? (memberQualifiedName d) = some e ∧
      e.index = countInScope d.scope (typesOf before ++ typesOf after ++ membersOf before) := by
  have hc := consistent_of_extract hx
  obtain ⟨known, ht, hfits, rfl⟩ := exists_table_of_extract hx
  have hmembers : keptMembers limit ds = membersOf before ++ d :: membersOf after := by
    rw [← membersOf_keptInOrder, h, membersOf, List.filter_append,
      List.filter_cons_of_pos (by exact (mem_membersOf.1 hd).2)]
    rfl
  have htypes : keptTypes limit ds = typesOf before ++ typesOf after := by
    have hno : Kind.ofDeclared? d.kind ≠ some .type := fun htype =>
      notMem_membersOf_of_mem_typesOf (mem_typesOf.2 ⟨(mem_membersOf.1 hd).1, htype⟩) hd
    rw [← typesOf_keptInOrder, h, typesOf, List.filter_append,
      List.filter_cons_of_neg (by simpa using hno)]
    rfl
  have hnumbered := mem_numbered_append (keptTypes limit ds) (membersOf before) (membersOf after) d
  rw [← hmembers, htypes, ← htypes] at hnumbered
  have hmem := (mem_entitiesOf (n := n) ht hfits).2
    (.inr (.inr (List.mem_map.2 ⟨_, hnumbered, rfl⟩)))
  refine ⟨_, Model.find?_of_mem hc.distinct hmem, ?_⟩
  rw [← htypes]
  rfl

end

end Extraction

/-- The number of a kept type in its scope is how many types stand before it there; that of a kept
member is how many declarations stand before it and how many types after it. So the number of a type
is its place in the source exactly if no member of its scope stands before it, and that of a member
exactly if no type of its scope stands after it. -/
theorem index_of_declaration {n : Nat} {limit : Visibility} {ds : List Declaration} {x : Extracted}
    (hx : extract n limit ds = .ok x) {before after : List Declaration} {d : Declaration}
    (h : keptInOrder limit ds = before ++ d :: after) :
    (d ∈ typesOf ds → ∃ e, x.model.find? d.typeName = some e ∧
      e.index = countInScope d.scope (typesOf before) ∧
      (e.index = countInScope d.scope before ↔ ∀ m ∈ membersOf before, m.scope ≠ d.scope)) ∧
    (d ∈ membersOf ds → ∃ e, x.model.find? (memberQualifiedName d) = some e ∧
      e.index = countInScope d.scope before + countInScope d.scope (typesOf after) ∧
      (e.index = countInScope d.scope before ↔ ∀ t ∈ typesOf after, t.scope ≠ d.scope)) := by
  have hbefore := countInScope_before h d.scope
  constructor
  · intro hd
    obtain ⟨e, hfind, hindex⟩ := exists_type_at hx h hd
    refine ⟨e, hfind, hindex, ?_⟩
    rw [hindex, ← countInScope_eq_zero_iff]
    omega
  · intro hd
    obtain ⟨e, hfind, hindex⟩ := exists_member_at hx h hd
    rw [countInScope_append, countInScope_append] at hindex
    refine ⟨e, hfind, ?_, ?_⟩
    · omega
    · rw [← countInScope_eq_zero_iff]
      omega

/-- A type with members before, between and after two types inside it. -/
def mixedScope : List Declaration :=
  [ { kind := "package", name := "shapes" },
    { kind := "class", name := "Grid", scope := "shapes" },
    { kind := "method", name := "size", scope := "shapes.Grid" },
    { kind := "class", name := "Cell", scope := "shapes.Grid" },
    { kind := "field", name := "rows", scope := "shapes.Grid" },
    { kind := "class", name := "Line", scope := "shapes.Grid", modifiers := ["private"] } ]

theorem index_of_declaration_mixedScope :
    ∃ x, extract 0 .package mixedScope = .ok x ∧
      (keptInOrder .package mixedScope).map (·.name) =
        (["Grid", "size", "Cell", "rows"] : List Text) ∧
      (∃ e, x.model.find? "shapes.Grid.Cell" = some e ∧ e.index = 0) ∧
      ∃ e, x.model.find? "shapes.Grid#rows" = some e ∧ e.index = 2 := by
  obtain ⟨x, hx⟩ : ∃ x, extract 0 .package mixedScope = .ok x := ⟨_, rfl⟩
  have hcell : keptInOrder .package mixedScope =
      [mixedScope[1], mixedScope[2]] ++ mixedScope[3] :: [mixedScope[4]] := by decide
  have hrows : keptInOrder .package mixedScope =
      [mixedScope[1], mixedScope[2], mixedScope[3]] ++ mixedScope[4] :: [] := by decide
  refine ⟨x, hx, by decide, ?_, ?_⟩
  · obtain ⟨e, hfind, hindex, -⟩ := (index_of_declaration hx hcell).1 (by decide)
    exact ⟨e, hfind, hindex.trans (by decide)⟩
  · obtain ⟨e, hfind, hindex, -⟩ := (index_of_declaration hx hrows).2 (by decide)
    exact ⟨e, hfind, hindex.trans (by decide)⟩

/-- A type that a member of its scope stands before is numbered before the member. -/
theorem nested_type_before_member :
    ∃ x, extract 0 .package mixedScope = .ok x ∧ ∃ before after, ∃ d : Declaration,
      keptInOrder .package mixedScope = before ++ d :: after ∧
        d.typeName = ("shapes.Grid.Cell" : Text) ∧ countInScope d.scope before = 1 ∧
        (x.model.find? d.typeName).map (·.index) = some 0 := by
  refine ⟨_, rfl, [mixedScope[1], mixedScope[2]], [mixedScope[4]], mixedScope[3], ?_⟩
  decide

end ApiDocs
