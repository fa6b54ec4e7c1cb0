import ApiDocs.Proofs.WellFormed

/-!
# Levels of visibility

Declarations that can be extracted at the widest limit can be extracted at every limit. What a
stricter limit leaves is what a wider one gives, in the same order, without the types that are less
visible or stand inside such a type, and without the members that are less visible or stand in a
type that is left out.
-/

namespace ApiDocs

open Extraction

namespace Extraction

/-- The declarations of a type and of the types that enclose it. -/
inductive Around (types : List Declaration) : Text → Declaration → Prop
  | itself {d : Declaration} : d ∈ types → Around types d.typeName d
  | outer {d e : Declaration} : d ∈ types → Around types d.scope e → Around types d.typeName e

/-- The names that a limit leaves: those of the packages, of the types that are visible enough
together with all types around them, and of the visible members of such types. -/
inductive Shown (limit : Visibility) (ds : List Declaration) : Text → Prop
  | package {d : Declaration} : d ∈ packagesOf ds → Shown limit ds d.name
  | type {d : Declaration} : d ∈ typesOf ds →
      (∀ e, Around (typesOf ds) d.typeName e → e.visibility.rank ≤ limit.rank) →
      Shown limit ds d.typeName
  | member {d : Declaration} : d ∈ membersOf ds → d.visibility.rank ≤ limit.rank →
      (∀ e, Around (typesOf ds) d.scope e → e.visibility.rank ≤ limit.rank) →
      Shown limit ds (memberQualifiedName d)

/-! ### Hidden types, seen from the inside out -/

section

variable {limit looser : Visibility} {types : List Declaration}

lemma hidden_iff_around {n : Text} :
    Hidden limit types n ↔ ∃ e, Around types n e ∧ limit.rank < e.visibility.rank := by
  constructor
  · intro h
    induction h with
    | itself hd hrank => exact ⟨_, .itself hd, hrank⟩
    | inside hd _ ih =>
      obtain ⟨e, he, hrank⟩ := ih
      exact ⟨e, .outer hd he, hrank⟩
  · rintro ⟨e, he, hrank⟩
    induction he with
    | itself hd => exact .itself hd hrank
    | outer hd _ ih => exact .inside hd (ih hrank)

lemma not_hidden_iff_around {n : Text} :
    ¬ Hidden limit types n ↔ ∀ e, Around types n e → e.visibility.rank ≤ limit.rank := by
  rw [hidden_iff_around]
  simp only [not_exists, not_and, Nat.not_lt]

/-- The widest limit hides nothing. -/
lemma not_hidden_declaring (n : Text) : ¬ Hidden .declaring types n := by
  rw [not_hidden_iff_around]
  intro e _
  cases e.visibility <;> decide

lemma keptTypes_declaring (ds : List Declaration) : keptTypes .declaring ds = typesOf ds := by
  simp [keptTypes, not_hidden_declaring]

lemma keptMembers_declaring (ds : List Declaration) : keptMembers .declaring ds = membersOf ds := by
  simp only [keptMembers, not_hidden_declaring, not_false_eq_true, true_and, List.filter_eq_self,
    decide_eq_true_eq]
  intro d _
  cases d.visibility <;> decide

lemma kept_declaring (ds : List Declaration) :
    kept .declaring ds = ⟨packagesOf ds, typesOf ds, membersOf ds⟩ := by
  rw [kept, keptTypes_declaring, keptMembers_declaring]

/-! ### Packages of the kept types -/

lemma mem_keptTypes {ds : List Declaration} {d : Declaration} :
    d ∈ keptTypes limit ds ↔ d ∈ typesOf ds ∧ ¬ Hidden limit (typesOf ds) d.typeName := by
  simp [keptTypes]

/-- On the way from a type that is kept to its package stand only types that are kept. -/
lemma inPackage_keptTypes {packages : List Text} {ds : List Declaration} {n p : Text}
    (h : InPackage packages (typesOf ds) n p) (hn : ¬ Hidden limit (typesOf ds) n) :
    InPackage packages (keptTypes limit ds) n p := by
  induction h with
  | direct hd hp => exact .direct (mem_keptTypes.2 ⟨hd, hn⟩) hp
  | nested hd hp _ ih =>
    exact .nested (mem_keptTypes.2 ⟨hd, hn⟩) hp (ih fun hscope => hn (.inside hd hscope))

lemma inPackage_keptTypes_iff {packages : List Text} {ds : List Declaration} {n p : Text}
    (hn : ¬ Hidden limit (typesOf ds) n) :
    InPackage packages (keptTypes limit ds) n p ↔ InPackage packages (typesOf ds) n p :=
  ⟨fun h => h.congr (fun _ => Iff.rfl) fun _ hd => (mem_keptTypes.1 hd).1,
    fun h => inPackage_keptTypes h hn⟩

end

/-! ### Declarations that fit together at the widest limit -/

section

variable {ds : List Declaration}

/-- Leaving types and members out leaves no type and no member outside. -/
lemma Extractable.restrict (h : Extractable .declaring ds) (limit : Visibility) :
    Extractable limit ds := by
  have hfits := h.fits
  rw [kept_declaring] at hfits
  have htypes : (keptTypes limit ds).Sublist (typesOf ds) := List.filter_sublist
  have hmembers : (keptMembers limit ds).Sublist (membersOf ds) := List.filter_sublist
  have hnesting : ∀ d ∈ keptTypes limit ds,
      ∃ p, InPackage (kept limit ds).packageNames (keptTypes limit ds) d.typeName p := by
    intro d hd
    obtain ⟨hd, hshown⟩ := mem_keptTypes.1 hd
    obtain ⟨p, hp⟩ := hfits.nesting d hd
    exact ⟨p, inPackage_keptTypes hp hshown⟩
  have hscopes : ∀ d ∈ keptMembers limit ds, ∃ t ∈ keptTypes limit ds, t.typeName = d.scope := by
    intro d hd
    obtain ⟨hd, hshown⟩ := List.mem_filter.1 hd
    simp only [decide_eq_true_eq] at hshown
    obtain ⟨t, ht, hscope⟩ := hfits.scopes d hd
    exact ⟨t, mem_keptTypes.2 ⟨ht, hscope ▸ hshown.1⟩, hscope⟩
  have hdistinct : (kept limit ds).names.Nodup :=
    hfits.distinct.sublist
      (((List.Sublist.refl _).append (htypes.map _)).append (hmembers.map _))
  exact ⟨h.kinds, hnesting, hscopes, hdistinct⟩

/-- No package, type and member share a name, and no two members do. -/
structure NamesApart (ds : List Declaration) : Prop where
  package_type : ∀ p ∈ packagesOf ds, ∀ t ∈ typesOf ds, p.name ≠ t.typeName
  package_member : ∀ p ∈ packagesOf ds, ∀ d ∈ membersOf ds, p.name ≠ memberQualifiedName d
  type_member : ∀ t ∈ typesOf ds, ∀ d ∈ membersOf ds, t.typeName ≠ memberQualifiedName d
  members : ((membersOf ds).map memberQualifiedName).Nodup

lemma Extractable.namesApart (h : Extractable .declaring ds) : NamesApart ds := by
  have hdistinct := h.fits.distinct
  simp only [kept_declaring, Sorted.names, List.nodup_append, List.mem_append, List.mem_map]
    at hdistinct
  obtain ⟨⟨-, -, hpackage⟩, hmembers, hother⟩ := hdistinct
  exact
  { package_type := fun p hp t ht => hpackage _ ⟨p, hp, rfl⟩ _ ⟨t, ht, rfl⟩
    package_member := fun p hp d hd => hother _ (.inl ⟨p, hp, rfl⟩) _ ⟨d, hd, rfl⟩
    type_member := fun t ht d hd => hother _ (.inr ⟨t, ht, rfl⟩) _ ⟨d, hd, rfl⟩
    members := hmembers }

/-- A name of a type is shown exactly if the type is not hidden. -/
lemma NamesApart.shown_typeName (h : NamesApart ds) {limit : Visibility} {d : Declaration}
    (hd : d ∈ typesOf ds) :
    Shown limit ds d.typeName ↔ ¬ Hidden limit (typesOf ds) d.typeName := by
  rw [not_hidden_iff_around]
  constructor
  · intro hshown
    generalize hname : d.typeName = n at hshown
    cases hshown with
    | package hp => exact absurd hname.symm (h.package_type _ hp d hd)
    | type _ hall => exact hall
    | member hm => exact absurd hname (h.type_member d hd _ hm)
  · intro hall
    exact .type hd hall

/-- A name of a member is shown exactly if the member is kept. -/
lemma NamesApart.shown_memberQualifiedName (h : NamesApart ds) {limit : Visibility}
    {d : Declaration} (hd : d ∈ membersOf ds) :
    Shown limit ds (memberQualifiedName d) ↔
      ¬ Hidden limit (typesOf ds) d.scope ∧ d.visibility.rank ≤ limit.rank := by
  rw [not_hidden_iff_around]
  constructor
  · intro hshown
    generalize hname : memberQualifiedName d = n at hshown
    cases hshown with
    | package hp => exact absurd hname.symm (h.package_member _ hp d hd)
    | type ht => exact absurd hname.symm (h.type_member _ ht d hd)
    | member hm hrank hall =>
      cases List.inj_on_of_nodup_map h.members hd hm hname
      exact ⟨hall, hrank⟩
  · rintro ⟨hall, hrank⟩
    exact .member hd hrank hall

end

/-! ### The names of a model -/

open scoped Classical in
/-- In each package, a limit leaves of the names those that are shown. -/
lemma NamesApart.namesIn_eq_filter {ds : List Declaration} (h : NamesApart ds)
    (limit : Visibility) {p : Declaration} (hp : p ∈ packagesOf ds) :
    namesIn limit ds p.name = (namesIn .declaring ds p.name).filter (Shown limit ds ·) := by
  have htypes : ((keptTypes limit ds).filter fun d =>
        InPackage ((packagesOf ds).map (·.name)) (keptTypes limit ds) d.typeName p.name) =
      ((typesOf ds).filter fun d =>
        InPackage ((packagesOf ds).map (·.name)) (typesOf ds) d.typeName p.name).filter
          (Shown limit ds ·.typeName) := by
    rw [keptTypes, List.filter_filter, List.filter_filter]
    apply List.filter_congr
    intro d hd
    simp only [← Bool.decide_and, h.shown_typeName hd]
    apply decide_eq_decide.2
    rw [and_comm]
    exact and_congr_right fun hshown => inPackage_keptTypes_iff hshown
  have hmembers : ((keptMembers limit ds).filter fun d =>
        InPackage ((packagesOf ds).map (·.name)) (keptTypes limit ds) d.scope p.name) =
      ((membersOf ds).filter fun d =>
        InPackage ((packagesOf ds).map (·.name)) (typesOf ds) d.scope p.name).filter
          (Shown limit ds <| memberQualifiedName ·) := by
    rw [keptMembers, List.filter_filter, List.filter_filter]
    apply List.filter_congr
    intro d hd
    simp only [← Bool.decide_and, h.shown_memberQualifiedName hd]
    apply decide_eq_decide.2
    rw [and_comm]
    exact and_congr_right fun hshown => inPackage_keptTypes_iff hshown.1
  simp only [namesIn, keptTypes_declaring, keptMembers_declaring]
  rw [htypes, hmembers, List.cons_append, List.cons_append,
    List.filter_cons_of_pos (by simpa using Shown.package hp), List.filter_append, List.filter_map,
    List.filter_map]
  rfl

/-- A wider limit shows more. -/
lemma Shown.mono {limit wider : Visibility} (h : limit.rank ≤ wider.rank) {ds : List Declaration}
    {n : Text} (hn : Shown limit ds n) : Shown wider ds n := by
  cases hn with
  | package hd => exact .package hd
  | type hd hall => exact .type hd fun e he => Nat.le_trans (hall e he) h
  | member hd hrank hall =>
    exact .member hd (Nat.le_trans hrank h) fun e he => Nat.le_trans (hall e he) h

end Extraction

open scoped Classical in
/-- Declarations that can be extracted at the widest limit can be extracted at every limit. The
names of the model are then, in order, those of the widest limit that the limit shows; so a wider
limit only adds names. -/
theorem extract_at_limit {n : Nat} {ds : List Declaration} {x : Extracted}
    (h : extract n .declaring ds = .ok x) (n' : Nat) (limit : Visibility) :
    ∃ y, extract n' limit ds = .ok y ∧
      y.model.names = x.model.names.filter (Shown limit ds ·) ∧
      ∀ wider : Visibility, limit.rank ≤ wider.rank →
        ∃ z, extract n' wider ds = .ok z ∧ y.model.names.Sublist z.model.names := by
  have hall := extractable_of_extract h
  have hfiltered (limit : Visibility) : ∃ y, extract n' limit ds = .ok y ∧
      y.model.names = x.model.names.filter (Shown limit ds ·) := by
    obtain ⟨y, hy, hw⟩ := (hall.restrict limit).exists_wellFormed n'
    refine ⟨y, hy, ?_⟩
    rw [names_eq_flatMap hw, names_eq_flatMap (extract_wellFormed h), List.filter_flatMap]
    exact List.flatMap_congr fun p hp => hall.namesApart.namesIn_eq_filter limit hp
  obtain ⟨y, hy, hnames⟩ := hfiltered limit
  refine ⟨y, hy, hnames, ?_⟩
  intro wider hwider
  obtain ⟨z, hz, hwide⟩ := hfiltered wider
  refine ⟨z, hz, ?_⟩
  rw [hnames, hwide]
  apply List.monotone_filter_right
  intro name
  simpa using Shown.mono hwider

/-- A hidden type around a visible one, and members of both, declared from the inside out. -/
def nestedShapes : List Declaration :=
  [ { kind := "method", name := "turn", scope := "shapes.Grid.Cell", modifiers := ["public"] },
    { kind := "class", name := "Cell", scope := "shapes.Grid", modifiers := ["public"] },
    { kind := "class", name := "Grid", scope := "shapes", modifiers := ["static", "private"] },
    { kind := "class", name := "Shape", scope := "shapes", modifiers := ["public"] },
    { kind := "field", name := "area", scope := "shapes.Shape", modifiers := ["protected"] },
    { kind := "field", name := "cache", scope := "shapes.Shape" },
    { kind := "package", name := "shapes" } ]

open scoped Classical in
theorem extract_at_limit_nestedShapes :
    ∃ x y, extract 0 .declaring nestedShapes = .ok x ∧
      extract 0 .inheriting nestedShapes = .ok y ∧
      y.model.names = x.model.names.filter (Shown .inheriting nestedShapes ·) ∧
      y.model.names = ["shapes", "shapes.Shape", "shapes.Shape#area"] := by
  have hx : extract 0 .declaring nestedShapes = .ok _ := rfl
  obtain ⟨y, hy, hnames, -⟩ := extract_at_limit hx 0 .inheriting
  refine ⟨_, y, hx, hy, hnames, ?_⟩
  cases hy
  rfl

end ApiDocs
