import ApiDocs.Proofs.Overloads

/-!
# What references stand for

Seen from a type or one of its members, a reference stands for one entity at most. Members come
before types, types nearby before types farther away, and fields before constructors and methods. A
scope that is looked through later counts only if there is nothing to be found in those before it.
-/

namespace ApiDocs

open Text

/-! ### The first of a list -/

section

variable {α β : Type} {l : List α}

/-- An element of a list is the first one with a property. -/
def First (p : α → Prop) (l : List α) (a : α) : Prop :=
  ∃ before after, l = before ++ a :: after ∧ p a ∧ ∀ b ∈ before, ¬ p b

lemma find?_eq_some_iff_first {p : α → Bool} {a : α} :
    l.find? p = some a ↔ First (p · = true) l a := by
  rw [List.find?_eq_some_iff_append, First]
  constructor
  · rintro ⟨ha, before, after, hl, hbefore⟩
    exact ⟨before, after, hl, ha, fun b hb => by simpa using hbefore b hb⟩
  · rintro ⟨before, after, hl, ha, hbefore⟩
    exact ⟨ha, before, after, hl, fun b hb => by simpa using hbefore b hb⟩

lemma First.mem {p : α → Prop} {a : α} (h : First p l a) : a ∈ l ∧ p a := by
  obtain ⟨before, after, rfl, ha, -⟩ := h
  exact ⟨List.mem_append_right _ (List.mem_cons_self ..), ha⟩

lemma exists_first {p : α → Prop} (h : ∃ a ∈ l, p a) : ∃ a, First p l a := by
  induction l with
  | nil => simp at h
  | cons b l ih =>
    by_cases hb : p b
    · exact ⟨b, [], l, rfl, hb, by simp⟩
    · obtain ⟨a, before, after, rfl, ha, hbefore⟩ := ih (by simpa [hb] using h)
      exact ⟨a, b :: before, after, rfl, ha, List.forall_mem_cons.2 ⟨hb, hbefore⟩⟩

lemma findSome?_eq_some_iff_first {f : α → Option β} {b : β} :
    l.findSome? f = some b ↔ ∃ a, First (fun a => ∃ b, f a = some b) l a ∧ f a = some b := by
  rw [List.findSome?_eq_some_iff]
  constructor
  · rintro ⟨before, a, after, hl, ha, hbefore⟩
    refine ⟨a, ⟨before, after, hl, ⟨b, ha⟩, fun c hc => ?_⟩, ha⟩
    simp [hbefore c hc]
  · rintro ⟨a, ⟨before, after, hl, -, hbefore⟩, ha⟩
    refine ⟨before, a, after, hl, ha, fun c hc => ?_⟩
    exact Option.eq_none_iff_forall_ne_some.2 (not_exists.1 (hbefore c hc))

/-- In a list that ascends in a key, the first element with a property is the least one. -/
lemma first_iff_least {p : α → Prop} {key : α → Text} (h : l.Pairwise (key · < key ·)) {a : α} :
    First p l a ↔ a ∈ l ∧ p a ∧ ∀ b ∈ l, p b → key a ≤ key b := by
  constructor
  · rintro ⟨before, after, rfl, ha, hbefore⟩
    refine ⟨by simp, ha, fun b hb hpb => ?_⟩
    rcases List.mem_append.1 hb with hb | hb
    · exact absurd hpb (hbefore b hb)
    · rcases List.mem_cons.1 hb with rfl | hb
      · exact List.le_refl _
      · have hafter := (List.pairwise_cons.1 (List.pairwise_append.1 h).2.1).1 b hb
        exact List.le_of_lt hafter
  · rintro ⟨hmem, ha, hleast⟩
    obtain ⟨before, after, rfl⟩ := List.append_of_mem hmem
    refine ⟨before, after, rfl, ha, fun b hb hpb => ?_⟩
    have hlt : key b < key a := (List.pairwise_append.1 h).2.2 b hb a (List.mem_cons_self ..)
    exact List.not_lt.2 (hleast b (List.mem_append_left _ hb) hpb) hlt

end

namespace Model

variable {m : Model}

/-! ### Members -/

/-- A member has a name and, where parameter types are given, is a constructor or method whose
parameter types match them. -/
def Answers (name : Text) (parameters : Option (List Text)) (e : Entity) : Prop :=
  e.name = name ∧
    ∀ types ∈ parameters, e.isField = false ∧ Name.parametersMatch e.parameterTypes types = true

/-- The member of a type that is preferred to its other members with a name: a field if there is
one, or else the one that was declared first. -/
inductive Preferred (m : Model) (type name : Text) (parameters : Option (List Text)) (e : Entity) :
    Prop
  | field : First (fun f => Answers name parameters f ∧ f.isField = true) (m.membersOf type) e →
      Preferred m type name parameters e
  | callable : (∀ f ∈ m.membersOf type, Answers name parameters f → f.isField = false) →
      First (Answers name parameters) (m.membersOf type) e → Preferred m type name parameters e

/-- A member is found from a type: it is the preferred one of the first type of the lineage that has
any. -/
def FindsMember (m : Model) (type name : Text) (parameters : Option (List Text)) (e : Entity) :
    Prop :=
  name ≠ [] ∧ ∃ scope,
    First (fun s => ∃ o ∈ m.membersOf s, Answers name parameters o) (m.lineage type) scope ∧
      m.Preferred scope name parameters e

lemma memberMatches_iff {name : Text} {parameters : Option (List Text)} {e : Entity} :
    memberMatches name parameters e = true ↔ Answers name parameters e := by
  cases parameters <;> simp [memberMatches, Answers]

lemma selected?_eq_some_iff {type name : Text} {parameters : Option (List Text)} {e : Entity} :
    m.selected? type name parameters = some e ↔ m.Preferred type name parameters e := by
  have hfield (f : Entity) :
      First (fun f => Answers name parameters f ∧ f.isField = true) (m.membersOf type) f ↔
        ((m.membersOf type).filter (memberMatches name parameters)).find? Entity.isField =
          some f := by
    rw [List.find?_filter, find?_eq_some_iff_first]
    simp [memberMatches_iff]
  have hfirst : First (Answers name parameters) (m.membersOf type) e ↔
      ((m.membersOf type).filter (memberMatches name parameters)).head? = some e := by
    rw [List.head?_filter, find?_eq_some_iff_first]
    simp [memberMatches_iff]
  rw [selected?, fieldOrFirst, Option.or_eq_some_iff]
  constructor
  · rintro (hf | ⟨hnone, hf⟩)
    · exact .field ((hfield e).2 hf)
    · refine .callable (fun f hf hanswers => ?_) (hfirst.2 hf)
      have hmatches := List.mem_filter.2 ⟨hf, memberMatches_iff.2 hanswers⟩
      simpa using List.find?_eq_none.1 hnone f hmatches
  · rintro (hf | ⟨hcallable, hf⟩)
    · exact .inl ((hfield e).1 hf)
    · refine .inr ⟨List.find?_eq_none.2 fun f hf => ?_, hfirst.1 hf⟩
      obtain ⟨hmem, hmatches⟩ := List.mem_filter.1 hf
      simp [hcallable f hmem (memberMatches_iff.1 hmatches)]

lemma exists_selected?_iff {type name : Text} {parameters : Option (List Text)} :
    (∃ e, m.selected? type name parameters = some e) ↔
      ∃ e ∈ m.membersOf type, Answers name parameters e := by
  rw [← Option.ne_none_iff_exists', ne_eq, selected?_eq_none_iff]
  simp [memberMatches_iff]

lemma lookupMember_eq_some_iff (h : m.Consistent) {t : TypeEntity} {name q : Text}
    {parameters : Option (List Text)} :
    m.lookupMember (some t) name parameters = .ok (some q) ↔
      ∃ e, m.FindsMember t.qualifiedName name parameters e ∧ e.qualifiedName = q := by
  have hscope (s : Text) :
      (∃ n, (m.selected? s name parameters).map (·.qualifiedName) = some n) ↔
        ∃ o ∈ m.membersOf s, Answers name parameters o := by
    rw [← exists_selected?_iff]
    simp
  rw [lookupMember]
  split
  · rename_i hname
    simp [FindsMember, hname]
  · rename_i hname
    rw [firstMatch_eq h, Except.ok.injEq, findSome?_eq_some_iff_first]
    simp only [hscope]
    simp only [Option.map_eq_some_iff, selected?_eq_some_iff]
    constructor
    · rintro ⟨s, hs, e, he, hq⟩
      exact ⟨e, ⟨hname, s, hs, he⟩, hq⟩
    · rintro ⟨e, ⟨-, s, hs, he⟩, hq⟩
      exact ⟨s, hs, e, he, hq⟩

/-! ### Types -/

/-- A type has a simple name, or a qualified name that ends in it after a dot. -/
def HasName (name : Text) (t : TypeEntity) : Prop :=
  t.entity.name = name ∨ .char '.' :: name <:+ t.qualifiedName

instance (name : Text) (t : TypeEntity) : Decidable (HasName name t) :=
  inferInstanceAs (Decidable (_ ∨ _))

/-- A type is found from another one by a name: by its qualified name, as a nested type of the first
type of the lineage that has one, or as the least type of the package that has the name. -/
inductive FindsType (m : Model) (t : TypeEntity) (name : Text) (found : TypeEntity) : Prop
  | exact : found ∈ m.types → found.qualifiedName = name → FindsType m t name found
  | nested {scope : Text} : (∀ u ∈ m.types, u.qualifiedName ≠ name) →
      First (fun s => ∃ u ∈ m.types, u.qualifiedName = s ++ "." ++ name)
        (m.lineage t.qualifiedName) scope →
      found ∈ m.types → found.qualifiedName = scope ++ "." ++ name → FindsType m t name found
  | inPackage : (∀ u ∈ m.types, u.qualifiedName ≠ name) →
      (∀ s ∈ m.lineage t.qualifiedName, ∀ u ∈ m.types, u.qualifiedName ≠ s ++ "." ++ name) →
      found ∈ m.types → found.info.package = t.info.package → HasName name found →
      (∀ u ∈ m.types, u.info.package = t.info.package → HasName name u →
        found.qualifiedName ≤ u.qualifiedName) → FindsType m t name found

lemma typeMatches_iff {name : Text} {t : TypeEntity} :
    typeMatches name t = true ↔ HasName name t := by
  simp [typeMatches, HasName, ofString, ofChars]

lemma lookupType_eq_some_iff (h : m.Consistent) {t u : TypeEntity} {name : Text} :
    m.lookupType name (some t) t.info.package = some u ↔ m.FindsType t name u := by
  have hexact (n : Text) : m.findType? n = none ↔ ∀ u ∈ m.types, u.qualifiedName ≠ n := by
    rw [Option.eq_none_iff_forall_ne_some]
    simp [h.findType?_eq_some_iff]
  have hnested : ((m.lineage t.qualifiedName).findSome? fun s => m.findType? (s ++ "." ++ name)) =
        some u ↔ ∃ scope, First (fun s => ∃ u ∈ m.types, u.qualifiedName = s ++ "." ++ name)
          (m.lineage t.qualifiedName) scope ∧ u ∈ m.types ∧
            u.qualifiedName = scope ++ "." ++ name := by
    rw [findSome?_eq_some_iff_first]
    simp only [h.findType?_eq_some_iff]
  have hpackage : (m.typesInPackage t.info.package).find? (typeMatches name) = some u ↔
      u ∈ m.types ∧ u.info.package = t.info.package ∧ HasName name u ∧
        ∀ v ∈ m.types, v.info.package = t.info.package → HasName name v →
          u.qualifiedName ≤ v.qualifiedName := by
    rw [find?_eq_some_iff_first, first_iff_least (h.typesInPackage_ascending _)]
    simp only [h.mem_typesInPackage_iff, typeMatches_iff, and_assoc, and_imp]
  have hnone : ((m.lineage t.qualifiedName).findSome? fun s => m.findType? (s ++ "." ++ name)) =
      none ↔ ∀ s ∈ m.lineage t.qualifiedName, ∀ u ∈ m.types,
        u.qualifiedName ≠ s ++ "." ++ name := by
    rw [List.findSome?_eq_none_iff]
    simp only [hexact]
  rw [lookupType, Option.or_eq_some_iff, Option.or_eq_some_iff, h.findType?_eq_some_iff, hexact]
  simp only [Option.map_some, Option.getD_some, hnested, hpackage, hnone]
  constructor
  · rintro (⟨hu, hname⟩ | ⟨hnoexact, ⟨scope, hscope, hu, hname⟩ |
      ⟨hnonested, hu, hpackage, hname, hleast⟩⟩)
    · exact .exact hu hname
    · exact .nested hnoexact hscope hu hname
    · exact .inPackage hnoexact hnonested hu hpackage hname hleast
  · rintro (⟨hu, hname⟩ | ⟨hnoexact, hscope, hu, hname⟩ |
      ⟨hnoexact, hnonested, hu, hpackage, hname, hleast⟩)
    · exact .inl ⟨hu, hname⟩
    · exact .inr ⟨hnoexact, .inl ⟨_, hscope, hu, hname⟩⟩
    · exact .inr ⟨hnoexact, .inr ⟨hnonested, hu, hpackage, hname, hleast⟩⟩

/-- What a text stands for, seen from a type. A text without a type part stands for a member found
from the type. A bare name stands for a type where it stands for no member. A text with a type part
stands for a member found from the type that this part stands for. -/
inductive Denotes (m : Model) (t : TypeEntity) (text : Text) : Text → Prop
  | member {name : Text} {parameters : Option (List Text)} {e : Entity} :
      Name.MemberReference.ofText text = ⟨[], name, parameters⟩ →
      m.FindsMember t.qualifiedName name parameters e → Denotes m t text e.qualifiedName
  | type {name : Text} {found : TypeEntity} :
      Name.MemberReference.ofText text = ⟨[], name, none⟩ → text.head? ≠ some (.char '#') →
      (∀ e, ¬ m.FindsMember t.qualifiedName name none e) → m.FindsType t name found →
      Denotes m t text found.qualifiedName
  | typeMember {type name : Text} {parameters : Option (List Text)} {found : TypeEntity}
      {e : Entity} :
      Name.MemberReference.ofText text = ⟨type, name, parameters⟩ → type ≠ [] →
      m.FindsType t type found → m.FindsMember found.qualifiedName name parameters e →
      Denotes m t text e.qualifiedName

section

variable {t : TypeEntity} {text q : Text}

/-- With a number sign in front or a parameter list, only members count. -/
lemma denotes_iff_of_member {name : Text} {parameters : Option (List Text)}
    (hparts : Name.MemberReference.ofText text = ⟨[], name, parameters⟩)
    (hform : text.head? = some (.char '#') ∨ parameters.isSome = true) :
    m.Denotes t text q ↔
      ∃ e, m.FindsMember t.qualifiedName name parameters e ∧ e.qualifiedName = q := by
  constructor
  · intro hdenotes
    cases hdenotes with
    | member hread hfinds =>
      cases hparts.symm.trans hread
      exact ⟨_, hfinds, rfl⟩
    | type hread hsign =>
      cases hparts.symm.trans hread
      simp [hsign] at hform
    | typeMember hread htype =>
      cases hparts.symm.trans hread
      exact absurd rfl htype
  · rintro ⟨e, hfinds, rfl⟩
    exact .member hparts hfinds

lemma denotes_iff_of_bare {name : Text}
    (hparts : Name.MemberReference.ofText text = ⟨[], name, none⟩)
    (hsign : text.head? ≠ some (.char '#')) :
    m.Denotes t text q ↔
      (∃ e, m.FindsMember t.qualifiedName name none e ∧ e.qualifiedName = q) ∨
        (∀ e, ¬ m.FindsMember t.qualifiedName name none e) ∧
          ∃ found, m.FindsType t name found ∧ found.qualifiedName = q := by
  constructor
  · intro hdenotes
    cases hdenotes with
    | member hread hfinds =>
      cases hparts.symm.trans hread
      exact .inl ⟨_, hfinds, rfl⟩
    | type hread _ hnone hfinds =>
      cases hparts.symm.trans hread
      exact .inr ⟨hnone, _, hfinds, rfl⟩
    | typeMember hread htype =>
      cases hparts.symm.trans hread
      exact absurd rfl htype
  · rintro (⟨e, hfinds, rfl⟩ | ⟨hnone, found, hfinds, rfl⟩)
    · exact .member hparts hfinds
    · exact .type hparts hsign hnone hfinds

lemma denotes_iff_of_type {type name : Text} {parameters : Option (List Text)}
    (hparts : Name.MemberReference.ofText text = ⟨type, name, parameters⟩) (htype : type ≠ []) :
    m.Denotes t text q ↔ ∃ found, m.FindsType t type found ∧
      ∃ e, m.FindsMember found.qualifiedName name parameters e ∧ e.qualifiedName = q := by
  constructor
  · intro hdenotes
    cases hdenotes with
    | member hread | type hread =>
      cases hparts.symm.trans hread
      exact absurd rfl htype
    | typeMember hread _ hfound hfinds =>
      cases hparts.symm.trans hread
      exact ⟨_, hfound, _, hfinds, rfl⟩
  · rintro ⟨found, hfound, e, hfinds, rfl⟩
    exact .typeMember hparts htype hfound hfinds

/-- A look-up finds what a text stands for. -/
lemma lookup_eq_some_iff (h : m.Consistent) {owner : Entity}
    (howner : m.enclosingType? owner = some t) :
    m.lookup owner text = .ok (some q) ↔ m.Denotes t text q := by
  have hpackage : m.enclosingPackage owner = t.info.package := by rw [enclosingPackage, howner]
  obtain ⟨type, name, parameters, hparts⟩ :
      ∃ type name parameters, Name.MemberReference.ofText text = ⟨type, name, parameters⟩ :=
    ⟨_, _, _, rfl⟩
  rw [lookup]
  simp only [hparts, howner, hpackage]
  split
  · rename_i htype
    rw [denotes_iff_of_type hparts htype]
    simp only [← lookupType_eq_some_iff h]
    cases m.lookupType type (some t) t.info.package with
    | none => simp [pure, Except.pure]
    | some u =>
      rw [lookupMember_eq_some_iff h]
      simp
  · rename_i htype
    rw [ne_eq, not_not] at htype
    subst htype
    split
    · rename_i hform
      rw [denotes_iff_of_member hparts (by simpa using hform), lookupMember_eq_some_iff h]
    · rename_i hform
      obtain ⟨hsign, rfl⟩ : text.head? ≠ some (.char '#') ∧ parameters = none := by
        simpa using hform
      rw [denotes_iff_of_bare hparts hsign, ← lookupMember_eq_some_iff h]
      obtain ⟨member, hmember⟩ := lookupMember_ok h (some t) name none
      rw [hmember, ok_bind]
      cases member with
      | some n =>
        obtain ⟨e, hfinds, -⟩ := (lookupMember_eq_some_iff h).1 hmember
        have hnot : ¬ ∀ e, ¬ m.FindsMember t.qualifiedName name none e :=
          fun hnone => hnone e hfinds
        simp [hnot, pure, Except.pure]
      | none =>
        have hnone : ∀ e, ¬ m.FindsMember t.qualifiedName name none e := by
          intro e hfinds
          have hsome := (lookupMember_eq_some_iff h).2 ⟨e, hfinds, rfl⟩
          rw [hmember] at hsome
          cases hsome
        simp [hnone, pure, Except.pure, lookupType_eq_some_iff h]

end

end Model

/-! ### Precedence -/

end ApiDocs
