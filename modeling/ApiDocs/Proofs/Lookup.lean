import ApiDocs.Proofs.Model
import ApiDocs.Resolution.Lookup

/-!
# What references can resolve to

Whichever way a look-up goes, what it finds is the name of an entity of the model: a member comes
from the member list of a type, and a type from a look-up of its name. What is not found stands for
itself.
-/

namespace ApiDocs.Model

variable {m : Model}

/-! ### Names of the model -/

lemma mem_names {e : Entity} (h : e ∈ m.entities) : e.qualifiedName ∈ m.names :=
  List.mem_map_of_mem h

lemma mem_names_of_findType? {n : Text} {t : TypeEntity} (h : m.findType? n = some t) :
    t.qualifiedName ∈ m.names := by
  rw [findType?] at h
  split at h
  · cases h
  · obtain ⟨e, he, htype⟩ := Option.bind_eq_some_iff.1 h
    obtain ⟨rfl, -⟩ := asType?_eq_some_iff.1 htype
    exact mem_names (List.mem_of_find?_eq_some he)

/-! ### Members -/

lemma mem_of_best {es : List (Nat × Entity)} {b : Nat × Entity} (h : best es = some b) :
    b ∈ es := by
  induction es generalizing b with
  | nil => cases h
  | cons e es ih =>
    rw [best] at h
    split at h
    · rename_i b' hb
      split at h
      · cases h
        exact List.mem_cons_of_mem _ (ih hb)
      · cases h
        exact List.mem_cons_self ..
    · cases h
      exact List.mem_cons_self ..

lemma mem_names_of_matchIn {type name found : Text} {parameters : Option (List Text)}
    (h : m.matchIn type name parameters = .ok (some found)) : found ∈ m.names := by
  rw [matchIn] at h
  obtain ⟨ranked, hranked, h⟩ := bind_eq_ok_iff.1 h
  obtain ⟨b, hb, rfl⟩ := Option.map_eq_some_iff.1 (Except.ok.inj h)
  obtain ⟨e, he, hrank⟩ := exists_of_mem_mapM_ok hranked (mem_of_best hb)
  obtain ⟨n, -, rfl⟩ := map_eq_ok_iff.1 hrank
  exact mem_names (mem_entities_of_mem_membersOf (List.mem_filter.1 he).1)

lemma mem_names_of_firstMatch {name found : Text} {parameters : Option (List Text)}
    {types : List Text} (h : m.firstMatch name parameters types = .ok (some found)) :
    found ∈ m.names := by
  induction types with
  | nil => cases h
  | cons type types ih =>
    rw [firstMatch] at h
    obtain ⟨first, hfirst, h⟩ := bind_eq_ok_iff.1 h
    cases first with
    | none => exact ih h
    | some n =>
      cases h
      exact mem_names_of_matchIn hfirst

lemma mem_names_of_lookupMember {start : Option TypeEntity} {name found : Text}
    {parameters : Option (List Text)}
    (h : m.lookupMember start name parameters = .ok (some found)) : found ∈ m.names := by
  cases start with
  | none => cases h
  | some t =>
    rw [lookupMember] at h
    split at h
    · cases h
    · exact mem_names_of_firstMatch h

/-! ### Types -/

lemma mem_names_of_lookupType {name package : Text} {enclosing : Option TypeEntity}
    {t : TypeEntity} (h : m.lookupType name enclosing package = some t) :
    t.qualifiedName ∈ m.names := by
  rw [lookupType] at h
  rcases Option.or_eq_some_iff.1 h with hexact | ⟨-, h⟩
  · exact mem_names_of_findType? hexact
  · rcases Option.or_eq_some_iff.1 h with hnested | ⟨-, hpackage⟩
    · obtain ⟨scope, -, hscope⟩ := List.exists_of_findSome?_eq_some hnested
      exact mem_names_of_findType? hscope
    · obtain ⟨n, -, hn⟩ := List.mem_filterMap.1 (List.mem_of_find?_eq_some hpackage)
      exact mem_names_of_findType? hn

/-! ### References -/

lemma mem_names_of_lookup {owner : Entity} {text found : Text}
    (h : m.lookup owner text = .ok (some found)) : found ∈ m.names := by
  rw [lookup] at h
  split at h
  · split at h
    · exact mem_names_of_lookupMember h
    · cases h
  · split at h
    · exact mem_names_of_lookupMember h
    · obtain ⟨first, hfirst, h⟩ := bind_eq_ok_iff.1 h
      cases first with
      | some n =>
        cases h
        exact mem_names_of_lookupMember hfirst
      | none =>
        obtain ⟨t, ht, rfl⟩ := Option.map_eq_some_iff.1 (Except.ok.inj h)
        exact mem_names_of_lookupType ht

/-- A reference resolves to the name of an entity, or its trimmed text stands for itself. -/
theorem resolve_sound {owner : Entity} {text : Text} {outcome : Resolution}
    (h : m.resolve owner text = .ok outcome) :
    (∃ t ∈ m.names, outcome = .link t) ∨ outcome = .unresolved (Text.trim text) := by
  rw [resolve] at h
  split at h
  · rename_i hhas
    cases h
    exact .inl ⟨_, (has_iff_mem_names m _).1 hhas, rfl⟩
  · obtain ⟨found, hfound, h⟩ := bind_eq_ok_iff.1 h
    cases found with
    | none =>
      cases h
      exact .inr rfl
    | some n =>
      cases Except.ok.inj h
      split
      · exact .inr rfl
      · exact .inl ⟨n, mem_names_of_lookup hfound, rfl⟩

end ApiDocs.Model
