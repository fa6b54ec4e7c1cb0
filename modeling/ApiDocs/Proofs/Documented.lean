import ApiDocs.Proofs.WellFormed
import Mathlib.Data.List.Nodup

/-!
# Documentation of extracted entities

Every entity of an extracted model has the documentation of a declaration that was kept. The
references in it stand at sites of their own, so a resolution kept under a site is that of one
reference.
-/

namespace ApiDocs

open Extraction

namespace Extraction

/-! ### The parts of a documentation -/

section

variable (n : Nat) (owner : Text) (d : Declaration) (e : Entity)

@[simp] lemma summary_documentation :
    (documentation n owner d e).summary = (Comment.splitFirstSentence d.comment).1 := rfl

@[simp] lemma body_documentation :
    (documentation n owner d e).body = (Comment.splitFirstSentence d.comment).2 := rfl

@[simp] lemma tags_documentation :
    (documentation n owner d e).tags = d.tags.mapIdx (tagEntity (Site.mk n owner)) := rfl

@[simp] lemma links_documentation : (documentation n owner d e).links =
    referencesAt (fun i => Site.mk n owner (.text i))
      (Comment.mentions (Comment.splitFirstSentence d.comment).1 ++
        Comment.mentions (Comment.splitFirstSentence d.comment).2) := by
  rw [documentation]

end

/-! ### Where documentation comes from -/

def Sorted.declarations (s : Sorted) : List Declaration := s.packages ++ s.types ++ s.members

lemma mem_of_mem_declarations {limit : Visibility} {ds : List Declaration} {d : Declaration}
    (h : d ∈ (kept limit ds).declarations) : d ∈ ds := by
  simp only [Sorted.declarations, kept, List.mem_append] at h
  rcases h with (h | h) | h
  · exact (List.mem_filter.1 h).1
  · exact (List.mem_filter.1 (List.mem_filter.1 h).1).1
  · exact (List.mem_filter.1 (List.mem_filter.1 h).1).1

lemma exists_documentation_of_mem {n : Nat} {s : Sorted} {known : Table Text}
    (ht : PackageTable s known) (hs : s.Fits) {e : Entity}
    (he : e ∈ (modelOf n s known).entities) :
    ∃ d ∈ s.declarations, ∃ bare, e = documentation n e.qualifiedName d bare := by
  simp only [Sorted.declarations, List.mem_append]
  rcases (mem_entitiesOf ht hs).1 he with ⟨i, hi, rfl⟩ | ⟨nd, hnd, rfl⟩ | he
  · exact ⟨s.packages[i], .inl (.inl (List.getElem_mem hi)), _, rfl⟩
  · exact ⟨nd.2, .inl (.inr (exists_of_mem_numbered hnd)), _, rfl⟩
  · obtain ⟨nd, hnd, rfl⟩ := List.mem_map.1 he
    exact ⟨nd.2, .inr (exists_of_mem_numbered hnd), _, rfl⟩

end Extraction

/-- An extracted entity has the documentation of a kept declaration. -/
theorem exists_documentation_of_extract {n : Nat} {limit : Visibility} {ds : List Declaration}
    {x : Extracted} (h : extract n limit ds = .ok x) {e : Entity} (he : e ∈ x.model.entities) :
    ∃ d ∈ (kept limit ds).declarations, ∃ bare, e = documentation n e.qualifiedName d bare := by
  obtain ⟨known, ht, hfits, rfl⟩ := exists_table_of_extract h
  exact exists_documentation_of_mem ht hfits he

/-! ### Where references stand -/

/-- The tag that a place is in. -/
def Place.tag? : Place → Option Nat
  | .text _ => none
  | .tagTarget k => some k
  | .tagText k _ => some k

def sites (rs : List Reference) : List Site := rs.map (·.site)

lemma sites_append (rs rs' : List Reference) : sites (rs ++ rs') = sites rs ++ sites rs' :=
  List.map_append

lemma sites_flatMap {α : Type} (f : α → List Reference) (as : List α) :
    sites (as.flatMap f) = as.flatMap fun a => sites (f a) :=
  List.map_flatMap

namespace Extraction

lemma sites_referencesAt (place : Nat → Site) (ms : List Comment.Mention) :
    sites (referencesAt place ms) = (List.range ms.length).map place := by
  apply List.ext_getElem
  · simp [sites, referencesAt]
  · intro i _ _
    simp [sites, referencesAt, Comment.Mention.at]

lemma nodup_sites_referencesAt {place : Nat → Site} (h : Function.Injective place)
    (ms : List Comment.Mention) : (sites (referencesAt place ms)).Nodup := by
  rw [sites_referencesAt]
  exact List.nodup_range.map h

lemma tag_of_mem_tagEntity {n : Nat} {owner : Text} {k : Nat} {t : Declaration.Tag} {s : Site}
    (hs : s ∈ sites (tagEntity (Site.mk n owner) k t).references) : s.place.tag? = some k := by
  rw [Tag.references, sites_append, List.mem_append] at hs
  rcases hs with hs | hs
  · obtain ⟨r, hr, rfl⟩ := List.mem_map.1 hs
    obtain ⟨mention, -, rfl⟩ := Option.map_eq_some_iff.1 (Option.mem_toList.1 hr)
    rfl
  · change s ∈ sites (referencesAt _ _) at hs
    rw [sites_referencesAt] at hs
    obtain ⟨i, -, rfl⟩ := List.mem_map.1 hs
    rfl

lemma nodup_sites_tagEntity (n : Nat) (owner : Text) (k : Nat) (t : Declaration.Tag) :
    (sites (tagEntity (Site.mk n owner) k t).references).Nodup := by
  have hlinks : (sites (tagEntity (Site.mk n owner) k t).links).Nodup :=
    nodup_sites_referencesAt (fun i j h => by simpa using h) _
  rw [Tag.references, sites_append]
  refine List.Nodup.append ?_ hlinks ?_
  · cases (tagEntity (Site.mk n owner) k t).reference with
    | none => exact List.nodup_nil
    | some r => exact List.nodup_singleton _
  · intro s hs hs'
    obtain ⟨r, hr, rfl⟩ := List.mem_map.1 hs
    obtain ⟨mention, -, rfl⟩ := Option.map_eq_some_iff.1 (Option.mem_toList.1 hr)
    change _ ∈ sites (referencesAt _ _) at hs'
    rw [sites_referencesAt] at hs'
    simp [Comment.Mention.at] at hs'

/-- No two references in a documentation stand at one site. -/
theorem nodup_sites_documentation (n : Nat) (owner : Text) (d : Declaration) (e : Entity) :
    (sites (documentation n owner d e).references).Nodup := by
  have htags : ((d.tags.mapIdx (tagEntity (Site.mk n owner))).flatMap
      fun t => sites t.references).Nodup := by
    rw [List.nodup_flatMap]
    constructor
    · intro t ht
      obtain ⟨k, hk, rfl⟩ := List.mem_mapIdx.1 ht
      exact nodup_sites_tagEntity n owner k _
    · -- a site says in which tag it is
      rw [List.pairwise_iff_getElem]
      intro i j hi hj hij s hsi hsj
      rw [List.getElem_mapIdx] at hsi hsj
      have htag := (tag_of_mem_tagEntity hsi).symm.trans (tag_of_mem_tagEntity hsj)
      exact Nat.ne_of_lt hij (Option.some.inj htag)
  rw [Entity.references, links_documentation, tags_documentation, sites_append, sites_flatMap]
  refine List.Nodup.append (nodup_sites_referencesAt (fun i j h => by simpa using h) _) htags ?_
  intro s hs hs'
  obtain ⟨t, ht, hs'⟩ := List.mem_flatMap.1 hs'
  obtain ⟨k, hk, rfl⟩ := List.mem_mapIdx.1 ht
  have htag := tag_of_mem_tagEntity hs'
  rw [sites_referencesAt] at hs
  obtain ⟨i, -, rfl⟩ := List.mem_map.1 hs
  cases htag

end Extraction

/-- No two references of an extracted model stand at one site. -/
theorem nodup_sites_of_extract {n : Nat} {limit : Visibility} {ds : List Declaration}
    {x : Extracted} (h : extract n limit ds = .ok x) :
    (sites (x.model.references.map (·.2))).Nodup := by
  have hc : x.model.Consistent := consistent_of_extract h
  rw [sites, Model.references, List.map_flatMap, List.map_flatMap, List.nodup_flatMap]
  simp only [List.map_map, Function.comp_def]
  refine ⟨fun e he => ?_, ?_⟩
  · obtain ⟨d, -, bare, heq⟩ := exists_documentation_of_extract h he
    have hsites := nodup_sites_documentation n e.qualifiedName d bare
    rwa [← heq] at hsites
  · -- a site says to which entity it belongs
    refine (List.pairwise_map.1 hc.distinct).imp_of_mem fun {a b} ha hb hne s hsa hsb => ?_
    obtain ⟨r, hr, rfl⟩ := List.mem_map.1 hsa
    obtain ⟨r', hr', heq⟩ := List.mem_map.1 hsb
    rw [← hc.owned a ha r hr, ← hc.owned b hb r' hr', heq] at hne
    exact hne rfl

end ApiDocs
