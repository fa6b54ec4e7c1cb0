import ApiDocs.Proofs.Consistent
import Mathlib.Data.Finset.Card
import Mathlib.Logic.Relation

/-!
# Supertypes without cycles

Where no type is its own ancestor, every type has a height: the number of types that it inherits
from. The height falls on the way from a type to its ancestors, so whatever is passed up along the
ancestors comes to an end.
-/

namespace ApiDocs.Model

/-- A type of the model declares another one as a supertype. -/
def Inherits (m : Model) (n p : Text) : Prop :=
  (∃ t ∈ m.types, t.qualifiedName = n ∧ p ∈ t.info.parents) ∧ ∃ t ∈ m.types, t.qualifiedName = p

/-- No type inherits from itself. -/
def Acyclic (m : Model) : Prop := ∀ n, ¬ Relation.TransGen m.Inherits n n

variable {m : Model}

/-! ### What the table of ancestors says -/

lemma has_supertypes (h : m.names.Nodup) {n : Text} :
    m.supertypes.has n = true ↔ ∃ t ∈ m.types, t.qualifiedName = n := by
  rw [Table.has_iff_mem_keys, keys_supertypes h, List.mem_map]

lemma mem_parents_supertypes {n p : Text} (hp : p ∈ m.supertypes.parents n) :
    ∃ t ∈ m.types, t.qualifiedName = n ∧ p ∈ t.info.parents := by
  rw [Supertypes.parents] at hp
  cases hn : m.supertypes.get? n with
  | none => simp [hn] at hp
  | some parents =>
    obtain ⟨t, ht, heq⟩ := List.mem_map.1 (Table.mem_of_get?_ofEntries hn)
    cases heq
    rw [hn] at hp
    exact ⟨t, ht, rfl, hp⟩

/-- A type inherits from each of its ancestors. -/
lemma Consistent.inherits_of_mem_ancestorsOf (h : m.Consistent) {n a : Text}
    (ha : a ∈ m.ancestorsOf n) : Relation.TransGen m.Inherits n a := by
  have hinherits {n p : Text} (hp : p ∈ m.supertypes.parents n)
      (hhas : m.supertypes.has p = true) : m.Inherits n p :=
    ⟨mem_parents_supertypes hp, (has_supertypes h.distinct).1 hhas⟩
  rw [ancestorsOf, h.ancestors, get?_ancestors] at ha
  split at ha
  · revert a
    apply Supertypes.ancestorsOf_induction
    · intro p hp hhas
      exact .single (hinherits hp hhas)
    · intro n hn p hp hhas
      exact hn.tail (hinherits hp hhas)
  · cases ha

/-! ### Heights -/

open scoped Classical in
/-- How many types a type inherits from. -/
noncomputable def height (m : Model) (n : Text) : Nat :=
  ((m.types.map (·.qualifiedName)).toFinset.filter (Relation.TransGen m.Inherits n)).card

/-- A type is higher than those it inherits from. -/
lemma Acyclic.height_lt (h : m.Acyclic) {n a : Text} (ha : Relation.TransGen m.Inherits n a) :
    m.height a < m.height n := by
  have hmem : a ∈ m.types.map (·.qualifiedName) := by
    cases ha with
    | single hna => exact List.mem_map.2 hna.2
    | tail _ hba => exact List.mem_map.2 hba.2
  apply Finset.card_lt_card
  rw [Finset.ssubset_iff_of_subset]
  · refine ⟨a, ?_, ?_⟩
    · simpa only [Finset.mem_filter, List.mem_toFinset] using And.intro hmem ha
    · simpa only [Finset.mem_filter, not_and] using fun _ => h a
  · intro b hb
    simp only [Finset.mem_filter] at hb ⊢
    exact ⟨hb.1, ha.trans hb.2⟩

open scoped Classical in
lemma height_le (m : Model) (n : Text) : m.height n ≤ m.entities.length := by
  calc m.height n
    _ ≤ (m.types.map (·.qualifiedName)).toFinset.card := Finset.card_filter_le _ _
    _ ≤ (m.types.map (·.qualifiedName)).length := List.toFinset_card_le _
    _ ≤ m.names.length := (typeNames_sublist m).length_le
    _ = m.entities.length := List.length_map _

/-- A model is acyclic if its types can be ranked so that supertypes have smaller ranks. -/
lemma acyclic_of_rank (rank : Text → Nat)
    (h : ∀ t ∈ m.types, ∀ p ∈ t.info.parents, rank p < rank t.qualifiedName) : m.Acyclic := by
  have hinherits {n p : Text} (hp : m.Inherits n p) : rank p < rank n := by
    obtain ⟨⟨t, ht, rfl, hparents⟩, -⟩ := hp
    exact h t ht p hparents
  have hlower {n p : Text} (hp : Relation.TransGen m.Inherits n p) : rank p < rank n := by
    induction hp with
    | single hp => exact hinherits hp
    | tail _ hp ih => exact Nat.lt_trans (hinherits hp) ih
  exact fun n hn => Nat.lt_irrefl _ (hlower hn)

end ApiDocs.Model
