import ApiDocs.Extraction.Scope
import ApiDocs.Proofs.Failing

/-!
# Kinds and visibility of declarations

Sorting by kind succeeds when every declaration has a known kind and, constructors aside, a name. A
type is hidden if it is less visible than the limit or lies in a hidden type; closing the hidden
names round by round finds exactly these, since every round but the last finds a new one.
-/

namespace ApiDocs

open Extraction

/-! ### Kinds -/

/-- A declaration has a known kind and, unless it is a constructor, a name. -/
def Declaration.WellNamed (d : Declaration) : Prop :=
  ∃ k, Kind.ofDeclared? d.kind = some k ∧ (k ≠ .member .constructor → d.name ≠ [])

/-- A declaration is at fault, or two are that have one name. -/
def Failure.BlamesInput (f : Failure) : Prop :=
  (∃ name flaw, f = .malformed name flaw) ∨ ∃ name, f = .duplicate name

namespace Extraction

def packagesOf (ds : List Declaration) : List Declaration :=
  ds.filter fun d => Kind.ofDeclared? d.kind = some .package

def typesOf (ds : List Declaration) : List Declaration :=
  ds.filter fun d => Kind.ofDeclared? d.kind = some .type

def membersOf (ds : List Declaration) : List Declaration :=
  ds.filter fun d => (Kind.ofDeclared? d.kind).any Kind.isMember

lemma mem_typesOf {ds : List Declaration} {d : Declaration} :
    d ∈ typesOf ds ↔ d ∈ ds ∧ Kind.ofDeclared? d.kind = some .type := by
  simp [typesOf]

end Extraction

lemma Declaration.checkKind_of_wellNamed {d : Declaration} (h : d.WellNamed) :
    ∃ k, Kind.ofDeclared? d.kind = some k ∧ d.checkKind = .ok k := by
  obtain ⟨k, hk, hname⟩ := h
  refine ⟨k, hk, ?_⟩
  have hc : ¬ (d.name = [] ∧ k ≠ .member .constructor) := fun hc => hname hc.2 hc.1
  simp only [checkKind, hk, Bool.and_eq_true, decide_eq_true_eq, hc, if_false]

lemma Declaration.checkKind_of_not_wellNamed {d : Declaration} (h : ¬ d.WellNamed) :
    ∃ name flaw, d.checkKind = .error (.malformed name flaw) := by
  cases hk : Kind.ofDeclared? d.kind with
  | none => exact ⟨d.name, .unknownKind d.kind, by rw [checkKind, hk]⟩
  | some k =>
    have hc : d.name = [] ∧ k ≠ .member .constructor := by
      by_contra hc
      exact h ⟨k, hk, fun hne hname => hc ⟨hname, hne⟩⟩
    refine ⟨d.scope, .unnamed d.kind, ?_⟩
    simp only [checkKind, hk]
    rw [if_pos (by simpa using hc)]

namespace Extraction

/-- Well-named declarations are sorted by kind. -/
lemma ofDeclarations_ok {ds : List Declaration} (h : ∀ d ∈ ds, d.WellNamed) :
    Sorted.ofDeclarations ds = .ok ⟨packagesOf ds, typesOf ds, membersOf ds⟩ := by
  induction ds with
  | nil => rfl
  | cons d ds ih =>
    obtain ⟨k, hk, hcheck⟩ := Declaration.checkKind_of_wellNamed (h d (List.mem_cons_self ..))
    rw [Sorted.ofDeclarations, hcheck, ih fun e he => h e (List.mem_cons_of_mem _ he)]
    cases k <;>
      simp [Sorted.cons, packagesOf, typesOf, membersOf, hk, Kind.isMember, pure, Except.pure]

lemma ofDeclarations_error {ds : List Declaration} (h : ¬ ∀ d ∈ ds, d.WellNamed) :
    ∃ name flaw, Sorted.ofDeclarations ds = .error (.malformed name flaw) := by
  induction ds with
  | nil => exact absurd (fun _ hd => absurd hd List.not_mem_nil) h
  | cons d ds ih =>
    by_cases hd : d.WellNamed
    · obtain ⟨k, -, hcheck⟩ := Declaration.checkKind_of_wellNamed hd
      obtain ⟨name, flaw, he⟩ := ih fun hds => h (List.forall_mem_cons.2 ⟨hd, hds⟩)
      exact ⟨name, flaw, by rw [Sorted.ofDeclarations, hcheck, he]; rfl⟩
    · obtain ⟨name, flaw, he⟩ := Declaration.checkKind_of_not_wellNamed hd
      exact ⟨name, flaw, by rw [Sorted.ofDeclarations, he]; rfl⟩

/-! ### Hidden types -/

/-- A type is hidden if it is less visible than the limit, or inside a hidden type. -/
inductive Hidden (limit : Visibility) (types : List Declaration) : Text → Prop
  | itself {d : Declaration} : d ∈ types → limit.rank < d.visibility.rank →
      Hidden limit types d.typeName
  | inside {d : Declaration} : d ∈ types → Hidden limit types d.scope →
      Hidden limit types d.typeName

/-- The names of types inside hidden ones are hidden too. -/
def HidesInside (types : List Declaration) (hidden : List Text) : Prop :=
  ∀ d ∈ types, d.scope ∈ hidden → d.typeName ∈ hidden

/-- The types whose names are not among the hidden ones. -/
def shown (types : List Declaration) (hidden : List Text) : List Declaration :=
  types.filter (·.typeName ∉ hidden)

lemma subset_closeHidden (rounds : Nat) (types : List Declaration) (hidden : List Text) :
    hidden ⊆ closeHidden rounds types hidden := by
  induction rounds generalizing hidden with
  | zero => exact List.Subset.refl _
  | succ rounds ih =>
    rw [closeHidden]
    split
    · exact List.Subset.refl _
    · exact List.Subset.trans (List.subset_append_left ..) (ih _)

lemma hidden_of_mem_closeHidden {limit : Visibility} {types : List Declaration} (rounds : Nat)
    {hidden : List Text} (h : ∀ n ∈ hidden, Hidden limit types n) :
    ∀ n ∈ closeHidden rounds types hidden, Hidden limit types n := by
  induction rounds generalizing hidden with
  | zero => exact h
  | succ rounds ih =>
    rw [closeHidden]
    split
    · exact h
    · refine ih fun n hn => ?_
      rcases List.mem_append.1 hn with hn | hn
      · exact h n hn
      · obtain ⟨d, hd, rfl⟩ := List.mem_map.1 hn
        obtain ⟨hd, hscope⟩ := List.mem_filter.1 hd
        exact .inside hd (h _ (of_decide_eq_true hscope))

/-- A round that finds a new name leaves fewer types shown. -/
lemma shown_append_lt {types : List Declaration} {hidden nested : List Text} {d : Declaration}
    (hd : d ∈ types) (hnew : d.typeName ∉ hidden) (hnested : d.typeName ∈ nested) :
    (shown types (hidden ++ nested)).length < (shown types hidden).length := by
  have h : shown types (hidden ++ nested) = (shown types hidden).filter (·.typeName ∉ nested) := by
    simp only [shown, List.filter_filter, List.mem_append, not_or, Bool.decide_and]
    exact List.filter_congr fun _ _ => Bool.and_comm ..
  rw [h, List.length_filter_lt_length_iff_exists]
  exact ⟨d, List.mem_filter.2 ⟨hd, by simpa using hnew⟩, by simpa using hnested⟩

lemma hidesInside_closeHidden {rounds : Nat} {types : List Declaration} {hidden : List Text}
    (h : (shown types hidden).length ≤ rounds) :
    HidesInside types (closeHidden rounds types hidden) := by
  induction rounds generalizing hidden with
  | zero =>
    have hnone : shown types hidden = [] := List.length_eq_zero_iff.1 (Nat.le_zero.1 h)
    intro d hd _
    rw [closeHidden]
    simpa using List.filter_eq_nil_iff.1 hnone d hd
  | succ rounds ih =>
    rw [closeHidden]
    split
    · rename_i hclosed
      intro d hd hscope
      have := List.all_eq_true.1 hclosed d.typeName
        (List.mem_map.2 ⟨d, List.mem_filter.2 ⟨hd, by simpa using hscope⟩, rfl⟩)
      simpa using this
    · rename_i hopen
      -- a round that does not close hides one more type, so the rounds that are left suffice
      simp only [Bool.not_eq_true, List.all_eq_false, List.mem_map, List.mem_filter,
        decide_eq_true_eq] at hopen
      obtain ⟨_, ⟨d, ⟨hd, hscope⟩, rfl⟩, hnew⟩ := hopen
      have hnested : d.typeName ∈ (types.filter (·.scope ∈ hidden)).map (·.typeName) :=
        List.mem_map.2 ⟨d, List.mem_filter.2 ⟨hd, by simpa using hscope⟩, rfl⟩
      exact ih (Nat.le_of_lt_succ (Nat.lt_of_lt_of_le (shown_append_lt hd hnew hnested) h))

/-- The names found are those of the hidden types. -/
theorem mem_hiddenTypes {limit : Visibility} {types : List Declaration} {n : Text} :
    n ∈ hiddenTypes limit types ↔ Hidden limit types n := by
  constructor
  · refine hidden_of_mem_closeHidden _ (fun n hn => ?_) n
    obtain ⟨d, hd, rfl⟩ := List.mem_map.1 hn
    obtain ⟨hd, hrank⟩ := List.mem_filter.1 hd
    exact .itself hd (of_decide_eq_true hrank)
  · intro h
    induction h with
    | itself hd hrank =>
      exact subset_closeHidden _ _ _
        (List.mem_map.2 ⟨_, List.mem_filter.2 ⟨hd, decide_eq_true hrank⟩, rfl⟩)
    | inside hd _ ih =>
      exact hidesInside_closeHidden (List.length_filter_le _ _) _ hd ih

instance (limit : Visibility) (types : List Declaration) :
    DecidablePred (Hidden limit types) :=
  fun _ => decidable_of_iff _ mem_hiddenTypes

/-! ### What is kept -/

def keptTypes (limit : Visibility) (ds : List Declaration) : List Declaration :=
  (typesOf ds).filter fun d => ¬ Hidden limit (typesOf ds) d.typeName

def keptMembers (limit : Visibility) (ds : List Declaration) : List Declaration :=
  (membersOf ds).filter fun d =>
    ¬ Hidden limit (typesOf ds) d.scope ∧ d.visibility.rank ≤ limit.rank

def kept (limit : Visibility) (ds : List Declaration) : Sorted :=
  ⟨packagesOf ds, keptTypes limit ds, keptMembers limit ds⟩

lemma restrict_sorted (limit : Visibility) (ds : List Declaration) :
    Sorted.restrict ⟨packagesOf ds, typesOf ds, membersOf ds⟩ limit = kept limit ds := by
  simp only [Sorted.restrict, kept, keptTypes, keptMembers, mem_hiddenTypes, Bool.decide_and]

/-- A kept type has a name. -/
lemma name_ne_nil_of_mem_keptTypes {limit : Visibility} {ds : List Declaration}
    (h : ∀ d ∈ ds, d.WellNamed) : ∀ d ∈ keptTypes limit ds, d.name ≠ [] := by
  intro d hd
  obtain ⟨hd, hkind⟩ := mem_typesOf.1 (List.mem_filter.1 hd).1
  obtain ⟨k, hk, hname⟩ := h d hd
  rw [hkind] at hk
  cases hk
  exact hname (by simp)

end Extraction

end ApiDocs
