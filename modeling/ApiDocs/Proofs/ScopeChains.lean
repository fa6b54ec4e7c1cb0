import ApiDocs.Proofs.Nesting

/-!
# Chains of scopes

A type has a longer name than its scope. So the scopes that are met on the way outward from a type
make up one finite chain, and the last of them is no type. The package of the type is the first
package on its chain, and if some chain ends in a name that is no package either, a type is blamed.
-/

namespace ApiDocs.Extraction

/-- The scopes that are met on the way outward from a type, up to one that is no type. -/
inductive ScopeChain (types : List Declaration) : Text → List Text → Prop
  | root {d : Declaration} : d ∈ types → (∀ e ∈ types, e.typeName ≠ d.scope) →
      ScopeChain types d.typeName [d.scope]
  | nested {d : Declaration} {scopes : List Text} : d ∈ types → ScopeChain types d.scope scopes →
      ScopeChain types d.typeName (d.scope :: scopes)

/-- The chain of some type ends in a name that is neither a package nor a type. -/
def EndsOutside (packages : List Text) (types : List Declaration) : Prop :=
  ∃ d ∈ types, ∃ scopes s, ScopeChain types d.typeName scopes ∧ scopes.getLast? = some s ∧
    s ∉ packages ∧ ∀ e ∈ types, e.typeName ≠ s

variable {packages : List Text} {types : List Declaration}

/-! ### Chains -/

lemma ScopeChain.exists_type {n : Text} {scopes : List Text} (h : ScopeChain types n scopes) :
    ∃ d ∈ types, d.typeName = n := by
  cases h with
  | root hd _ => exact ⟨_, hd, rfl⟩
  | nested hd _ => exact ⟨_, hd, rfl⟩

/-- The chain of a type goes on with that of its scope, or ends there. -/
lemma scopeChain_iff (h : (types.map (·.typeName)).Nodup) {d : Declaration} (hd : d ∈ types)
    {scopes : List Text} :
    ScopeChain types d.typeName scopes ↔
      (scopes = [d.scope] ∧ ∀ e ∈ types, e.typeName ≠ d.scope) ∨
        ∃ further, scopes = d.scope :: further ∧ ScopeChain types d.scope further := by
  constructor
  · intro hchain
    generalize hn : d.typeName = n at hchain
    cases hchain with
    | root hd' hno =>
      obtain rfl := List.inj_on_of_nodup_map h hd hd' hn
      exact .inl ⟨rfl, hno⟩
    | nested hd' hfurther =>
      obtain rfl := List.inj_on_of_nodup_map h hd hd' hn
      exact .inr ⟨_, rfl, hfurther⟩
  · rintro (⟨rfl, hno⟩ | ⟨further, rfl, hfurther⟩)
    · exact .root hd hno
    · exact .nested hd hfurther

/-- A type has no more than one chain. -/
lemma ScopeChain.unique (h : (types.map (·.typeName)).Nodup) {n : Text} {scopes scopes' : List Text}
    (hscopes : ScopeChain types n scopes) (hscopes' : ScopeChain types n scopes') :
    scopes' = scopes := by
  induction hscopes generalizing scopes' with
  | root hd hno =>
    rcases (scopeChain_iff h hd).1 hscopes' with ⟨rfl, -⟩ | ⟨further, -, hfurther⟩
    · rfl
    · obtain ⟨e, he, hscope⟩ := hfurther.exists_type
      exact absurd hscope (hno e he)
  | nested hd hfurther ih =>
    rcases (scopeChain_iff h hd).1 hscopes' with ⟨-, hno⟩ | ⟨further, rfl, hfurther'⟩
    · obtain ⟨e, he, hscope⟩ := hfurther.exists_type
      exact absurd hscope (hno e he)
    · rw [ih hfurther']

/-- The names get shorter on the way outward, so every type has a chain. -/
lemma exists_scopeChain (hnames : ∀ d ∈ types, d.name ≠ []) {d : Declaration} (hd : d ∈ types) :
    ∃ scopes, ScopeChain types d.typeName scopes := by
  induction hlength : d.typeName.length using Nat.strongRecOn generalizing d with
  | _ n ih =>
    by_cases htype : ∃ e ∈ types, e.typeName = d.scope
    · obtain ⟨e, he, hscope⟩ := htype
      have hlt : e.typeName.length < n := by
        rw [hscope, ← hlength]
        exact length_scope_lt (hnames d hd)
      obtain ⟨scopes, hscopes⟩ := ih _ hlt he rfl
      exact ⟨_, .nested hd (hscope ▸ hscopes)⟩
    · exact ⟨_, .root hd fun e he hscope => htype ⟨e, he, hscope⟩⟩

/-- A chain ends in the scope of a type, which is no type. -/
lemma ScopeChain.exists_last {n : Text} {scopes : List Text} (h : ScopeChain types n scopes) :
    ∃ d ∈ types, scopes.getLast? = some d.scope ∧ ∀ e ∈ types, e.typeName ≠ d.scope := by
  induction h with
  | root hd hno => exact ⟨_, hd, rfl, hno⟩
  | nested _ _ ih =>
    obtain ⟨e, he, hlast, hno⟩ := ih
    exact ⟨e, he, by rw [List.getLast?_cons, hlast, Option.getD_some], hno⟩

/-! ### Packages on a chain -/

/-- A type lies in the first package on its chain. -/
lemma ScopeChain.inPackage_iff (h : (types.map (·.typeName)).Nodup) {n : Text} {scopes : List Text}
    (hscopes : ScopeChain types n scopes) {p : Text} :
    InPackage packages types n p ↔ scopes.find? (· ∈ packages) = some p := by
  induction hscopes with
  | @root d hd hno =>
    rw [Extraction.inPackage_iff h hd, List.find?_cons]
    by_cases hp : d.scope ∈ packages
    · simp [hp, eq_comm]
    · have hscope : ¬ InPackage packages types d.scope p := fun hin =>
        have ⟨e, he, heq⟩ := hin.exists_type
        hno e he heq
      simp [hp, hscope]
  | @nested d further hd _ ih =>
    rw [Extraction.inPackage_iff h hd, List.find?_cons]
    by_cases hp : d.scope ∈ packages
    · simp [hp, eq_comm]
    · simp [hp, ih]

/-- A type is misplaced exactly if the chain of one ends outside. -/
lemma endsOutside_iff : EndsOutside packages types ↔ ∃ d, Misplaced packages types d := by
  constructor
  · rintro ⟨d, -, scopes, s, hscopes, hlast, hp, hno⟩
    obtain ⟨e, he, hlast', -⟩ := hscopes.exists_last
    obtain rfl : s = e.scope := Option.some.inj (hlast.symm.trans hlast')
    exact ⟨e, he, hp, hno⟩
  · rintro ⟨d, hd, hp, hno⟩
    exact ⟨d, hd, _, _, .root hd hno, rfl, hp, hno⟩

/-- Every type lies in a package exactly if no chain ends outside. -/
lemma forall_inPackage_iff (hdistinct : (types.map (·.typeName)).Nodup)
    (hnames : ∀ d ∈ types, d.name ≠ []) :
    (∀ d ∈ types, ∃ p, InPackage packages types d.typeName p) ↔ ¬ EndsOutside packages types := by
  constructor
  · intro hall hends
    obtain ⟨d, hd, hp, hno⟩ := endsOutside_iff.1 hends
    obtain ⟨p, hin⟩ := hall d hd
    rcases (inPackage_iff hdistinct hd).1 hin with ⟨hscope, -⟩ | ⟨-, hscope⟩
    · exact hp hscope
    · obtain ⟨e, he, heq⟩ := hscope.exists_type
      exact hno e he heq
  · intro hends
    by_contra hnot
    obtain ⟨d, hd, -⟩ := typePackages_error hdistinct hnames hnot
    exact hends (endsOutside_iff.2 ⟨d, hd⟩)

/-! ### The packages of types -/

/-- For types with names, which have distinct qualified names, the scopes of each lead outward along
one chain to a name that is no type. Then either each type gets the first package on its chain, or
some chain ends in a name that is no package either and a type with such a scope is blamed. Never is
the nesting found to be cyclic. -/
theorem typePackages_reaches_root (packages : List Text) {types : List Declaration}
    (hdistinct : (types.map (·.typeName)).Nodup) (hnames : ∀ d ∈ types, d.name ≠ []) :
    (∀ d ∈ types, ∃! scopes, ScopeChain types d.typeName scopes) ∧
    (∀ name, typePackages packages types ≠ .error (.malformed name .cyclicNesting)) ∧
    ((∃ known, typePackages packages types = .ok known ∧ known.keys = types.map (·.typeName) ∧
        ∀ n scopes, ScopeChain types n scopes → known.get? n = scopes.find? (· ∈ packages)) ↔
      ¬ EndsOutside packages types) ∧
    ((∃ d, Misplaced packages types d ∧ typePackages packages types =
        .error (.malformed d.typeName (.typeOutsidePackage d.scope))) ↔
      EndsOutside packages types) := by
  have hchains : ∀ d ∈ types, ∃! scopes, ScopeChain types d.typeName scopes := by
    intro d hd
    obtain ⟨scopes, hscopes⟩ := exists_scopeChain hnames hd
    exact ⟨scopes, hscopes, fun _ h => hscopes.unique hdistinct h⟩
  by_cases hends : EndsOutside packages types
  · have hnot := mt (forall_inPackage_iff hdistinct hnames).1 (not_not.2 hends)
    obtain ⟨d, hd, herr⟩ := typePackages_error hdistinct hnames hnot
    exact ⟨hchains, by simp [herr], by simp [herr, hends], iff_of_true ⟨d, hd, herr⟩ hends⟩
  · have hall := (forall_inPackage_iff hdistinct hnames).2 hends
    obtain ⟨known, hok, hkeys, hget⟩ := typePackages_ok hdistinct hnames hall
    refine ⟨hchains, by simp [hok], iff_of_true ⟨known, hok, hkeys, ?_⟩ hends, by simp [hok, hends]⟩
    intro n scopes hscopes
    apply Option.ext
    intro p
    rw [hget, hscopes.inPackage_iff hdistinct]

/-- Types of which the inner ones come first, in a scope that is a type and a package. -/
def crates : List Declaration :=
  [ { kind := "class", name := "Lid", scope := "p.Crate.Box" },
    { kind := "class", name := "Box", scope := "p.Crate" },
    { kind := "class", name := "Crate", scope := "p" } ]

theorem typePackages_reaches_root_crates :
    (crates.map (·.typeName)).Nodup ∧ (∀ d ∈ crates, d.name ≠ []) ∧
      (∃ known, typePackages ["p", "p.Crate"] crates = .ok known ∧
        known.get? "p.Crate.Box.Lid" = some "p.Crate" ∧ known.get? "p.Crate" = some "p") ∧
      ∃ d, Misplaced ["p.Crate"] crates d ∧ typePackages ["p.Crate"] crates =
        .error (.malformed d.typeName (.typeOutsidePackage d.scope)) := by
  have hdistinct : (crates.map (·.typeName)).Nodup := by decide
  have hnames : ∀ d ∈ crates, d.name ≠ [] := by decide
  have hcrate : ScopeChain crates "p.Crate" ["p"] :=
    .root (d := crates[2]) (by decide) (by decide)
  have hbox : ScopeChain crates "p.Crate.Box" ["p.Crate", "p"] :=
    .nested (d := crates[1]) (by decide) hcrate
  have hlid : ScopeChain crates "p.Crate.Box.Lid" ["p.Crate.Box", "p.Crate", "p"] :=
    .nested (d := crates[0]) (by decide) hbox
  obtain ⟨-, -, hok, -⟩ := typePackages_reaches_root ["p", "p.Crate"] hdistinct hnames
  obtain ⟨-, -, -, herr⟩ := typePackages_reaches_root ["p.Crate"] hdistinct hnames
  refine ⟨hdistinct, hnames, ?_, herr.2 ⟨crates[2], by decide, _, _, hcrate, rfl, ?_⟩⟩
  · have hin : ¬ EndsOutside ["p", "p.Crate"] crates := by
      rw [endsOutside_iff]
      rintro ⟨d, hd, hp, hno⟩
      revert hp hno
      revert d
      decide
    obtain ⟨known, hknown, -, hget⟩ := hok.2 hin
    exact ⟨known, hknown, hget _ _ hlid, hget _ _ hcrate⟩
  · decide

end ApiDocs.Extraction
