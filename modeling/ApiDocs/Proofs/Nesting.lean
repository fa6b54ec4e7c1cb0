import ApiDocs.Proofs.Table
import ApiDocs.Proofs.Visibility

/-!
# Packages of types

Following scopes outward from a type ends in a package exactly if the type lies in one. Every step
makes the dotted name shorter, so a walk needs no more steps than there are types. What is noted
down on one walk is right, so the walks that are cut short by it end in the same packages.
-/

namespace ApiDocs.Extraction

/-- A type lies in the package that is its scope, or else in that of its enclosing type. -/
inductive InPackage (packages : List Text) (types : List Declaration) : Text → Text → Prop
  | direct {d : Declaration} : d ∈ types → d.scope ∈ packages →
      InPackage packages types d.typeName d.scope
  | nested {d : Declaration} {p : Text} : d ∈ types → d.scope ∉ packages →
      InPackage packages types d.scope p → InPackage packages types d.typeName p

variable {packages : List Text} {types : List Declaration}

lemma InPackage.exists_type {n p : Text} (h : InPackage packages types n p) :
    ∃ d ∈ types, d.typeName = n := by
  cases h with
  | direct hd _ => exact ⟨_, hd, rfl⟩
  | nested hd _ _ => exact ⟨_, hd, rfl⟩

lemma InPackage.mem_packages {n p : Text} (h : InPackage packages types n p) : p ∈ packages := by
  induction h with
  | direct _ hp => exact hp
  | nested _ _ _ ih => exact ih

lemma InPackage.congr {packages packages' : List Text} {types types' : List Declaration}
    (hpackages : ∀ p, p ∈ packages ↔ p ∈ packages') (h : ∀ d, d ∈ types → d ∈ types') {n p : Text}
    (hn : InPackage packages types n p) : InPackage packages' types' n p := by
  induction hn with
  | direct hd hp => exact .direct (h _ hd) ((hpackages _).1 hp)
  | nested hd hp _ ih => exact .nested (h _ hd) (mt (hpackages _).2 hp) ih

/-- The package of a type is its scope if that is a package, and else that of its scope. -/
lemma inPackage_iff (h : (types.map (·.typeName)).Nodup) {d : Declaration} (hd : d ∈ types)
    {p : Text} :
    InPackage packages types d.typeName p ↔
      (d.scope ∈ packages ∧ p = d.scope) ∨
        (d.scope ∉ packages ∧ InPackage packages types d.scope p) := by
  constructor
  · intro hin
    generalize hn : d.typeName = n at hin
    cases hin with
    | direct hd' hp =>
      obtain rfl := List.inj_on_of_nodup_map h hd hd' hn
      exact .inl ⟨hp, rfl⟩
    | nested hd' hp hin =>
      obtain rfl := List.inj_on_of_nodup_map h hd hd' hn
      exact .inr ⟨hp, hin⟩
  · rintro (⟨hp, rfl⟩ | ⟨hp, hin⟩)
    · exact .direct hd hp
    · exact .nested hd hp hin

/-- A type lies in one package only. -/
lemma InPackage.unique (h : (types.map (·.typeName)).Nodup) {n p q : Text}
    (hp : InPackage packages types n p) (hq : InPackage packages types n q) : p = q := by
  induction hp with
  | direct hd hscope =>
    rcases (inPackage_iff h hd).1 hq with ⟨-, rfl⟩ | ⟨hno, -⟩
    · rfl
    · exact absurd hscope hno
  | nested hd hscope _ ih =>
    rcases (inPackage_iff h hd).1 hq with ⟨hyes, -⟩ | ⟨-, hq⟩
    · exact absurd hyes hscope
    · exact ih hq

/-- A type with a name has a longer qualified name than its scope. -/
lemma length_scope_lt {d : Declaration} (h : d.name ≠ []) : d.scope.length < d.typeName.length := by
  have hpos : 0 < d.name.length := List.length_pos_iff.2 h
  rw [Declaration.typeName, Name.ofType]
  split
  · rename_i hs
    rw [hs]
    exact hpos
  · simp only [List.length_append]
    omega

/-! ### Walking outward -/

def scopesOf (types : List Declaration) : Scopes :=
  .ofEntries (types.map fun d => (d.typeName, d.scope))

lemma get?_scopesOf (h : (types.map (·.typeName)).Nodup) {d : Declaration} (hd : d ∈ types) :
    (scopesOf types).get? d.typeName = some d.scope := by
  refine (Table.get?_ofEntries ?_).2 (List.mem_map.2 ⟨d, hd, rfl⟩)
  rwa [List.map_map]

lemma exists_of_get?_scopesOf (h : (types.map (·.typeName)).Nodup) {n s : Text}
    (hs : (scopesOf types).get? n = some s) : ∃ d ∈ types, d.typeName = n ∧ d.scope = s := by
  have hmem := (Table.get?_ofEntries (by rwa [List.map_map])).1 hs
  obtain ⟨d, hd, heq⟩ := List.mem_map.1 hmem
  cases heq
  exact ⟨d, hd, rfl, rfl⟩

lemma has_scopesOf {n : Text} : (scopesOf types).has n = true ↔ ∃ d ∈ types, d.typeName = n := by
  rw [Table.has_iff_mem_keys, scopesOf, Table.mem_keys_ofEntries, List.map_map, List.mem_map]
  rfl

lemma length_scopesOf (h : (types.map (·.typeName)).Nodup) :
    (scopesOf types).entries.length = types.length := by
  rw [scopesOf, Table.ofEntries_of_nodup (by rwa [List.map_map]), List.length_map]

/-- How many types have a name that is no longer than a given one. -/
def shorterTypes (types : List Declaration) (n : Text) : Nat :=
  types.countP (·.typeName.length ≤ n.length)

lemma shorterTypes_pos {d : Declaration} (hd : d ∈ types) : 0 < shorterTypes types d.typeName :=
  List.countP_pos_iff.2 ⟨d, hd, by simp⟩

lemma shorterTypes_scope_lt {d : Declaration} (hd : d ∈ types) (hname : d.name ≠ []) :
    shorterTypes types d.scope < shorterTypes types d.typeName := by
  have hlt := length_scope_lt hname
  have hsub : types.filter (·.typeName.length ≤ d.scope.length) =
      (types.filter (·.typeName.length ≤ d.typeName.length)).filter
        (·.typeName.length ≤ d.scope.length) := by
    rw [List.filter_filter]
    refine List.filter_congr fun e _ => ?_
    simp only [← Bool.decide_and]
    exact decide_eq_decide.2 ⟨fun he => ⟨he, by omega⟩, fun he => he.1⟩
  rw [shorterTypes, shorterTypes, List.countP_eq_length_filter, List.countP_eq_length_filter, hsub,
    List.length_filter_lt_length_iff_exists]
  exact ⟨d, List.mem_filter.2 ⟨hd, by simp⟩, by simpa using hlt⟩

/-- What a table says of the packages of types is right. -/
def Sound (packages : List Text) (types : List Declaration) (known : Table Text) : Prop :=
  ∀ n p, known.get? n = some p → InPackage packages types n p

section

variable (hdistinct : (types.map (·.typeName)).Nodup) {known : Table Text}
  (hknown : Sound packages types known)

include hdistinct hknown

/-- A walk that finds a package started from a type that lies in it, and so does every type that it
passed. -/
lemma inPackage_of_packageFrom {start n p : Text} {passed : List Text} {steps : Nat}
    (h : packageFrom (scopesOf types) packages known start n steps = .ok (p, passed)) :
    InPackage packages types n p ∧ (∀ m ∈ passed, InPackage packages types m p) ∧
      (n ∈ passed ∨ n ∈ known.keys) := by
  induction steps generalizing n passed with
  | zero => cases h
  | succ steps ih =>
    rw [packageFrom] at h
    cases hget : known.get? n with
    | some package =>
      rw [hget] at h
      cases h
      exact ⟨hknown n _ hget, nofun, .inr (Table.mem_keys_of_get? hget)⟩
    | none =>
      rw [hget, require] at h
      cases hs : (scopesOf types).get? n with
      | none => rw [hs] at h; cases h
      | some s =>
        obtain ⟨d, hd, rfl, rfl⟩ := exists_of_get?_scopesOf hdistinct hs
        rw [hs] at h
        simp only [ok_bind] at h
        split at h
        · cases h
          have hin : InPackage packages types d.typeName d.scope := .direct hd ‹_›
          exact ⟨hin, by simpa using hin, by simp⟩
        · split at h
          · obtain ⟨⟨q, further⟩, hwalk, h⟩ := bind_eq_ok_iff.1 h
            cases h
            obtain ⟨hscope, hfurther, -⟩ := ih hwalk
            have hin : InPackage packages types d.typeName q := .nested hd ‹_› hscope
            exact ⟨hin, List.forall_mem_cons.2 ⟨hin, hfurther⟩, .inl (List.mem_cons_self ..)⟩
          · cases h

variable (hnames : ∀ d ∈ types, d.name ≠ [])

include hnames

/-- A walk with enough steps from a type that lies in a package finds the package. -/
lemma packageFrom_of_inPackage {n p : Text} (h : InPackage packages types n p) (start : Text)
    {steps : Nat} (hsteps : shorterTypes types n ≤ steps) :
    ∃ passed, packageFrom (scopesOf types) packages known start n steps = .ok (p, passed) := by
  induction steps generalizing n with
  | zero =>
    obtain ⟨d, hd, rfl⟩ := h.exists_type
    exact absurd (shorterTypes_pos hd) (by omega)
  | succ steps ih =>
    obtain ⟨d, hd, rfl⟩ := h.exists_type
    rw [packageFrom]
    cases hget : known.get? d.typeName with
    | some q =>
      rw [(hknown _ _ hget).unique hdistinct h]
      exact ⟨[], rfl⟩
    | none =>
      rw [require, get?_scopesOf hdistinct hd]
      simp only [ok_bind]
      rcases (inPackage_iff hdistinct hd).1 h with ⟨hp, rfl⟩ | ⟨hp, hscope⟩
      · exact ⟨[d.typeName], by rw [if_pos hp]; rfl⟩
      · have hlt := shorterTypes_scope_lt hd (hnames d hd)
        obtain ⟨passed, hwalk⟩ := ih hscope (by omega)
        refine ⟨d.typeName :: passed, ?_⟩
        rw [if_neg hp, if_pos (has_scopesOf.2 hscope.exists_type), hwalk]
        rfl

/-- A type whose scope is neither a package nor a type. -/
structure Misplaced (packages : List Text) (types : List Declaration) (d : Declaration) : Prop where
  mem : d ∈ types
  no_package : d.scope ∉ packages
  no_type : ∀ e ∈ types, e.typeName ≠ d.scope

/-- A walk with enough steps from a type that lies in no package blames one that is misplaced. -/
lemma packageFrom_error {d : Declaration} (hd : d ∈ types)
    (h : ∀ p, ¬ InPackage packages types d.typeName p) (start : Text) {steps : Nat}
    (hsteps : shorterTypes types d.typeName ≤ steps) :
    ∃ e, Misplaced packages types e ∧
      packageFrom (scopesOf types) packages known start d.typeName steps =
        .error (.malformed e.typeName (.typeOutsidePackage e.scope)) := by
  induction steps generalizing d with
  | zero => exact absurd (shorterTypes_pos hd) (by omega)
  | succ steps ih =>
    have hget : known.get? d.typeName = none := by
      cases hget : known.get? d.typeName with
      | none => rfl
      | some p => exact absurd (hknown _ _ hget) (h p)
    have hp : d.scope ∉ packages := fun hp => h _ (.direct hd hp)
    rw [packageFrom, hget, require, get?_scopesOf hdistinct hd]
    simp only [ok_bind, if_neg hp]
    by_cases htype : ∃ e ∈ types, e.typeName = d.scope
    · rw [if_pos (has_scopesOf.2 htype)]
      obtain ⟨e, he, hscope⟩ := htype
      have hlt := shorterTypes_scope_lt hd (hnames d hd)
      rw [← hscope] at hlt ⊢
      obtain ⟨e', he', herr⟩ := ih he (fun p hin => h p (.nested hd hp (hscope ▸ hin))) (by omega)
      exact ⟨e', he', by rw [herr, error_bind]⟩
    · refine ⟨d, ⟨hd, hp, fun e he hscope => htype ⟨e, he, hscope⟩⟩, ?_⟩
      rw [if_neg (mt has_scopesOf.1 htype)]

/-! ### Noting packages down -/

/-- Placing a type that lies in a package notes it down, and loses nothing. -/
lemma placeType_ok {d : Declaration} {p : Text} (h : InPackage packages types d.typeName p) :
    ∃ known', placeType (scopesOf types) packages known d = .ok known' ∧
      Sound packages types known' ∧ d.typeName ∈ known'.keys ∧
        ∀ n ∈ known.keys, n ∈ known'.keys := by
  have hsteps : shorterTypes types d.typeName ≤ (scopesOf types).entries.length := by
    rw [length_scopesOf hdistinct]
    exact List.countP_le_length
  obtain ⟨passed, hwalk⟩ := packageFrom_of_inPackage hdistinct hknown hnames h d.typeName hsteps
  obtain ⟨-, hpassed, hnoted⟩ := inPackage_of_packageFrom hdistinct hknown hwalk
  refine ⟨known.putAll (passed.map (·, p)), ?_, fun n q hq => ?_, ?_, fun n hn => ?_⟩
  · rw [placeType, hwalk]
    rfl
  · rcases Table.get?_putAll hq with hq | hq
    · exact hknown n q hq
    · obtain ⟨m, hm, heq⟩ := List.mem_map.1 hq
      cases heq
      exact hpassed n hm
  · rw [Table.mem_keys_putAll, List.map_map]
    exact hnoted.symm.imp_right fun hm => List.mem_map.2 ⟨_, hm, rfl⟩
  · exact (Table.mem_keys_putAll ..).2 (.inl hn)

/-- Placing a type that lies in no package blames one that is misplaced. -/
lemma placeType_error {d : Declaration} (hd : d ∈ types)
    (h : ∀ p, ¬ InPackage packages types d.typeName p) :
    ∃ e, Misplaced packages types e ∧ placeType (scopesOf types) packages known d =
      .error (.malformed e.typeName (.typeOutsidePackage e.scope)) := by
  have hsteps : shorterTypes types d.typeName ≤ (scopesOf types).entries.length := by
    rw [length_scopesOf hdistinct]
    exact List.countP_le_length
  obtain ⟨e, he, herr⟩ := packageFrom_error hdistinct hknown hnames hd h d.typeName hsteps
  exact ⟨e, he, by rw [placeType, herr, error_bind]⟩

/-- Placing types that lie in packages, one after the other, notes them all down. -/
lemma foldlM_placeType_ok {ds : List Declaration}
    (h : ∀ d ∈ ds, ∃ p, InPackage packages types d.typeName p) :
    ∃ known', ds.foldlM (placeType (scopesOf types) packages) known = .ok known' ∧
      Sound packages types known' ∧ (∀ d ∈ ds, d.typeName ∈ known'.keys) ∧
      ∀ n ∈ known.keys, n ∈ known'.keys := by
  induction ds generalizing known with
  | nil => exact ⟨known, rfl, hknown, nofun, fun _ hn => hn⟩
  | cons d ds ih =>
    obtain ⟨⟨p, hp⟩, hds⟩ := List.forall_mem_cons.1 h
    obtain ⟨next, hnext, hsound, hd, hkept⟩ := placeType_ok hdistinct hknown hnames hp
    obtain ⟨known', hlast, hsound', hds', hkept'⟩ := ih hsound hds
    refine ⟨known', ?_, hsound', ?_, fun n hn => hkept' n (hkept n hn)⟩
    · rw [List.foldlM_cons, hnext, ok_bind, hlast]
    · exact List.forall_mem_cons.2 ⟨hkept' _ hd, hds'⟩

/-- If one of the types lies in no package, placing them one after the other blames one that is
misplaced. -/
lemma foldlM_placeType_error {ds : List Declaration} (hds : ∀ d ∈ ds, d ∈ types)
    (h : ¬ ∀ d ∈ ds, ∃ p, InPackage packages types d.typeName p) :
    ∃ e, Misplaced packages types e ∧ ds.foldlM (placeType (scopesOf types) packages) known =
      .error (.malformed e.typeName (.typeOutsidePackage e.scope)) := by
  induction ds generalizing known with
  | nil => exact absurd nofun h
  | cons d ds ih =>
    obtain ⟨hd, hds⟩ := List.forall_mem_cons.1 hds
    by_cases hplaced : ∃ p, InPackage packages types d.typeName p
    · obtain ⟨p, hp⟩ := hplaced
      obtain ⟨next, hnext, hsound, -⟩ := placeType_ok hdistinct hknown hnames hp
      obtain ⟨e, he, herr⟩ := ih hsound hds fun hall => h (List.forall_mem_cons.2 ⟨⟨p, hp⟩, hall⟩)
      exact ⟨e, he, by rw [List.foldlM_cons, hnext, ok_bind, herr]⟩
    · obtain ⟨e, he, herr⟩ := placeType_error hdistinct hknown hnames hd (not_exists.1 hplaced)
      exact ⟨e, he, by rw [List.foldlM_cons, herr, error_bind]⟩

end

/-! ### The package of each type -/

lemma sound_empty : Sound packages types .empty := fun n p h => by simp at h

/-- If every type lies in a package, the table of packages says in which. -/
lemma typePackages_ok (hdistinct : (types.map (·.typeName)).Nodup)
    (hnames : ∀ d ∈ types, d.name ≠ [])
    (h : ∀ d ∈ types, ∃ p, InPackage packages types d.typeName p) :
    ∃ known, typePackages packages types = .ok known ∧ known.keys = types.map (·.typeName) ∧
      ∀ n p, known.get? n = some p ↔ InPackage packages types n p := by
  obtain ⟨noted, hnoted, hsound, hall, -⟩ :=
    foldlM_placeType_ok hdistinct sound_empty hnames h
  choose! package hpackage using h
  have hentries : (types.filterMap fun d => (noted.get? d.typeName).map (d.typeName, ·)) =
      types.map fun d => (d.typeName, package d) := by
    rw [← List.filterMap_eq_map]
    refine List.filterMap_congr fun d hd => ?_
    obtain ⟨p, hp⟩ := Table.exists_of_mem_keys (hall d hd)
    rw [hp, (hsound _ _ hp).unique hdistinct (hpackage d hd)]
    rfl
  have hkeys : (types.map fun d => (d.typeName, package d)).map (·.1) =
      types.map (·.typeName) := by
    rw [List.map_map]
    rfl
  refine ⟨.ofEntries (types.map fun d => (d.typeName, package d)), ?_, ?_, fun n p => ?_⟩
  · rw [← hentries, typePackages]
    exact (congrArg (· >>= _) hnoted).trans rfl
  · rw [Table.ofEntries_of_nodup (hkeys.symm ▸ hdistinct)]
    exact hkeys
  · rw [Table.get?_ofEntries (hkeys.symm ▸ hdistinct), List.mem_map]
    constructor
    · rintro ⟨d, hd, heq⟩
      cases heq
      exact hpackage d hd
    · intro hp
      obtain ⟨d, hd, rfl⟩ := hp.exists_type
      exact ⟨d, hd, by rw [(hpackage d hd).unique hdistinct hp]⟩

/-- If a type lies in no package, one that is misplaced is blamed. -/
lemma typePackages_error (hdistinct : (types.map (·.typeName)).Nodup)
    (hnames : ∀ d ∈ types, d.name ≠ [])
    (h : ¬ ∀ d ∈ types, ∃ p, InPackage packages types d.typeName p) :
    ∃ d, Misplaced packages types d ∧ typePackages packages types =
      .error (.malformed d.typeName (.typeOutsidePackage d.scope)) := by
  obtain ⟨d, hd, herr⟩ :=
    foldlM_placeType_error hdistinct sound_empty hnames (fun _ hd => hd) h
  exact ⟨d, hd, (congrArg (· >>= _) herr).trans rfl⟩

end ApiDocs.Extraction
