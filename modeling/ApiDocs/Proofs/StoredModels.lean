import ApiDocs.Proofs.Merging
import ApiDocs.Workspace

/-!
# Models in a workspace

Whatever steps build the models of a workspace, names in them are distinct, entities stand in the
order of their insertion, and the index of packages lists nothing that is not so. The index is
complete when it has just been made; a step that fails changes no model.
-/

namespace ApiDocs

/-! ### Single models -/

/-- Names are distinct, types have names, and what the index says of types is so. Types added after
the index was made are missing in it. -/
structure Model.Stored (m : Model) : Prop where
  distinct : m.names.Nodup
  named : ∀ t ∈ m.types, t.qualifiedName ≠ []
  indexed : ∀ entry ∈ m.packageTypes.entries, entry.2.Pairwise (· < ·) ∧
    ∀ n ∈ entry.2, ∃ t ∈ m.types, t.qualifiedName = n ∧ t.info.package = entry.1

namespace Model

namespace Stored

lemma empty : Stored {} where
  distinct := List.nodup_nil
  named _ ht := absurd ht List.not_mem_nil
  indexed _ he := absurd he List.not_mem_nil

/-- What an index made anew says is so. -/
lemma of_packageIndex {m : Model} (hdistinct : m.names.Nodup)
    (hnamed : ∀ t ∈ m.types, t.qualifiedName ≠ []) (hindex : m.packageTypes = m.packageIndex) :
    m.Stored where
  distinct := hdistinct
  named := hnamed
  indexed entry he := by
    rw [hindex] at he
    obtain ⟨-, hasc, hall⟩ := (mem_entries_packageIndex hdistinct).1 he
    exact ⟨hasc, fun n hn => (hall n).1 hn⟩

lemma of_consistent {m : Model} (h : m.Consistent) : m.Stored :=
  of_packageIndex h.distinct h.named h.packageTypes

lemma indexPackages {m : Model} (h : m.Stored) : m.indexPackages.Stored :=
  of_packageIndex h.distinct h.named rfl

lemma indexAncestors {m : Model} (h : m.Stored) : m.indexAncestors.Stored where
  distinct := h.distinct
  named := h.named
  indexed := h.indexed

/-- An added entity is in no index yet, and all that the index says remains so. -/
lemma add {m m' : Model} (h : m.Stored) {e : Entity} (he : e.qualifiedName ≠ [])
    (hadd : m.add e = .ok m') : m'.Stored ∧ m'.entities = m.entities ++ [e] := by
  by_cases hmem : e.qualifiedName ∈ m.names
  · rw [add_error hmem] at hadd
    cases hadd
  rw [add_ok hmem] at hadd
  cases hadd
  have hentities {t : TypeEntity} :
      t ∈ ({ m with entities := m.entities ++ [e] } : Model).types ↔
        t ∈ m.types ∨ e.asType? = some t := by
    rw [types, List.filterMap_append, List.mem_append]
    exact or_congr_right (by simp)
  refine ⟨⟨nodup_names_concat h.distinct hmem, fun t ht => ?_, fun entry hentry => ?_⟩, rfl⟩
  · rcases hentities.1 ht with ht | ht
    · exact h.named t ht
    · obtain ⟨rfl, -⟩ := asType?_eq_some_iff.1 ht
      exact he
  · obtain ⟨hasc, hall⟩ := h.indexed entry hentry
    refine ⟨hasc, fun n hn => ?_⟩
    obtain ⟨t, ht, hname⟩ := hall n hn
    exact ⟨t, hentities.2 (.inl ht), hname⟩

/-- What the indexes of the parts say is so in the merged model. -/
lemma merge {parts : List Model} (h : ∀ m ∈ parts, m.Stored) {m : Model}
    (hmerge : Model.merge parts = .ok m) : m.Stored ∧ m.entities = parts.flatMap (·.entities) := by
  have hnames : ∀ m ∈ parts, m.names.Nodup := fun m hm => (h m hm).distinct
  have hdistinct : (parts.flatMap names).Nodup := by
    by_contra hnot
    obtain ⟨n, herror, -⟩ := merge_error hnames hnot
    rw [herror] at hmerge
    cases hmerge
  rw [merge_ok hdistinct] at hmerge
  cases hmerge
  refine ⟨⟨nodup_names_joined hdistinct, fun t ht => ?_, fun entry hentry => ?_⟩,
    List.nil_append _⟩
  · rw [types_joined] at ht
    obtain ⟨m, hm, ht⟩ := List.mem_flatMap.1 ht
    exact (h m hm).named t ht
  · obtain ⟨m, hm, hentry⟩ :=
      List.mem_flatMap.1 ((Table.mem_entries_putAll hentry).resolve_left List.not_mem_nil)
    obtain ⟨hasc, hall⟩ := (h m hm).indexed entry hentry
    refine ⟨hasc, fun n hn => ?_⟩
    obtain ⟨t, ht, hname⟩ := hall n hn
    rw [types_joined]
    exact ⟨t, List.mem_flatMap.2 ⟨m, hm, ht⟩, hname⟩

variable {m : Model} (h : m.Stored)

include h

/-- The types that are listed for a package are in ascending order, whenever the index was made. -/
lemma ascending (p : Text) :
    (m.typesInPackage p).Pairwise (·.qualifiedName < ·.qualifiedName) :=
  typesInPackage_ascending fun _ hget => (h.indexed _ (Table.mem_entries_of_get? hget)).1

/-- The types that are listed for a package are in it, whenever the index was made. -/
lemma of_mem_typesInPackage {p : Text} {t : TypeEntity} (ht : t ∈ m.typesInPackage p) :
    t ∈ m.types ∧ t.info.package = p := by
  obtain ⟨n, hn, hfind⟩ := List.mem_filterMap.1 ht
  obtain ⟨ht, rfl⟩ := of_findType? hfind
  cases hget : m.packageTypes.get? p with
  | none =>
    rw [hget] at hn
    cases hn
  | some listed =>
    rw [hget, Option.getD_some] at hn
    obtain ⟨t', ht', hname, hpackage⟩ := (h.indexed _ (Table.mem_entries_of_get? hget)).2 _ hn
    rw [List.inj_on_of_nodup_map (typeNames_nodup h.distinct) ht ht' hname.symm]
    exact ⟨ht', hpackage⟩

end Stored

end Model

/-! ### Steps -/

namespace Workspace

namespace Step

/-- Entities that are added have names. -/
def Named : Step → Prop
  | .add _ e _ => e.qualifiedName ≠ []
  | _ => True

instance : DecidablePred Named
  | .add _ e _ => inferInstanceAs (Decidable (e.qualifiedName ≠ []))
  | .configure _ | .extract _ _ | .create _ | .merge _ _ | .indexPackages _ | .indexAncestors _
  | .resolveAll _ | .clearReport | .aggregate _ _ => isTrue trivial

/-- The step builds a model, or a table of one. -/
def Builds : Step → Prop
  | .extract _ _ | .create _ | .merge _ _ | .add _ _ _ | .indexPackages _
  | .indexAncestors _ => True
  | _ => False

/-- The resolutions that come with an added entity. -/
def given : Step → Resolutions
  | .add _ _ resolutions => resolutions
  | _ => {}

/-- The entities of each model, in the order of their insertion, after a step that succeeds. -/
def inserted (w : Workspace) (log : Text → List Entity) : Step → Text → List Entity
  | .extract ds name =>
    match w.extracted ds with
    | .ok x => Function.update log name x.model.entities
    | .error _ => log
  | .create name => Function.update log name []
  | .merge names name => Function.update log name (names.flatMap log)
  | .add name e _ => Function.update log name (log name ++ [e])
  | _ => log

end Step

/-- The entities of each model in the order of their insertion, after steps. A step that fails
inserts nothing. -/
def insertions (w : Workspace) (log : Text → List Entity) : List Step → Text → List Entity
  | [] => log
  | s :: steps =>
    (w.apply s).1.insertions (if (w.apply s).2.isNone then s.inserted w log else log) steps

/-- What is known of the models while steps are carried out: they are stored well, and have the
entities inserted so far. -/
def Tracks (w : Workspace) (log : Text → List Entity) : Prop :=
  ∀ name m, w.models.get? name = some m → m.Stored ∧ m.entities = log name

lemma of_model {w : Workspace} {name : Text} {m : Model} (h : w.model name = .ok m) :
    w.models.get? name = some m := by
  rw [model] at h
  split at h
  · cases h
    assumption
  · cases h

lemma extract_of_extracted {w : Workspace} {ds : List Declaration} {x : Extracted}
    (h : w.extracted ds = .ok x) : ∃ limit, extract w.extractions limit ds = .ok x := by
  obtain ⟨sorted, hsorted, h⟩ := bind_eq_ok_iff.1 h
  obtain ⟨limit, -, h⟩ := bind_eq_ok_iff.1 h
  exact ⟨limit, by rw [extract, hsorted, ok_bind, h]⟩

section

variable {w : Workspace} {log : Text → List Entity}

/-- Keeping a model that is stored well replaces one model. -/
lemma Tracks.keep (h : w.Tracks log) {name : Text} {result : Except Failure Model}
    {log' : Text → List Entity}
    (hresult : ∀ m, result = .ok m → m.Stored ∧ log' = Function.update log name m.entities) :
    (w.keep name result).1.Tracks (if (w.keep name result).2.isNone then log' else log) := by
  cases result with
  | error e => exact h
  | ok m =>
    obtain ⟨hm, rfl⟩ := hresult m rfl
    change (w.putModel name m).Tracks (Function.update log name m.entities)
    intro name' m' hget
    rw [putModel, Table.get?_put] at hget
    split at hget
    · rename_i hname
      cases hget
      rw [hname, Function.update_self]
      exact ⟨hm, rfl⟩
    · rename_i hname
      rw [Function.update_of_ne hname]
      exact h name' m' hget

/-- Each step leaves models that are stored well, with the entities that it inserts at the end. -/
theorem Tracks.apply (h : w.Tracks log) {s : Step} (hs : s.Named) :
    (w.apply s).1.Tracks (if (w.apply s).2.isNone then s.inserted w log else log) := by
  cases s with
  | configure es => exact h
  | extract ds name =>
    refine Tracks.keep (w := { w with extractions := w.extractions + 1 }) h fun m hm => ?_
    obtain ⟨x, hx, rfl⟩ := map_eq_ok_iff.1 hm
    obtain ⟨limit, hextract⟩ := extract_of_extracted hx
    exact ⟨.of_consistent (consistent_of_extract hextract), by rw [Step.inserted, hx]⟩
  | create name =>
    refine @Tracks.keep w log h name (.ok {}) _ fun m hm => ?_
    cases hm
    exact ⟨.empty, rfl⟩
  | merge names name =>
    refine Tracks.keep h fun m hm => ?_
    obtain ⟨parts, hparts, hmerge⟩ := bind_eq_ok_iff.1 hm
    have hstored : ∀ part ∈ parts, part.Stored := by
      intro part hpart
      obtain ⟨n, -, hn⟩ := exists_of_mem_mapM_ok hparts hpart
      exact (h n part (of_model hn)).1
    obtain ⟨hm, hentities⟩ := Model.Stored.merge hstored hmerge
    refine ⟨hm, ?_⟩
    rw [hentities, flatMap_of_mapM_ok hparts fun n _ part hn => (h n part (of_model hn)).2]
    rfl
  | add name e resolutions =>
    refine Tracks.keep (w := { w with
      extractions := w.extractions + 1
      resolutions := ⟨resolutions.entries ++ w.resolutions.entries⟩ }) h fun m' hm' => ?_
    obtain ⟨m, hm, hadd⟩ := bind_eq_ok_iff.1 hm'
    obtain ⟨hstored, hentities⟩ := h name m (of_model hm)
    obtain ⟨hstored', hentities'⟩ := hstored.add hs hadd
    refine ⟨hstored', ?_⟩
    rw [hentities', hentities]
    rfl
  | indexPackages name =>
    refine Tracks.keep h fun m' hm' => ?_
    obtain ⟨m, hm, rfl⟩ := map_eq_ok_iff.1 hm'
    obtain ⟨hstored, hentities⟩ := h name m (of_model hm)
    exact ⟨hstored.indexPackages, (Function.update_eq_self_iff.2 hentities).symm⟩
  | indexAncestors name =>
    refine Tracks.keep h fun m' hm' => ?_
    obtain ⟨m, hm, rfl⟩ := map_eq_ok_iff.1 hm'
    obtain ⟨hstored, hentities⟩ := h name m (of_model hm)
    exact ⟨hstored.indexAncestors, (Function.update_eq_self_iff.2 hentities).symm⟩
  | resolveAll name =>
    change Tracks _ (if _ then log else log)
    rw [ite_self, Workspace.apply]
    split <;> exact h
  | clearReport => exact h
  | aggregate model name =>
    change Tracks _ (if _ then log else log)
    rw [ite_self, Workspace.apply]
    split <;> exact h

/-- A whole run leaves models that are stored well, with the entities that its steps inserted. -/
theorem Tracks.run (h : w.Tracks log) {steps : List Step} (hsteps : ∀ s ∈ steps, s.Named) :
    (w.run steps).Tracks (w.insertions log steps) := by
  induction steps generalizing w log with
  | nil => exact h
  | cons s steps ih =>
    obtain ⟨hs, hsteps⟩ := List.forall_mem_cons.1 hsteps
    exact ih (h.apply hs) hsteps

lemma run_concat (steps : List Step) (s : Step) :
    w.run (steps ++ [s]) = ((w.run steps).apply s).1 := by
  rw [Workspace.run, List.foldl_append]
  rfl

/-- A model that could not be built is not kept, and nothing else is changed. -/
lemma keep_of_failure {name : Text} {result : Except Failure Model} {f : Failure}
    (h : (w.keep name result).2 = some f) : (w.keep name result).1 = w := by
  cases result with
  | error e => rfl
  | ok m => cases h

/-- A step that fails changes no model. -/
lemma models_of_failure {s : Step} {f : Failure} (h : (w.apply s).2 = some f) :
    (w.apply s).1.models = w.models := by
  cases s with
  | configure _ | create _ | clearReport => cases h
  | extract ds name | merge names name | add name e resolutions | indexPackages name
  | indexAncestors name =>
    rw [Workspace.apply] at h ⊢
    rw [keep_of_failure h]
  | resolveAll name | aggregate model name =>
    rw [Workspace.apply]
    split <;> rfl

/-- A building step that fails changes no model, no view, no setting and no report, and no
resolution but for those that it brings along. -/
theorem apply_of_failure {s : Step} (hs : s.Builds) {f : Failure} (h : (w.apply s).2 = some f) :
    (w.apply s).1 = { w with
      extractions := (w.apply s).1.extractions
      resolutions := ⟨s.given.entries ++ w.resolutions.entries⟩ } := by
  cases s with
  | create name => cases h
  | extract ds name | merge names name | add name e resolutions | indexPackages name
  | indexAncestors name =>
    rw [Workspace.apply] at h ⊢
    rw [keep_of_failure h]
    rfl
  | configure _ | resolveAll _ | clearReport | aggregate _ _ => exact hs.elim

end

end Workspace

open Workspace in
/-- Whatever steps are carried out, each model has distinct names and its entities in the order of
their insertion; the types that are listed for a package are types of the model in this package, in
ascending order, and all of them once the model is indexed. A step that fails changes no model, and
a building step that fails, say at a name that is there already, changes nothing that a model
shows. -/
theorem run_stored {w : Workspace} (hw : w.models = .empty) {steps : List Step}
    (hsteps : ∀ s ∈ steps, s.Named) :
    (∀ name m, (w.run steps).models.get? name = some m →
      m.names.Nodup ∧ m.entities = w.insertions (fun _ => []) steps name ∧
      (∀ n e, m.find? n = some e ↔ e ∈ m.entities ∧ e.qualifiedName = n) ∧
      (∀ p, (m.typesInPackage p).Pairwise (·.qualifiedName < ·.qualifiedName) ∧
        ∀ t ∈ m.typesInPackage p, t ∈ m.types ∧ t.info.package = p) ∧
      (w.run (steps ++ [.indexPackages name])).models.get? name = some m.indexPackages ∧
      ∀ p t, t ∈ m.indexPackages.typesInPackage p ↔ t ∈ m.types ∧ t.info.package = p) ∧
    ∀ s f, ((w.run steps).apply s).2 = some f →
      ((w.run steps).apply s).1.models = (w.run steps).models ∧
      (s.Builds → ((w.run steps).apply s).1 = { w.run steps with
        extractions := ((w.run steps).apply s).1.extractions
        resolutions := ⟨s.given.entries ++ (w.run steps).resolutions.entries⟩ }) := by
  have htracks : (w.run steps).Tracks (w.insertions (fun _ => []) steps) := by
    apply Tracks.run _ hsteps
    intro name m hget
    rw [hw, Table.get?_empty] at hget
    cases hget
  refine ⟨fun name m hget => ?_, fun s f hf => ⟨models_of_failure hf, fun hs =>
    apply_of_failure hs hf⟩⟩
  obtain ⟨hm, hentities⟩ := htracks name m hget
  refine ⟨hm.distinct, hentities, fun n e => Model.find?_eq_some_iff hm.distinct, fun p =>
    ⟨hm.ascending p, fun t ht => hm.of_mem_typesInPackage ht⟩, ?_, fun p t =>
    Model.mem_typesInPackage_iff hm.indexPackages.distinct hm.indexPackages.named rfl⟩
  rw [run_concat, Workspace.apply, Workspace.model, hget, map_ok, Workspace.keep, putModel,
    Table.get?_put, if_pos rfl]

/-- Steps that build a model of parts, add to it, and index it in between. -/
def mixedSteps : List Workspace.Step :=
  [ .extract shapes "drawn",
    .create "more",
    .add "more"
      { qualifiedName := "more.Square", category := .type { package := "more" }
        name := "Square", scope := "more" } {},
    .indexPackages "more",
    .add "more"
      { qualifiedName := "more.Arc", category := .type { package := "more" }
        name := "Arc", scope := "more" } {},
    .merge ["drawn", "more"] "all" ]

theorem run_stored_mixedSteps :
    ∃ m, (({} : Workspace).run mixedSteps).models.get? "all" = some m ∧
      m.names = ["shapes", "shapes.Circle", "shapes.Shape", "shapes.Circle#radius",
        "shapes.Shape#area()", "shapes.Circle#Circle()", "shapes.Circle#area()", "more.Square",
        "more.Arc"] ∧
      m.names.Nodup ∧
      (m.typesInPackage "more").map (·.qualifiedName) = ["more.Square"] ∧
      (∀ t, t ∈ m.indexPackages.typesInPackage "more" ↔ t ∈ m.types ∧ t.info.package = "more") ∧
      ((({} : Workspace).run mixedSteps).apply (.merge ["drawn", "all"] "more")).1.models =
        (({} : Workspace).run mixedSteps).models := by
  obtain ⟨m, hm, hnames, htypes⟩ : ∃ m,
      (({} : Workspace).run mixedSteps).models.get? "all" = some m ∧
      m.names = ["shapes", "shapes.Circle", "shapes.Shape", "shapes.Circle#radius",
        "shapes.Shape#area()", "shapes.Circle#Circle()", "shapes.Circle#area()", "more.Square",
        "more.Arc"] ∧
      (m.typesInPackage "more").map (·.qualifiedName) = ["more.Square"] := by
    refine ⟨_, rfl, ?_⟩
    decide +kernel
  have hsteps : ∀ s ∈ mixedSteps, s.Named := by decide
  obtain ⟨hmodels, hfailure⟩ := run_stored (w := {}) rfl hsteps
  obtain ⟨hdistinct, -, -, -, -, hindexed⟩ := hmodels "all" m hm
  exact ⟨m, hm, hnames, hdistinct, htypes, hindexed "more",
    (hfailure (.merge ["drawn", "all"] "more") (.duplicate "shapes") rfl).1⟩

end ApiDocs
