import ApiDocs.Page.DataDocument
import ApiDocs.Proofs.Reporting
import ApiDocs.Proofs.ShownReferences

/-!
# Targets of links

Every entity of the model has a target, in either layout, and nothing else has one. References that
resolve link to entities, so each reference that is shown and resolves is shown as a link.
-/

namespace ApiDocs

/-! ### Targets put in one after the other -/

namespace Targeting

/-- A step gives targets to names that have none yet, in order. -/
def Adds (f : Targeting → Targeting) (names : List Text) : Prop :=
  ∀ s, (s.targets.keys ++ names).Nodup → (f s).targets.keys = s.targets.keys ++ names

lemma Adds.comp {f g : Targeting → Targeting} {names names' : List Text} (hf : Adds f names)
    (hg : Adds g names') : Adds (g ∘ f) (names ++ names') := by
  intro s h
  rw [← List.append_assoc] at h ⊢
  have hfirst := hf s h.of_append_left
  rw [Function.comp_apply, hg _ (hfirst ▸ h), hfirst]

/-- Steps that each give targets to a block of names give them to all blocks. -/
lemma Adds.foldl {f : Targeting → Text → Targeting} {block : Text → List Text} {names : List Text}
    (h : ∀ n ∈ names, Adds (f · n) (block n)) :
    Adds (fun s => names.foldl f s) (names.flatMap block) := by
  induction names with
  | nil => exact fun s _ => (List.append_nil _).symm
  | cons n names ih =>
    rw [List.flatMap_cons]
    exact (h n (List.mem_cons_self ..)).comp (ih fun n' hn' => h n' (List.mem_cons_of_mem _ hn'))

/-- A step that changes the targets only by putting one in gives it to one name. -/
lemma adds_of_put {f : Targeting → Targeting} {name : Text}
    (h : ∀ s, ∃ target, (f s).targets = s.targets.put name target) : Adds f [name] := by
  intro s hnodup
  obtain ⟨target, htarget⟩ := h s
  have hfresh : name ∉ s.targets.keys := fun hmem =>
    List.disjoint_of_nodup_append hnodup hmem (List.mem_singleton_self _)
  rw [htarget, Table.keys_put, if_neg hfresh]

section

variable {m : Model} {v : View} (settings : Settings)

lemma adds_addMember (page : Text) (t : TypeEntity) {name : Text} {e : Entity}
    (h : m.find? name = some e) : Adds (addMember m page t · name) [name] :=
  adds_of_put fun s => ⟨_, by simp only [addMember, h]; rfl⟩

/-- A type of the model gets a target, and then its members do. -/
lemma adds_addType (packagePage : Text) {name : Text} {t : TypeEntity}
    (h : m.findType? name = some t) (hmembers : ∀ n ∈ v.membersOf name, ∃ e, m.find? n = some e) :
    Adds (addType m v settings packagePage · name) (name :: v.membersOf name) := by
  let page := if settings.byPackage then packagePage else pagePath settings.apiRoot name
  let start (s : Targeting) : Targeting :=
    let next := s.used.next page t.heading
    { s with used := next.2 }.put name t.title
      (if settings.byPackage then page ++ "#" ++ next.1 else page)
  have hstart : Adds start [name] := adds_of_put fun s => ⟨_, rfl⟩
  have hmembers : Adds (fun s => (v.membersOf name).foldl (addMember m page t) s)
      ((v.membersOf name).flatMap fun n => [n]) := by
    refine Adds.foldl fun n hn => ?_
    obtain ⟨e, he⟩ := hmembers n hn
    exact adds_addMember page t he
  rw [List.flatMap_singleton'] at hmembers
  have hstep : (addType m v settings packagePage · name) =
      (fun s => (v.membersOf name).foldl (addMember m page t) s) ∘ start := by
    funext s
    simp only [addType, h]
    rfl
  rw [hstep]
  exact hstart.comp hmembers

/-- A package gets a target, and then its types and their members do. -/
lemma adds_addPackage {name : Text}
    (htypes : ∀ n ∈ v.typesOf name, ∃ t, m.findType? n = some t)
    (hmembers : ∀ n ∈ v.typesOf name, ∀ n' ∈ v.membersOf n, ∃ e, m.find? n' = some e) :
    Adds (addPackage m v settings · name)
      (name :: (v.typesOf name).flatMap fun n => n :: v.membersOf n) := by
  let page := pagePath settings.apiRoot name
  have hstart : Adds (·.put name name page) [name] := adds_of_put fun s => ⟨_, rfl⟩
  refine hstart.comp (Adds.foldl fun n hn => ?_)
  obtain ⟨t, ht⟩ := htypes n hn
  exact adds_addType settings page ht (hmembers n hn)

end

end Targeting

/-! ### Targets of a consistent model -/

namespace Model

variable {m : Model} (h : m.Consistent)

include h

lemma exists_type_of_mem_typesOf {inherits : Bool} {p n : Text} (hp : p ∈ m.packageNames)
    (hn : n ∈ (m.viewOf inherits).typesOf p) : ∃ t ∈ m.types, t.qualifiedName = n := by
  rw [h.typesOf_viewOf hp, mem_sortNames] at hn
  obtain ⟨t, ht, -, hname⟩ := mem_typeNamesIn.1 hn
  exact ⟨t, ht, hname⟩

lemma mem_names_of_mem_membersOf {inherits : Bool} {t : TypeEntity} (ht : t ∈ m.types) {n : Text}
    (hn : n ∈ (m.viewOf inherits).membersOf t.qualifiedName) : ∃ e, m.find? n = some e := by
  rw [h.membersOf_viewOf ht, emittedMembers] at hn
  obtain ⟨e, he, rfl⟩ := List.mem_map.1 hn
  have hmember := (byKind_perm isMember_of_mem_membersIn).mem_iff.1 he
  exact ⟨e, find?_of_mem h.distinct (List.mem_filter.1 hmember).1⟩

/-- The names with targets are those of the view, in the order of emission. -/
theorem keys_targets (inherits : Bool) (settings : Settings) :
    (m.targets (m.viewOf inherits) settings).keys = (m.viewOf inherits).sequence := by
  have hpackages : Targeting.Adds
      (fun s => (m.viewOf inherits).packages.foldl
        (Targeting.addPackage m (m.viewOf inherits) settings) s) (m.viewOf inherits).sequence := by
    refine Targeting.Adds.foldl fun p hp => Targeting.adds_addPackage settings ?_ ?_
    · intro n hn
      obtain ⟨t, ht, rfl⟩ := exists_type_of_mem_typesOf h hp hn
      exact ⟨t, h.findType?_of_mem ht⟩
    · intro n hn n' hn'
      obtain ⟨t, ht, rfl⟩ := exists_type_of_mem_typesOf h hp hn
      exact mem_names_of_mem_membersOf h ht hn'
  -- no name comes twice, so no target is put in the place of another
  have hnodup : (m.viewOf inherits).sequence.Nodup :=
    (h.sequence_perm inherits).nodup_iff.2 h.distinct
  exact hpackages {} hnodup

lemma keys_targets_perm (inherits : Bool) (settings : Settings) :
    (m.targets (m.viewOf inherits) settings).keys.Perm m.names := by
  rw [keys_targets h]
  exact h.sequence_perm inherits

/-! ### References that resolve -/

/-- After a run, what a reference of the model links to has a target. -/
lemma exists_target (hsites : (sites (m.references.map (·.2))).Nodup) {settings : Settings}
    {before : Resolutions} {s : Resolving} (hrun : m.resolveAll settings before = (s, none))
    (inherits : Bool) {r : Reference} (hr : r ∈ m.references.map (·.2)) {t : Text}
    (ht : s.resolutions.target? r = some t) :
    ∃ target, (m.targets (m.viewOf inherits) settings).get? t = some target := by
  obtain ⟨p, hp, rfl⟩ := List.mem_map.1 hr
  have hget : s.resolutions.get? p.2 = some (m.outcome p.1 p.2.text) := by
    rw [resolveAll] at hrun
    split at hrun
    rename_i s' failure heach
    cases failure with
    | some f => cases hrun
    | none =>
      cases hrun
      rw [resolutions_of_each h (fun _ => false) heach]
      exact get?_after hsites hp
  have hmem : t ∈ m.names := by
    rw [Resolutions.target?, hget] at ht
    rcases outcome_sound h p.1 p.2.text with ⟨t', hnames, houtcome⟩ | houtcome
    · rw [houtcome] at ht
      cases ht
      exact hnames
    · rw [houtcome] at ht
      cases ht
  exact Table.exists_of_mem_keys ((keys_targets_perm h inherits settings).mem_iff.2 hmem)

end Model

/-- A reference to what has a target is shown as a link, and has the path in the data document. -/
lemma shown_of_target {l : Linking} {r : Reference} {t : Text} {target : Target}
    (hr : l.resolutions.target? r = some t) (ht : l.targets.get? t = some target) :
    l.showReference r =
        Markdown.link (if r.label ≠ [] then r.label else target.title) target.path ∧
      Page.referenceTree l r = .object
        [("text", .text r.text), ("label", .text r.label), ("target", .text t),
          ("href", .text target.path)] := by
  constructor
  · rw [Linking.showReference, hr, Option.bind_some, ht]
  · rw [Page.referenceTree, hr]
    simp only [ht, Option.map_some, Page.optionalText]

/-- In the view of an extracted model the names with targets are those of the model. Once all
references are resolved, whatever was resolved before, each that is shown in the text or the tags of
an entity and links to something is shown as a link to the path of its target. -/
theorem references_shown_as_links {n : Nat} {limit : Visibility} {ds : List Declaration}
    {x : Extracted} (h : extract n limit ds = .ok x) (inherits : Bool) (settings : Settings)
    (before : Resolutions) :
    ∃ v, x.model.view inherits = .ok v ∧
      (x.model.targets v settings).keys = v.sequence ∧
      (x.model.targets v settings).keys.Perm x.model.names ∧
      ∀ s, x.model.resolveAll settings before = (s, none) →
        ∀ e ∈ x.model.entities, ∃ doc, v.docs.get? e.qualifiedName = some doc ∧
          ∀ r ∈ doc.references, ∀ t, s.resolutions.target? r = some t →
            ∃ target, (x.model.targets v settings).get? t = some target ∧
              Linking.showReference ⟨s.resolutions, x.model.targets v settings⟩ r =
                Markdown.link (if r.label ≠ [] then r.label else target.title) target.path ∧
              Page.referenceTree ⟨s.resolutions, x.model.targets v settings⟩ r = .object
                [("text", .text r.text), ("label", .text r.label), ("target", .text t),
                  ("href", .text target.path)] := by
  have hc : x.model.Consistent := consistent_of_extract h
  refine ⟨x.model.viewOf inherits, hc.view_eq inherits, Model.keys_targets hc inherits settings,
    Model.keys_targets_perm hc inherits settings, fun s hrun e he => ?_⟩
  obtain ⟨doc, hget, hreferences⟩ :=
    x.model.inherited_references.exists_doc hc.distinct inherits he
  refine ⟨doc, hget, fun r hr t ht => ?_⟩
  obtain ⟨target, htarget⟩ := Model.exists_target hc (nodup_sites_of_extract h) hrun inherits
    (hreferences r hr) ht
  exact ⟨target, htarget, shown_of_target ht htarget⟩

theorem references_shown_as_links_layers :
    ∃ x v s, extract 0 .declaring layers = .ok x ∧ x.model.view true = .ok v ∧
      x.model.resolveAll .defaults {} = (s, none) ∧
      (v.doc "p.Bottom#run()").references.map s.resolutions.target? =
        [none, some ("p.Left" : Text)] ∧
      (x.model.targets v .defaults).keys.Perm x.model.names ∧
      ∀ e ∈ x.model.entities, ∃ doc, v.docs.get? e.qualifiedName = some doc ∧
        ∀ r ∈ doc.references, ∀ t, s.resolutions.target? r = some t →
          ∃ target, (x.model.targets v .defaults).get? t = some target ∧
            Linking.showReference ⟨s.resolutions, x.model.targets v .defaults⟩ r =
              Markdown.link (if r.label ≠ [] then r.label else target.title) target.path ∧
            Page.referenceTree ⟨s.resolutions, x.model.targets v .defaults⟩ r = .object
              [("text", .text r.text), ("label", .text r.label), ("target", .text t),
                ("href", .text target.path)] := by
  obtain ⟨x, hx, s, hrun, v, hv, hshown⟩ : ∃ x, extract 0 .declaring layers = .ok x ∧
      ∃ s, x.model.resolveAll .defaults {} = (s, none) ∧ ∃ v, x.model.view true = .ok v ∧
        (v.doc "p.Bottom#run()").references.map s.resolutions.target? =
          [none, some ("p.Left" : Text)] := ⟨_, rfl, _, rfl, _, rfl, rfl⟩
  obtain ⟨v', hv', -, hperm, hlinks⟩ := references_shown_as_links hx true .defaults {}
  obtain rfl : v = v' := Except.ok.inj (hv.symm.trans hv')
  exact ⟨x, v, s, hx, hv, hrun, hshown, hperm, hlinks s hrun⟩

end ApiDocs
