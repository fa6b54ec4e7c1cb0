import ApiDocs.Proofs.AlikePages
import ApiDocs.Proofs.Reordering
import ApiDocs.Proofs.Resolving
import ApiDocs.Run

/-!
# Independence of the order of declarations

A documentation run does not depend on the order in which declarations come, as long as the members
of every type keep theirs and no type inherits from itself: reordered declarations are extracted
together or not at all, and have the same documents.
-/

namespace ApiDocs

/-! ### Documents of alike models -/

namespace Model

variable {m m' : Model}

/-- The documents of a consistent model can be made if the settings that they show have texts. -/
lemma documents_ok (h : m.Consistent) (inherits : Bool) (settings : Settings) (rs : Resolutions) :
    ∃ docs, m.documents (m.viewOf inherits) settings rs =
      settings.checkShown.map fun _ => docs := by
  have hnames : ∀ n ∈ (m.viewOf inherits).sequence, n ∈ m.names := fun n hn =>
    (h.sequence_perm inherits).mem_iff.1 hn
  obtain ⟨docs, hok⟩ := Documents.ofSource_ok
    (s := ⟨m, m.viewOf inherits, ⟨rs, m.targets (m.viewOf inherits) settings⟩,
      settings.codeLanguage⟩) h hnames settings
  refine ⟨docs, ?_⟩
  rw [documents, hok]
  cases settings.checkShown <;> rfl

/-- Alike models with the same resolutions have the same documents. -/
lemma Alike.documents (h : m.Alike m') (hm : m.Consistent) (hm' : m'.Consistent) (ha : m.Acyclic)
    (inherits : Bool) (settings : Settings) {rs rs' : Resolutions}
    (hrs : ∀ r, rs.get? r = rs'.get? r) :
    m.documents (m.viewOf inherits) settings rs =
      m'.documents (m'.viewOf inherits) settings rs' := by
  have hview := h.viewOf hm hm' ha inherits
  have htargets := h.targets hm hm' hview settings
  have hsource : Page.Source.Alike
      ⟨m, m.viewOf inherits, ⟨rs, m.targets (m.viewOf inherits) settings⟩, settings.codeLanguage⟩
      ⟨m', m'.viewOf inherits, ⟨rs', m'.targets (m'.viewOf inherits) settings⟩,
        settings.codeLanguage⟩ :=
    { find? := h.find? hm hm'
      size := h.length_entities
      view := hview
      linking :=
        { target? := fun r => by rw [Resolutions.target?, Resolutions.target?, hrs]
          targets := htargets }
      language := rfl }
  rw [Model.documents, Model.documents, Documents.ofSource_alike hsource]

end Model

/-- A run on acceptable declarations gives the documents of their model, in which every reference
resolves to what is recorded under its owner. -/
lemma documents_ofDeclarations {settings : Settings} {limit : Visibility}
    (hlimit : settings.visibility = .ok limit)
    (hexternal : ∀ text, ∃ b, settings.isExternal text = .ok b) {ds : List Declaration}
    {x : Extracted} (hx : extract 0 limit ds = .ok x) (hc : x.model.Consistent) :
    ∃ rs : Resolutions, (∀ r, rs.get? r =
        (x.model.find? r.site.owner).bind fun e => (x.model.outcomes e).lookup r.site) ∧
      (Run.ofDeclarations settings ds).map (·.documents) =
        x.model.documents (x.model.viewOf settings.inherits) settings rs := by
  obtain ⟨s, hresolve, hget⟩ := Model.resolveAll_ok hc hexternal
  refine ⟨s.resolutions, hget, ?_⟩
  obtain ⟨sorted, hsorted, hextract⟩ := bind_eq_ok_iff.1 hx
  rw [Run.ofDeclarations, hsorted, ok_bind, hlimit, ok_bind, hextract, ok_bind]
  simp only [hresolve, hc.view_eq, ok_bind]
  cases x.model.documents (x.model.viewOf settings.inherits) settings s.resolutions <;> rfl

/-- A run does not depend on the order of the declarations, as long as the members of every type
keep theirs and no type inherits from itself. If the declarations can be extracted in one order,
they can be in the other, and the documents are the same; making them fails only if a setting that
they show has no text. -/
theorem documents_reordered {settings : Settings} {word : Text}
    (hvisibility : settings.get? "visibility" = some (.text word)) {packages : List Text}
    (hexternal : settings.get? "external_packages" = some (.list (packages.map .text)))
    {ds ds' : List Declaration} (h : Extraction.Reordered ds ds') {x : Extracted}
    (hx : extract 0 ((Visibility.ofModifier? word).getD .declaring) ds = .ok x)
    (hacyclic : x.model.Acyclic) :
    (∃ x', extract 0 ((Visibility.ofModifier? word).getD .declaring) ds' = .ok x') ∧
      ∃ docs, (Run.ofDeclarations settings ds).map (·.documents) =
          settings.checkShown.map (fun _ => docs) ∧
        (Run.ofDeclarations settings ds').map (·.documents) =
          settings.checkShown.map fun _ => docs := by
  have hlimit : settings.visibility = .ok ((Visibility.ofModifier? word).getD .declaring) := by
    rw [Settings.visibility, hvisibility]
  have hknown := Settings.isExternal_ok hexternal
  obtain ⟨y, x', hy, hx', hc, hc', halike⟩ :=
    Extraction.extract_reordered h (extractable_of_extract hx) 0
  rw [hx] at hy
  cases hy
  obtain ⟨rs, hrs, hdocuments⟩ := documents_ofDeclarations hlimit hknown hx hc
  obtain ⟨rs', hrs', hdocuments'⟩ := documents_ofDeclarations hlimit hknown hx' hc'
  obtain ⟨docs, hok⟩ := Model.documents_ok hc settings.inherits settings rs
  have hget : ∀ r, rs.get? r = rs'.get? r := by
    intro r
    rw [hrs, hrs', halike.outcomes hc hc']
  refine ⟨⟨x', hx'⟩, docs, hdocuments.trans hok, ?_⟩
  rw [hdocuments', ← halike.documents hc hc' hacyclic settings.inherits settings hget, hok]

theorem documents_reordered_shapes :
    Extraction.Reordered shapes (shapes.drop 2 ++ shapes.take 2) ∧
      ∃ docs, (Run.ofDeclarations .defaults shapes).map (·.documents) = .ok docs ∧
        (Run.ofDeclarations .defaults (shapes.drop 2 ++ shapes.take 2)).map (·.documents) =
          .ok docs := by
  have hreordered : Extraction.Reordered shapes (shapes.drop 2 ++ shapes.take 2) :=
    { perm := by
        nth_rewrite 1 [← List.take_append_drop 2 shapes]
        exact List.perm_append_comm
      members := by decide }
  obtain ⟨x, hx, hacyclic⟩ : ∃ x, extract 0 .declaring shapes = .ok x ∧ x.model.Acyclic :=
    ⟨_, rfl, Model.acyclic_of_rank List.length (by decide)⟩
  have hvisibility : Settings.defaults.get? "visibility" = some (.text "private") := rfl
  have hexternal : Settings.defaults.get? "external_packages" =
      some (.list (([] : List Text).map .text)) := rfl
  obtain ⟨-, docs, hdocs⟩ :=
    documents_reordered hvisibility hexternal hreordered hx hacyclic
  exact ⟨hreordered, docs, hdocs⟩

end ApiDocs
