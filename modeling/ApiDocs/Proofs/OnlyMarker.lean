import ApiDocs.Proofs.Cutting
import ApiDocs.Proofs.Donors
import ApiDocs.Proofs.OtherComment
import ApiDocs.Proofs.ShownDocs

/-!
# Comments with nothing but a marker

A marker in a summary stands for the summary of the overridden member, and one in a body for its
body. A comment that is only a marker is a summary. So the member gets what it gets without a
comment, except for a body and the links in it.
-/

namespace ApiDocs

open Text Extraction

/-! ### Trimmed summaries -/

/-- A merged summary has no white space at its ends if the summaries it is merged from have none. -/
lemma trim_summary_mergeDoc {e : Entity} {above : List Overridden}
    (he : trim e.summary = e.summary) (habove : ∀ o ∈ above, trim o.2.summary = o.2.summary) :
    trim (mergeDoc e above).summary = (mergeDoc e above).summary := by
  have hmerged : trim (mergeText e above).summary = (mergeText e above).summary := by
    rw [mergeText]
    split
    · rename_i source doc _ hdonor
      exact habove _ (List.mem_of_find?_eq_some hdonor)
    · split
      · exact trim_trim _
      · exact he
  rw [mergeDoc]
  split
  · exact he
  · split
    · exact hmerged
    · exact hmerged

/-- Extracted summaries have no white space at their ends. -/
lemma trim_summary_of_extract {n : Nat} {limit : Visibility} {ds : List Declaration}
    {x : Extracted} (h : extract n limit ds = .ok x) {e : Entity} (he : e ∈ x.model.entities) :
    trim e.summary = e.summary := by
  obtain ⟨d, -, bare, heq⟩ := exists_documentation_of_extract h he
  have hsummary := congrArg Entity.summary heq
  rw [summary_documentation, Comment.splitFirstSentence] at hsummary
  rw [hsummary, trim_trim]

/-- Merging hands it on that summaries have no white space at their ends. -/
lemma inherited_trim_summary {n : Nat} {limit : Visibility} {ds : List Declaration}
    {x : Extracted} (h : extract n limit ds = .ok x) :
    x.model.Inherited fun _ d => trim d.summary = d.summary where
  own _ he := trim_summary_of_extract h he
  merge _ he _ habove :=
    trim_summary_mergeDoc (trim_summary_of_extract h he) fun o ho => (habove o ho).2

/-! ### A marker as the summary -/

/-- The documentation without its body and the links in that. -/
def MergedDoc.summaryOnly (d : MergedDoc) : MergedDoc :=
  { d with body := [], links := (splitLinks d.summary d.links).1 }

/-- The documentation of the donor, which is empty if there is none. -/
def donorDoc (above : List Overridden) : MergedDoc := ((donor? above).map Prod.snd).getD {}

lemma trim_summary_donorDoc {above : List Overridden}
    (habove : ∀ o ∈ above, trim o.2.summary = o.2.summary) :
    trim (donorDoc above).summary = (donorDoc above).summary := by
  rw [donorDoc]
  cases hdonor : donor? above with
  | none => rfl
  | some o => exact habove o (List.mem_of_find?_eq_some hdonor)

/-- The text of the donor takes the place of the markers in a text. -/
lemma mergeText_of_hasMarker {e : Entity} (he : e.documented = true)
    (hmarker : (hasMarker e.summary || hasMarker e.body) = true) (above : List Overridden) :
    mergeText e above =
      let doc := donorDoc above
      let summary := substituteMarkers e.summary (splitLinks e.summary e.links).1 doc.summary
        (splitLinks doc.summary doc.links).1
      let body := substituteMarkers e.body (splitLinks e.summary e.links).2 doc.body
        (splitLinks doc.summary doc.links).2
      { MergedDoc.own e with
        summary := summary.1, body := body.1, links := summary.2 ++ body.2
        inheritedFrom := (donor? above).map (·.1.qualifiedName) } := by
  rw [mergeText, he]
  dsimp only
  rw [if_pos hmarker]
  rfl

/-- What is put in place of a marker that stands alone is left as it is. -/
lemma substituteMarkers_inheritMarker {text : Text} (htrim : trim text = text)
    (links : List Reference) : substituteMarkers inheritMarker [] text links = (text, links) := by
  have hpieces : splitOnWord inheritMarker inheritMarker = [[], []] := by decide
  rw [substituteMarkers, hpieces]
  simp [joinWith, spliceLinks, htrim]

section

variable {bare : Entity} (hbare : bare.documented = false) (hlinks : bare.links = [])
  {above : List Overridden}

include hbare hlinks

/-- An entity without a text takes all that the donor shows. -/
lemma mergeText_bare : mergeText bare above =
    { MergedDoc.own bare with
      summary := (donorDoc above).summary, body := (donorDoc above).body
      links := (donorDoc above).links
      inheritedFrom := (donor? above).map (·.1.qualifiedName) } := by
  obtain ⟨hsummary, hbody⟩ : bare.summary = [] ∧ bare.body = [] := by
    simpa [Entity.documented] using hbare
  have hmarker : (hasMarker bare.summary || hasMarker bare.body) = false := by
    rw [hsummary, hbody]
    rfl
  rw [mergeText, donorDoc, hbare]
  cases donor? above with
  | some o => rfl
  | none =>
    dsimp only
    rw [if_neg (Bool.eq_false_iff.1 hmarker)]
    simp only [MergedDoc.own, hsummary, hbody, hlinks]
    rfl

variable (habove : ∀ o ∈ above, trim o.2.summary = o.2.summary)

include habove

/-- With a marker as its summary, the entity takes only the summary that the donor shows. -/
lemma mergeText_inheritMarker : mergeText { bare with summary := inheritMarker } above =
    { MergedDoc.own bare with
      summary := (donorDoc above).summary, body := []
      links := (splitLinks (donorDoc above).summary (donorDoc above).links).1
      inheritedFrom := (donor? above).map (·.1.qualifiedName) } := by
  have hbody : bare.body = [] := (by simpa [Entity.documented] using hbare :
    bare.summary = [] ∧ bare.body = []).2
  have hmarker : (hasMarker inheritMarker || hasMarker bare.body) = true := by
    rw [hbody]
    decide
  have hown : splitLinks inheritMarker bare.links = ([], []) := by
    rw [hlinks]
    decide
  have hnothing (links : List Reference) :
      substituteMarkers bare.body [] (donorDoc above).body links = ([], []) := by
    rw [hbody]
    rfl
  rw [mergeText_of_hasMarker rfl hmarker]
  simp only [hown, hnothing, List.append_nil,
    substituteMarkers_inheritMarker (trim_summary_donorDoc habove)]
  rfl

/-- With a marker as its summary, an entity gets what it gets without a text, but no body. -/
lemma mergeDoc_inheritMarker (hne : above ≠ []) :
    mergeDoc { bare with summary := inheritMarker } above = (mergeDoc bare above).summaryOnly := by
  have hempty : above.isEmpty = false := by simpa using hne
  have hkind : Entity.isMethod { bare with summary := inheritMarker } = bare.isMethod := rfl
  have htags : inheritedTags { bare with summary := inheritMarker } above =
      inheritedTags bare above := rfl
  simp only [mergeDoc, hempty, hkind, htags, mergeText_inheritMarker hbare hlinks habove,
    mergeText_bare hbare hlinks]
  cases bare.isMethod with
  | false => rfl
  | true => rfl

end

/-! ### A marker as the comment -/

section

variable (n : Nat) {e : Entity} {name : Text} (hname : e.qualifiedName = name)

include hname

lemma recomment_nil : (recomment n name [] e).documented = false ∧
    (recomment n name [] e).links = [] := by
  rw [recomment, if_pos hname]
  exact ⟨rfl, rfl⟩

lemma recomment_inheritMarker : recomment n name inheritMarker e =
    { recomment n name [] e with summary := inheritMarker } := by
  have hsplit : Comment.splitFirstSentence inheritMarker = (inheritMarker, []) := by decide
  have hmentions : Comment.mentions inheritMarker = [] := by decide
  rw [recomment, recomment, if_pos hname, if_pos hname, hsplit, hmentions]
  rfl

end

/-- In the view of an extracted model without cycles, a member that overrides others shows with a
comment that is only a marker what it shows with an empty comment, everything else unchanged, but
without the body and the links in that. So the summaries are the same, and the bodies are the same
exactly if the member has no body with an empty comment. -/
theorem doc_of_only_marker {n : Nat} {limit : Visibility} {ds : List Declaration} {x : Extracted}
    (h : extract n limit ds = .ok x) (ha : x.model.Acyclic) {e : Entity}
    (he : e ∈ x.model.entities) (hne : x.model.overridden e ≠ []) :
    ∃ before d after, ds = before ++ d :: after ∧ d ∈ keptMembers limit ds ∧
      memberQualifiedName d = e.qualifiedName ∧
      ∃ y v z w, extract n limit (before ++ d.withComment inheritMarker :: after) = .ok y ∧
        y.model.view true = .ok v ∧
        extract n limit (before ++ d.withComment [] :: after) = .ok z ∧
        z.model.view true = .ok w ∧
        v.doc e.qualifiedName = (w.doc e.qualifiedName).summaryOnly ∧
        (v.doc e.qualifiedName).summary = (w.doc e.qualifiedName).summary ∧
        ((v.doc e.qualifiedName).body = (w.doc e.qualifiedName).body ↔
          (w.doc e.qualifiedName).body = []) := by
  have hc : x.model.Consistent := consistent_of_extract h
  obtain ⟨o, ho⟩ := List.exists_mem_of_ne_nil _ hne
  obtain ⟨hkind, -⟩ := (Model.mem_overridden_iff_ancestor hc).1 ho
  obtain ⟨d, hd, hname⟩ := exists_mem_keptMembers h he hkind
  have hmem : d ∈ ds := (List.mem_filter.1 (List.mem_filter.1 hd).1).1
  obtain ⟨before, after, rfl⟩ := List.append_of_mem hmem
  obtain ⟨y, v, hy, hv, hmarked⟩ := doc_withComment h ha hd he hname inheritMarker
  obtain ⟨z, w, hz, hw, hbare⟩ := doc_withComment h ha hd he hname []
  have habove : ∀ p ∈ (x.model.overridden e).map fun o => (o, x.model.fullDoc o),
      trim p.2.summary = p.2.summary := by
    intro p hp
    obtain ⟨o, ho, rfl⟩ := List.mem_map.1 hp
    exact (inherited_trim_summary h).docAt _ (Model.mem_entities_of_mem_overridden ho)
  obtain ⟨hdocumented, hlinks⟩ := recomment_nil n (rfl : e.qualifiedName = _)
  have hdoc : v.doc e.qualifiedName = (w.doc e.qualifiedName).summaryOnly := by
    rw [hmarked, hbare, recomment_inheritMarker n rfl]
    exact mergeDoc_inheritMarker hdocumented hlinks habove (by simpa using hne)
  refine ⟨before, d, after, rfl, hd, hname, y, v, z, w, hy, hv, hz, hw, hdoc, ?_, ?_⟩
  · rw [hdoc]
    rfl
  · rw [hdoc]
    exact eq_comm

/-- Declarations of a method with two sentences, and of one with another comment that overrides
it. -/
def twoSentences (comment : Text) : List Declaration :=
  [ { kind := "package", name := "p" },
    { kind := "class", name := "Base", scope := "p" },
    { kind := "method", name := "run", scope := "p.Base", comment := "Runs. Then it rests." },
    { kind := "class", name := "Derived", scope := "p", superclass := some "Base" },
    { kind := "method", name := "run", scope := "p.Derived", comment } ]

theorem doc_of_only_marker_twoSentences :
    ∃ x e, extract 0 .declaring (twoSentences []) = .ok x ∧ x.model.Acyclic ∧
      e ∈ x.model.entities ∧ x.model.overridden e ≠ [] ∧
      ∃ before d after, twoSentences [] = before ++ d :: after ∧
        d ∈ keptMembers .declaring (twoSentences []) ∧ memberQualifiedName d = e.qualifiedName ∧
        ∃ y v z w,
          extract 0 .declaring (before ++ d.withComment inheritMarker :: after) = .ok y ∧
          y.model.view true = .ok v ∧
          extract 0 .declaring (before ++ d.withComment [] :: after) = .ok z ∧
          z.model.view true = .ok w ∧
          v.doc e.qualifiedName = (w.doc e.qualifiedName).summaryOnly ∧
          (v.doc e.qualifiedName).summary = (w.doc e.qualifiedName).summary ∧
          ((v.doc e.qualifiedName).body = (w.doc e.qualifiedName).body ↔
            (w.doc e.qualifiedName).body = []) := by
  obtain ⟨x, e, hx, ha, he, hne⟩ : ∃ x e, extract 0 .declaring (twoSentences []) = .ok x ∧
      x.model.Acyclic ∧ x.model.find? "p.Derived#run()" = some e ∧ x.model.overridden e ≠ [] := by
    refine ⟨_, _, rfl, Model.acyclic_of_rank List.length (by decide), rfl, ?_⟩
    decide
  have hmem := List.mem_of_find?_eq_some he
  exact ⟨x, e, hx, ha, hmem, hne, doc_of_only_marker hx ha hmem hne⟩

/-- An override of a documented method has its body with an empty comment, and none with a comment
that is only a marker. -/
theorem only_marker_without_body :
    ∃ x v y w e o, extract 0 .declaring (twoSentences inheritMarker) = .ok x ∧ x.model.Acyclic ∧
      x.model.view true = .ok v ∧ extract 0 .declaring (twoSentences []) = .ok y ∧
      y.model.Acyclic ∧ y.model.view true = .ok w ∧
      x.model.find? "p.Derived#run()" = some e ∧ e.isMethod = true ∧
      o ∈ x.model.overridden e ∧ o.documented = true ∧
      (v.doc e.qualifiedName).summary = "Runs." ∧ (v.doc e.qualifiedName).body = [] ∧
      (w.doc e.qualifiedName).summary = "Runs." ∧
      (w.doc e.qualifiedName).body = "Then it rests." := by
  refine ⟨_, _, _, _, _, _, rfl, Model.acyclic_of_rank List.length (by decide), rfl, rfl,
    Model.acyclic_of_rank List.length (by decide), rfl, rfl, rfl, List.mem_cons_self .., rfl,
    ?_, ?_, ?_, ?_⟩
  · decide +kernel
  · decide +kernel
  · decide +kernel
  · decide +kernel

end ApiDocs
