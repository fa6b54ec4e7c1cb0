import ApiDocs.Proofs.Documented
import ApiDocs.Proofs.SharedTable
import ApiDocs.Proofs.ShownDocs
import ApiDocs.Proofs.TaggedDecidable
import ApiDocs.Proofs.TaggedSentence

/-!
# Links and the texts that they stand in

The references that go with a summary and a body make the mentions in the summary, then those in the
body, one by one. Extraction makes them so, and putting the text of an overridden member in place of
markers keeps them so, as long as texts are tagged: the segments between markers then have the links
of the whole text between them.
-/

namespace ApiDocs

open Text

def Reference.mention (r : Reference) : Comment.Mention := ⟨r.text, r.label⟩

/-- References make the mentions in a tagged text, in order. -/
structure GoWith (links : List Reference) (s : Text) : Prop where
  tagged : Comment.Tagged s
  mentions : links.map Reference.mention = Comment.mentions s

lemma length_mentions (s : Text) : (Comment.mentions s).length = Comment.linkCount s :=
  List.length_map ..

lemma Comment.Tagged.mentions_append {s : Text} (h : Comment.Tagged s) (t : Text) :
    Comment.mentions (s ++ t) = Comment.mentions s ++ Comment.mentions t := by
  rw [Comment.mentions, h.inlineLinks_append, List.map_append]
  rfl

/-- Links of a text with more after them are split off by counting the links of the text. -/
lemma map_splitLinks {s : Text} {links : List Reference} {rest : List Comment.Mention}
    (h : links.map Reference.mention = Comment.mentions s ++ rest) :
    (splitLinks s links).1.map Reference.mention = Comment.mentions s ∧
      (splitLinks s links).2.map Reference.mention = rest := by
  rw [splitLinks, List.splitAt_eq, List.map_take, List.map_drop, h, ← length_mentions]
  exact ⟨List.take_left, List.drop_left⟩

/-! ### Putting a text in place of markers -/

/-- The marker as an inline tag. -/
def markerTag : Comment.WrittenTag where
  name := "inheritDoc"
  content := []
  name_ne_nil := by decide
  isWord_of_mem := by decide
  isBlank_of_head := by decide
  no_opening := by decide
  no_closing := by decide
  closes := by decide

lemma text_markerTag : markerTag.text = inheritMarker := by decide

lemma inlineLinks_inheritMarker : Comment.inlineLinks inheritMarker = [] := by decide

/-- Splicing the links of a donor between those of segments goes with joining the segments by the
text of the donor. -/
lemma spliceLinks_goWith {donorText : Text} {donorLinks : List Reference}
    (hdonor : GoWith donorLinks donorText) {segments : List Text}
    (hsegments : ∀ s ∈ segments, Comment.Tagged s) {links : List Reference}
    (hlinks : links.map Reference.mention = segments.flatMap Comment.mentions) :
    GoWith (spliceLinks donorLinks links segments) (joinWith donorText segments) := by
  induction segments generalizing links with
  | nil => exact ⟨.nil, rfl⟩
  | cons s segments ih =>
    obtain ⟨hs, hrest⟩ := List.forall_mem_cons.1 hsegments
    -- the links of the first segment come first, and those left over are of the other segments
    obtain ⟨htake, hdrop⟩ := map_splitLinks hlinks
    rw [splitLinks, List.splitAt_eq] at htake hdrop
    cases segments with
    | nil => exact ⟨hs, htake⟩
    | cons s' segments =>
      obtain ⟨htagged, hmentions⟩ := ih hrest hdrop
      refine ⟨(hs.append hdonor.tagged).append htagged, ?_⟩
      calc (links.take (Comment.linkCount s) ++ donorLinks ++
              spliceLinks donorLinks (links.drop (Comment.linkCount s))
                (s' :: segments)).map Reference.mention
        _ = Comment.mentions s ++ Comment.mentions donorText ++
              Comment.mentions (joinWith donorText (s' :: segments)) := by
            rw [List.map_append, List.map_append, htake, hdonor.mentions, hmentions]
        _ = Comment.mentions (s ++ donorText ++ joinWith donorText (s' :: segments)) := by
            rw [(hs.append hdonor.tagged).mentions_append, hs.mentions_append]

/-- A text whose markers are replaced by that of a donor goes with its own links and the donor's. -/
theorem GoWith.substituteMarkers {s donorText : Text} {links donorLinks : List Reference}
    (h : GoWith links s) (hdonor : GoWith donorLinks donorText) :
    GoWith (substituteMarkers s links donorText donorLinks).2
      (substituteMarkers s links donorText donorLinks).1 := by
  have hmarker : Comment.inlineLinks markerTag.text = [] := by
    rw [text_markerTag, inlineLinks_inheritMarker]
  obtain ⟨hsegments, hpieces⟩ := Comment.Tagged.pieces_splitOnWord hmarker h.tagged
  rw [text_markerTag] at hsegments hpieces
  have hlinks : links.map Reference.mention =
      (splitOnWord inheritMarker s).flatMap Comment.mentions := by
    rw [h.mentions, Comment.mentions, ← hpieces, List.map_flatMap]
    rfl
  obtain ⟨htagged, hmentions⟩ := spliceLinks_goWith hdonor hsegments hlinks
  refine ⟨htagged.trim, ?_⟩
  rw [ApiDocs.substituteMarkers, hmentions, Comment.mentions, Comment.mentions,
    Comment.inlineLinks_trim]

/-! ### Merging -/

namespace MergedDoc

/-- The links of a documentation make the mentions in its summary, then those in its body. -/
structure Aligned (d : MergedDoc) : Prop where
  summary : Comment.Tagged d.summary
  body : Comment.Tagged d.body
  links : d.links.map Reference.mention =
    Comment.mentions d.summary ++ Comment.mentions d.body

lemma Aligned.goWith {d : MergedDoc} (h : d.Aligned) :
    GoWith (splitLinks d.summary d.links).1 d.summary ∧
      GoWith (splitLinks d.summary d.links).2 d.body :=
  ⟨⟨h.summary, (map_splitLinks h.links).1⟩, ⟨h.body, (map_splitLinks h.links).2⟩⟩

lemma aligned_empty : Aligned {} := ⟨.nil, .nil, rfl⟩

variable {e : Entity} {above : List Overridden}

/-- Merging keeps links aligned, whichever text is taken. -/
theorem Aligned.mergeText (hown : (own e).Aligned) (habove : ∀ o ∈ above, o.2.Aligned) :
    (mergeText e above).Aligned := by
  have hdonor : ∀ o, donor? above = some o → o.2.Aligned := fun o ho =>
    habove o (List.mem_of_find?_eq_some ho)
  rw [ApiDocs.mergeText]
  split
  · rename_i source doc _ hdoc
    exact ⟨(hdonor _ hdoc).summary, (hdonor _ hdoc).body, (hdonor _ hdoc).links⟩
  · split
    · -- where no member has a text, markers are replaced by nothing
      have hdoc : (((donor? above).map Prod.snd).getD {} : MergedDoc).Aligned := by
        cases ho : donor? above with
        | none => exact aligned_empty
        | some o => exact hdonor o ho
      have hsummary := hown.goWith.1.substituteMarkers hdoc.goWith.1
      have hbody := hown.goWith.2.substituteMarkers hdoc.goWith.2
      exact ⟨hsummary.tagged, hbody.tagged,
        List.map_append.trans (congrArg₂ _ hsummary.mentions hbody.mentions)⟩
    · exact hown

lemma Aligned.mergeDoc (hown : (own e).Aligned) (habove : ∀ o ∈ above, o.2.Aligned) :
    (mergeDoc e above).Aligned := by
  have hmerged := hown.mergeText habove
  rw [ApiDocs.mergeDoc]
  split
  · exact hown
  · split
    · exact ⟨hmerged.summary, hmerged.body, hmerged.links⟩
    · exact hmerged

end MergedDoc

/-! ### Extracted models -/

namespace Extraction

lemma map_mention_referencesAt (place : Nat → Site) (ms : List Comment.Mention) :
    (referencesAt place ms).map Reference.mention = ms := by
  have hmention : ∀ i m, Reference.mention (Comment.Mention.at m (place i)) = id m := fun _ _ => rfl
  rw [referencesAt, map_mapIdx_eq hmention, List.map_id]

/-- The documentation of a tagged comment is aligned. -/
lemma aligned_documentation {d : Declaration} (h : Comment.Tagged d.comment) (n : Nat)
    (name : Text) (e : Entity) : (MergedDoc.own (documentation n name d e)).Aligned := by
  obtain ⟨hsummary, hbody⟩ := h.splitFirstSentence
  refine ⟨hsummary, hbody, ?_⟩
  rw [MergedDoc.own, links_documentation, map_mention_referencesAt, summary_documentation,
    body_documentation]

end Extraction

open Extraction

/-- In a model extracted from tagged comments, the links shown for an entity are those in its
summary and then those in its body, inherited texts included, and counting the links of the summary
splits them between the two. -/
theorem links_of_tagged_comments {n : Nat} {limit : Visibility} {ds : List Declaration}
    {x : Extracted} (h : extract n limit ds = .ok x)
    (htagged : ∀ d ∈ (kept limit ds).declarations, Comment.Tagged d.comment) (inherits : Bool) :
    ∃ v, x.model.view inherits = .ok v ∧
      ∀ e ∈ x.model.entities, ∃ doc, v.docs.get? e.qualifiedName = some doc ∧
        doc.links.map Reference.mention =
          Comment.mentions doc.summary ++ Comment.mentions doc.body ∧
        (splitLinks doc.summary doc.links).1.map Reference.mention =
          Comment.mentions doc.summary ∧
        (splitLinks doc.summary doc.links).2.map Reference.mention = Comment.mentions doc.body := by
  have hc : x.model.Consistent := consistent_of_extract h
  have hown : ∀ e ∈ x.model.entities, (MergedDoc.own e).Aligned := by
    intro e he
    obtain ⟨d, hd, bare, heq⟩ := exists_documentation_of_extract h he
    rw [heq]
    exact aligned_documentation (htagged d hd) n _ bare
  have hinherited : x.model.Inherited fun _ d => d.Aligned :=
    ⟨hown, fun e he above habove => (hown e he).mergeDoc fun o ho => (habove o ho).2⟩
  refine ⟨x.model.viewOf inherits, hc.view_eq inherits, fun e he => ?_⟩
  obtain ⟨doc, hget, haligned⟩ := hinherited.exists_doc hc.distinct inherits he
  exact ⟨doc, hget, haligned.links, map_splitLinks haligned.links⟩

theorem links_of_tagged_comments_layers :
    ∃ x, extract 0 .declaring layers = .ok x ∧
      (∀ d ∈ (kept .declaring layers).declarations, Comment.Tagged d.comment) ∧
      ∃ v, x.model.view true = .ok v ∧
        ∀ e ∈ x.model.entities, ∃ doc, v.docs.get? e.qualifiedName = some doc ∧
          doc.links.map Reference.mention =
            Comment.mentions doc.summary ++ Comment.mentions doc.body ∧
          (splitLinks doc.summary doc.links).1.map Reference.mention =
            Comment.mentions doc.summary ∧
          (splitLinks doc.summary doc.links).2.map Reference.mention =
            Comment.mentions doc.body := by
  have htagged : ∀ d ∈ layers, Comment.Tagged d.comment := by decide
  have hkept : ∀ d ∈ (kept .declaring layers).declarations, Comment.Tagged d.comment :=
    fun d hd => htagged d (mem_of_mem_declarations hd)
  obtain ⟨x, hx⟩ : ∃ x, extract 0 .declaring layers = .ok x := ⟨_, rfl⟩
  exact ⟨x, hx, hkept, links_of_tagged_comments hx hkept true⟩

end ApiDocs
