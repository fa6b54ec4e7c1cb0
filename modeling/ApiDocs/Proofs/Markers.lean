import ApiDocs.Proofs.Cutting
import ApiDocs.Proofs.Donors

/-!
# Markers that are shown

Where a member overrides others, each marker in its text is replaced. A member that overrides
nothing keeps its text as it is, though, and with it any markers, and what it shows is handed down
to the members that override it. Apart from that, a marker is shown only where replacing one
completes another: that takes a text in which a brace is opened inside of another one.
-/

namespace ApiDocs

open Text

/-! ### Texts that close their braces -/

namespace Text

def isBrace (c : CodePoint) : Bool := c = '{' || c = '}'

/-- Whether the next brace after each opening one is a closing one. -/
def closesBraces : Text → Bool
  | [] => true
  | c :: s => (c ≠ '{' || s.find? isBrace = some (.char '}')) && closesBraces s

lemma closesBraces_cons {c : CodePoint} {s : Text} : closesBraces (c :: s) = true ↔
    (c = '{' → s.find? isBrace = some (.char '}')) ∧ closesBraces s = true := by
  rw [closesBraces, Bool.and_eq_true, Bool.or_eq_true, decide_eq_true_eq, decide_eq_true_eq,
    ← imp_iff_not_or]

lemma closesBraces_append {s t : Text} (hs : closesBraces s = true) (ht : closesBraces t = true) :
    closesBraces (s ++ t) = true := by
  induction s with
  | nil => exact ht
  | cons c s ih =>
    obtain ⟨hc, hs⟩ := closesBraces_cons.1 hs
    rw [List.cons_append]
    refine closesBraces_cons.2 ⟨fun hopen => ?_, ih hs⟩
    rw [List.find?_append, hc hopen, Option.some_or]

lemma closesBraces_right {s t : Text} (h : closesBraces (s ++ t) = true) :
    closesBraces t = true := by
  induction s with
  | nil => exact h
  | cons c s ih => exact ih (closesBraces_cons.1 h).2

/-- The part before a text that does not close a brace closes its own. -/
lemma closesBraces_left {s t : Text} (h : closesBraces (s ++ t) = true)
    (ht : t.find? isBrace ≠ some (.char '}')) : closesBraces s = true := by
  induction s with
  | nil => rfl
  | cons c s ih =>
    rw [List.cons_append] at h
    obtain ⟨hc, hs⟩ := closesBraces_cons.1 h
    refine closesBraces_cons.2 ⟨fun hopen => ?_, ih hs⟩
    have hfind := hc hopen
    rw [List.find?_append, Option.or_eq_some_iff] at hfind
    exact hfind.resolve_right fun h => ht h.2

lemma not_isBrace_of_isBlank {c : CodePoint} (h : isBlank c = true) : isBrace c = false := by
  rw [Bool.eq_false_iff]
  intro hbrace
  rw [isBrace, Bool.or_eq_true, decide_eq_true_eq, decide_eq_true_eq] at hbrace
  rcases hbrace with rfl | rfl
  · exact absurd h (by decide)
  · exact absurd h (by decide)

end Text

/-! ### Texts without markers -/

/-- A text that closes its braces and has no marker. -/
structure Unmarked (s : Text) : Prop where
  closes : closesBraces s = true
  no_marker : hasMarker s = false

namespace Unmarked

lemma nil : Unmarked [] := ⟨rfl, by decide⟩

lemma not_infix {s : Text} (h : Unmarked s) : ¬ inheritMarker <:+: s := by
  rw [← hasWord_iff, ← hasMarker, h.no_marker]
  exact Bool.false_ne_true

/-- No marker begins in one text and ends in the next: the first would leave a brace open. -/
lemma append {s t : Text} (hs : Unmarked s) (ht : Unmarked t) : Unmarked (s ++ t) := by
  refine ⟨closesBraces_append hs.closes ht.closes, ?_⟩
  rw [hasMarker, Bool.eq_false_iff, ne_eq, hasWord_iff, List.infix_append_iff]
  rintro (hinside | hinside | ⟨p, q, hmarker, hp, hq⟩)
  · exact hs.not_infix hinside
  · exact ht.not_infix hinside
  · by_cases hqnil : q = []
    · rw [hqnil, List.append_nil] at hmarker
      exact hs.not_infix (hmarker ▸ hp.isInfix)
    · by_cases hpnil : p = []
      · rw [hpnil, List.nil_append] at hmarker
        exact ht.not_infix (hmarker ▸ hq.isInfix)
      · -- the start of a marker, which ends the first text, opens a brace
        have hopen : ∀ p ∈ inheritMarker.dropLast.inits, p ≠ [] → closesBraces p = false := by
          decide
        have hstart : p <+: inheritMarker.dropLast := by
          rw [hmarker, List.dropLast_append_of_ne_nil hqnil]
          exact List.prefix_append ..
        obtain ⟨before, rfl⟩ := hp
        have hclosed := closesBraces_right hs.closes
        rw [hopen p ((List.mem_inits ..).2 hstart) hpnil] at hclosed
        exact Bool.false_ne_true hclosed

lemma of_append_blanks {s t blanks : Text} (hblanks : ∀ c ∈ blanks, isBlank c = true)
    (h : Unmarked (s ++ t ++ blanks)) : Unmarked t := by
  constructor
  · apply closesBraces_left (closesBraces_right (List.append_assoc .. ▸ h.closes))
    intro hfind
    have hbrace := List.find?_some hfind
    rw [not_isBrace_of_isBlank (hblanks _ (List.mem_of_find?_eq_some hfind))] at hbrace
    exact Bool.false_ne_true hbrace
  · rw [hasMarker, Bool.eq_false_iff, ne_eq, hasWord_iff]
    exact fun hinside => h.not_infix (hinside.trans (List.infix_append ..))

lemma trim {s : Text} (h : Unmarked s) : Unmarked (trim s) := by
  obtain ⟨before, -, hleft⟩ := exists_append_trimLeft s
  obtain ⟨after, hblank, hright⟩ := exists_trimRight_append (trimLeft s)
  rw [hleft, hright, ← List.append_assoc] at h
  exact h.of_append_blanks hblank

/-- In a text that closes its braces, putting an unmarked text in place of the markers leaves none
and makes none. -/
lemma joinWith_splitOnWord {donor : Text} (hdonor : Unmarked donor) {s : Text}
    (hs : closesBraces s = true) : Unmarked (joinWith donor (splitOnWord inheritMarker s)) := by
  induction hlength : s.length using Nat.strong_induction_on generalizing s with
  | _ n ih =>
    rcases splitOnWord_cases (by decide : inheritMarker ≠ []) s with
      ⟨hnone, hpieces⟩ | ⟨w, r, hnone, hsplit, hpieces⟩
    · rw [hpieces]
      exact ⟨hs, hnone⟩
    · obtain ⟨piece, pieces, hrest⟩ :=
        List.exists_cons_of_ne_nil (splitOnWord_ne_nil inheritMarker r)
      have hshorter : r.length < n := by
        rw [← hlength, hsplit, List.length_append, List.length_append]
        have : inheritMarker.length = 13 := by decide
        omega
      rw [hsplit] at hs
      have hfirst : Unmarked w := by
        have hbrace : inheritMarker.find? isBrace = some (.char '{') := by decide
        refine ⟨closesBraces_left hs ?_, hnone⟩
        rw [List.find?_append, hbrace, Option.some_or]
        decide
      have hothers := ih _ hshorter (closesBraces_right (closesBraces_right hs)) rfl
      rw [hpieces]
      rw [hrest] at hothers ⊢
      exact (hfirst.append hdonor).append hothers

end Unmarked

/-! ### Merging -/

def MergedDoc.showsMarker (d : MergedDoc) : Bool := hasMarker d.summary || hasMarker d.body

/-- Whether the summary and the body of an entity close their braces. -/
def Entity.closesBraces (e : Entity) : Bool :=
  Text.closesBraces e.summary && Text.closesBraces e.body

/-- Documentation whose summary and body are unmarked. -/
structure MergedDoc.Unmarked (d : MergedDoc) : Prop where
  summary : ApiDocs.Unmarked d.summary
  body : ApiDocs.Unmarked d.body

namespace MergedDoc

lemma unmarked_empty : Unmarked {} := ⟨.nil, .nil⟩

lemma Unmarked.showsMarker {d : MergedDoc} (h : d.Unmarked) : d.showsMarker = false := by
  rw [MergedDoc.showsMarker, h.summary.no_marker, h.body.no_marker, Bool.or_false]

variable {e : Entity} (hcloses : e.closesBraces = true)

include hcloses

lemma unmarked_own (hnone : (own e).showsMarker = false) : (own e).Unmarked := by
  obtain ⟨hsummary, hbody⟩ := (Bool.and_eq_true _ _).mp hcloses
  obtain ⟨hsummary', hbody'⟩ := Bool.or_eq_false_iff.1 hnone
  exact ⟨⟨hsummary, hsummary'⟩, ⟨hbody, hbody'⟩⟩

lemma unmarked_mergeText {above : List Overridden} (habove : ∀ o ∈ above, o.2.Unmarked) :
    (mergeText e above).Unmarked := by
  have hdonor : ∀ o, donor? above = some o → o.2.Unmarked := fun o ho =>
    habove o (List.mem_of_find?_eq_some ho)
  rw [mergeText]
  split
  · rename_i source doc _ hdoc
    exact ⟨(hdonor _ hdoc).summary, (hdonor _ hdoc).body⟩
  · split
    · have hdoc : (((donor? above).map Prod.snd).getD {} : MergedDoc).Unmarked := by
        cases ho : donor? above with
        | none => exact unmarked_empty
        | some o => exact hdonor o ho
      obtain ⟨hsummary, hbody⟩ := (Bool.and_eq_true _ _).mp hcloses
      exact ⟨(hdoc.summary.joinWith_splitOnWord hsummary).trim,
        (hdoc.body.joinWith_splitOnWord hbody).trim⟩
    · rename_i hnone
      exact unmarked_own hcloses (Bool.eq_false_iff.2 hnone)

/-- A member that overrides others shows no marker if these do not, and its braces are closed. -/
lemma unmarked_mergeDoc {above : List Overridden} (hne : above ≠ [])
    (habove : ∀ o ∈ above, o.2.Unmarked) : (mergeDoc e above).Unmarked := by
  have hmerged := unmarked_mergeText hcloses habove
  rw [mergeDoc, if_neg (by simpa using hne)]
  split
  · exact ⟨hmerged.summary, hmerged.body⟩
  · exact hmerged

end MergedDoc

/-! ### Where a marker comes from -/

namespace Model

variable {m : Model}

/-- A member may be the source of a marker: it overrides nothing and has one in its own text, or a
brace in its text is opened inside of another one. -/
def MarkerSource (m : Model) (d : Entity) : Prop :=
  (m.overridden d = [] ∧ (MergedDoc.own d).showsMarker = true) ∨ d.closesBraces = false

variable (h : m.Consistent) (ha : m.Acyclic)

include h ha

lemma fullDoc_of_overridden_eq_nil {e : Entity} (he : m.overridden e = []) :
    m.fullDoc e = .own e := by
  rw [fullDoc_eq h ha, he]
  rfl

/-- Where neither an entity nor any member that it overrides is a source of markers, it shows
none. -/
theorem unmarked_fullDoc {e : Entity} (he : e ∈ m.entities)
    (hnone : ∀ d ∈ e :: m.overridden e, ¬ m.MarkerSource d) : (m.fullDoc e).Unmarked := by
  revert hnone
  refine overridden_induction h ha (P := fun e =>
    (∀ d ∈ e :: m.overridden e, ¬ m.MarkerSource d) → (m.fullDoc e).Unmarked) ?_ he
  intro e he ih hnone
  obtain ⟨hroot, hcloses⟩ := not_or.1 (hnone e (List.mem_cons_self ..))
  rw [Bool.not_eq_false] at hcloses
  by_cases hnil : m.overridden e = []
  · rw [fullDoc_of_overridden_eq_nil h ha hnil]
    exact MergedDoc.unmarked_own hcloses (Bool.eq_false_iff.2 fun hmarker => hroot ⟨hnil, hmarker⟩)
  · rw [fullDoc_eq h ha]
    refine MergedDoc.unmarked_mergeDoc hcloses (by simpa using hnil) fun p hp => ?_
    obtain ⟨o, ho, rfl⟩ := List.mem_map.1 hp
    refine ih o ho fun d hd => hnone d (List.mem_cons_of_mem _ ?_)
    rcases List.mem_cons.1 hd with rfl | hd
    · exact ho
    · exact overridden_subset h ha ho hd

end Model

/-- In the view of an extracted model without cycles, what overrides nothing is shown as it is, its
markers included. A marker is shown only where the entity or a member that it overrides overrides
nothing and has a marker, or has a brace opened inside of another one. So where all fields and
methods close their braces, some of them show a marker exactly if there is one among them that
overrides nothing and has a marker in its own text. -/
theorem markers_shown {n : Nat} {limit : Visibility} {ds : List Declaration} {x : Extracted}
    (h : extract n limit ds = .ok x) (ha : x.model.Acyclic) :
    ∃ v, x.model.view true = .ok v ∧
      (∀ e ∈ x.model.entities, x.model.overridden e = [] → v.doc e.qualifiedName = .own e) ∧
      (∀ e ∈ x.model.entities, (v.doc e.qualifiedName).showsMarker = true →
        ∃ d ∈ e :: x.model.overridden e,
          (x.model.overridden d = [] ∧ (MergedDoc.own d).showsMarker = true) ∨
            d.closesBraces = false) ∧
      ((∀ e ∈ x.model.entities, (e.isField || e.isMethod) = true → e.closesBraces = true) →
        ((∃ e ∈ x.model.entities, (e.isField || e.isMethod) = true ∧
            (v.doc e.qualifiedName).showsMarker = true) ↔
          ∃ e ∈ x.model.entities, (e.isField || e.isMethod) = true ∧
            x.model.overridden e = [] ∧ (MergedDoc.own e).showsMarker = true)) := by
  have hc : x.model.Consistent := consistent_of_extract h
  have hdoc {e : Entity} (he : e ∈ x.model.entities) :
      (x.model.viewOf true).doc e.qualifiedName = x.model.fullDoc e :=
    Model.doc_viewOf_of_mem hc ha he
  have hroot : ∀ e ∈ x.model.entities, x.model.overridden e = [] →
      (x.model.viewOf true).doc e.qualifiedName = .own e := fun e he hnil => by
    rw [hdoc he, Model.fullDoc_of_overridden_eq_nil hc ha hnil]
  have hsource : ∀ e ∈ x.model.entities,
      ((x.model.viewOf true).doc e.qualifiedName).showsMarker = true →
        ∃ d ∈ e :: x.model.overridden e, x.model.MarkerSource d := by
    intro e he hshown
    by_contra hnone
    have hunmarked := Model.unmarked_fullDoc hc ha he fun d hd hd' => hnone ⟨d, hd, hd'⟩
    rw [hdoc he, hunmarked.showsMarker] at hshown
    exact Bool.false_ne_true hshown
  refine ⟨x.model.viewOf true, hc.view_eq true, hroot, hsource, fun hcloses => ⟨?_, ?_⟩⟩
  · rintro ⟨e, he, hkind, hshown⟩
    obtain ⟨d, hd, hd'⟩ := hsource e he hshown
    have hmember : d ∈ x.model.entities ∧ (d.isField || d.isMethod) = true := by
      rcases List.mem_cons.1 hd with rfl | hd
      · exact ⟨he, hkind⟩
      · exact ⟨Model.mem_entities_of_mem_overridden hd,
          Model.isField_or_isMethod_of_mem_overridden hc hd⟩
    rcases hd' with ⟨hnil, hmarker⟩ | hopen
    · exact ⟨d, hmember.1, hmember.2, hnil, hmarker⟩
    · rw [hcloses d hmember.1 hmember.2] at hopen
      cases hopen
  · rintro ⟨e, he, hkind, hnil, hmarker⟩
    exact ⟨e, he, hkind, by rwa [hroot e he hnil]⟩

/-- Declarations of a method with nothing but a marker, and of one that overrides it. -/
def bareMarker : List Declaration :=
  [ { kind := "package", name := "p" },
    { kind := "class", name := "Base", scope := "p" },
    { kind := "method", name := "run", scope := "p.Base", comment := "\x7b@inheritDoc\x7d" },
    { kind := "class", name := "Derived", scope := "p", superclass := some "Base" },
    { kind := "method", name := "run", scope := "p.Derived" } ]

theorem markers_shown_bareMarker :
    ∃ x v, extract 0 .declaring bareMarker = .ok x ∧ x.model.Acyclic ∧
      x.model.view true = .ok v ∧
      (∀ e ∈ x.model.entities, (e.isField || e.isMethod) = true → e.closesBraces = true) ∧
      ((∃ e ∈ x.model.entities, (e.isField || e.isMethod) = true ∧
          (v.doc e.qualifiedName).showsMarker = true) ↔
        ∃ e ∈ x.model.entities, (e.isField || e.isMethod) = true ∧
          x.model.overridden e = [] ∧ (MergedDoc.own e).showsMarker = true) := by
  obtain ⟨x, hx, ha, hcloses⟩ : ∃ x, extract 0 .declaring bareMarker = .ok x ∧ x.model.Acyclic ∧
      ∀ e ∈ x.model.entities, (e.isField || e.isMethod) = true → e.closesBraces = true := by
    refine ⟨_, rfl, Model.acyclic_of_rank List.length (by decide), ?_⟩
    decide
  obtain ⟨v, hv, -, -, hiff⟩ := markers_shown hx ha
  exact ⟨x, v, hx, ha, hv, hcloses, hiff hcloses⟩

/-- A method that overrides nothing shows its marker, and the method that overrides it takes that
for a text. -/
theorem marker_inherited :
    ∃ x v e o, extract 0 .declaring bareMarker = .ok x ∧ x.model.Acyclic ∧
      x.model.view true = .ok v ∧ x.model.find? "p.Derived#run()" = some e ∧
      x.model.overridden e = [o] ∧ x.model.overridden o = [] ∧
      (v.doc o.qualifiedName).summary = inheritMarker ∧
      (v.doc e.qualifiedName).summary = inheritMarker ∧
      (v.doc e.qualifiedName).inheritedFrom = some o.qualifiedName := by
  refine ⟨_, _, _, _, rfl, Model.acyclic_of_rank List.length (by decide), rfl, rfl, rfl, rfl, ?_⟩
  decide +kernel

end ApiDocs
