import ApiDocs.Page.Inline
import ApiDocs.Proofs.Markers
import ApiDocs.Proofs.TaggedDecidable

/-!
# Inline tags as they are shown

Links are shown first, and then the inline tags of the text that this gives. In a tagged text both
come to one reading from left to right, because nothing that a link is shown by holds a brace. In
other texts a tag can be left: one that is complete only when the tags inside it have been shown.
-/

namespace ApiDocs

open Text Comment

namespace Text

def isBraceless (s : Text) : Bool := s.all (! isBrace ·)

lemma isBraceless_append (s t : Text) :
    (s ++ t).isBraceless = (s.isBraceless && t.isBraceless) := List.all_append

lemma isBraceless_iff {s : Text} :
    s.isBraceless = true ↔ (.char '{' : CodePoint) ∉ s ∧ (.char '}' : CodePoint) ∉ s := by
  induction s with
  | nil => simp [isBraceless]
  | cons c s ih =>
    rw [isBraceless, List.all_cons, Bool.and_eq_true, ← isBraceless, ih]
    simp only [isBrace, List.mem_cons, not_or, Bool.not_or, Bool.and_eq_true, Bool.not_eq_true',
      decide_eq_false_iff_not, eq_comm (b := c)]
    tauto

end Text

/-! ### Links as they are shown -/

namespace Linking

variable {l : Linking}

/-- The titles and paths of all targets hold no braces. -/
def HasPlainTargets (l : Linking) : Prop :=
  ∀ name t, l.targets.get? name = some t → t.title.isBraceless = true ∧ t.path.isBraceless = true

/-- What a link is shown by: the first of the references that are left, or else its own target. -/
def showLink (l : Linking) (link : InlineLink) : List Reference → Text
  | [] => Markdown.code link.target
  | r :: _ => l.showReference r

lemma showLinks_hit (link : InlineLink) (w : Text) (ps : List (Piece InlineLink))
    (rs : List Reference) :
    l.showLinks (.hit link w :: ps) rs = l.showLink link rs ++ l.showLinks ps rs.tail := by
  cases rs <;> rfl

lemma showLinks_points_append (w : Text) (ps : List (Piece InlineLink)) (rs : List Reference) :
    l.showLinks (w.map .point ++ ps) rs = w ++ l.showLinks ps rs := by
  induction w with
  | nil => rfl
  | cons c w ih => rw [List.map_cons, List.cons_append, showLinks, ih, List.cons_append]

/-- What holds of titles, paths, texts and labels, and is kept in links and in code, holds of what
links are shown by. -/
lemma showLink_of {P : Text → Prop} (hlink : ∀ {s t}, P s → P t → P (Markdown.link s t))
    (hcode : ∀ {s}, P s → P (Markdown.code s)) (hdrop : ∀ {s t}, t <:+ s → P s → P t)
    (htargets : ∀ name t, l.targets.get? name = some t → P t.title ∧ P t.path) {link : InlineLink}
    (htarget : P link.target) {rs : List Reference} (hrefs : ∀ r ∈ rs, P r.text ∧ P r.label) :
    P (l.showLink link rs) := by
  cases rs with
  | nil => exact hcode htarget
  | cons r rs =>
    obtain ⟨htext, hlabel⟩ := hrefs r (List.mem_cons_self ..)
    rw [showLink, showReference]
    split
    · rename_i t hfind
      obtain ⟨name, -, hget⟩ := Option.bind_eq_some_iff.1 hfind
      obtain ⟨htitle, hpath⟩ := htargets name t hget
      refine hlink ?_ hpath
      split
      · exact hlabel
      · exact htitle
    · apply hcode
      rw [Reference.display]
      split
      · exact hlabel
      · exact hdrop (List.dropWhile_suffix _) htext

end Linking

/-! ### Links and other tags at once -/

/-- A link, or any other inline tag. -/
inductive Comment.InlineElement where
  | link (l : InlineLink)
  | tag (t : InlineTag)

namespace Comment

def InlineElement.link? : InlineElement → Option InlineLink
  | link l => some l
  | tag _ => none

/-- A link at the start of a text, or else an inline tag. -/
def inlineElement : Recogniser InlineElement := fun s =>
  ((inlineLink s).map fun r => (.link r.1, r.2)).or ((inlineTag s).map fun r => (.tag r.1, r.2))

lemma inlineElement_of_ne {c : CodePoint} (h : c ≠ '{') (s : Text) :
    inlineElement (c :: s) = none := by
  rw [inlineElement, inlineLink_of_ne h, inlineTag_of_ne h]
  rfl

/-- The target of a link stands inside its tag, where there is no brace. -/
lemma isBraceless_target {t : WrittenTag} {link : InlineLink}
    (h : inlineLink (t.text ++ []) = some (link, [])) : link.target.isBraceless = true := by
  rw [List.append_nil] at h
  obtain ⟨before, after, htext⟩ := exists_around_of_inlineLink h
  have hinside : t.inside = before ++ (link.target ++ after) := by
    apply (List.append_left_inj [.char '}']).1
    exact (List.cons.inj htext).2.trans (by simp)
  have hopen := t.opening_notMem_inside
  have hclose := t.closing_notMem_inside
  rw [hinside] at hopen hclose
  simp only [List.mem_append, not_or] at hopen hclose
  exact isBraceless_iff.2 ⟨hopen.2.1, hclose.2.1⟩

/-- A tag is read as the link that it is, whatever comes after it, or as an inline tag and by the
scan for links as the code points that it is written with. -/
lemma scan_text_append (t : WrittenTag) :
    (∃ link : InlineLink, link.target.isBraceless = true ∧ ∀ s,
        scan inlineLink (t.text ++ s) = .hit link t.text :: scan inlineLink s ∧
        scan inlineElement (t.text ++ s) = .hit (.link link) t.text :: scan inlineElement s) ∨
      ∀ s, scan inlineLink (t.text ++ s) = t.text.map .point ++ scan inlineLink s ∧
        scan inlineElement (t.text ++ s) =
          .hit (.tag ⟨t.name, trim t.content⟩) t.text :: scan inlineElement s := by
  obtain ⟨o, ho⟩ := inlineLink_text t
  cases o with
  | some link =>
    refine .inl ⟨link, isBraceless_target (ho []), fun s => ?_⟩
    have helement : inlineElement (t.text ++ s) = some (.link link, s) := by
      rw [inlineElement, ho]
      rfl
    exact ⟨scan_append_of_some t.text_ne_nil (ho s), scan_append_of_some t.text_ne_nil helement⟩
  | none =>
    refine .inr fun s => ?_
    have helement : inlineElement (t.text ++ s) = some (.tag ⟨t.name, trim t.content⟩, s) := by
      rw [inlineElement, ho, inlineTag_text]
      rfl
    exact ⟨scan_inlineLink_of_none (inlineTag_text t s) (ho s),
      scan_append_of_some t.text_ne_nil helement⟩

end Comment

/-- The text of pieces read from left to right: links are shown by the references that go with
them, in order, other tags as they are, and code points stand for themselves. -/
def Linking.showInOrder (l : Linking) : List (Piece InlineElement) → List Reference → Text
  | [], _ => []
  | .point c :: ps, rs => c :: l.showInOrder ps rs
  | .hit (.link link) _ :: ps, rs => l.showLink link rs ++ l.showInOrder ps rs.tail
  | .hit (.tag t) _ :: ps, rs => t.shown ++ l.showInOrder ps rs

/-- Reading links and other tags at once finds the links of a tagged text. -/
lemma Comment.Tagged.links_eq {s : Text} (hs : Tagged s) :
    (allMatches inlineElement s).filterMap InlineElement.link? = inlineLinks s := by
  induction hs with
  | nil => rfl
  | point hopen _ _ ih =>
    rw [allMatches, scan_cons_of_none (inlineElement_of_ne hopen _),
      inlineLinks_cons_of_none (inlineLink_of_ne hopen _), ← ih]
    rfl
  | tag t _ ih =>
    rcases scan_text_append t with ⟨link, -, hscan⟩ | hscan
    · rw [allMatches, (hscan _).2, inlineLinks, allMatches, (hscan _).1]
      exact congrArg (link :: ·) ih
    · rw [allMatches, (hscan _).2, inlineLinks, allMatches, (hscan _).1, List.filterMap_append,
        filterMap_match?_points, List.nil_append]
      exact ih

lemma Linking.isBraceless_showLink {l : Linking} (htargets : l.HasPlainTargets) {link : InlineLink}
    (htarget : link.target.isBraceless = true) {rs : List Reference}
    (hrefs : ∀ r ∈ rs, r.text.isBraceless = true ∧ r.label.isBraceless = true) :
    (l.showLink link rs).isBraceless = true := by
  refine showLink_of (P := fun s => s.isBraceless = true) ?_ ?_ ?_ htargets htarget hrefs
  · intro s t hs ht
    simp only [Markdown.link, isBraceless_append, hs, ht]
    rfl
  · intro s hs
    simp only [Markdown.code, isBraceless_append, hs]
    rfl
  · rintro _ t ⟨s, rfl⟩ h
    rw [isBraceless_append, Bool.and_eq_true] at h
    exact h.2

/-- Where links are shown by texts without braces, the two passes over a tagged text come to one
reading. -/
lemma Linking.replaceMatches_showLinks {l : Linking} {s : Text} (hs : Tagged s)
    (htargets : l.HasPlainTargets) {rs : List Reference}
    (hrefs : ∀ r ∈ rs, r.text.isBraceless = true ∧ r.label.isBraceless = true) :
    replaceMatches inlineTag (·.shown) (l.showLinks (scan inlineLink s) rs) =
      l.showInOrder (scan inlineElement s) rs := by
  induction hs generalizing rs with
  | nil => rfl
  | @point c s hopen _ _ ih =>
    rw [scan_cons_of_none (inlineLink_of_ne hopen _),
      scan_cons_of_none (inlineElement_of_ne hopen _), showLinks, showInOrder, replaceMatches_eq,
      scan_cons_of_none (inlineTag_of_ne hopen _), ← ih hrefs]
    rfl
  | @tag t s _ ih =>
    rcases scan_text_append t with ⟨link, htarget, hscan⟩ | hscan
    · have hbraceless := isBraceless_showLink htargets htarget hrefs
      have hopen := (isBraceless_iff.1 hbraceless).1
      have hrest := ih fun r hr => hrefs r (List.mem_of_mem_tail hr)
      rw [(hscan s).1, (hscan s).2, showLinks_hit, showInOrder, ← hrest]
      exact replaceMatches_append_of_points _
        (fun c hc u => inlineTag_of_ne (ne_of_mem_of_not_mem hc hopen) u) _
    · rw [(hscan s).1, (hscan s).2, showLinks_points_append, showInOrder, ← ih hrefs]
      exact replaceMatches_append_of_some _ t.text_ne_nil (inlineTag_text t _)

/-- A tagged text is shown as one reading from left to right has it: the `k`-th link by the `k`-th
reference, or as code once there is none left, every other inline tag as it is shown, and all else
as it stands. Titles, paths, texts and labels may hold no braces for that. -/
theorem showText_eq_showInOrder {l : Linking} {s : Text} (hs : Tagged s)
    (htargets : l.HasPlainTargets) {rs : List Reference}
    (hrefs : ∀ r ∈ rs, r.text.isBraceless = true ∧ r.label.isBraceless = true) :
    l.showText s rs = trim (l.showInOrder (scan inlineElement s) rs) ∧
      (allMatches inlineElement s).filterMap InlineElement.link? = inlineLinks s := by
  refine ⟨?_, hs.links_eq⟩
  rw [Linking.showText, Linking.replaceMatches_showLinks hs htargets hrefs]

/-- A text with two links and three other tags. -/
def fiveTags : Text :=
  " See \x7b@link B#of(int, int) the b\x7d, \x7b@code  x < y \x7d\x7b@inheritDoc\x7d or " ++
    "\x7b@linkplain C\x7d, (\x7b@literal @a (b) \x7d)."

/-- A reference for the first link, and a target for it. -/
def oneTarget : Linking × Reference :=
  let site : Site := ⟨0, "p.A", .text 0⟩
  (⟨⟨[(site, .link "p.B#of(int,int)")]⟩, ⟨[("p.B#of(int,int)", ⟨"of", "api/p/B#of-int-int"⟩)]⟩⟩,
    ⟨site, "B#of(int, int)", "the b"⟩)

lemma hasPlainTargets_oneTarget : oneTarget.1.HasPlainTargets := by
  intro name t h
  obtain rfl := (Prod.mk.inj (List.mem_singleton.1 (Table.mem_entries_of_get? h))).2
  decide

theorem showText_eq_showInOrder_fiveTags :
    Tagged fiveTags ∧
      oneTarget.1.showText fiveTags [oneTarget.2] =
        "See [the b](api/p/B#of-int-int), `x < y` or `C`, (@a (b))." ∧
      oneTarget.1.showText fiveTags [oneTarget.2] =
        trim (oneTarget.1.showInOrder (scan inlineElement fiveTags) [oneTarget.2]) ∧
      (allMatches inlineElement fiveTags).filterMap InlineElement.link? = inlineLinks fiveTags := by
  have htagged : Tagged fiveTags := by decide +kernel
  have hrefs : ∀ r ∈ [oneTarget.2], r.text.isBraceless = true ∧ r.label.isBraceless = true := by
    decide
  exact ⟨htagged, by decide +kernel,
    showText_eq_showInOrder htagged hasPlainTargets_oneTarget hrefs⟩

/-! ### Tags that are left -/

namespace Comment

/-- An opening brace that begins no inline tag begins one once the tags after it are shown. -/
def CompletesTag (s : Text) : Prop :=
  ∃ ps qs, scan inlineTag s = ps ++ .point '{' :: qs ∧
    (inlineTag (.char '{' :: qs.flatMap (Piece.image (·.shown)))).isSome = true

lemma isBraceless_shown {s r : Text} {a : InlineTag} (h : inlineTag s = some (a, r)) :
    a.shown.isBraceless = true := by
  obtain ⟨content, rfl, hne, hword, hblank, hopen, hclose⟩ := exists_content_of_inlineTag h
  rw [inlineTag_written hne hword hblank hopen hclose] at h
  obtain ⟨ha, -⟩ := Prod.mk.inj (Option.some.inj h)
  have hcontent : a.content.isBraceless = true := by
    have hwhole := isBraceless_iff.2 ⟨hopen, hclose⟩
    obtain ⟨before, -, hleft⟩ := exists_append_trimLeft content
    obtain ⟨after, -, hright⟩ := exists_trimRight_append (trimLeft content)
    rw [hleft, hright, isBraceless_append, isBraceless_append, Bool.and_eq_true,
      Bool.and_eq_true] at hwhole
    rw [← ha]
    exact hwhole.2.1
  rw [InlineTag.shown]
  split
  · simp only [Markdown.code, isBraceless_append, hcontent]
    rfl
  · split
    · rfl
    · exact hcontent

/-- A tag is left after all tags are shown exactly if one is completed by that: what tags are shown
as opens no brace. -/
lemma allMatches_shown_ne_nil_iff {s : Text} :
    allMatches inlineTag (replaceMatches inlineTag (·.shown) s) ≠ [] ↔ CompletesTag s := by
  rw [ne_eq, isLocal_inlineTag.allMatches_eq_nil_iff, replaceMatches_eq]
  constructor
  · intro h
    push Not at h
    obtain ⟨t, ⟨u, hu⟩, hfind⟩ := h
    obtain ⟨⟨a, r⟩, hfind⟩ := Option.ne_none_iff_exists'.1 hfind
    obtain ⟨inside, rfl, -, -⟩ := exists_inside_of_inlineTag hfind
    have hhit : ∀ b w, .hit b w ∈ scan inlineTag s →
        (.char '{' : CodePoint) ∉ Piece.image (·.shown) (.hit b w) := by
      intro b w hmem
      obtain ⟨r', hfind'⟩ := isLocal_inlineTag.exists_find_of_hit hmem
      exact (isBraceless_iff.1 (isBraceless_shown hfind')).1
    obtain ⟨ps, qs, hscan, -, hqs⟩ := exists_split_of_flatMap (fun _ => rfl) hhit hu.symm
    exact ⟨ps, qs, hscan, by rw [hqs, hfind]; rfl⟩
  · rintro ⟨ps, qs, hscan, hsome⟩ hnone
    rw [hnone (.char '{' :: qs.flatMap (Piece.image (·.shown)))] at hsome
    · cases hsome
    · rw [hscan, List.flatMap_append]
      exact List.suffix_append ..

lemma exists_of_find?_isBrace {s : Text} (h : s.find? isBrace = some (.char '}')) :
    ∃ u v : Text, u.isBraceless = true ∧ s = (u ++ [.char '}']) ++ v := by
  obtain ⟨-, u, v, rfl, hu⟩ := List.find?_eq_some_iff_append.1 h
  exact ⟨u, v, List.all_eq_true.2 hu, by simp⟩

lemma ne_opening_of_mem_concat {u : Text} (h : u.isBraceless = true) :
    ∀ c ∈ u ++ [.char '}'], c ≠ .char '{' := by
  rintro c hc rfl
  simp [(isBraceless_iff.1 h).1] at hc

/-- A tag does not depend on what comes after its closing brace. -/
lemma inlineTag_isSome_of_isBraceless {u v : Text} (hu : u.isBraceless = true)
    (h : (inlineTag (.char '{' :: (u ++ [.char '}']) ++ v)).isSome = true) (w : Text) :
    (inlineTag (.char '{' :: (u ++ [.char '}']) ++ w)).isSome = true := by
  obtain ⟨⟨a, r⟩, hfind⟩ := Option.isSome_iff_exists.1 h
  obtain ⟨inside, htext, -, hclose⟩ := exists_inside_of_inlineTag hfind
  have hcut : (u, some v) = (inside, some r) := by
    rw [← cutAt_append_seam (isBraceless_iff.1 hu).2, ← cutAt_append_seam hclose,
      ← (List.cons.inj htext).2]
    simp
  cases hcut
  have hself := isLocal_inlineTag.restricts (r := []) hfind
  rw [inlineTag_append hself, Option.isSome_some]

/-- Where the next brace after each opening one closes it, a tag is complete or never is. -/
lemma not_completesTag {s : Text} (h : closesBraces s = true) : ¬ CompletesTag s := by
  rintro ⟨ps, qs, hscan, hsome⟩
  obtain ⟨hnone, hrest⟩ : inlineTag (.char '{' :: qs.flatMap Piece.covers) = none ∧
      scan inlineTag (qs.flatMap Piece.covers) = qs :=
    of_scan_eq_point_cons (isLocal_inlineTag.scan_parts hscan).2
  have hcovers := covers_scan inlineTag s
  rw [hscan, List.flatMap_append] at hcovers
  rw [← hcovers] at h
  have hfind : (qs.flatMap Piece.covers).find? isBrace = some (.char '}') :=
    (closesBraces_cons.1 (closesBraces_right h)).1 rfl
  obtain ⟨u, v, hu, hqs⟩ := exists_of_find?_isBrace hfind
  -- up to the closing brace nothing is shown in another way
  have himage : qs.flatMap (Piece.image (·.shown)) =
      (u ++ [.char '}']) ++ replaceMatches inlineTag (·.shown) v := by
    rw [← hrest, ← replaceMatches_eq, hqs]
    exact replaceMatches_append_of_points _
      (fun c hc => inlineTag_of_ne (ne_opening_of_mem_concat hu c hc)) v
  rw [himage, ← List.cons_append] at hsome
  have hthere := inlineTag_isSome_of_isBraceless hu hsome v
  rw [List.cons_append, ← hqs, hnone] at hthere
  cases hthere

end Comment

/-! ### Braces around links -/

namespace Text

lemma closesBraces_of_isBraceless {s : Text} (h : s.isBraceless = true) :
    closesBraces s = true := by
  induction s with
  | nil => rfl
  | cons c s ih =>
    rw [isBraceless, List.all_cons, Bool.and_eq_true] at h
    refine closesBraces_cons.2 ⟨?_, ih h.2⟩
    rintro rfl
    cases h.1

end Text

namespace Linking

variable {l : Linking} {s : Text} {rs : List Reference}

/-- Links that come after a closing brace leave it the first one. -/
lemma find?_showLinks (h : s.find? isBrace = some (.char '}')) (rs : List Reference) :
    (l.showLinks (scan inlineLink s) rs).find? isBrace = some (.char '}') := by
  obtain ⟨u, v, hu, rfl⟩ := exists_of_find?_isBrace h
  have hnone : u.find? isBrace = none :=
    List.find?_eq_none.2 fun c hc => by simpa using List.all_eq_true.1 hu c hc
  rw [scan_append_of_points fun c hc => inlineLink_of_ne (ne_opening_of_mem_concat hu c hc),
    showLinks_points_append, List.append_assoc, List.find?_append, hnone]
  rfl

lemma closesBraces_showLink (htargets : l.HasPlainTargets) {link : InlineLink}
    (htarget : closesBraces link.target = true)
    (hrefs : ∀ r ∈ rs, closesBraces r.text = true ∧ closesBraces r.label = true) :
    closesBraces (l.showLink link rs) = true := by
  refine showLink_of (P := fun s => closesBraces s = true) ?_ ?_ ?_ ?_ htarget hrefs
  · intro s t hs ht
    have hopening : closesBraces "[" = true := by decide
    have hlabel := closesBraces_append (closesBraces_append hopening hs)
      (by decide : closesBraces "](" = true)
    exact closesBraces_append (closesBraces_append hlabel ht) (by decide)
  · intro s hs
    exact closesBraces_append (closesBraces_append (by decide) hs) (by decide)
  · rintro _ t ⟨s, rfl⟩ h
    exact closesBraces_right h
  · intro name t hget
    exact (htargets name t hget).imp closesBraces_of_isBraceless closesBraces_of_isBraceless

/-- A text that closes its braces does so with its links shown if what they are shown by does. -/
lemma closesBraces_showLinks (hs : closesBraces s = true) (htargets : l.HasPlainTargets)
    (hlinks : ∀ link ∈ inlineLinks s, closesBraces link.target = true)
    (hrefs : ∀ r ∈ rs, closesBraces r.text = true ∧ closesBraces r.label = true) :
    closesBraces (l.showLinks (scan inlineLink s) rs) = true := by
  induction s using isLocal_inlineLink.scan_induction generalizing rs with
  | nil => rfl
  | point c s hnone ih =>
    obtain ⟨hc, hs⟩ := closesBraces_cons.1 hs
    rw [inlineLinks_cons_of_none hnone] at hlinks
    rw [scan_cons_of_none hnone, showLinks]
    exact closesBraces_cons.2 ⟨fun hopen => find?_showLinks (hc hopen) rs, ih hs hlinks hrefs⟩
  | hit link w s hw hfind ih =>
    have hscan := scan_append_of_some hw hfind
    have hfound : inlineLinks (w ++ s) = link :: inlineLinks s := by
      rw [inlineLinks, allMatches, hscan]
      rfl
    rw [hfound, List.forall_mem_cons] at hlinks
    have hshown := closesBraces_showLink htargets hlinks.1 hrefs
    rw [hscan, showLinks_hit]
    exact closesBraces_append hshown
      (ih (closesBraces_right hs) hlinks.2 fun r hr => hrefs r (List.mem_of_mem_tail hr))

end Linking

/-- An inline tag is left in a text that is shown exactly if, in the text with its links shown, an
opening brace that begins no tag begins one once the tags after it are shown. With titles and paths
without braces, none is left if no brace is opened inside another one: in the text, in the targets
of its links, and in the texts and labels of the references. -/
theorem tags_left_iff (l : Linking) (s : Text) (rs : List Reference) :
    (allMatches inlineTag (l.showText s rs) ≠ [] ↔
      CompletesTag (l.showLinks (scan inlineLink s) rs)) ∧
    (l.HasPlainTargets → closesBraces s = true →
      (∀ link ∈ inlineLinks s, closesBraces link.target = true) →
      (∀ r ∈ rs, closesBraces r.text = true ∧ closesBraces r.label = true) →
      allMatches inlineTag (l.showText s rs) = []) := by
  have hiff : allMatches inlineTag (l.showText s rs) ≠ [] ↔
      CompletesTag (l.showLinks (scan inlineLink s) rs) := by
    rw [Linking.showText,
      isLocal_inlineTag.allMatches_trim inlineTag_of_ne exists_concat_of_inlineTag,
      allMatches_shown_ne_nil_iff]
  refine ⟨hiff, fun htargets hs hlinks hrefs => ?_⟩
  by_contra hleft
  exact not_completesTag (Linking.closesBraces_showLinks hs htargets hlinks hrefs) (hiff.1 hleft)

/-- Stray braces, a link that goes with a reference, and one whose target ends with a brace and a
parenthesis. -/
def strayBraces : Text :=
  "\x7d \x7b@link B#of(int, int) the b\x7d \x7b@link B#of(\x7d) b\x7d \x7b@code f(x\x7d \x7b1\x7d"

theorem tags_left_iff_strayBraces :
    closesBraces strayBraces = true ∧
      inlineLinks strayBraces = [⟨"B#of(int, int)", "the b"⟩, ⟨"B#of(\x7d)", "b"⟩] ∧
      oneTarget.1.showText strayBraces [oneTarget.2] =
        "\x7d [the b](api/p/B#of-int-int) `B#of(\x7d)` `f(x` \x7b1\x7d" ∧
      allMatches inlineTag (oneTarget.1.showText strayBraces [oneTarget.2]) = [] := by
  have hcloses : closesBraces strayBraces = true := by decide +kernel
  have hlinks : ∀ link ∈ inlineLinks strayBraces, closesBraces link.target = true := by
    decide +kernel
  have hrefs : ∀ r ∈ [oneTarget.2], closesBraces r.text = true ∧ closesBraces r.label = true := by
    decide +kernel
  refine ⟨hcloses, by decide +kernel, by decide +kernel, ?_⟩
  exact (tags_left_iff oneTarget.1 strayBraces [oneTarget.2]).2 hasPlainTargets_oneTarget hcloses
    hlinks hrefs

/-- A literal inside a literal. -/
def nestedLiteral : Text := "\x7b@literal \x7b@literal x\x7d\x7d"

/-- Showing the inner tag completes the outer one, which is left. -/
theorem nestedLiteral_leaves_tag :
    Linking.showText ⟨{}, .empty⟩ nestedLiteral [] = "\x7b@literal x\x7d" ∧
      ¬ ((⟨{}, .empty⟩ : Linking).HasPlainTargets →
        allMatches inlineTag (Linking.showText ⟨{}, .empty⟩ nestedLiteral []) = []) := by
  refine ⟨by decide +kernel, fun hnone => ?_⟩
  have hmatches := hnone fun name t h => by cases h
  revert hmatches
  decide +kernel

end ApiDocs
