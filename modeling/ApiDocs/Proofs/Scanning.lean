import ApiDocs.Proofs.Tagged

/-!
# Borders of matches

A recogniser is local if a match is found in every part of a text that the match lies in, and if
more text after a match never leaves the place without one. A local recogniser that finds no match
across a border finds in the whole text what it finds before the border and after it.
-/

namespace ApiDocs.Comment

open Text

variable {α : Type}

/-! ### Local recognisers -/

/-- A recogniser that does not look beyond its matches, unless for a longer one. -/
structure IsLocal (find : Recogniser α) : Prop where
  consumes {s r : Text} {a : α} : find s = some (a, r) → ∃ w, w ≠ [] ∧ s = w ++ r
  persists {s : Text} {a : α} {r : Text} (t : Text) :
    find s = some (a, r) → (find (s ++ t)).isSome = true
  restricts {s t r : Text} {a : α} : find (s ++ t) = some (a, r ++ t) → find s = some (a, r)

/-- No match of a text goes across the place after `n` code points: what is found in the text is
found before the place and after it. -/
def Uncut (find : Recogniser α) (s : Text) (n : Nat) : Prop :=
  scan find s = scan find (s.take n) ++ scan find (s.drop n)

lemma uncut_append {find : Recogniser α} {s t : Text}
    (h : scan find (s ++ t) = scan find s ++ scan find t) : Uncut find (s ++ t) s.length := by
  rw [Uncut, List.take_left, List.drop_left, h]

lemma Uncut.allMatches_eq {find : Recogniser α} {s : Text} {n : Nat} (h : Uncut find s n) :
    allMatches find s = allMatches find (s.take n) ++ allMatches find (s.drop n) := by
  rw [allMatches, h, List.filterMap_append]
  rfl

/-- Where the first piece is a code point, no match begins. -/
lemma of_scan_eq_point_cons {find : Recogniser α} {c d : CodePoint} {s : Text}
    {ps : List (Piece α)} (h : scan find (c :: s) = .point d :: ps) :
    find (c :: s) = none ∧ scan find s = ps := by
  cases hfind : find (c :: s) with
  | none =>
    rw [scan_cons_of_none hfind] at h
    exact ⟨rfl, (List.cons.inj h).2⟩
  | some found =>
    rw [scan, scanFrom, hfind] at h
    cases h

namespace IsLocal

variable {find : Recogniser α} (h : IsLocal find)

include h

lemma find_nil : find [] = none := by
  rw [Option.eq_none_iff_forall_ne_some]
  rintro ⟨a, r⟩ hfind
  obtain ⟨w, hw, hnil⟩ := h.consumes hfind
  exact hw (List.append_eq_nil_iff.1 hnil.symm).1

lemma find_of_append_eq_none {s t : Text} (hnone : find (s ++ t) = none) : find s = none := by
  rw [Option.eq_none_iff_forall_ne_some]
  rintro ⟨a, r⟩ hfind
  have hsome := h.persists t hfind
  rw [hnone] at hsome
  exact Bool.false_ne_true hsome

/-- Induction along a scan: code points outside every match, and matches. -/
theorem scan_induction {P : Text → Prop} (nil : P [])
    (point : ∀ c s, find (c :: s) = none → P s → P (c :: s))
    (hit : ∀ a w s, w ≠ [] → find (w ++ s) = some (a, s) → P s → P (w ++ s)) (s : Text) : P s := by
  induction hn : s.length using Nat.strong_induction_on generalizing s with
  | _ n ih =>
    cases s with
    | nil => exact nil
    | cons c s =>
      cases hfind : find (c :: s) with
      | none => exact point c s hfind (ih s.length (by rw [← hn]; simp) s rfl)
      | some found =>
        obtain ⟨a, r⟩ := found
        obtain ⟨w, hw, hcut⟩ := h.consumes hfind
        rw [hcut] at hfind hn ⊢
        refine hit a w r hw hfind (ih r.length ?_ r rfl)
        have := List.length_pos_of_ne_nil hw
        rw [← hn, List.length_append]
        omega

/-- Every piece that is a match was found in what it covers and some text after it. -/
lemma exists_find_of_hit {s : Text} {a : α} {w : Text} (hmem : .hit a w ∈ scan find s) :
    ∃ r, find (w ++ r) = some (a, r) := by
  induction s using h.scan_induction with
  | nil => cases hmem
  | point c s hnone ih =>
    rw [scan_cons_of_none hnone] at hmem
    exact ih ((List.mem_cons.1 hmem).resolve_left (by simp))
  | hit b v s hv hfind ih =>
    rw [scan_append_of_some hv hfind] at hmem
    rcases List.mem_cons.1 hmem with heq | hmem
    · obtain ⟨rfl, rfl⟩ := Piece.hit.inj heq
      exact ⟨s, hfind⟩
    · exact ih hmem

/-- Where the pieces of a text are parted, they are the pieces of the parts of the text. -/
theorem scan_parts {s : Text} {ps qs : List (Piece α)} (hs : scan find s = ps ++ qs) :
    scan find (ps.flatMap Piece.covers) = ps ∧ scan find (qs.flatMap Piece.covers) = qs := by
  have hwhole : s = ps.flatMap Piece.covers ++ qs.flatMap Piece.covers := by
    rw [← List.flatMap_append, ← hs, covers_scan]
  induction s using h.scan_induction generalizing ps with
  | nil =>
    obtain ⟨rfl, rfl⟩ := List.append_eq_nil_iff.1 hs.symm
    exact ⟨rfl, rfl⟩
  | point c s hnone ih =>
    rw [scan_cons_of_none hnone] at hs
    rcases List.append_eq_cons_iff.1 hs.symm with ⟨rfl, rfl⟩ | ⟨ps, rfl, htail⟩
    · exact ⟨rfl, by rw [← scan_cons_of_none hnone, covers_scan]⟩
    · have hrest : s = ps.flatMap Piece.covers ++ qs.flatMap Piece.covers :=
        (List.cons.inj hwhole).2
      obtain ⟨hps, hqs⟩ := ih htail hrest
      have hpoint : find (c :: ps.flatMap Piece.covers) = none :=
        h.find_of_append_eq_none (t := qs.flatMap Piece.covers) (by rwa [List.cons_append, ← hrest])
      refine ⟨?_, hqs⟩
      calc scan find (c :: ps.flatMap Piece.covers)
        _ = .point c :: scan find (ps.flatMap Piece.covers) := scan_cons_of_none hpoint
        _ = .point c :: ps := by rw [hps]
  | hit a w s hw hfind ih =>
    rw [scan_append_of_some hw hfind] at hs
    rcases List.append_eq_cons_iff.1 hs.symm with ⟨rfl, rfl⟩ | ⟨ps, rfl, htail⟩
    · exact ⟨rfl, by rw [← scan_append_of_some hw hfind, covers_scan]⟩
    · have hrest : s = ps.flatMap Piece.covers ++ qs.flatMap Piece.covers :=
        List.append_cancel_left (hwhole.trans (List.append_assoc ..))
      obtain ⟨hps, hqs⟩ := ih htail hrest
      rw [hrest, ← List.append_assoc] at hfind
      refine ⟨?_, hqs⟩
      calc scan find (w ++ ps.flatMap Piece.covers)
        _ = .hit a w :: scan find (ps.flatMap Piece.covers) :=
            scan_append_of_some hw (h.restricts hfind)
        _ = .hit a w :: ps := by rw [hps]

lemma uncut_of_scan_eq {s : Text} {ps qs : List (Piece α)} (hs : scan find s = ps ++ qs) :
    Uncut find s (ps.flatMap Piece.covers).length := by
  obtain ⟨hps, hqs⟩ := h.scan_parts hs
  have hwhole : s = ps.flatMap Piece.covers ++ qs.flatMap Piece.covers := by
    rw [← List.flatMap_append, ← hs, covers_scan]
  rw [hwhole]
  apply uncut_append
  rw [← hwhole, hps, hqs, hs]

/-- A match ends with its last code point, so none goes on into a text without that. -/
theorem scan_append {last : CodePoint}
    (hlast : ∀ {s r : Text} {a : α}, find s = some (a, r) → ∃ w, s = w ++ last :: r) {t : Text}
    (ht : last ∉ t) (s : Text) : scan find (s ++ t) = scan find s ++ scan find t := by
  -- a match at the start of both texts ends before the second one
  have hinside {u r : Text} {a : α} (hfind : find (u ++ t) = some (a, r)) :
      ∃ r', r = r' ++ t ∧ find u = some (a, r') := by
    obtain ⟨w, hw⟩ := hlast hfind
    rcases List.append_eq_append_iff.1 hw with ⟨v, -, hv⟩ | ⟨v, hu, hv⟩
    · exact absurd (hv ▸ List.mem_append_right v (List.mem_cons_self ..)) ht
    · cases v with
      | nil =>
        rw [List.nil_append] at hv
        exact absurd (hv ▸ List.mem_cons_self ..) ht
      | cons d v =>
        obtain ⟨rfl, rfl⟩ := List.cons.inj hv
        exact ⟨v, rfl, h.restricts hfind⟩
  induction s using h.scan_induction with
  | nil => rfl
  | point c s hnone ih =>
    have hnone' : find (c :: (s ++ t)) = none := by
      rw [Option.eq_none_iff_forall_ne_some]
      rintro ⟨a, r⟩ hfind
      obtain ⟨r', -, hfind'⟩ := hinside (u := c :: s) hfind
      rw [hnone] at hfind'
      cases hfind'
    rw [List.cons_append, scan_cons_of_none hnone', scan_cons_of_none hnone, ih, List.cons_append]
  | hit a w s hw hfind ih =>
    obtain ⟨⟨b, r⟩, hsome⟩ := Option.isSome_iff_exists.1 (h.persists t hfind)
    obtain ⟨r', rfl, hfind'⟩ := hinside hsome
    obtain ⟨rfl, rfl⟩ := Prod.mk.inj (Option.some.inj (hfind.symm.trans hfind'))
    rw [List.append_assoc] at hsome ⊢
    rw [scan_append_of_some hw hsome, scan_append_of_some hw hfind, ih, List.cons_append]

/-- Nothing is found in a text exactly if nothing is found at any place. -/
lemma allMatches_eq_nil_iff {s : Text} :
    allMatches find s = [] ↔ ∀ t, t <:+ s → find t = none := by
  induction s using h.scan_induction with
  | nil => simp [allMatches, scan, scanFrom, h.find_nil]
  | point c s hnone ih =>
    have hmatches : allMatches find (c :: s) = allMatches find s := by
      rw [allMatches, scan_cons_of_none hnone]
      rfl
    rw [hmatches, ih]
    constructor
    · intro hall t ht
      rcases List.suffix_cons_iff.1 ht with rfl | ht
      · exact hnone
      · exact hall t ht
    · exact fun hall t ht => hall t (ht.trans (List.suffix_cons ..))
  | hit a w s hw hfind _ =>
    have hmatches : allMatches find (w ++ s) = a :: allMatches find s := by
      rw [allMatches, scan_append_of_some hw hfind]
      rfl
    refine iff_of_false (by simp [hmatches]) fun hall => ?_
    rw [hall _ (List.suffix_refl _)] at hfind
    cases hfind

end IsLocal

/-! ### Images of pieces -/

/-- What a piece becomes when every match is replaced. -/
def Piece.image (f : α → Text) : Piece α → Text
  | point c => [c]
  | hit a _ => f a

lemma replaceMatches_eq (find : Recogniser α) (f : α → Text) (s : Text) :
    replaceMatches find f s = (scan find s).flatMap (Piece.image f) := rfl

/-- Code points that begin no match are pieces of their own. -/
lemma scan_append_of_points {find : Recogniser α} {w : Text}
    (h : ∀ c ∈ w, ∀ s, find (c :: s) = none) (t : Text) :
    scan find (w ++ t) = w.map .point ++ scan find t := by
  induction w with
  | nil => rfl
  | cons c w ih =>
    obtain ⟨hc, hw⟩ := List.forall_mem_cons.1 h
    rw [List.cons_append, scan_cons_of_none (hc _), ih hw]
    rfl

lemma filterMap_match?_points (w : Text) :
    (w.map (@Piece.point α)).filterMap Piece.match? = [] := by
  simp [List.filterMap_map, Function.comp_def, Piece.match?]

section

variable {find : Recogniser α} (f : α → Text)

lemma replaceMatches_append_of_points {w : Text} (h : ∀ c ∈ w, ∀ s, find (c :: s) = none)
    (t : Text) : replaceMatches find f (w ++ t) = w ++ replaceMatches find f t := by
  rw [replaceMatches_eq, scan_append_of_points h, List.flatMap_append, ← replaceMatches_eq]
  simp [List.flatMap_map, Piece.image]

lemma replaceMatches_append_of_some {w t : Text} {a : α} (hw : w ≠ [])
    (h : find (w ++ t) = some (a, t)) :
    replaceMatches find f (w ++ t) = f a ++ replaceMatches find f t := by
  rw [replaceMatches_eq, scan_append_of_some hw h, List.flatMap_cons, ← replaceMatches_eq]
  rfl

end

/-- Where matches become texts without a code point, that code point stands in the image of a text
only where it stood outside of the matches. -/
lemma exists_split_of_flatMap {image : Piece α → Text} (hpoint : ∀ c, image (.point c) = [c])
    {c : CodePoint} {ps : List (Piece α)} (hhit : ∀ a w, .hit a w ∈ ps → c ∉ image (.hit a w))
    {u v : Text} (h : ps.flatMap image = u ++ c :: v) :
    ∃ qs rs, ps = qs ++ .point c :: rs ∧ qs.flatMap image = u ∧ rs.flatMap image = v := by
  induction ps generalizing u with
  | nil => simp at h
  | cons p ps ih =>
    have hrest (u : Text) (h : ps.flatMap image = u ++ c :: v) :
        ∃ qs rs, p :: ps = qs ++ .point c :: rs ∧ qs.flatMap image = image p ++ u ∧
          rs.flatMap image = v := by
      obtain ⟨qs, rs, rfl, hqs, hrs⟩ :=
        ih (fun a w hmem => hhit a w (List.mem_cons_of_mem _ hmem)) h
      exact ⟨p :: qs, rs, rfl, by rw [List.flatMap_cons, hqs], hrs⟩
    rw [List.flatMap_cons] at h
    cases p with
    | point d =>
      rw [hpoint, List.singleton_append] at h
      cases u with
      | nil =>
        obtain ⟨rfl, hv⟩ := List.cons.inj h
        exact ⟨[], ps, rfl, rfl, hv⟩
      | cons d' u =>
        obtain ⟨rfl, htail⟩ := List.cons.inj h
        obtain ⟨qs, rs, hps, hqs, hrs⟩ := hrest u htail
        exact ⟨qs, rs, hps, by rw [hqs, hpoint]; rfl, hrs⟩
    | hit a w =>
      rcases List.append_eq_append_iff.1 h with ⟨u', rfl, htail⟩ | ⟨v', himage, hv⟩
      · exact hrest u' htail
      · cases v' with
        | nil =>
          rw [List.append_nil] at himage
          obtain ⟨qs, rs, hps, hqs, hrs⟩ := hrest [] hv.symm
          exact ⟨qs, rs, hps, by rw [hqs, himage, List.append_nil], hrs⟩
        | cons d v' =>
          have hd : d = c := (List.cons.inj hv).1.symm
          refine absurd ?_ (hhit a w (List.mem_cons_self ..))
          rw [himage, hd]
          exact List.mem_append_right _ (List.mem_cons_self ..)

end ApiDocs.Comment
