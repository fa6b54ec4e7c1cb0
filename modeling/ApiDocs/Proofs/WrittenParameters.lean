import ApiDocs.Declaration.Read
import ApiDocs.Proofs.MemberNames
import ApiDocs.Proofs.Overloads
import ApiDocs.Proofs.ParameterTypes
import ApiDocs.Proofs.VisibilityLevels

/-!
# Parameters in declarations and in references

A declaration and a reference read a written parameter in two ways. A declaration takes the last
word for the name if there is another word. A reference does so unless the last word ends like a
type. So both read the same type exactly if the parameter is one word or does not end like a type,
and a type with white space inside is declared with another type if it has no name.
-/

namespace ApiDocs

open Text

namespace Name

/-! ### The last word -/

/-- A word that stands after a trimmed text, with white space in between. -/
structure LastWord (before gap word : Text) : Prop where
  trimmed : trim before = before
  before_ne_nil : before ≠ []
  gap_ne_nil : gap ≠ []
  isBlank_of_mem_gap : ∀ c ∈ gap, isBlank c = true
  word_ne_nil : word ≠ []
  not_isBlank_of_mem : ∀ c ∈ word, isBlank c = false

lemma exists_last_blank (s : Text) :
    (∀ c ∈ s, isBlank c = false) ∨ ∃ init d word, s = init ++ d :: word ∧ isBlank d = true ∧
      ∀ c ∈ word, isBlank c = false := by
  induction s with
  | nil => exact .inl fun c hc => absurd hc List.not_mem_nil
  | cons c s ih =>
    rcases ih with hword | ⟨init, d, word, rfl, hd, hword⟩
    · cases hc : isBlank c with
      | true => exact .inr ⟨[], c, s, rfl, hc, hword⟩
      | false => exact .inl (List.forall_mem_cons.2 ⟨hc, hword⟩)
    · exact .inr ⟨c :: init, d, word, rfl, hd, hword⟩

/-- A trimmed text is one word, or has a last one after white space. -/
lemma exists_lastWord {s : Text} (htrim : trim s = s) :
    (∀ c ∈ s, isBlank c = false) ∨
      ∃ before gap word, LastWord before gap word ∧ s = before ++ (gap ++ word) := by
  rcases exists_last_blank s with hword | ⟨init, d, word, hs, hd, hword⟩
  · exact .inl hword
  · obtain ⟨blanks, hblanks, hinit⟩ := exists_trimRight_append init
    have hwhole : s = trimRight init ++ ((blanks ++ [d]) ++ word) := by
      conv_lhs => rw [hs, hinit]
      simp
    have hgap : ∀ c ∈ blanks ++ [d], isBlank c = true := by
      simpa [or_imp, forall_and] using And.intro hblanks hd
    have hbefore : trimRight init ≠ [] := by
      -- the first code point of a trimmed text is no white space
      intro hnil
      obtain ⟨b, gap, hb⟩ := List.exists_cons_of_ne_nil (l := blanks ++ [d]) (by simp)
      have hhead : s.head? = some b := by
        rw [hwhole, hnil, hb]
        rfl
      have hblank : isBlank b = true := hgap b (by rw [hb]; exact List.mem_cons_self ..)
      exact ne_of_isBlank hblank (not_isBlank_of_head? htrim hhead) rfl
    refine .inr ⟨trimRight init, blanks ++ [d], word,
      ⟨?_, hbefore, by simp, hgap, ?_, hword⟩, hwhole⟩
    · apply trim_eq_self
      · intro c hc
        apply not_isBlank_of_head? htrim
        rwa [hwhole, List.head?_append_of_ne_nil _ hbefore]
      · exact fun c hc => not_of_getLast?_dropRightWhile hc
    · rintro rfl
      exact ne_of_isBlank hd (not_isBlank_of_getLast? htrim (by simp [hs])) rfl

namespace LastWord

variable {before gap word : Text} (h : LastWord before gap word)

include h

lemma whole_trimmed : trim (before ++ (gap ++ word)) = before ++ (gap ++ word) := by
  apply trim_eq_self
  · intro c hc
    rw [List.head?_append_of_ne_nil _ h.before_ne_nil] at hc
    exact not_isBlank_of_head? h.trimmed hc
  · intro c hc
    rw [← List.append_assoc, List.getLast?_append_of_ne_nil _ h.word_ne_nil] at hc
    exact h.not_isBlank_of_mem c (List.mem_of_mem_getLast? hc)

lemma words_eq : words (before ++ (gap ++ word)) = words before ++ [word] := by
  obtain ⟨d, gap, rfl⟩ := List.exists_cons_of_ne_nil h.gap_ne_nil
  obtain ⟨hd, hgap⟩ := List.forall_mem_cons.1 h.isBlank_of_mem_gap
  rw [List.cons_append, words_append_seam hd, words_blanks_append hgap,
    words_word h.word_ne_nil h.not_isBlank_of_mem]

lemma normalize_eq : normalize (before ++ (gap ++ word)) = normalize before ++ word := by
  have hgap : normalize gap = [] := List.filter_eq_nil_iff.2 fun c hc => by
    simp [h.isBlank_of_mem_gap c hc]
  rw [normalize_append, normalize_append, hgap, normalize_of_word h.not_isBlank_of_mem,
    List.nil_append]

/-- The last white space stands right before the last word. -/
lemma exists_blank : ∃ rest d, isBlank d = true ∧ gap = rest ++ [d] ∧
    before ++ (gap ++ word) = (before ++ rest) ++ d :: word := by
  obtain ⟨rest, d, hgap⟩ := (List.eq_nil_or_concat' gap).resolve_left h.gap_ne_nil
  exact ⟨rest, d, h.isBlank_of_mem_gap d (by simp [hgap]), hgap, by simp [hgap]⟩

/-- What a word without white space ends is ended by the last word. -/
lemma isSuffix_iff {w : Text} (hw : ∀ c ∈ w, isBlank c = false) :
    w <:+ before ++ (gap ++ word) ↔ w <:+ word := by
  obtain ⟨rest, d, hd, -, hwhole⟩ := h.exists_blank
  rw [hwhole]
  constructor
  · intro hsuffix
    have hno : d ∉ w := fun hmem => ne_of_isBlank hd (hw d hmem) rfl
    rcases List.suffix_or_suffix_of_suffix hsuffix (List.suffix_append ..) with hinside | hlonger
    · rcases List.suffix_cons_iff.1 hinside with rfl | hinside
      · exact absurd (List.mem_cons_self ..) hno
      · exact hinside
    · exact absurd (hlonger.subset (List.mem_cons_self ..)) hno
  · intro hsuffix
    exact (hsuffix.trans (List.suffix_cons ..)).trans (List.suffix_append ..)

lemma endsLikeType_eq : endsLikeType (before ++ (gap ++ word)) = endsLikeType word := by
  have hsame (w : Text) (hw : ∀ c ∈ w, isBlank c = false) :
      w.isSuffixOf (before ++ (gap ++ word)) = w.isSuffixOf word := by
    rw [Bool.eq_iff_iff, List.isSuffixOf_iff_suffix, List.isSuffixOf_iff_suffix, h.isSuffix_iff hw]
  simp only [endsLikeType, List.any_cons, List.any_nil]
  rw [hsame _ (by decide), hsame _ (by decide), hsame _ (by decide)]

/-- A declaration takes the last word for the name. -/
lemma ofText_eq : Declaration.Parameter.ofText (before ++ (gap ++ word)) = ⟨word, before⟩ := by
  obtain ⟨rest, d, hd, hgap, hwhole⟩ := h.exists_blank
  have hbody : trimRight (before ++ (gap ++ word)) = before ++ (gap ++ word) :=
    trimRight_eq_self h.whole_trimmed
  have hword : ∀ c ∈ word, (! isBlank c) = true := fun c hc => by simp [h.not_isBlank_of_mem c hc]
  have hlast : takeRightWhile (! isBlank ·) (before ++ (gap ++ word)) = word := by
    rw [hwhole, takeRightWhile_append_seam (by simp [hd]) hword]
  have hrest : dropRightWhile (! isBlank ·) (before ++ (gap ++ word)) = before ++ gap := by
    have hcut := dropRightWhile_append_takeRightWhile (! isBlank ·) (before ++ (gap ++ word))
    rw [hlast] at hcut
    exact List.append_cancel_right (hcut.trans (List.append_assoc ..).symm)
  have hbefore : trimRight (before ++ gap) = before := by
    obtain ⟨init, e, rfl⟩ := (List.eq_nil_or_concat' before).resolve_left h.before_ne_nil
    have he : isBlank e = false := not_isBlank_of_getLast? h.trimmed (by simp)
    have hnone : trimRight gap = [] := dropRightWhile_eq_nil_iff.2 h.isBlank_of_mem_gap
    rw [List.append_assoc, List.singleton_append, trimRight_append_seam he, hnone]
  rw [Declaration.Parameter.ofText]
  simp [hbody, hlast, hrest, hbefore, h.before_ne_nil]

/-- A reference takes the last word for the name unless it ends like a type. -/
lemma parameterType_eq : parameterType (before ++ (gap ++ word)) =
    if endsLikeType word then normalize (before ++ (gap ++ word)) else normalize before := by
  have hlength : 1 < (words before ++ [word]).length := by
    have hne : words before ≠ [] := by
      intro hnil
      obtain ⟨c, rest, rfl⟩ := List.exists_cons_of_ne_nil h.before_ne_nil
      have hflat := flatten_words (c :: rest)
      have hc : isBlank c = false := not_isBlank_of_head? h.trimmed rfl
      rw [hnil, withoutBlanks, List.filter_cons_of_pos (by simp [hc])] at hflat
      cases hflat
    have hpos := List.length_pos_of_ne_nil hne
    rw [List.length_append, List.length_singleton]
    omega
  rw [parameterType, h.words_eq]
  simp only [List.getLast?_concat, List.dropLast_concat, hlength, decide_true, Bool.true_and]
  rw [← h.words_eq, flatten_words, flatten_words]
  cases endsLikeType word <;> rfl

end LastWord

/-! ### Two readings -/

/-- Whether a written parameter is one word, or does not end like a type. -/
def isPlainOrNamed (s : Text) : Bool := s.all (! isBlank ·) || ! endsLikeType s

lemma all_not_isBlank_iff {s : Text} :
    s.all (! isBlank ·) = true ↔ ∀ c ∈ s, isBlank c = false := by simp

lemma isPlainOrNamed_of_word {s : Text} (h : ∀ c ∈ s, isBlank c = false) :
    isPlainOrNamed s = true := by
  rw [isPlainOrNamed, all_not_isBlank_iff.2 h, Bool.true_or]

/-- One word is a type, in a declaration and in a reference. -/
lemma ofText_of_word {s : Text} (h : ∀ c ∈ s, isBlank c = false) :
    Declaration.Parameter.ofText s = ⟨[], s⟩ := by
  have htrim : trim s = s := trim_eq_self (fun c hc => h c (List.mem_of_mem_head? hc))
    (fun c hc => h c (List.mem_of_mem_getLast? hc))
  have hbody : trimRight s = s := trimRight_eq_self htrim
  have hnone : dropRightWhile (! isBlank ·) s = [] :=
    dropRightWhile_eq_nil_iff.2 fun c hc => by simp [h c hc]
  rw [Declaration.Parameter.ofText]
  simp only [hbody, hnone, htrim]
  rfl

lemma parameterType_of_word {s : Text} (h : ∀ c ∈ s, isBlank c = false) :
    parameterType s = normalize s := by
  by_cases hnil : s = []
  · rw [hnil]
    rfl
  · rw [parameterType, words_word hnil h]
    simp [normalize_of_word h]

/-- A declaration and a reference read one type from a trimmed text exactly if it is one word or
does not end like a type. -/
lemma readAlike_iff {s : Text} (htrim : trim s = s) :
    normalize (Declaration.Parameter.ofText s).type = parameterType s ↔
      isPlainOrNamed s = true := by
  rcases exists_lastWord htrim with hword | ⟨before, gap, word, h, rfl⟩
  · rw [ofText_of_word hword, parameterType_of_word hword, isPlainOrNamed_of_word hword]
    simp
  · obtain ⟨rest, d, hd, hgap, -⟩ := h.exists_blank
    have hblank : (before ++ (gap ++ word)).all (! isBlank ·) = false :=
      List.all_eq_false.2 ⟨d, by simp [hgap], by simp [hd]⟩
    rw [h.ofText_eq, h.parameterType_eq, isPlainOrNamed, hblank, Bool.false_or, h.endsLikeType_eq]
    cases endsLikeType word with
    | true => simp [h.normalize_eq, h.word_ne_nil]
    | false => simp

lemma getLast?_normalize {s : Text} (h : trim s = s) : (normalize s).getLast? = s.getLast? := by
  rcases List.eq_nil_or_concat' s with rfl | ⟨init, c, rfl⟩
  · rfl
  · have hc : isBlank c = false := not_isBlank_of_getLast? h (by simp)
    rw [normalize_append, normalize_of_word (s := [c]) (by simpa using hc)]
    simp

lemma endsLikeType_of_getLast? {s : Text} {c : CodePoint} (h : s.getLast? = some c)
    (hc : c = .char '>' ∨ c = .char ']') : endsLikeType s = true := by
  obtain ⟨init, rfl⟩ := List.getLast?_eq_some_iff.1 h
  rcases hc with rfl | rfl <;> simp [endsLikeType, ofString, ofChars, List.suffix_append]

/-! ### Types as they are written -/

namespace ParameterType

/-- A type as it is written: trimmed, without white space in its dotted name and in a marker of
variable arity. -/
structure WrittenAs (t : ParameterType) (s : Text) : Prop where
  spells : t.Spells s
  trimmed : trim s = s
  dotted : t.dotted <+: s
  variadic : t.variadic = true → "..." <:+ s

/-- A written parameter: its type, alone or with a name after white space. -/
inductive WrittenParameter (t : ParameterType) : Text → Prop
  | bare {s : Text} : t.WrittenAs s → WrittenParameter t s
  | named {s gap name : Text} : t.WrittenAs s → gap ≠ [] → (∀ c ∈ gap, isBlank c = true) →
      ParameterName name → WrittenParameter t (s ++ (gap ++ name))

/-- Without a marker of variable arity, a type is its name or ends with a bracket. -/
lemma text_eq_or {t : ParameterType} (hv : t.variadic = false) :
    t.text = t.dotted ∨ ∃ c, t.text.getLast? = some c ∧ (c = .char '>' ∨ c = .char ']') := by
  have hmarks : t.marks = t.brackets := by simp [marks, hv]
  cases hd : t.dimensions with
  | zero =>
    have hnone : t.brackets = [] := by simp [brackets, hd]
    cases ha : t.arguments with
    | none => exact .inl (by simp [text, ha, hmarks, hnone])
    | some a =>
      have htext : t.text = (t.dotted ++ .char '<' :: a) ++ [.char '>'] := by
        simp [text, ha, hmarks, hnone, ofString, ofChars]
      exact .inr ⟨.char '>', by rw [htext, List.getLast?_concat], .inl rfl⟩
  | succ n =>
    have hlast : t.brackets = (List.replicate n [.char '[', .char ']']).flatten ++
        [.char '[', .char ']'] := by
      simp [brackets, hd, List.replicate_succ']
    exact .inr ⟨.char ']', by rw [text]; split <;> simp [hmarks, hlast], .inr rfl⟩

lemma text_ne_nil {t : ParameterType} (ht : t.WellFormed) : t.text ≠ [] := by
  obtain ⟨init, c, hdotted, -⟩ :=
    exists_concat_joinWith [.char '.'] (by simp) ht.segments_nonempty
  rw [text, dotted, hdotted]
  split <;> simp

namespace WrittenAs

variable {t : ParameterType} {s : Text} (h : t.WrittenAs s)

include h

lemma ne_nil (ht : t.WellFormed) : s ≠ [] := by
  rintro rfl
  exact text_ne_nil ht h.spells.symm

/-- A written type is one word, or ends like a type. -/
lemma endsLikeType_or : (∀ c ∈ s, isBlank c = false) ∨ endsLikeType s = true := by
  have hspells : normalize s = t.text := h.spells
  cases hv : t.variadic with
  | true =>
    right
    simpa [endsLikeType] using .inr (.inr (h.variadic hv))
  | false =>
    rcases text_eq_or hv with hplain | ⟨c, hlast, hc⟩
    · -- white space could only stand after the name, but a trimmed text does not end with it
      left
      obtain ⟨rest, hrest⟩ := h.dotted
      have hword : ∀ c ∈ t.dotted, isBlank c = false := fun c hc => by
        rw [← hplain, ← hspells] at hc
        exact isBlank_of_mem_normalize hc
      have hnone : normalize rest = [] := by
        rw [← hrest, normalize_append, normalize_of_word hword, hplain] at hspells
        exact List.append_right_eq_self.1 hspells
      have hnil : rest = [] := by
        by_contra hne
        obtain ⟨init, c, rfl⟩ := (List.eq_nil_or_concat' rest).resolve_left hne
        have hc : isBlank c = false :=
          not_isBlank_of_getLast? h.trimmed (by rw [← hrest, ← List.append_assoc]; simp)
        rw [normalize_append, normalize_of_word (s := [c]) (by simpa using hc)] at hnone
        simp at hnone
      rw [← hrest, hnil, List.append_nil]
      exact hword
    · right
      rw [← hspells, getLast?_normalize h.trimmed] at hlast
      exact endsLikeType_of_getLast? hlast hc

lemma parameterType_eq : parameterType s = t.text := by
  have hspells : normalize s = t.text := h.spells
  rw [← hspells]
  rcases h.endsLikeType_or with hword | hends
  · exact parameterType_of_word hword
  · rcases exists_lastWord h.trimmed with hword | ⟨before, gap, word, hlast, rfl⟩
    · exact parameterType_of_word hword
    · rw [hlast.endsLikeType_eq] at hends
      rw [hlast.parameterType_eq, if_pos hends]

lemma isBalanced (hbalanced : isBalanced 0 t.text = true) : isBalanced 0 s = true := by
  have hspells : normalize s = t.text := h.spells
  rw [← hspells] at hbalanced
  exact isBalanced_of_normalize (Int.le_refl 0) hbalanced

/-- A name stands after a written type as its last word. -/
lemma lastWord (ht : t.WellFormed) {gap name : Text} (hgap : gap ≠ [])
    (hblank : ∀ c ∈ gap, isBlank c = true) (hname : ParameterName name) : LastWord s gap name :=
  ⟨h.trimmed, h.ne_nil ht, hgap, hblank, hname.nonempty, hname.word⟩

end WrittenAs

namespace WrittenParameter

variable {t : ParameterType} {s : Text} (h : t.WrittenParameter s) (ht : t.WellFormed)

include h ht

/-- A reference reads the type of a written parameter. -/
lemma parameterType_eq : parameterType s = t.text := by
  cases h with
  | bare h => exact h.parameterType_eq
  | named h hgap hblank hname =>
    rw [(h.lastWord ht hgap hblank hname).parameterType_eq, if_neg (by simp [hname.ending])]
    exact h.spells

lemma trimmed : trim s = s := by
  cases h with
  | bare h => exact h.trimmed
  | named h hgap hblank hname => exact (h.lastWord ht hgap hblank hname).whole_trimmed

lemma piece (hbalanced : isBalanced 0 t.text = true) : Piece s := by
  refine ⟨?_, ?_, h.trimmed ht⟩
  · cases h with
    | bare h => exact h.isBalanced hbalanced
    | named h _ hblank hname => exact hname.isBalanced_append hblank (h.isBalanced hbalanced)
  · cases h with
    | bare h => exact h.ne_nil ht
    | named h => simp [h.ne_nil ht]

end WrittenParameter

end ParameterType

/-- Written parameters are what a list of them is split into, and references read their types. -/
lemma pieces_of_written {ts : List ParameterType} {ss : List Text}
    (hts : ∀ t ∈ ts, t.WellFormed ∧ isBalanced 0 t.text = true)
    (hss : List.Forall₂ ParameterType.WrittenParameter ts ss) :
    (∀ s ∈ ss, Piece s) ∧ ss.map parameterType = ts.map ParameterType.text := by
  induction hss with
  | nil => exact ⟨by simp, rfl⟩
  | cons hs _ ih =>
    obtain ⟨⟨ht, hbalanced⟩, hts⟩ := List.forall_mem_cons.1 hts
    obtain ⟨hpieces, hread⟩ := ih hts
    refine ⟨List.forall_mem_cons.2 ⟨hs.piece ht hbalanced, hpieces⟩, ?_⟩
    rw [List.map_cons, List.map_cons, hs.parameterType_eq ht, hread]

end Name

/-! ### Declared members -/

namespace Extraction

/-- A member that is kept is one of the members of its type. -/
lemma exists_member_of_kept {n : Nat} {limit : Visibility} {ds : List Declaration} {x : Extracted}
    (h : extract n limit ds = .ok x) {t : TypeEntity} (ht : t ∈ x.model.types) {d : Declaration}
    (hd : d ∈ keptMembers limit ds) (hscope : d.scope = t.qualifiedName) :
    ∃ i, memberEntity n i d ∈ x.model.membersOf t.qualifiedName := by
  obtain ⟨i, hi⟩ := exists_mem_numbered (kept limit ds).types hd
  rw [(consistent_of_extract h).membersOf_eq ht]
  obtain ⟨known, htable, hfits, rfl⟩ := exists_table_of_extract h
  refine ⟨i, List.mem_filter.2 ⟨?_, ?_⟩⟩
  · exact (mem_entitiesOf htable hfits).2 (.inr (.inr (List.mem_map.2 ⟨_, hi, rfl⟩)))
  · have hmember : (memberEntity n i d).scope = t.qualifiedName := hscope
    simp [hmember, isMember_memberEntities (List.mem_map.2 ⟨_, hi, rfl⟩)]

/-- A reference to a member of the enclosing type, with or without a parameter list, links to a
member of the type that matches if there is one. -/
lemma exists_resolve {n : Nat} {limit : Visibility} {ds : List Declaration} {x : Extracted}
    (h : extract n limit ds = .ok x)
    (hpackages : ∀ p ∈ x.model.entities, p.kind = .package →
      p.qualifiedName.head? ≠ some (.char '#'))
    {t : TypeEntity} (ht : t ∈ x.model.types) {owner : Entity}
    (howner : owner = t.entity ∨ owner ∈ x.model.membersOf t.qualifiedName)
    {text name : Text} {parameters : Option (List Text)} (hsign : text.head? = some (.char '#'))
    (htrim : trim text = text)
    (hparts : Name.MemberReference.ofText text = ⟨[], name, parameters⟩) (hname : name ≠ [])
    {e : Entity} (he : e ∈ x.model.membersOf t.qualifiedName)
    (hmatches : Model.memberMatches name parameters e = true) :
    ∃ found ∈ x.model.membersOf t.qualifiedName,
      Model.memberMatches name parameters found = true ∧
        x.model.resolve owner text = .ok (.link found.qualifiedName) := by
  have hc : x.model.Consistent := consistent_of_extract h
  obtain ⟨found, hfound, hmatch, hselected⟩ := Model.exists_matchIn hc he hmatches
  refine ⟨found, hfound, hmatch, ?_⟩
  have hlookup := Model.lookup_eq_of_matchIn (Model.enclosingType?_eq hc ht howner) hsign hparts
    hname hselected
  have hnew : x.model.has text = false := by
    rw [Bool.eq_false_iff, ne_eq, Model.has_iff_mem_names]
    exact fun hmem => ne_sign_of_mem_names h hpackages hmem hsign
  have hnonempty : found.qualifiedName ≠ [] :=
    ne_nil_of_mem_names h (Model.mem_names (Model.mem_entities_of_mem_membersOf hfound))
  rw [Model.resolve]
  simp only [htrim, hnew, hlookup, ok_bind, if_neg hnonempty]
  rfl

end Extraction

open Name Extraction

/-- A declaration declares a constructor or method of a type with written parameters. It is kept,
and its name can stand in a reference. -/
structure Declares (limit : Visibility) (ds : List Declaration) (type : Text) (ss : List Text)
    (d : Declaration) : Prop where
  kept : d ∈ keptMembers limit ds
  scope : d.scope = type
  callable : memberKind d ≠ .field
  parameters : d.parameters = some (ss.map Declaration.Parameter.ofText)
  name_ne_nil : memberName d ≠ []
  name_trimmed : trim (memberName d) = memberName d
  name_plain : .char '(' ∉ memberName d

/-- Of a parameter that is written as a type, with or without a name, a reference reads the type. A
declaration reads the same one exactly if the parameter is one word or has a name. Where this goes
for all parameters of a declared constructor or method, a reference that writes out its name and
the same parameters links to a member with its name and a matching parameter list: to the member
itself if it is the only one. -/
theorem parameters_read_alike {ts : List ParameterType} {ss : List Text}
    (hts : ∀ t ∈ ts, t.WellFormed ∧ isBalanced 0 t.text = true)
    (hss : List.Forall₂ ParameterType.WrittenParameter ts ss) :
    ss.map parameterType = ts.map ParameterType.text ∧
    (∀ s ∈ ss, normalize (Declaration.Parameter.ofText s).type = parameterType s ↔
      isPlainOrNamed s = true) ∧
    ∀ {n : Nat} {limit : Visibility} {ds : List Declaration} {x : Extracted},
      extract n limit ds = .ok x →
      (∀ p ∈ x.model.entities, p.kind = .package → p.qualifiedName.head? ≠ some (.char '#')) →
      ∀ t ∈ x.model.types, ∀ d, Declares limit ds t.qualifiedName ss d →
      (∀ s ∈ ss, isPlainOrNamed s = true) →
      ∀ owner, owner = t.entity ∨ owner ∈ x.model.membersOf t.qualifiedName →
      ∃ e ∈ x.model.membersOf t.qualifiedName, e.qualifiedName = memberQualifiedName d ∧
      ∃ found ∈ x.model.membersOf t.qualifiedName, found.isField = false ∧ found.name = e.name ∧
        parametersMatch found.parameterTypes e.parameterTypes = true ∧
        x.model.resolve owner (written (memberName d) ss) = .ok (.link found.qualifiedName) ∧
        ((∀ o ∈ x.model.membersOf t.qualifiedName, o.isField = false → o.name = e.name →
          parametersMatch o.parameterTypes e.parameterTypes = true → o = e) → found = e) := by
  obtain ⟨hpieces, hread⟩ := pieces_of_written hts hss
  refine ⟨hread, fun s hs => readAlike_iff (hpieces s hs).trimmed, ?_⟩
  intro n limit ds x h hpackages t ht d hd halike owner howner
  obtain ⟨i, he⟩ := exists_member_of_kept h ht hd.kept hd.scope
  have hfield : (memberEntity n i d).isField = false := decide_eq_false fun heq =>
    hd.callable (Category.member.inj heq)
  have hshapes : (memberEntity n i d).parameterTypes.map typeShape =
      (ss.map parameterType).map typeShape := by
    have htypes : (memberEntity n i d).parameterTypes =
        ss.map fun s => (Declaration.Parameter.ofText s).type := by
      simp [memberEntity, documentation, hd.parameters, Function.comp_def]
    rw [htypes, List.map_map, List.map_map]
    refine List.map_congr_left fun s hs => ?_
    rw [Function.comp_apply, Function.comp_apply, ← typeShape_normalize,
      (readAlike_iff (hpieces s hs).trimmed).2 (halike s hs)]
  have hmatches (o : Entity) :
      Model.memberMatches (memberName d) (some (ss.map parameterType)) o = true ↔
        o.name = memberName d ∧ o.isField = false ∧
          parametersMatch o.parameterTypes (memberEntity n i d).parameterTypes = true := by
    simp [Model.memberMatches, parametersMatch_iff, hshapes]
  have hsign : (written (memberName d) ss).head? = some (.char '#') := by
    rw [written_eq, List.head?_cons]
  have hparts := ofText_written_pieces hd.name_plain hpieces
  rw [hd.name_trimmed] at hparts
  obtain ⟨found, hfound, hmatch, hresolve⟩ := exists_resolve h hpackages ht howner hsign
    (trim_written _ _) hparts hd.name_ne_nil he
    ((hmatches _).2 ⟨rfl, hfield, parametersMatch_iff.2 rfl⟩)
  obtain ⟨hname, hcallable, hparameters⟩ := (hmatches found).1 hmatch
  exact ⟨_, he, rfl, found, hfound, hcallable, hname, hparameters, hresolve,
    fun honly => honly found hfound hcallable hname hparameters⟩

/-- Declarations of a type with two methods of one name, whose parameters are written. -/
def writtenOverloads : List Declaration :=
  [ { kind := "package", name := "p" },
    { kind := "class", name := "Store", scope := "p" },
    { kind := "method", name := "put", scope := "p.Store",
      parameters := some ([("int n" : Text)].map .ofText) },
    { kind := "method", name := "put", scope := "p.Store",
      parameters := some ([("Map<K, V> m" : Text), "String..."].map .ofText) } ]

/-- The second method is the only one of its name with its parameter types. -/
lemma exists_writtenOverload :
    ∃ x, extract 0 .declaring writtenOverloads = .ok x ∧
      (∀ p ∈ x.model.entities, p.kind = .package → p.qualifiedName.head? ≠ some (.char '#')) ∧
      ∃ t ∈ x.model.types, ∃ d,
        Declares .declaring writtenOverloads t.qualifiedName ["Map<K, V> m", "String..."] d ∧
        memberName d = "put" ∧ memberQualifiedName d = "p.Store#put(Map<K,V>,String...)" ∧
        ∀ e ∈ x.model.membersOf t.qualifiedName, e.qualifiedName = memberQualifiedName d →
          ∀ o ∈ x.model.membersOf t.qualifiedName, o.isField = false → o.name = e.name →
            parametersMatch o.parameterTypes e.parameterTypes = true → o = e := by
  refine ⟨_, rfl, by decide, _, List.mem_singleton_self _, writtenOverloads[3], ?_, rfl, ?_, ?_⟩
  · have hkept : writtenOverloads[3] ∈ keptMembers .declaring writtenOverloads := by
      rw [keptMembers_declaring]
      decide
    exact ⟨hkept, rfl, by decide, rfl, by decide, by decide, by decide⟩
  · decide +kernel
  · decide +kernel

theorem parameters_read_alike_writtenOverloads :
    ∃ x, extract 0 .declaring writtenOverloads = .ok x ∧ ∃ t ∈ x.model.types,
      x.model.resolve t.entity "#put(Map<K, V> m,String...)" =
        .ok (.link "p.Store#put(Map<K,V>,String...)") := by
  let maps : ParameterType := { name := "Map", arguments := some "K,V" }
  let strings : ParameterType := { name := "String", variadic := true }
  have hmaps : maps.WellFormed := ⟨by decide, by decide⟩
  have hstrings : strings.WellFormed := ⟨by decide, by decide⟩
  have hts : ∀ t ∈ [maps, strings], t.WellFormed ∧ isBalanced 0 t.text = true :=
    List.forall_mem_cons.2 ⟨⟨hmaps, by decide⟩, List.forall_mem_singleton.2 ⟨hstrings, by decide⟩⟩
  have hmap : maps.WrittenParameter "Map<K, V> m" :=
    @ParameterType.WrittenParameter.named maps "Map<K, V>" " " "m"
      ⟨by decide, by decide, by decide, by decide⟩ (by decide) (by decide)
      ⟨by decide, by decide, by decide, by decide⟩
  have hstring : strings.WrittenParameter "String..." :=
    .bare ⟨by decide, by decide, by decide, by decide⟩
  obtain ⟨x, hx, hpackages, t, ht, d, hd, hname, hqualified, honly⟩ := exists_writtenOverload
  obtain ⟨-, -, hfound⟩ := parameters_read_alike hts (.cons hmap (.cons hstring .nil))
  obtain ⟨e, he, heq, found, -, -, -, -, hresolve, hself⟩ :=
    hfound hx hpackages t ht d hd (by decide) t.entity (.inl rfl)
  rw [hself (honly e he heq), heq, hqualified, hname] at hresolve
  exact ⟨x, hx, t, ht, hresolve⟩

/-- Declarations of two methods whose parameters have white space inside and no names. -/
def unnamedParameters : List Declaration :=
  [ { kind := "package", name := "p" },
    { kind := "class", name := "A", scope := "p" },
    { kind := "method", name := "put", scope := "p.A",
      parameters := some ([("Map<K, V>" : Text)].map .ofText) },
    { kind := "method", name := "set", scope := "p.A",
      parameters := some ([("int []" : Text)].map .ofText) } ]

/-- Part of the type is declared as the name of the parameter, and a reference with an array written
in the same way finds no method. -/
theorem unnamed_parameters_read_apart :
    let map : ParameterType := { name := "Map", arguments := some "K,V" }
    let array : ParameterType := { name := "int", dimensions := 1 }
    (map.WellFormed ∧ isBalanced 0 map.text = true ∧ map.WrittenParameter "Map<K, V>" ∧
      normalize (Declaration.Parameter.ofText "Map<K, V>").type = "Map<K," ∧
      parameterType "Map<K, V>" = "Map<K,V>") ∧
    (array.WellFormed ∧ isBalanced 0 array.text = true ∧ array.WrittenParameter "int []" ∧
      normalize (Declaration.Parameter.ofText "int []").type = "int" ∧
      parameterType "int []" = "int[]") ∧
    ∃ x, extract 0 .declaring unnamedParameters = .ok x ∧ ∃ t ∈ x.model.types, ∃ d,
      Declares .declaring unnamedParameters t.qualifiedName ["int []"] d ∧
      memberQualifiedName d = "p.A#set(int)" ∧
      x.model.resolve t.entity (written (memberName d) ["int []"]) =
        .ok (.unresolved "#set(int [])") := by
  intro map array
  refine ⟨⟨⟨by decide, by decide⟩, by decide, ?_, by decide, by decide⟩,
    ⟨⟨by decide, by decide⟩, by decide, ?_, by decide, by decide⟩, ?_⟩
  · exact .bare ⟨by decide, by decide, by decide, by decide⟩
  · exact .bare ⟨by decide, by decide, by decide, by decide⟩
  · have hkept : unnamedParameters[3] ∈ keptMembers .declaring unnamedParameters := by
      rw [keptMembers_declaring]
      decide
    exact ⟨_, rfl, _, List.mem_singleton_self _, unnamedParameters[3],
      ⟨hkept, rfl, by decide, rfl, by decide, by decide, by decide⟩, by decide +kernel,
      eq_ok_of_toOption (by decide +kernel)⟩

end ApiDocs
