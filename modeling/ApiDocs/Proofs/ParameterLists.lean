import ApiDocs.Name.MemberReference
import ApiDocs.Proofs.Cutting

/-!
# Parameter lists

Two parameter lists match if their types have the same shapes. A reference to a constructor or
method may write out its parameter types, each with or without a parameter name. Where angle
brackets are balanced and commas stand only inside them, taking such a reference apart gives the
name and the types back.
-/

namespace ApiDocs

open Text

namespace Name

/-! ### Types without white space -/

lemma isBlank_of_mem_normalize {type : Text} {c : CodePoint} (h : c ∈ normalize type) :
    isBlank c = false := by
  simpa using (List.mem_filter.1 h).2

lemma normalize_normalize (type : Text) : normalize (normalize type) = normalize type := by
  simp [normalize, withoutBlanks]

lemma normalize_of_word {s : Text} (h : ∀ c ∈ s, isBlank c = false) : normalize s = s :=
  List.filter_eq_self.2 fun c hc => by simp [h c hc]

lemma normalize_append (s t : Text) : normalize (s ++ t) = normalize s ++ normalize t :=
  List.filter_append ..

/-! ### Matching -/

/-- What matching parameter types have in common. -/
def typeShape (type : Text) : Text × Text := (simple (normalize type), markers type)

lemma parametersMatch_iff {ds rs : List Text} :
    parametersMatch ds rs = true ↔ ds.map typeShape = rs.map typeShape := by
  induction ds generalizing rs with
  | nil => cases rs <;> simp [parametersMatch]
  | cons d ds ih =>
    cases rs with
    | nil => simp [parametersMatch]
    | cons r rs => simp [parametersMatch, typesAgree, typeShape, ih]

lemma typeShape_normalize (type : Text) : typeShape (normalize type) = typeShape type := by
  rw [typeShape, typeShape, markers, markers, normalize_normalize]

lemma parametersMatch_map_normalize (ds rs : List Text) :
    parametersMatch ds (rs.map normalize) = parametersMatch ds rs := by
  rw [Bool.eq_iff_iff, parametersMatch_iff, parametersMatch_iff, List.map_map]
  simp only [Function.comp_def, typeShape_normalize]

/-! ### Balanced angle brackets -/

/-- How many angle brackets are open after a code point. -/
def depthAfter (depth : Int) (c : CodePoint) : Int :=
  if c = '<' then depth + 1 else if c = '>' then depth - 1 else depth

/-- Angle brackets are balanced where `depth` of them are open before, and commas stand only inside
them. -/
def isBalanced (depth : Int) : Text → Bool
  | [] => depth = 0
  | c :: cs =>
    0 ≤ depthAfter depth c && (c ≠ ',' || 0 < depthAfter depth c) &&
      isBalanced (depthAfter depth c) cs

lemma isBalanced_append {depth : Int} {s t : Text} (hs : isBalanced depth s = true)
    (ht : isBalanced 0 t = true) : isBalanced depth (s ++ t) = true := by
  induction s generalizing depth with
  | nil =>
    have hdepth : depth = 0 := by simpa [isBalanced] using hs
    rw [hdepth]
    exact ht
  | cons c s ih =>
    rw [isBalanced, Bool.and_eq_true] at hs
    rw [List.cons_append, isBalanced, Bool.and_eq_true]
    exact ⟨hs.1, ih hs.2⟩

/-- A text without commas and angle brackets is balanced. -/
lemma isBalanced_of_plain {s : Text}
    (h : ∀ c ∈ s, c ≠ .char ',' ∧ c ≠ .char '<' ∧ c ≠ .char '>') : isBalanced 0 s = true := by
  induction s with
  | nil => rfl
  | cons c s ih =>
    obtain ⟨⟨hcomma, hopen, hclose⟩, hs⟩ := List.forall_mem_cons.1 h
    simp [isBalanced, depthAfter, hcomma, hopen, hclose, ih hs]

/-! ### Splitting at commas -/

lemma splitTopLevel_ne_nil (depth : Int) (s : Text) : splitTopLevel depth s ≠ [] := by
  cases s with
  | nil => simp [splitTopLevel]
  | cons c s =>
    rw [splitTopLevel, ← depthAfter]
    split
    · simp
    · split <;> simp

lemma splitTopLevel_cons (depth : Int) (c : CodePoint) (s : Text) :
    splitTopLevel depth (c :: s) =
      if c = ',' && depthAfter depth c = 0 then [] :: splitTopLevel (depthAfter depth c) s
      else (splitTopLevel (depthAfter depth c) s).modifyHead (c :: ·) := by
  obtain ⟨w, ws, hw⟩ := List.exists_cons_of_ne_nil (splitTopLevel_ne_nil (depthAfter depth c) s)
  rw [splitTopLevel, ← depthAfter, hw]
  rfl

/-- What is balanced belongs to one piece. -/
lemma splitTopLevel_append {depth : Int} {s : Text} (h : isBalanced depth s = true) (t : Text) :
    splitTopLevel depth (s ++ t) = (splitTopLevel 0 t).modifyHead (s ++ ·) := by
  obtain ⟨w, ws, hw⟩ := List.exists_cons_of_ne_nil (splitTopLevel_ne_nil 0 t)
  rw [hw, List.modifyHead_cons]
  induction s generalizing depth with
  | nil =>
    have hdepth : depth = 0 := by simpa [isBalanced] using h
    rw [hdepth]
    exact hw
  | cons c s ih =>
    simp only [isBalanced, Bool.and_eq_true, Bool.or_eq_true, decide_eq_true_eq] at h
    obtain ⟨⟨-, hinside⟩, hrest⟩ := h
    have hno : ¬ (c = .char ',' ∧ depthAfter depth c = 0) := by
      rintro ⟨hc, hdepth⟩
      rcases hinside with hcomma | hpos
      · exact hcomma hc
      · omega
    rw [List.cons_append, splitTopLevel_cons, if_neg (by simpa using hno), ih hrest]
    rfl

/-- A parameter of a written list: balanced, with something in it, and trimmed. -/
structure Piece (s : Text) : Prop where
  balanced : isBalanced 0 s = true
  nonempty : s ≠ []
  trimmed : trim s = s

lemma splitTopLevel_joinWith {ps : List Text} (hne : ps ≠ []) (h : ∀ p ∈ ps, Piece p) :
    splitTopLevel 0 (joinWith "," ps) = ps := by
  induction ps with
  | nil => exact absurd rfl hne
  | cons p ps ih =>
    obtain ⟨hp, hps⟩ := List.forall_mem_cons.1 h
    cases ps with
    | nil =>
      have hone := splitTopLevel_append hp.balanced []
      rwa [List.append_nil, splitTopLevel, List.modifyHead_cons, List.append_nil] at hone
    | cons q ps =>
      have hjoin : joinWith "," (p :: q :: ps) = p ++ .char ',' :: joinWith "," (q :: ps) := by
        simp [joinWith, ofString, ofChars]
      have hcut : splitTopLevel 0 (.char ',' :: joinWith "," (q :: ps)) =
          [] :: splitTopLevel 0 (joinWith "," (q :: ps)) := by
        rw [splitTopLevel_cons]
        rfl
      rw [hjoin, splitTopLevel_append hp.balanced, hcut, ih (List.cons_ne_nil q ps) hps,
        List.modifyHead_cons, List.append_nil]

/-- The parameters of a written list are those that it was joined from. -/
lemma splitParameters_joinWith {ps : List Text} (h : ∀ p ∈ ps, Piece p) :
    splitParameters (joinWith "," ps) = ps := by
  by_cases hne : ps = []
  · rw [hne]
    rfl
  · have htrim : ps.map trim = ps := by
      conv_rhs => rw [← List.map_id ps]
      exact List.map_congr_left fun p hp => (h p hp).trimmed
    rw [splitParameters, splitTopLevel_joinWith hne h, htrim]
    apply List.filter_eq_self.2
    intro p hp
    simpa using (h p hp).nonempty

/-! ### Parameters with and without names -/

/-- A name for a parameter is a word that does not end like a type. -/
structure ParameterName (name : Text) : Prop where
  nonempty : name ≠ []
  word : ∀ c ∈ name, isBlank c = false
  plain : ∀ c ∈ name, c ≠ .char ',' ∧ c ≠ .char '<' ∧ c ≠ .char '>'
  ending : endsLikeType name = false

/-- A name after white space changes nothing about the balance. -/
lemma ParameterName.isBalanced_append {type gap name : Text} (h : ParameterName name)
    (hgap : ∀ c ∈ gap, isBlank c = true) (htype : isBalanced 0 type = true) :
    isBalanced 0 (type ++ (gap ++ name)) = true := by
  have hplain {c : CodePoint} (hc : isBlank c = true) :
      c ≠ .char ',' ∧ c ≠ .char '<' ∧ c ≠ .char '>' :=
    ⟨ne_of_isBlank hc (by decide), ne_of_isBlank hc (by decide), ne_of_isBlank hc (by decide)⟩
  apply Name.isBalanced_append htype
  apply isBalanced_of_plain
  intro c hc
  rcases List.mem_append.1 hc with hc | hc
  · exact hplain (hgap c hc)
  · exact h.plain c hc

/-- How a parameter of a type can be written: the type without its white space, alone or with a name
after white space. -/
inductive Written (type : Text) : Text → Prop
  | bare : Written type (normalize type)
  | named {gap name : Text} : gap ≠ [] → (∀ c ∈ gap, isBlank c = true) → ParameterName name →
      Written type (normalize type ++ (gap ++ name))

section

variable {type p : Text} (h : Written type p) (hne : normalize type ≠ [])

include h hne

/-- The type of a written parameter is read back. -/
lemma Written.parameterType_eq : parameterType p = normalize type := by
  have hword : ∀ c ∈ normalize type, isBlank c = false := fun c => isBlank_of_mem_normalize
  cases h with
  | bare =>
    rw [parameterType, words_word hne hword]
    simp
  | @named gap name hgap hblank hname =>
    rw [parameterType, words_word_append hne hword hgap hblank,
      words_word hname.nonempty hname.word]
    simp [hname.ending]

lemma Written.trimmed : trim p = p := by
  have hword : ∀ c ∈ normalize type, isBlank c = false := fun c => isBlank_of_mem_normalize
  apply trim_eq_self
  · intro c hc
    cases h with
    | bare => exact hword c (List.mem_of_mem_head? hc)
    | named =>
      rw [List.head?_append_of_ne_nil _ hne] at hc
      exact hword c (List.mem_of_mem_head? hc)
  · intro c hc
    cases h with
    | bare => exact hword c (List.mem_of_mem_getLast? hc)
    | named hgap hblank hname =>
      rw [← List.append_assoc, List.getLast?_append_of_ne_nil _ hname.nonempty] at hc
      exact hname.word c (List.mem_of_mem_getLast? hc)

lemma Written.piece (hbalanced : isBalanced 0 (normalize type) = true) : Piece p := by
  refine ⟨?_, ?_, h.trimmed hne⟩
  · cases h with
    | bare => exact hbalanced
    | named hgap hblank hname => exact hname.isBalanced_append hblank hbalanced
  · cases h with
    | bare => exact hne
    | named => simp [hne]

end

/-! ### References with a parameter list -/

/-- A reference to a member of the type that it is written in, with a parameter list. -/
def written (name : Text) (ps : List Text) : Text := "#" ++ name ++ "(" ++ joinWith "," ps ++ ")"

lemma written_eq (name : Text) (ps : List Text) :
    written name ps = .char '#' :: ((name ++ .char '(' :: joinWith "," ps) ++ [.char ')']) := by
  simp [written, ofString, ofChars]

lemma trim_written (name : Text) (ps : List Text) : trim (written name ps) = written name ps := by
  apply trim_eq_self
  · intro c hc
    rw [written_eq, List.head?_cons, Option.mem_some_iff] at hc
    rw [← hc]
    decide
  · intro c hc
    rw [written_eq, ← List.cons_append, List.getLast?_concat, Option.mem_some_iff] at hc
    rw [← hc]
    decide

/-- A name with a parameter list is taken apart into the name and the types of the parameters. -/
lemma splitMember_list {name : Text} (hparen : .char '(' ∉ name) {ps : List Text}
    (hps : ∀ p ∈ ps, Piece p) : splitMember (name ++ .char '(' :: joinWith "," ps ++ [.char ')']) =
      (name, some (ps.map parameterType)) := by
  rw [splitMember, if_pos (by rw [List.getLast?_concat]; simp), List.dropLast_concat,
    cutAt_append_seam hparen]
  simp only [Option.getD_some, splitParameters_joinWith hps]

/-- A reference that writes out parameters is taken apart into the name and their types. -/
lemma ofText_written_pieces {name : Text} (hparen : .char '(' ∉ name) {ps : List Text}
    (hps : ∀ p ∈ ps, Piece p) :
    MemberReference.ofText (written name ps) = ⟨[], trim name, some (ps.map parameterType)⟩ := by
  rw [written_eq, MemberReference.ofText, cutAt, if_pos rfl]
  simp only [splitMember_list hparen hps]
  rfl

/-- A reference that writes out the parameters of a list of types is taken apart into the name and
these types. -/
lemma ofText_written {name : Text} (hparen : .char '(' ∉ name) {types ps : List Text}
    (hps : List.Forall₂ Written types ps)
    (htypes : ∀ type ∈ types, normalize type ≠ [] ∧ isBalanced 0 (normalize type) = true) :
    MemberReference.ofText (written name ps) = ⟨[], trim name, some (types.map normalize)⟩ := by
  have hread : (∀ p ∈ ps, Piece p) ∧ ps.map parameterType = types.map normalize := by
    induction hps with
    | nil => exact ⟨by simp, rfl⟩
    | cons hp _ ih =>
      obtain ⟨htype, hrest⟩ := List.forall_mem_cons.1 htypes
      obtain ⟨hpieces, hmap⟩ := ih hrest
      refine ⟨List.forall_mem_cons.2 ⟨hp.piece htype.1 htype.2, hpieces⟩, ?_⟩
      rw [List.map_cons, List.map_cons, hp.parameterType_eq htype.1, hmap]
  rw [ofText_written_pieces hparen hread.1, hread.2]

end Name

end ApiDocs
