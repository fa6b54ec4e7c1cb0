import ApiDocs.Proofs.ParameterLists

/-!
# Names of members

The qualified name of a member can be taken apart into the type, the name and the parameter types
that it was made from. So two members have one qualified name only if they agree in all of these.
-/

namespace ApiDocs

open Text

namespace Name

/-! ### Balanced types -/

lemma depthAfter_of_isBlank {c : CodePoint} (h : isBlank c = true) (depth : Int) :
    depthAfter depth c = depth := by
  have hopen : c ≠ .char '<' := by
    rintro rfl
    revert h
    decide
  have hclose : c ≠ .char '>' := by
    rintro rfl
    revert h
    decide
  rw [depthAfter, if_neg hopen, if_neg hclose]

/-- White space does not matter to the balance of angle brackets. -/
lemma isBalanced_normalize {depth : Int} {type : Text} (h : isBalanced depth type = true) :
    isBalanced depth (normalize type) = true := by
  induction type generalizing depth with
  | nil => exact h
  | cons c type ih =>
    rw [isBalanced, Bool.and_eq_true] at h
    obtain ⟨hc, hrest⟩ := h
    cases hblank : isBlank c with
    | true =>
      rw [depthAfter_of_isBlank hblank] at hrest
      rw [normalize, withoutBlanks, List.filter_cons_of_neg (by simp [hblank])]
      exact ih hrest
    | false =>
      rw [normalize, withoutBlanks, List.filter_cons_of_pos (by simp [hblank]), isBalanced,
        Bool.and_eq_true]
      exact ⟨hc, ih hrest⟩

/-- White space does not matter to the balance of angle brackets, where none is closed too much
before. -/
lemma isBalanced_of_normalize {depth : Int} (hdepth : 0 ≤ depth) {type : Text}
    (h : isBalanced depth (normalize type) = true) : isBalanced depth type = true := by
  induction type generalizing depth with
  | nil => exact h
  | cons c type ih =>
    rw [normalize, withoutBlanks] at h
    cases hblank : isBlank c with
    | true =>
      have hcomma : c ≠ .char ',' := ne_of_isBlank hblank (by decide)
      rw [List.filter_cons_of_neg (by simp [hblank])] at h
      simp [isBalanced, depthAfter_of_isBlank hblank, hdepth, hcomma, ih hdepth h]
    | false =>
      rw [List.filter_cons_of_pos (by simp [hblank]), isBalanced, Bool.and_eq_true] at h
      have hafter : 0 ≤ depthAfter depth c := by
        have h' := h.1
        rw [Bool.and_eq_true, decide_eq_true_eq] at h'
        exact h'.1
      rw [isBalanced, Bool.and_eq_true]
      exact ⟨h.1, ih hafter h.2⟩

/-! ### Taking names apart -/

/-- Parts that a qualified name can be made from: a trimmed type without a number sign, a trimmed
name without an opening parenthesis, and parameter types, if there is a parameter list, that are not
blank and have balanced angle brackets with commas only inside them. -/
structure Nameable (type member : Text) (parameters : Option (List Text)) : Prop where
  type_trimmed : trim type = type
  type_plain : .char '#' ∉ type
  member_trimmed : trim member = member
  member_plain : .char '(' ∉ member
  parameters : ∀ ps ∈ parameters, ∀ p ∈ ps, normalize p ≠ [] ∧ isBalanced 0 p = true

lemma splitMember_of_plain {name : Text} (h : .char '(' ∉ name) :
    splitMember name = (name, none) := by
  rw [splitMember, if_neg (by simp [h])]

/-- A name with parameter types is taken apart into the name and the types without white space. -/
lemma splitMember_callable {name : Text} (hparen : .char '(' ∉ name) {ps : List Text}
    (hps : ∀ p ∈ ps, normalize p ≠ [] ∧ isBalanced 0 p = true) :
    splitMember (name ++ .char '(' :: joinWith "," (ps.map normalize) ++ [.char ')']) =
      (name, some (ps.map normalize)) := by
  have hpieces : ∀ q ∈ ps.map normalize, Piece q := by
    intro q hq
    obtain ⟨p, hp, rfl⟩ := List.mem_map.1 hq
    exact Written.bare.piece (hps p hp).1 (isBalanced_normalize (hps p hp).2)
  have hread : (ps.map normalize).map parameterType = ps.map normalize := by
    rw [List.map_map]
    exact List.map_congr_left fun p hp => Written.bare.parameterType_eq (hps p hp).1
  rw [splitMember_list hparen hpieces, hread]

/-- What follows the type in a qualified name. -/
def memberPart (member : Text) (parameters : Option (List Text)) : Text :=
  match parameters with
  | none => member
  | some ps => member ++ .char '(' :: joinWith "," (ps.map normalize) ++ [.char ')']

lemma ofMember_eq (type member : Text) (parameters : Option (List Text)) :
    ofMember type member parameters = type ++ .char '#' :: memberPart member parameters := by
  cases parameters with
  | none => simp [ofMember, ofField, memberPart, ofString, ofChars]
  | some ps => simp [ofMember, ofCallable, ofField, memberPart, ofString, ofChars]

lemma ofMember_normalize (type member : Text) (parameters : Option (List Text)) :
    ofMember type member (parameters.map (·.map normalize)) = ofMember type member parameters := by
  cases parameters with
  | none => rfl
  | some ps => simp [ofMember, ofCallable, Function.comp_def, normalize_normalize]

lemma Nameable.parts {type member : Text} {parameters : Option (List Text)}
    (h : Nameable type member parameters) :
    MemberReference.ofText (ofMember type member parameters) =
      ⟨type, member, parameters.map (·.map normalize)⟩ := by
  have hmember : splitMember (memberPart member parameters) =
      (member, parameters.map (·.map normalize)) := by
    cases parameters with
    | none => exact splitMember_of_plain h.member_plain
    | some ps => exact splitMember_callable h.member_plain (h.parameters ps rfl)
  rw [ofMember_eq, MemberReference.ofText, cutAt_append_seam h.type_plain]
  simp only [hmember, h.type_trimmed, h.member_trimmed]

/-- Taking the qualified name of a member apart gives what it was made from, the parameter types
without white space. So another member has the same qualified name exactly if its type, its name,
the presence of a parameter list and all its parameter types, up to white space, are the same. -/
theorem ofText_ofMember {type member : Text} {parameters : Option (List Text)}
    (h : Nameable type member parameters) :
    MemberReference.ofText (ofMember type member parameters) =
        ⟨type, member, parameters.map (·.map normalize)⟩ ∧
      ∀ {type' member' : Text} {parameters' : Option (List Text)},
        Nameable type' member' parameters' →
        (ofMember type member parameters = ofMember type' member' parameters' ↔
          type = type' ∧ member = member' ∧
            parameters.map (·.map normalize) = parameters'.map (·.map normalize)) := by
  refine ⟨h.parts, fun h' => ⟨fun heq => ?_, ?_⟩⟩
  · have hparts := congrArg MemberReference.ofText heq
    rw [h.parts, h'.parts] at hparts
    simpa using hparts
  · rintro ⟨rfl, rfl, hparameters⟩
    rw [← ofMember_normalize, hparameters, ofMember_normalize]

theorem ofText_ofMember_nestedTypes :
    MemberReference.ofText "p.Store#put(Map<K,List<V>>,int[],String...)" =
        ⟨"p.Store", "put", some ["Map<K,List<V>>", "int[]", "String..."]⟩ ∧
      ofMember "p.Store" "put" (some ["Map<K, List<V>>", "int []", "String ..."]) =
        ofMember "p.Store" "put" (some ["Map < K,List<V> >", "int[ ]", "String..."]) ∧
      ofMember "p.Store" "put" (some []) ≠ ofMember "p.Store" "put" none := by
  have hplain (parameters : Option (List Text)) (h : ∀ ps ∈ parameters, ∀ p ∈ ps,
      normalize p ≠ [] ∧ isBalanced 0 p = true) : Nameable "p.Store" "put" parameters :=
    ⟨by decide, by decide, by decide, by decide, h⟩
  have hspaced := hplain (some ["Map<K, List<V>>", "int []", "String ..."]) (by decide)
  have htight := hplain (some ["Map < K,List<V> >", "int[ ]", "String..."]) (by decide)
  obtain ⟨hparts, hsame⟩ := ofText_ofMember hspaced
  have hempty := (ofText_ofMember (hplain (some []) (by decide))).2 (hplain none (by decide))
  exact ⟨hparts, (hsame htight).2 (by decide), fun heq => absurd (hempty.1 heq) (by decide)⟩

end Name

end ApiDocs
