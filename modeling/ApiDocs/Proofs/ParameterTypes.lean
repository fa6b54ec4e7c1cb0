import ApiDocs.Proofs.Joining
import ApiDocs.Proofs.ParameterLists
import Mathlib.Data.List.Forall2

/-!
# Parameter types that match

A parameter type is a dotted name, which may have type arguments, array markers and a marker of
variable arity. Two types match if they have the same markers and the same last segment of the name.
The dots of a variable arity are taken for separators of segments, though, and only type arguments
keep markers apart from the last segment. So types of variable arity without type arguments match
whatever their names are, and a type with markers does not match one that differs in having type
arguments.
-/

namespace ApiDocs

open Text

namespace Name

/-! ### Types and how they are written -/

/-- A parameter type: a dotted name, what its type arguments have between the angle brackets, the
number of its array dimensions, and whether it has variable arity. -/
structure ParameterType where
  qualifiers : List Text := []
  name : Text
  arguments : Option Text := none
  dimensions : Nat := 0
  variadic : Bool := false

namespace ParameterType

/-- The name of a type with its qualifiers. -/
def dotted (t : ParameterType) : Text := joinWith [.char '.'] (t.qualifiers ++ [t.name])

def brackets (t : ParameterType) : Text :=
  (List.replicate t.dimensions [.char '[', .char ']']).flatten

def marks (t : ParameterType) : Text :=
  if t.variadic then t.brackets ++ "..." else t.brackets

/-- A type without white space. -/
def text (t : ParameterType) : Text :=
  match t.arguments with
  | none => t.dotted ++ t.marks
  | some a => t.dotted ++ "<" ++ a ++ ">" ++ t.marks

/-- The segments of the name are not empty, and nothing in them ends a segment or the name. -/
structure WellFormed (t : ParameterType) : Prop where
  segments_nonempty : ∀ s ∈ t.qualifiers ++ [t.name], s ≠ []
  segments_plain : ∀ s ∈ t.qualifiers ++ [t.name], ∀ c ∈ s,
    isMarkerChar c = false ∧ c ≠ .char '<' ∧ c ≠ .char '>'

/-- A text is a way to write a type: white space can be anywhere. -/
def Spells (t : ParameterType) (s : Text) : Prop := normalize s = t.text

instance (t : ParameterType) (s : Text) : Decidable (t.Spells s) :=
  inferInstanceAs (Decidable (normalize s = t.text))

/-- Types match: they have the same markers. They have the same name, or both have variable arity
without type arguments. And if there is a marker, both have type arguments or none has. -/
structure Agree (d r : ParameterType) : Prop where
  dimensions : d.dimensions = r.dimensions
  variadic : d.variadic = r.variadic
  name : d.name = r.name ∨ d.variadic = true ∧ d.arguments = none ∧ r.arguments = none
  arguments : d.marks = [] ∨ d.arguments.isSome = r.arguments.isSome

/-! ### Markers -/

lemma length_marks (t : ParameterType) :
    t.marks.length = 2 * t.dimensions + if t.variadic then 3 else 0 := by
  have hbrackets : t.brackets.length = 2 * t.dimensions := by simp [brackets, Nat.mul_comm]
  rw [marks]
  split
  · simp [hbrackets, ofString, ofChars]
  · exact hbrackets

lemma marks_eq_iff {d r : ParameterType} :
    d.marks = r.marks ↔ d.dimensions = r.dimensions ∧ d.variadic = r.variadic := by
  constructor
  · intro h
    have hlength := congrArg List.length h
    rw [length_marks, length_marks] at hlength
    -- three dots more make the length odd
    cases hd : d.variadic <;> cases hr : r.variadic <;> simp [hd, hr] at hlength ⊢ <;> omega
  · rintro ⟨hdimensions, hvariadic⟩
    rw [marks, marks, brackets, brackets, hdimensions, hvariadic]

lemma mem_brackets {t : ParameterType} {c : CodePoint} (h : c ∈ t.brackets) :
    c = .char '[' ∨ c = .char ']' := by
  rw [brackets, List.mem_flatten] at h
  obtain ⟨pair, hpair, hc⟩ := h
  rw [List.eq_of_mem_replicate hpair] at hc
  simpa using hc

lemma isMarkerChar_of_mem_marks {t : ParameterType} {c : CodePoint} (h : c ∈ t.marks) :
    isMarkerChar c = true := by
  have hbrackets (h : c ∈ t.brackets) : isMarkerChar c = true := by
    rcases mem_brackets h with rfl | rfl <;> rfl
  have hdots : ∀ c ∈ ("..." : Text), isMarkerChar c = true := by decide
  rw [marks] at h
  split at h
  · exact (List.mem_append.1 h).elim hbrackets (hdots c)
  · exact hbrackets h

lemma notMem_marks {t : ParameterType} {c : CodePoint} (h : isMarkerChar c = false) :
    c ∉ t.marks := by
  intro hc
  rw [isMarkerChar_of_mem_marks hc] at h
  exact Bool.noConfusion h

/-! ### What matching reads -/

section

variable {t : ParameterType} (ht : t.WellFormed)

include ht

lemma notMem_name {c : CodePoint} (hc : isMarkerChar c = true) : c ∉ t.name := by
  intro h
  have hplain := (ht.segments_plain t.name (by simp) c h).1
  rw [hplain] at hc
  exact Bool.noConfusion hc

lemma notMem_dotted {c : CodePoint} (hc : c = .char '<' ∨ c = .char '>') : c ∉ t.dotted := by
  intro h
  rcases mem_joinWith h with rfl | ⟨s, hs, h⟩
  · rcases hc with hc | hc <;> cases hc
  · obtain ⟨-, hopen, hclose⟩ := ht.segments_plain s hs c h
    exact hc.elim hopen hclose

/-- Without type arguments there are no angle brackets. -/
lemma notMem_text (ha : t.arguments = none) {c : CodePoint} (hc : c = .char '<' ∨ c = .char '>') :
    c ∉ t.text := by
  have hmarker : isMarkerChar c = false := by rcases hc with rfl | rfl <;> rfl
  rw [text, ha, List.mem_append, not_or]
  exact ⟨notMem_dotted ht hc, notMem_marks hmarker⟩

/-- Type arguments end the text that a simple name is looked for in. -/
lemma simple_text_of_arguments {a : Text} (ha : t.arguments = some a) : simple t.text = t.name := by
  have htext : t.text = t.dotted ++ .char '<' :: (a ++ .char '>' :: t.marks) := by
    simp [text, ha, ofString, ofChars]
  rw [simple, htext, takeWhile_append_seam (by simp),
    List.takeWhile_eq_self_iff.2 (bne_of_mem (notMem_dotted ht (.inl rfl)))]
  exact afterLast_joinWith (notMem_name ht rfl) _

/-- After the last dot of a variable arity there is nothing left. -/
lemma simple_text_of_variadic (ha : t.arguments = none) (hv : t.variadic = true) :
    simple t.text = [] := by
  have htext : t.text = (t.dotted ++ t.brackets ++ [.char '.', .char '.']) ++ .char '.' :: [] := by
    simp [text, ha, marks, hv, ofString, ofChars]
  have hopen : .char '<' ∉ t.text := notMem_text ht ha (.inl rfl)
  rw [simple, List.takeWhile_eq_self_iff.2 (bne_of_mem hopen), htext]
  exact afterLast_append (by simp) _

/-- Array markers stay at the simple name. -/
lemma simple_text_of_plain (ha : t.arguments = none) (hv : t.variadic = false) :
    simple t.text = t.name ++ t.marks := by
  have hmarks : t.marks = t.brackets := by simp [marks, hv]
  have htext : t.text = joinWith [.char '.'] (t.qualifiers ++ [t.name ++ t.marks]) := by
    rw [joinWith_concat_append, text, ha, dotted]
  have hopen : .char '<' ∉ t.text := notMem_text ht ha (.inl rfl)
  rw [simple, List.takeWhile_eq_self_iff.2 (bne_of_mem hopen), htext]
  apply afterLast_joinWith
  rw [List.mem_append, not_or]
  refine ⟨notMem_name ht rfl, ?_⟩
  rw [hmarks]
  intro hdot
  rcases mem_brackets hdot with h | h <;> cases h

lemma markers_eq {s : Text} (hs : t.Spells s) : markers s = t.marks := by
  rw [markers, hs]
  cases ha : t.arguments with
  | some a =>
    have htext : t.text = (t.dotted ++ .char '<' :: a) ++ .char '>' :: t.marks := by
      simp [text, ha, ofString, ofChars]
    rw [htext, afterLast_append (notMem_marks rfl)]
    exact takeRightWhile_eq_self fun c => isMarkerChar_of_mem_marks
  | none =>
    have htext : t.text = t.dotted ++ t.marks := by rw [text, ha]
    have hnone : .char '>' ∉ t.text := notMem_text ht ha (.inr rfl)
    obtain ⟨init, c, hdotted, w, hw, hc⟩ :=
      exists_concat_joinWith [.char '.'] (by simp) ht.segments_nonempty
    rw [afterLast_of_notMem hnone, htext, dotted, hdotted, List.append_assoc,
      List.singleton_append]
    exact takeRightWhile_append_seam (ht.segments_plain w hw c hc).1
      (fun c => isMarkerChar_of_mem_marks) _

end

/-! ### Matching -/

section

variable {d r : ParameterType} (hd : d.WellFormed) (hr : r.WellFormed)

include hd hr

/-- A name without markers is another one with its markers only if there are none. -/
lemma simple_text_eq_of_arguments_apart {a : Text} (ha : d.arguments = some a)
    (hb : r.arguments = none) (hmarks : d.marks = r.marks) :
    simple d.text = simple r.text ↔ d.name = r.name ∧ d.marks = [] := by
  rw [simple_text_of_arguments hd ha]
  cases hv : r.variadic with
  | true =>
    rw [simple_text_of_variadic hr hb hv]
    have hname : d.name ≠ [] := hd.segments_nonempty _ (by simp)
    have hmark : r.marks ≠ [] := by simp [marks, hv, ofString, ofChars]
    rw [hmarks]
    simp [hname, hmark]
  | false =>
    rw [simple_text_of_plain hr hb hv, hmarks]
    constructor
    · intro h
      have hnone : r.marks = [] := by
        apply List.eq_nil_iff_forall_not_mem.2
        intro c hc
        apply notMem_name hd (isMarkerChar_of_mem_marks hc)
        rw [h]
        exact List.mem_append_right _ hc
      rw [hnone, List.append_nil] at h
      exact ⟨h, hnone⟩
    · rintro ⟨h, hnone⟩
      rw [h, hnone, List.append_nil]

lemma simple_text_eq_iff (hmarks : d.marks = r.marks) :
    simple d.text = simple r.text ↔
      (d.name = r.name ∨ d.variadic = true ∧ d.arguments = none ∧ r.arguments = none) ∧
        (d.marks = [] ∨ d.arguments.isSome = r.arguments.isSome) := by
  cases ha : d.arguments with
  | some a =>
    cases hb : r.arguments with
    | some b => simp [simple_text_of_arguments hd ha, simple_text_of_arguments hr hb]
    | none => simp [simple_text_eq_of_arguments_apart hd hr ha hb hmarks]
  | none =>
    cases hb : r.arguments with
    | some b =>
      rw [eq_comm, simple_text_eq_of_arguments_apart hr hd hb ha hmarks.symm, hmarks,
        @eq_comm _ r.name]
      simp
    | none =>
      have hvariadic : d.variadic = r.variadic := (marks_eq_iff.1 hmarks).2
      cases hv : d.variadic with
      | true =>
        rw [simple_text_of_variadic hd ha hv, simple_text_of_variadic hr hb (hvariadic ▸ hv)]
        simp
      | false =>
        rw [simple_text_of_plain hd ha hv, simple_text_of_plain hr hb (hvariadic ▸ hv), hmarks]
        simp

lemma typeShape_eq_iff {s s' : Text} (hs : d.Spells s) (hs' : r.Spells s') :
    typeShape s = typeShape s' ↔ Agree d r := by
  rw [typeShape, typeShape, Prod.mk.injEq, markers_eq hd hs, markers_eq hr hs', hs, hs']
  constructor
  · rintro ⟨hsimple, hmarks⟩
    obtain ⟨hname, harguments⟩ := (simple_text_eq_iff hd hr hmarks).1 hsimple
    obtain ⟨hdimensions, hvariadic⟩ := marks_eq_iff.1 hmarks
    exact ⟨hdimensions, hvariadic, hname, harguments⟩
  · intro h
    have hmarks : d.marks = r.marks := marks_eq_iff.2 ⟨h.dimensions, h.variadic⟩
    exact ⟨(simple_text_eq_iff hd hr hmarks).2 ⟨h.name, h.arguments⟩, hmarks⟩

end

end ParameterType

/-! ### Matching lists -/

/-- Lists of types match exactly if they are equally long and match at each position. There, the
markers are the same and the last segments of the names, except that no name is looked at where both
types have variable arity and no type arguments, and that a type with type arguments and markers
does not match one without type arguments. -/
theorem parametersMatch_iff_agree {ds rs : List ParameterType} {ss ts : List Text}
    (hds : ∀ d ∈ ds, d.WellFormed) (hrs : ∀ r ∈ rs, r.WellFormed)
    (hss : List.Forall₂ ParameterType.Spells ds ss)
    (hts : List.Forall₂ ParameterType.Spells rs ts) :
    parametersMatch ss ts = true ↔ List.Forall₂ ParameterType.Agree ds rs := by
  rw [parametersMatch_iff]
  induction hss generalizing ts rs with
  | nil => cases hts <;> simp [List.forall₂_nil_left_iff]
  | cons hs _ ih =>
    cases hts with
    | nil => simp [List.forall₂_nil_right_iff]
    | cons ht hts =>
      obtain ⟨hd, hds⟩ := List.forall_mem_cons.1 hds
      obtain ⟨hr, hrs⟩ := List.forall_mem_cons.1 hrs
      rw [List.map_cons, List.map_cons, List.cons.injEq, ih hds hrs hts,
        ParameterType.typeShape_eq_iff hd hr hs ht, List.forall₂_cons]

/-- Packages, type arguments and white space do not matter, but markers and the presence of type
arguments on a type with markers do. -/
theorem parametersMatch_iff_agree_spacedTypes :
    let maps : ParameterType :=
      { qualifiers := ["java", "util"], name := "Map", arguments := some "K,List<V>",
        dimensions := 1 }
    let plainMaps : ParameterType := { name := "Map", arguments := some "K,V", dimensions := 1 }
    let rawMaps : ParameterType := { name := "Map", dimensions := 1 }
    maps.WellFormed ∧ plainMaps.WellFormed ∧ rawMaps.WellFormed ∧
      maps.Spells " java . util.Map<K, List <V> > [ ]" ∧ plainMaps.Spells "Map<K, V>[]" ∧
      rawMaps.Spells "Map[]" ∧
      parametersMatch [" java . util.Map<K, List <V> > [ ]"] ["Map<K, V>[]"] = true ∧
      parametersMatch ["Map<K, V>[]"] ["Map[]"] = false := by
  intro maps plainMaps rawMaps
  have hmaps : maps.WellFormed := ⟨by decide, by decide⟩
  have hplain : plainMaps.WellFormed := ⟨by decide, by decide⟩
  have hraw : rawMaps.WellFormed := ⟨by decide, by decide⟩
  have hmaps' : maps.Spells " java . util.Map<K, List <V> > [ ]" := by decide +kernel
  have hplain' : plainMaps.Spells "Map<K, V>[]" := by decide +kernel
  have hraw' : rawMaps.Spells "Map[]" := by decide +kernel
  refine ⟨hmaps, hplain, hraw, hmaps', hplain', hraw', ?_, ?_⟩
  · rw [parametersMatch_iff_agree (List.forall_mem_singleton.2 hmaps)
      (List.forall_mem_singleton.2 hplain) (.cons hmaps' .nil) (.cons hplain' .nil)]
    exact .cons ⟨rfl, rfl, .inl rfl, .inr rfl⟩ .nil
  · rw [Bool.eq_false_iff, ne_eq, parametersMatch_iff_agree (List.forall_mem_singleton.2 hplain)
      (List.forall_mem_singleton.2 hraw) (.cons hplain' .nil) (.cons hraw' .nil)]
    rintro (_ | ⟨⟨-, -, -, harguments⟩, -⟩)
    rcases harguments with h | h <;> cases h

/-- The types of a variable arity of strings and of one of integers match. -/
theorem variadic_strings_match_integers :
    let strings : ParameterType := { name := "String", variadic := true }
    let integers : ParameterType := { name := "int", variadic := true }
    strings.WellFormed ∧ integers.WellFormed ∧ strings.Spells "String..." ∧
      integers.Spells "int..." ∧ strings.name ≠ integers.name ∧
      parametersMatch ["String..."] ["int..."] = true := by
  refine ⟨⟨by decide, by decide⟩, ⟨by decide, by decide⟩, ?_, ?_, ?_, ?_⟩ <;> decide +kernel

end Name

end ApiDocs
