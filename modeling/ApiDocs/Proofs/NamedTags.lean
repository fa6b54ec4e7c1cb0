import ApiDocs.Declaration.Read
import ApiDocs.Extraction
import ApiDocs.Proofs.Cutting

/-!
# Spellings of named tags

A tag for a parameter or an exception is written as one text, as a mapping whose text begins with
the name, or as a mapping with the name apart. Of the first two, which are always read alike, the
name goes up to the first space. So they say what the third one says exactly if the white space
after the name begins with a space, or no description follows.
-/

namespace ApiDocs

open Text Extraction

/-! ### A tag and its spellings -/

/-- A tag for a parameter or an exception: a name, white space, and a description, neither of which
begins like the margin of a comment. -/
structure NamedTag where
  kind : Text
  name : Text
  gap : Text
  description : Text
  kind_eq : kind = "param" ∨ kind = "throws" ∨ kind = "exception"
  name_ne_nil : name ≠ []
  not_isBlank_of_mem : ∀ c ∈ name, isBlank c = false
  name_head : name.head? ≠ some (.char '*')
  gap_ne_nil : gap ≠ []
  isBlank_of_mem_gap : ∀ c ∈ gap, isBlank c = true
  trimmed : trim description = description
  description_head : description.head? ≠ some (.char '*')

namespace NamedTag

variable (t : NamedTag)

/-- The name and the description with the white space between them. -/
def written : Text := t.name ++ (t.gap ++ t.description)

def inShort : Value := .text ("@" ++ t.kind ++ " " ++ t.written)

/-- The tag as a mapping whose text begins with the name. -/
structure IsText (es : List (Value × Value)) : Prop where
  kind : Value.field es "kind" = .text t.kind
  text : Value.field es "text" = .text t.written
  name : (Value.field es "name").isGiven = false

/-- The tag as a mapping with the name apart. -/
structure IsApart (es : List (Value × Value)) : Prop where
  kind : Value.field es "kind" = .text t.kind
  text : Value.field es "text" = .text t.description
  name : Value.field es "name" = .text t.name

/-- What the tag says: exceptions are referred to by their names, and the description may have
links. -/
def said (site : Place → Site) (k : Nat) : Tag where
  kind := if t.kind = "param" then "param" else "throws"
  name := t.name
  text := t.description
  reference := if t.kind = "param" then none else some ⟨site (.tagTarget k), t.name, []⟩
  links := referencesAt (fun i => site (.tagText k i)) (Comment.mentions t.description)

/-! ### Reading a spelling -/

lemma kindOfText_kind : Declaration.Tag.kindOfText t.kind = t.kind := by
  rcases t.kind_eq with h | h | h <;> rw [h] <;> decide

lemma exists_written : ∃ c s, t.written = c :: s ∧ t.name.head? = some c ∧ isBlank c = false := by
  obtain ⟨c, name, hname⟩ := List.exists_cons_of_ne_nil t.name_ne_nil
  refine ⟨c, name ++ (t.gap ++ t.description), ?_, ?_, t.not_isBlank_of_mem c (by simp [hname])⟩
  · rw [written, hname, List.cons_append]
  · rw [hname, List.head?_cons]

/-- A text that does not begin with an asterisk has no margin to drop. -/
lemma plainText_eq_trim {s : Text} (h : (trimLeft s).head? ≠ some (.char '*')) :
    Comment.plainText s = trim s := by
  rw [Comment.plainText, if_neg h]

lemma ofValue_inShort :
    Declaration.Tag.ofValue t.inShort = { kind := t.kind, text := trim t.written } := by
  obtain ⟨c, s, hwritten, -, hc⟩ := t.exists_written
  have htrim : trim ("@" ++ t.kind ++ " " ++ t.written) =
      "@" ++ t.kind ++ " " ++ trim t.written := by
    rw [hwritten]
    exact trim_append_seam (b := .char '@') (by decide) hc (t.kind ++ " ") s
  have hdrop : ("@" ++ t.kind ++ " " ++ trim t.written).dropWhile (· == .char '@') =
      t.kind ++ .char ' ' :: trim t.written := by
    rcases t.kind_eq with h | h | h <;> rw [h] <;> rfl
  have hkind : (.char ' ' : CodePoint) ∉ t.kind ∧ lower t.kind = t.kind := by
    rcases t.kind_eq with h | h | h <;> rw [h] <;> decide
  simp only [inShort, Declaration.Tag.ofValue, Value.toText, htrim, hdrop,
    cutAt_append_seam hkind.1, hkind.2, Option.getD_some, trim_trim]

lemma givenText_text (s : Text) : (Value.text s).givenText = s := by
  cases s with
  | nil => rfl
  | cons c s => rfl

variable {t}

lemma ofValue_of_isText {es : List (Value × Value)} (h : t.IsText es) :
    Declaration.Tag.ofValue (.map es) = { kind := t.kind, text := trim t.written } := by
  obtain ⟨c, s, hwritten, hname, hc⟩ := t.exists_written
  have hhead : (trimLeft t.written).head? ≠ some (.char '*') := by
    rw [hwritten, trimLeft_cons_of_not hc, List.head?_cons, ← hname]
    exact t.name_head
  have hnone : (Value.field es "name").givenText = [] := by
    rw [Value.givenText, h.name]
    rfl
  rw [Declaration.Tag.ofValue, h.kind, h.text, hnone, givenText_text, t.kindOfText_kind,
    Comment.asText, Value.toText, plainText_eq_trim hhead]
  all_goals simp

lemma ofValue_of_isApart {es : List (Value × Value)} (h : t.IsApart es) :
    Declaration.Tag.ofValue (.map es) = ⟨t.kind, t.description, t.name⟩ := by
  have hhead : (trimLeft t.description).head? ≠ some (.char '*') := by
    rw [← t.trimmed, trimLeft_trim, t.trimmed]
    exact t.description_head
  rw [Declaration.Tag.ofValue, h.kind, h.text, h.name, givenText_text, givenText_text,
    t.kindOfText_kind, Comment.asText, Value.toText, plainText_eq_trim hhead, t.trimmed]
  all_goals simp

/-! ### The name that is read -/

/-- The name in a text goes up to the first space. It is that of the tag, with the description after
it, exactly if the gap begins with a space or is at the end. -/
lemma cutAt_written_iff : (cutAt ' ' (trim t.written)).1 = t.name ∧
      trim ((cutAt ' ' (trim t.written)).2.getD []) = t.description ↔
    t.gap.head? = some (.char ' ') ∨ t.description = [] := by
  have hword : (.char ' ' : CodePoint) ∉ t.name := fun hmem =>
    absurd (t.not_isBlank_of_mem _ hmem) (by decide)
  obtain ⟨b, gap, hgap⟩ := List.exists_cons_of_ne_nil t.gap_ne_nil
  have hblanks : ∀ c ∈ gap, isBlank c = true := fun c hc =>
    t.isBlank_of_mem_gap c (by simp [hgap, hc])
  have hname : trim t.name = t.name := trim_eq_self
    (fun c hc => t.not_isBlank_of_mem c (List.mem_of_mem_head? hc))
    (fun c hc => t.not_isBlank_of_mem c (List.mem_of_mem_getLast? hc))
  by_cases hdescription : t.description = []
  · have htrim : trim t.written = t.name := by
      rw [written, hdescription, List.append_nil, trim_append_blanks t.isBlank_of_mem_gap, hname]
    rw [htrim, cutAt_of_notMem hword, hdescription]
    simp [trim, trimLeft, trimRight, dropRightWhile]
  · have htrim : trim t.written = t.name ++ b :: (gap ++ t.description) := by
      rw [written, hgap, List.cons_append]
      apply trim_eq_self
      · intro c hc
        rw [List.head?_append_of_ne_nil _ t.name_ne_nil] at hc
        exact t.not_isBlank_of_mem c (List.mem_of_mem_head? hc)
      · intro c hc
        rw [← List.cons_append, ← List.append_assoc,
          List.getLast?_append_of_ne_nil _ hdescription] at hc
        exact not_isBlank_of_getLast? t.trimmed hc
    rw [htrim, cutAt_append_of_notMem hword, cutAt, hgap]
    by_cases hb : b = ' '
    · simp [hb, trim_blanks_append hblanks, t.trimmed]
    · simp [hb, hdescription]

lemma tagKind_kind : tagKind t.kind = if t.kind = "param" then "param" else "throws" := by
  rcases t.kind_eq with h | h | h <;> rw [h] <;> decide

/-- What is made of a tag that was read is what it says exactly if its name and its description are
found. -/
lemma tagEntity_eq_said_iff {site : Place → Site} {k : Nat} {a : Declaration.Tag}
    (hkind : a.kind = t.kind) :
    tagEntity site k a = t.said site k ↔ tagName a = (t.name, t.description) := by
  constructor
  · intro h
    exact Prod.ext (congrArg Tag.name h) (congrArg Tag.text h)
  · intro h
    have hparam : tagMention? "param" t.name t.description = none := rfl
    have hthrows : tagMention? "throws" t.name t.description = some ⟨t.name, []⟩ := by
      rw [tagMention?, if_neg (by decide), if_pos (by simp [t.name_ne_nil])]
    simp only [tagEntity, h, hkind, said, tagKind_kind]
    by_cases hk : t.kind = "param"
    · simp [hk, hparam]
    · simp [hk, hthrows, Comment.Mention.at]

/-- A tag that was read without a name has the first word of its text for one, and what follows for
its text. -/
lemma tagName_of_text {s : Text} (hs : s ≠ []) : tagName { kind := t.kind, text := s } =
    ((cutAt ' ' s).1, trim ((cutAt ' ' s).2.getD [])) := by
  have hkind : (tagKind t.kind = "param" || tagKind t.kind = "throws") = true := by
    rw [tagKind_kind]
    split <;> rfl
  simp [tagName, hkind, hs]

end NamedTag

/-- A tag for a parameter or an exception with the name apart says what it should. As one text and
as a mapping with a text it says one and the same, and that is right exactly if the white space
after the name begins with a space or no description follows. -/
theorem spellings_agree_iff (t : NamedTag) {es es' : List (Value × Value)} (h : t.IsText es)
    (h' : t.IsApart es') (site : Place → Site) (k : Nat) :
    tagEntity site k (.ofValue (.map es')) = t.said site k ∧
    tagEntity site k (.ofValue t.inShort) = tagEntity site k (.ofValue (.map es)) ∧
    (tagEntity site k (.ofValue (.map es)) = t.said site k ↔
      t.gap.head? = some (.char ' ') ∨ t.description = []) := by
  obtain ⟨c, s, hwritten, -, hc⟩ := t.exists_written
  refine ⟨?_, ?_, ?_⟩
  · rw [NamedTag.ofValue_of_isApart h', NamedTag.tagEntity_eq_said_iff rfl]
    simp [tagName, t.name_ne_nil]
  · rw [t.ofValue_inShort, NamedTag.ofValue_of_isText h]
  · have hne : trim t.written ≠ [] := by
      rw [hwritten, trim, trimLeft_cons_of_not hc, ← List.nil_append (c :: s),
        trimRight_append_seam hc]
      exact List.cons_ne_nil _ _
    rw [NamedTag.ofValue_of_isText h, NamedTag.tagEntity_eq_said_iff rfl,
      NamedTag.tagName_of_text hne, Prod.mk.injEq, NamedTag.cutAt_written_iff]

/-- An exception whose name is followed by a space and a line break. -/
def spacedException : NamedTag where
  kind := "exception"
  name := "IOException"
  gap := " \n  "
  description := "if \x7b@link Disk\x7d fails"
  kind_eq := by decide
  name_ne_nil := by decide
  not_isBlank_of_mem := by decide
  name_head := by decide
  gap_ne_nil := by decide
  isBlank_of_mem_gap := by decide
  trimmed := by decide
  description_head := by decide

theorem spellings_agree_iff_spacedException :
    let es : List (Value × Value) := [(.text "kind", .text "exception"),
      (.text "text", .text "IOException \n  if \x7b@link Disk\x7d fails")]
    let es' : List (Value × Value) := [(.text "name", .text "IOException"),
      (.text "text", .text "if \x7b@link Disk\x7d fails"), (.text "kind", .text "exception")]
    let site := Site.mk 0 "p.A#read()"
    spacedException.IsText es ∧ spacedException.IsApart es' ∧
      tagEntity site 0 (.ofValue spacedException.inShort) = spacedException.said site 0 ∧
      tagEntity site 0 (.ofValue (.map es)) = spacedException.said site 0 ∧
      tagEntity site 0 (.ofValue (.map es')) = spacedException.said site 0 := by
  intro es es' site
  have h : spacedException.IsText es := ⟨rfl, rfl, rfl⟩
  have h' : spacedException.IsApart es' := ⟨rfl, rfl, rfl⟩
  obtain ⟨hapart, hshort, hiff⟩ := spellings_agree_iff spacedException h h' site 0
  have htext := hiff.2 (.inl rfl)
  exact ⟨h, h', hshort.trans htext, htext, hapart⟩

/-- After a tab the name of a parameter goes on up to the next space, in both texts. -/
theorem tabbed_name_misread :
    let read := fun v => tagEntity (Site.mk 0 "p.A#grow(int)") 0 (.ofValue v)
    (read (.text "@param size\tthe new size")).name = "size\tthe" ∧
      (read (.map [(.text "kind", .text "param"),
        (.text "text", .text "size\tthe new size")])).name = "size\tthe" ∧
      (read (.map [(.text "kind", .text "param"), (.text "name", .text "size"),
        (.text "text", .text "the new size")])).name = "size" := by
  decide

end ApiDocs
