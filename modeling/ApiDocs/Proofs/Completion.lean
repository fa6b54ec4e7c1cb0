import ApiDocs.Proofs.LinkTargets
import ApiDocs.Proofs.OrderIndependence

/-!
# Runs complete

Once declarations are extracted, references can be resolved, the view can be made and the documents
can be written. One thing can still fail: the root of the pages and the language of code blocks are
shown as texts, whatever they are, and an integer with too many digits has no text.
-/

namespace ApiDocs

open Text

/-! ### Values that have a text -/

namespace Value

/-- An integer stands in a value, as a key or as an item at any depth. -/
inductive Holds : Value → Int → Prop
  | int (i : Int) : Holds (.int i) i
  | item {v : Value} {items : List Value} {i : Int} : v ∈ items → Holds v i → Holds (.list items) i
  | key {e : Value × Value} {entries : List (Value × Value)} {i : Int} :
      e ∈ entries → Holds e.1 i → Holds (.map entries) i
  | value {e : Value × Value} {entries : List (Value × Value)} {i : Int} :
      e ∈ entries → Holds e.2 i → Holds (.map entries) i

/-- No integer in a value has more digits than are written. -/
def HoldsShort (v : Value) : Prop := ∀ i, v.Holds i → i.natAbs < 10 ^ digitLimit

lemma length_natural_le_digitLimit {n : Nat} :
    (natural n).length ≤ digitLimit ↔ n < 10 ^ digitLimit := by
  rw [natural, ofChars, List.length_map]
  exact Nat.length_toDigits_le_iff (by decide) (by decide)

lemma holdsShort_int {i : Int} : (int i).HoldsShort ↔ (int i).isWritable = true := by
  rw [isWritable, decide_eq_true_eq, length_natural_le_digitLimit]
  constructor
  · intro h
    exact h i (.int i)
  · intro h j hj
    cases hj
    exact h

lemma holdsShort_list {items : List Value} :
    (list items).HoldsShort ↔ ∀ v ∈ items, v.HoldsShort := by
  constructor
  · intro h v hv i hi
    exact h i (.item hv hi)
  · intro h i hi
    cases hi with
    | item hv hi => exact h _ hv i hi

lemma holdsShort_map {entries : List (Value × Value)} :
    (map entries).HoldsShort ↔ ∀ e ∈ entries, e.1.HoldsShort ∧ e.2.HoldsShort := by
  constructor
  · intro h e he
    exact ⟨fun i hi => h i (.key he hi), fun i hi => h i (.value he hi)⟩
  · intro h i hi
    cases hi with
    | key he hi => exact (h _ he).1 i hi
    | value he hi => exact (h _ he).2 i hi

mutual

/-- A value has a text exactly if no integer in it is too long. -/
lemma isWritable_iff : (v : Value) → (v.isWritable = true ↔ v.HoldsShort)
  | null => iff_of_true rfl nofun
  | bool _ => iff_of_true rfl nofun
  | int _ => holdsShort_int.symm
  | float _ => iff_of_true rfl nofun
  | text _ => iff_of_true rfl nofun
  | list items => (areWritable_iff items).trans holdsShort_list.symm
  | map entries => (entriesWritable_iff entries).trans holdsShort_map.symm

lemma areWritable_iff : (vs : List Value) → (areWritable vs = true ↔ ∀ v ∈ vs, v.HoldsShort)
  | [] => by simp [areWritable]
  | v :: vs => by
    rw [areWritable, Bool.and_eq_true, isWritable_iff v, areWritable_iff vs, List.forall_mem_cons]

lemma entriesWritable_iff : (es : List (Value × Value)) →
    (entriesWritable es = true ↔ ∀ e ∈ es, e.1.HoldsShort ∧ e.2.HoldsShort)
  | [] => by simp [entriesWritable]
  | (k, v) :: es => by
    rw [entriesWritable, Bool.and_eq_true, Bool.and_eq_true, isWritable_iff k, isWritable_iff v,
      entriesWritable_iff es, List.forall_mem_cons]

end

end Value

namespace Settings

/-- The settings that pages show hold no integer that is too long. -/
structure ShowsShort (settings : Settings) : Prop where
  root : (settings.get "api_root").HoldsShort
  language : (settings.get "code_language").HoldsShort

lemma checkShown_ok {settings : Settings} (h : settings.ShowsShort) :
    settings.checkShown = .ok () := by
  have hroot := (Value.isWritable_iff _).2 h.root
  have hlanguage := (Value.isWritable_iff _).2 h.language
  simp [checkShown, Value.checkWritable, hroot, hlanguage]

lemma checkShown_error {settings : Settings} (h : ¬ settings.ShowsShort) :
    settings.checkShown = .error .tooLongToWrite := by
  have hlong : ¬ ((settings.get "api_root").isWritable = true ∧
      (settings.get "code_language").isWritable = true) := by
    rintro ⟨hroot, hlanguage⟩
    exact h ⟨(Value.isWritable_iff _).1 hroot, (Value.isWritable_iff _).1 hlanguage⟩
  rw [checkShown, Value.checkWritable]
  simpa using hlong

end Settings

/-! ### The stages after extraction -/

section

variable {m : Model} (h : m.Consistent)

include h

/-- The references of a consistent model can be resolved, whatever was resolved before. -/
lemma Model.Consistent.exists_resolveAll {settings : Settings}
    (hexternal : ∀ text, ∃ b, settings.isExternal text = .ok b) (before : Resolutions) :
    ∃ s, m.resolveAll settings before = (s, none) := by
  obtain ⟨external, hexternal⟩ := Classical.skolem.1 hexternal
  exact ⟨_, by rw [Model.resolveAll, Model.each_eq h hexternal]⟩

/-- Each name of the view is in the model and has a target. -/
lemma Model.Consistent.mem_of_mem_sequence (inherits : Bool) (settings : Settings) {name : Text}
    (hname : name ∈ (m.viewOf inherits).sequence) :
    name ∈ m.names ∧
      ∃ target, (m.targets (m.viewOf inherits) settings).get? name = some target := by
  constructor
  · exact (h.sequence_perm inherits).mem_iff.1 hname
  · apply Table.exists_of_mem_keys
    rw [Model.keys_targets h]
    exact hname

/-- The documents of a consistent model can be made exactly if the settings that they show have
texts. -/
lemma Model.Consistent.exists_documents_iff (inherits : Bool) (settings : Settings)
    (rs : Resolutions) :
    (∃ docs, m.documents (m.viewOf inherits) settings rs = .ok docs) ↔ settings.ShowsShort := by
  obtain ⟨docs, hdocs⟩ := Model.documents_ok h inherits settings rs
  rw [hdocs]
  by_cases hshort : settings.ShowsShort
  · rw [Settings.checkShown_ok hshort]
    exact iff_of_true ⟨docs, rfl⟩ hshort
  · rw [Settings.checkShown_error hshort]
    exact iff_of_false nofun hshort

end

/-- After a successful extraction nothing fails but the writing of numbers that are too long: the
references can be resolved, whatever was resolved before, and the view can be made, whose names are
all in the model and have targets. The documents can be made exactly if the settings that they show
hold no such number, and then the whole run succeeds. -/
theorem stages_complete {settings : Settings} {word : Text}
    (hvisibility : settings.get? "visibility" = some (.text word)) {packages : List Text}
    (hexternal : settings.get? "external_packages" = some (.list (packages.map .text)))
    {n : Nat} {ds : List Declaration} {x : Extracted}
    (hx : extract n ((Visibility.ofModifier? word).getD .declaring) ds = .ok x)
    (before : Resolutions) :
    (∃ s v, x.model.resolveAll settings before = (s, none) ∧
      x.model.view settings.inherits = .ok v ∧
      (∀ name ∈ v.sequence, name ∈ x.model.names ∧
        ∃ target, (x.model.targets v settings).get? name = some target) ∧
      ((∃ docs, x.model.documents v settings s.resolutions = .ok docs) ↔ settings.ShowsShort)) ∧
    ((∃ run, Run.ofDeclarations settings ds = .ok run) ↔ settings.ShowsShort) := by
  have hknown := Settings.isExternal_ok hexternal
  have hc : x.model.Consistent := consistent_of_extract hx
  have hlimit : settings.visibility = .ok ((Visibility.ofModifier? word).getD .declaring) := by
    rw [Settings.visibility, hvisibility]
  constructor
  · obtain ⟨s, hs⟩ := hc.exists_resolveAll hknown before
    exact ⟨s, _, hs, hc.view_eq settings.inherits,
      fun _ hname => hc.mem_of_mem_sequence settings.inherits settings hname,
      hc.exists_documents_iff settings.inherits settings s.resolutions⟩
  · -- the run extracts anew, under the number of a first extraction
    obtain ⟨y, hy, hw⟩ := (extractable_of_extract hx).exists_wellFormed 0
    obtain ⟨rs, -, hrun⟩ := documents_ofDeclarations hlimit hknown hy hw.toConsistent
    rw [← hw.toConsistent.exists_documents_iff settings.inherits settings rs, ← hrun]
    cases Run.ofDeclarations settings ds with
    | ok run => exact iff_of_true ⟨run, rfl⟩ ⟨run.documents, rfl⟩
    | error f =>
      apply iff_of_false
      · rintro ⟨run, hrun⟩
        cases hrun
      · rintro ⟨docs, hdocs⟩
        cases hdocs

theorem stages_complete_layers :
    ∃ x s v docs run, extract 0 .declaring layers = .ok x ∧
      x.model.resolveAll .defaults {} = (s, none) ∧ x.model.view true = .ok v ∧
      x.model.documents v .defaults s.resolutions = .ok docs ∧
      Run.ofDeclarations .defaults layers = .ok run := by
  obtain ⟨x, hx⟩ : ∃ x, extract 0 .declaring layers = .ok x := ⟨_, rfl⟩
  have hvisibility : Settings.defaults.get? "visibility" = some (.text "private") := rfl
  have hexternal : Settings.defaults.get? "external_packages" =
      some (.list (([] : List Text).map .text)) := rfl
  have hshort : Settings.defaults.ShowsShort := ⟨nofun, nofun⟩
  obtain ⟨⟨s, v, hs, hv, -, hdocs⟩, hrun⟩ := stages_complete hvisibility hexternal hx {}
  obtain ⟨docs, hdocs⟩ := hdocs.2 hshort
  obtain ⟨run, hrun⟩ := hrun.2 hshort
  exact ⟨x, s, v, docs, run, hx, hs, hv, hdocs, hrun⟩

/-! ### A number that is too long -/

def longNumber : Nat := 16 ^ 3600 - 1

def longLanguage : Value := .map [(.text "code_language", .int longNumber)]

def emptyPackage : List Declaration := [{ kind := "package", name := "p" }]

/-- Overrides that are accepted may hold a number that no document can show. -/
theorem documents_with_longLanguage :
    ∃ settings x s v, Settings.ofOverrides longLanguage = .ok settings ∧
      settings.get? "visibility" = some (.text "private") ∧
      settings.get? "external_packages" = some (.list []) ∧
      extract 0 .declaring emptyPackage = .ok x ∧
      x.model.resolveAll settings {} = (s, none) ∧ x.model.view settings.inherits = .ok v ∧
      x.model.documents v settings s.resolutions = .error .tooLongToWrite := by
  have hlong (settings : Settings) (h : settings.get "code_language" = .int longNumber) :
      ¬ settings.ShowsShort := by
    intro hshort
    have hlanguage := hshort.language
    rw [h, Value.holdsShort_int, Value.isWritable, decide_eq_true_eq, Int.natAbs_natCast,
      Value.length_natural_le_digitLimit] at hlanguage
    exact absurd hlanguage (by decide +kernel)
  refine ⟨_, _, _, _, rfl, rfl, rfl, rfl, rfl, rfl, ?_⟩
  rw [Model.documents, Settings.checkShown_error (hlong _ rfl)]
  rfl

end ApiDocs
