import ApiDocs.Proofs.Anchors
import ApiDocs.Proofs.LinkTargets

/-!
# Landmarks

The headings of types and members are the landmarks of a page: each takes an anchor, in the order of
emission, and the targets of entities lead to them. Two targets lead to one anchor of a page only
where the slug of a first landmark is that of an earlier one with a number.
-/

namespace ApiDocs

/-- The heading of an entity on a page. -/
structure Landmark where
  name : Text
  title : Text
  page : Text
  heading : Text
  /-- Whether the target of the entity has the anchor, and is not the whole page. -/
  anchored : Bool

namespace Landmark

def slug (l : Landmark) : Text := Markdown.slug l.heading

/-- Landmarks are numbered that share the page and the slug. -/
def key (l : Landmark) : Text × Text := (l.page, l.slug)

def target (l : Landmark) (number : Nat) : Target :=
  ⟨l.title, if l.anchored then l.page ++ "#" ++ numberedSlug l.slug number else l.page⟩

/-- The landmark of a member on the page of its type. -/
def ofMember (page : Text) (t : TypeEntity) (e : Entity) : Landmark where
  name := e.qualifiedName
  title := t.title ++ "." ++ e.heading
  page := page
  heading := e.heading
  anchored := true

def ofType (settings : Settings) (page : Text) (t : TypeEntity) : Landmark where
  name := t.qualifiedName
  title := t.title
  page := page
  heading := t.heading
  anchored := settings.byPackage

end Landmark

def Settings.pageOf (settings : Settings) (package type : Text) : Text :=
  pagePath settings.apiRoot (if settings.byPackage then package else type)

namespace Model

variable (m : Model) (v : View) (settings : Settings)

def typeLandmarks (page : Text) (t : TypeEntity) : List Landmark :=
  .ofType settings page t ::
    ((v.membersOf t.qualifiedName).filterMap m.find?).map (.ofMember page t)

def packageLandmarks (package : Text) : List Landmark :=
  ((v.typesOf package).filterMap m.findType?).flatMap fun t =>
    m.typeLandmarks v settings (settings.pageOf package t.qualifiedName) t

def landmarks : List Landmark := v.packages.flatMap (m.packageLandmarks v settings)

end Model

/-! ### Taking anchors one after the other -/

namespace Targeting

/-- Take the next anchor for a landmark, and add its target. -/
def take (s : Targeting) (l : Landmark) : Targeting :=
  let next := s.used.next l.page l.heading
  { used := next.2
    targets := s.targets.put l.name
      ⟨l.title, if l.anchored then l.page ++ "#" ++ next.1 else l.page⟩ }

/-- Landmarks have taken their anchors, one after the other. -/
structure Reached (s : Targeting) (done : List Landmark) : Prop where
  used : ∀ page slug, s.used.count page slug = done.countP (·.key = (page, slug))
  targets : ∀ p ∈ repeats Landmark.key [] done, s.targets.get? p.2.name = some (p.2.target p.1)

lemma reached_nil : Reached {} [] :=
  { used := fun _ _ => rfl
    targets := fun _ hp => absurd hp List.not_mem_nil }

lemma Reached.put {s : Targeting} {done : List Landmark} (h : s.Reached done) {name : Text}
    (hname : name ∉ done.map (·.name)) (title path : Text) :
    (s.put name title path).Reached done where
  used := h.used
  targets := by
    intro p hp
    have hne : p.2.name ≠ name := by
      rintro rfl
      exact hname (List.mem_map_of_mem (mem_of_mem_repeats hp))
    rw [Targeting.put, Table.get?_put, if_neg hne]
    exact h.targets p hp

lemma Reached.take {s : Targeting} {done : List Landmark} (h : s.Reached done) {l : Landmark}
    (hname : l.name ∉ done.map (·.name)) : (s.take l).Reached (done ++ [l]) where
  used := by
    intro page slug
    rw [Targeting.take, Anchors.count_next, h.used, List.countP_append, List.countP_singleton]
    simp [Landmark.key, Landmark.slug]
  targets := by
    intro p hp
    rw [repeats_append, List.nil_append, List.mem_append] at hp
    rcases hp with hp | hp
    · have hne : p.2.name ≠ l.name := by
        intro heq
        exact hname (heq ▸ List.mem_map_of_mem (mem_of_mem_repeats hp))
      rw [Targeting.take, Table.get?_put, if_neg hne]
      exact h.targets p hp
    · obtain rfl := List.mem_singleton.1 hp
      rw [Targeting.take, Table.get?_put, if_pos rfl, Anchors.next_fst, h.used]
      rfl

/-- A step puts in targets under names, and takes anchors for landmarks among them. -/
def Takes (f : Targeting → Targeting) (names : List Text) (landmarks : List Landmark) : Prop :=
  (landmarks.map (·.name)).Sublist names ∧
    ∀ s done, s.Reached done → (done.map (·.name) ++ names).Nodup →
      (f s).Reached (done ++ landmarks)

lemma takes_put (name title path : Text) : Takes (·.put name title path) [name] [] := by
  refine ⟨List.nil_sublist _, fun s done h hnodup => ?_⟩
  rw [List.append_nil]
  exact h.put (fun hmem => List.disjoint_of_nodup_append hnodup hmem (List.mem_singleton_self _)) ..

lemma takes_take (l : Landmark) : Takes (·.take l) [l.name] [l] := by
  refine ⟨List.Sublist.refl _, fun s done h hnodup => ?_⟩
  exact h.take fun hmem => List.disjoint_of_nodup_append hnodup hmem (List.mem_singleton_self _)

lemma Takes.comp {f g : Targeting → Targeting} {names names' : List Text}
    {ls ls' : List Landmark} (hf : Takes f names ls) (hg : Takes g names' ls') :
    Takes (g ∘ f) (names ++ names') (ls ++ ls') := by
  refine ⟨?_, fun s done h hnodup => ?_⟩
  · rw [List.map_append]
    exact hf.1.append hg.1
  · rw [← List.append_assoc] at hnodup ⊢
    apply hg.2 _ _ (hf.2 s done h hnodup.of_append_left)
    rw [List.map_append]
    exact hnodup.sublist ((hf.1.append_left _).append_right _)

lemma Takes.foldl {f : Targeting → Text → Targeting} {block : Text → List Text}
    {marks : Text → List Landmark} {names : List Text}
    (h : ∀ n ∈ names, Takes (f · n) (block n) (marks n)) :
    Takes (fun s => names.foldl f s) (names.flatMap block) (names.flatMap marks) := by
  induction names with
  | nil => exact ⟨List.Sublist.refl _, fun s done h _ => by simpa using h⟩
  | cons n names ih =>
    rw [List.flatMap_cons, List.flatMap_cons]
    exact (h n (List.mem_cons_self ..)).comp (ih fun n' hn' => h n' (List.mem_cons_of_mem _ hn'))

section

variable {m : Model} (hm : m.Consistent) (v : View) (settings : Settings)

include hm

lemma addMember_eq_take (page : Text) (t : TypeEntity) {name : Text} {e : Entity}
    (he : m.find? name = some e) (s : Targeting) :
    addMember m page t s name = s.take (.ofMember page t e) := by
  obtain ⟨-, rfl⟩ := (Model.find?_eq_some_iff hm.distinct).1 he
  simp only [addMember, he]
  rfl

lemma takes_addType {package name : Text} {t : TypeEntity} (ht : m.findType? name = some t)
    (hmembers : ∀ n ∈ v.membersOf name, ∃ e, m.find? n = some e) :
    Takes (addType m v settings (pagePath settings.apiRoot package) · name)
      (name :: v.membersOf name) (m.typeLandmarks v settings (settings.pageOf package name) t) := by
  obtain ⟨-, rfl⟩ := hm.findType?_eq_some_iff.1 ht
  let page := settings.pageOf package t.qualifiedName
  have hmarks : ((v.membersOf t.qualifiedName).filterMap m.find?).map (Landmark.ofMember page t) =
      (v.membersOf t.qualifiedName).flatMap fun n =>
        (m.find? n).toList.map (Landmark.ofMember page t) := by
    rw [List.filterMap_eq_flatMap_toList, List.map_flatMap]
  have hfold : Takes (fun s => (v.membersOf t.qualifiedName).foldl (addMember m page t) s)
      ((v.membersOf t.qualifiedName).flatMap fun n => [n])
      ((v.membersOf t.qualifiedName).flatMap fun n =>
        (m.find? n).toList.map (Landmark.ofMember page t)) := by
    apply Takes.foldl
    intro n hn
    obtain ⟨e, he⟩ := hmembers n hn
    obtain ⟨-, rfl⟩ := (Model.find?_eq_some_iff hm.distinct).1 he
    rw [he]
    simp only [addMember_eq_take hm page t he]
    exact takes_take (.ofMember page t e)
  rw [List.flatMap_singleton', ← hmarks] at hfold
  have hstep : (addType m v settings (pagePath settings.apiRoot package) · t.qualifiedName) =
      (fun s => (v.membersOf t.qualifiedName).foldl (addMember m page t) s) ∘
        (·.take (.ofType settings page t)) := by
    funext s
    have hpage : (if settings.byPackage then pagePath settings.apiRoot package
        else pagePath settings.apiRoot t.qualifiedName) = page := by
      simp only [page, Settings.pageOf]
      split <;> rfl
    simp only [addType, ht, hpage]
    rfl
  rw [hstep]
  exact (takes_take (.ofType settings page t)).comp hfold

lemma takes_addPackage {name : Text} (htypes : ∀ n ∈ v.typesOf name, ∃ t, m.findType? n = some t)
    (hmembers : ∀ n ∈ v.typesOf name, ∀ n' ∈ v.membersOf n, ∃ e, m.find? n' = some e) :
    Takes (addPackage m v settings · name)
      (name :: (v.typesOf name).flatMap fun n => n :: v.membersOf n)
      (m.packageLandmarks v settings name) := by
  have hmarks : m.packageLandmarks v settings name = (v.typesOf name).flatMap fun n =>
      (m.findType? n).toList.flatMap fun t =>
        m.typeLandmarks v settings (settings.pageOf name t.qualifiedName) t := by
    rw [Model.packageLandmarks, List.filterMap_eq_flatMap_toList, List.flatMap_assoc]
  rw [hmarks]
  refine (takes_put name name (pagePath settings.apiRoot name)).comp (Takes.foldl fun n hn => ?_)
  obtain ⟨t, ht⟩ := htypes n hn
  obtain ⟨-, rfl⟩ := hm.findType?_eq_some_iff.1 ht
  rw [ht]
  simpa using takes_addType hm v settings ht (hmembers _ hn)

end

end Targeting

/-! ### The targets of landmarks -/

namespace Model

variable {m : Model} (h : m.Consistent) (inherits : Bool) (settings : Settings)

include h

/-- Every landmark is the target of its entity, with the number that it has on its page. -/
theorem get?_targets_landmark : ∀ p ∈ repeats Landmark.key []
      (m.landmarks (m.viewOf inherits) settings),
    (m.targets (m.viewOf inherits) settings).get? p.2.name = some (p.2.target p.1) := by
  have hall : Targeting.Takes
      (fun s => (m.viewOf inherits).packages.foldl
        (Targeting.addPackage m (m.viewOf inherits) settings) s)
      (m.viewOf inherits).sequence (m.landmarks (m.viewOf inherits) settings) := by
    apply Targeting.Takes.foldl
    intro p hp
    apply Targeting.takes_addPackage h
    · intro n hn
      obtain ⟨t, ht, rfl⟩ := exists_type_of_mem_typesOf h hp hn
      exact ⟨t, h.findType?_of_mem ht⟩
    · intro n hn n' hn'
      obtain ⟨t, ht, rfl⟩ := exists_type_of_mem_typesOf h hp hn
      exact mem_names_of_mem_membersOf h ht hn'
  exact (hall.2 {} [] Targeting.reached_nil (h.sequence_nodup inherits)).targets

/-- The members that a type is shown with. -/
lemma filterMap_membersOf_viewOf {t : TypeEntity} (ht : t ∈ m.types) :
    ((m.viewOf inherits).membersOf t.qualifiedName).filterMap m.find? =
      byKind (m.membersIn t.qualifiedName) := by
  rw [h.membersOf_viewOf ht, emittedMembers]
  apply h.filterMap_find?
  intro e he
  exact (List.mem_filter.1 ((byKind_perm isMember_of_mem_membersIn).mem_iff.1 he)).1

/-- The landmarks are those of the types and members. -/
lemma names_landmarks_perm :
    ((m.landmarks (m.viewOf inherits) settings).map (·.name)).Perm
      ((m.entities.filter (·.kind ≠ .package)).map (·.qualifiedName)) := by
  have hnames : (m.landmarks (m.viewOf inherits) settings).map (·.name) =
      m.packageNames.flatMap fun p => ((m.viewOf inherits).typesOf p).flatMap fun t =>
        t :: (m.viewOf inherits).membersOf t := by
    rw [landmarks, List.map_flatMap]
    apply List.flatMap_congr
    intro p hp
    have htypes : ∀ n ∈ (m.viewOf inherits).typesOf p, ∃ t ∈ m.types, t.qualifiedName = n :=
      fun n hn => exists_type_of_mem_typesOf h hp hn
    rw [packageLandmarks, List.map_flatMap]
    conv_rhs => rw [← h.map_filterMap_findType? htypes, List.flatMap_map]
    apply List.flatMap_congr
    intro t ht
    obtain ⟨n, hn, hfind⟩ := List.mem_filterMap.1 ht
    obtain ⟨ht, rfl⟩ := h.findType?_eq_some_iff.1 hfind
    rw [typeLandmarks, filterMap_membersOf_viewOf h inherits ht, h.membersOf_viewOf ht,
      emittedMembers]
    simp [Landmark.ofType, Landmark.ofMember, Function.comp_def]
  have hsequence : (m.packageNames ++ (m.landmarks (m.viewOf inherits) settings).map (·.name)).Perm
      m.names := by
    rw [hnames]
    exact (perm_flatMap_cons _ _).symm.trans (h.sequence_perm inherits)
  have hkinds : (m.packageNames ++
      (m.entities.filter (·.kind ≠ .package)).map (·.qualifiedName)).Perm m.names := by
    have hsplit := (List.filter_append_perm (·.kind = .package) m.entities).map
      Entity.qualifiedName
    rw [List.map_append] at hsplit
    simpa [packageNames, ofKind, names] using ((sortNames_perm _).append_right _).trans hsplit
  exact (List.perm_append_left_iff _).1 (hsequence.trans hkinds.symm)

end Model

/-- The first landmark with its slug has the anchor that another one gets with its number. -/
def Landmark.Meets (p q : Nat × Landmark) : Prop :=
  p.2.page = q.2.page ∧ 0 < p.1 ∧ q.1 = 0 ∧ q.2.slug = numberedSlug p.2.slug p.1

/-- Landmarks at different places of a list have the same anchor on the same page only where one
meets the other. -/
lemma Landmark.path_eq_iff {ls : List Landmark} {p q : Nat × Landmark}
    (hp : p ∈ repeats key [] ls) (hq : q ∈ repeats key [] ls) (hne : p ≠ q)
    (hanchored : p.2.anchored = true) (hanchored' : q.2.anchored = true) :
    (p.2.target p.1).path = (q.2.target q.1).path ↔ Meets p q ∨ Meets q p := by
  have hpath {l : Landmark} (n : Nat) (hl : l.anchored = true) :
      (l.target n).path = l.page ++ .char '#' :: numberedSlug (Markdown.slug l.heading) n := by
    rw [target, if_pos hl, List.append_assoc]
    rfl
  have hapart : ¬ (p.2.page = q.2.page ∧ p.2.slug = q.2.slug ∧ p.1 = q.1) := by
    rintro ⟨hpage, hslug, hnumber⟩
    exact hne (eq_of_mem_repeats hp hq (Prod.ext hpage hslug) hnumber)
  rw [hpath _ hanchored, hpath _ hanchored',
    Text.append_sep_inj (hash_notMem_anchor _ _) (hash_notMem_anchor _ _), numberedSlug_eq_iff]
  simp only [Meets, slug]
  constructor
  · rintro ⟨hpage, hsame | hmeets | hmeets⟩
    · exact absurd ⟨hpage, hsame⟩ hapart
    · exact .inl ⟨hpage, hmeets⟩
    · exact .inr ⟨hpage.symm, hmeets⟩
  · rintro (⟨hpage, hmeets⟩ | ⟨hpage, hmeets⟩)
    · exact ⟨hpage, .inr (.inl hmeets)⟩
    · exact ⟨hpage.symm, .inr (.inr hmeets)⟩

/-- In the view of an extracted model the types and members are landmarks, and their targets lead to
them. Two targets that lead to an anchor lead to the same anchor of the same page exactly where one
landmark is the first with its slug there, and the slug is that of the other with its number. -/
theorem targets_meet_iff {n : Nat} {limit : Visibility} {ds : List Declaration} {x : Extracted}
    (h : extract n limit ds = .ok x) (inherits : Bool) (settings : Settings) :
    ∃ v, x.model.view inherits = .ok v ∧
      ((x.model.landmarks v settings).map (·.name)).Perm
        ((x.model.entities.filter (·.kind ≠ .package)).map (·.qualifiedName)) ∧
      (∀ p ∈ repeats Landmark.key [] (x.model.landmarks v settings),
        (x.model.targets v settings).get? p.2.name = some (p.2.target p.1)) ∧
      ∀ p ∈ repeats Landmark.key [] (x.model.landmarks v settings),
        ∀ q ∈ repeats Landmark.key [] (x.model.landmarks v settings),
          p.2.name ≠ q.2.name → p.2.anchored = true → q.2.anchored = true →
          (((x.model.targets v settings).get? p.2.name).map (·.path) =
              ((x.model.targets v settings).get? q.2.name).map (·.path) ↔
            Landmark.Meets p q ∨ Landmark.Meets q p) := by
  have hc : x.model.Consistent := consistent_of_extract h
  have htargets := Model.get?_targets_landmark hc inherits settings
  refine ⟨x.model.viewOf inherits, hc.view_eq inherits,
    Model.names_landmarks_perm hc inherits settings, htargets, ?_⟩
  intro p hp q hq hne hanchored hanchored'
  rw [htargets p hp, htargets q hq, Option.map_some, Option.map_some, Option.some_inj]
  apply Landmark.path_eq_iff hp hq _ hanchored hanchored'
  rintro rfl
  exact hne rfl

/-- Declarations of a field, of a method with its name, and of a method with the anchor of that as
its name. -/
def numberedNames : List Declaration :=
  [ { kind := "package", name := "p" },
    { kind := "class", name := "A", scope := "p" },
    { kind := "field", name := "f", scope := "p.A" },
    { kind := "method", name := "f", scope := "p.A" },
    { kind := "method", name := "f_1", scope := "p.A" } ]

theorem targets_meet_numberedNames :
    ∃ x v, extract 0 .declaring numberedNames = .ok x ∧ x.model.view true = .ok v ∧
      ∃ p ∈ repeats Landmark.key [] (x.model.landmarks v .defaults),
        ∃ q ∈ repeats Landmark.key [] (x.model.landmarks v .defaults),
          p.2.name = ("p.A#f()" : Text) ∧ q.2.name = ("p.A#f_1()" : Text) ∧
          p.2.anchored = true ∧ q.2.anchored = true ∧ Landmark.Meets p q ∧
          ((x.model.targets v .defaults).get? p.2.name).map (·.path) =
            ((x.model.targets v .defaults).get? q.2.name).map (·.path) := by
  let p : Nat × Landmark := (1, ⟨"p.A#f()", "A.f()", "/api/p/A", "f()", true⟩)
  let q : Nat × Landmark := (0, ⟨"p.A#f_1()", "A.f_1()", "/api/p/A", "f_1()", true⟩)
  obtain ⟨x, hx, v, hv, hlandmarks⟩ :
      ∃ x, extract 0 .declaring numberedNames = .ok x ∧ ∃ v, x.model.view true = .ok v ∧
        (repeats Landmark.key [] (x.model.landmarks v .defaults)).drop 2 = [p, q] :=
    ⟨_, rfl, _, rfl, rfl⟩
  have hp : p ∈ repeats Landmark.key [] (x.model.landmarks v .defaults) :=
    List.mem_of_mem_drop (hlandmarks ▸ List.mem_cons_self ..)
  have hq : q ∈ repeats Landmark.key [] (x.model.landmarks v .defaults) :=
    List.mem_of_mem_drop (hlandmarks ▸ List.mem_cons_of_mem _ (List.mem_cons_self ..))
  have hmeets : Landmark.Meets p q := ⟨rfl, Nat.one_pos, rfl, by decide⟩
  obtain ⟨v', hv', -, -, hiff⟩ := targets_meet_iff hx true .defaults
  obtain rfl : v = v' := Except.ok.inj (hv.symm.trans hv')
  exact ⟨x, v, hx, hv, p, hp, q, hq, rfl, rfl, rfl, rfl, hmeets,
    (hiff p hp q hq (by decide) rfl rfl).2 (.inl hmeets)⟩

/-- Two methods of one type have the same anchor of the same page as their target. -/
theorem anchor_of_two_targets :
    ∃ x v, extract 0 .declaring numberedNames = .ok x ∧ x.model.view true = .ok v ∧
      ((x.model.targets v .defaults).get? "p.A#f()").map (·.path) =
        some ("/api/p/A#f-1" : Text) ∧
      ((x.model.targets v .defaults).get? "p.A#f_1()").map (·.path) =
        some ("/api/p/A#f-1" : Text) :=
  ⟨_, _, rfl, rfl, rfl, rfl⟩

end ApiDocs
