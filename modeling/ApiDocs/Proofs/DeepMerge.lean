import ApiDocs.Proofs.Failing
import ApiDocs.Proofs.Unions

/-!
# Deep merging, path by path

What a merge holds at the end of a path of keys is told by what the base and the update hold there,
and by whether the update ends on the way. The merge fails exactly if, somewhere under an additive
key, two lists meet that cannot be put in one order.
-/

namespace ApiDocs.Value

/-! ### Paths -/

/-- Whether a value is a mapping. -/
def isMap : Value → Bool
  | map _ => true
  | _ => false

/-- The value at the end of a path of keys, which leads through mappings. -/
def at? (v : Value) : List Value → Option Value
  | [] => some v
  | key :: path =>
    match v with
    | map es => (find? key es).bind fun w => w.at? path
    | _ => none

/-- The keys of a mapping are different scalars, in all mappings inside a value. -/
inductive WellKeyed : Value → Prop
  | scalar {v : Value} : v.isScalar = true → WellKeyed v
  | list {vs : List Value} : (∀ v ∈ vs, WellKeyed v) → WellKeyed (list vs)
  | map {es : List (Value × Value)} : DistinctKeys es → (∀ e ∈ es, WellKeyed e.2) →
      WellKeyed (map es)

/-- The update ends on the way: at a proper beginning of the path it has something other than a
mapping. -/
def Covers (update : Value) (path : List Value) : Prop :=
  ∃ start v, start <+: path ∧ start ≠ path ∧ update.at? start = some v ∧ v.isMap = false

/-- Both sides have a list at the end of a path whose last key is additive. -/
structure ListsMeet (base update : Value) (path xs ys : List Value) : Prop where
  additive : ∃ key ∈ path.getLast?, isAdditive key = true
  base : base.at? path = some (list xs)
  update : update.at? path = some (list ys)

/-- What the merge of an update into a base holds at the end of a path. -/
structure MergedAt (base update merged : Value) (path : List Value) : Prop where
  kept : update.at? path = none → ¬ update.Covers path → merged.at? path = base.at? path
  covered : update.Covers path → merged.at? path = none
  replaced : ∀ v, update.at? path = some v → v.isMap = false →
    (∀ xs ys, ¬ ListsMeet base update path xs ys) → merged.at? path = some v
  united : ∀ xs ys, ListsMeet base update path xs ys →
    ∃ zs, merged.at? path = some (list zs) ∧ IsUnion xs ys zs
  planted : ∀ es, update.at? path = some (map es) → (∀ os, base.at? path ≠ some (map os)) →
    merged.at? path = some (map es)
  nested : ∀ os es, base.at? path = some (map os) → update.at? path = some (map es) →
    ∃ ms, merged.at? path = some (map ms)

@[simp] lemma at?_nil (v : Value) : v.at? [] = some v := by
  cases v <;> rfl

@[simp] lemma at?_map_cons (es : List (Value × Value)) (key : Value) (path : List Value) :
    (map es).at? (key :: path) = (find? key es).bind fun w => w.at? path := rfl

lemma at?_cons_of_not_isMap {v : Value} (h : v.isMap = false) (key : Value) (path : List Value) :
    v.at? (key :: path) = none := by
  cases v with
  | map es => nomatch h
  | null | bool _ | int _ | float _ | text _ | list _ => rfl

/-- A path that goes on under a key leads through a mapping there. -/
lemma exists_map_of_at? {es : List (Value × Value)} {key key' w : Value} {path : List Value}
    (h : (map es).at? (key :: key' :: path) = some w) :
    ∃ vs, find? key es = some (map vs) ∧ (map vs).at? (key' :: path) = some w := by
  obtain ⟨v, hv, hat⟩ := Option.bind_eq_some_iff.1 h
  cases v with
  | map vs => exact ⟨vs, hv, hat⟩
  | null | bool _ | int _ | float _ | text _ | list _ => nomatch hat

lemma covers_map_cons {es : List (Value × Value)} {key : Value} {path : List Value} :
    (map es).Covers (key :: path) ↔ ∃ v, find? key es = some v ∧ v.Covers path := by
  constructor
  · rintro ⟨start, w, hstart, hne, hat, hw⟩
    cases start with
    | nil =>
      obtain rfl := Option.some.inj hat
      nomatch hw
    | cons key' start =>
      obtain ⟨rfl, hprefix⟩ := List.cons_prefix_cons.1 hstart
      obtain ⟨v, hv, hend⟩ := Option.bind_eq_some_iff.1 hat
      exact ⟨v, hv, start, w, hprefix, fun heq => hne (heq ▸ rfl), hend, hw⟩
  · rintro ⟨v, hv, start, w, hstart, hne, hat, hw⟩
    refine ⟨key :: start, w, List.cons_prefix_cons.2 ⟨rfl, hstart⟩, ?_, ?_, hw⟩
    · simpa using hne
    · simpa [hv] using hat

/-- What is no mapping ends on the way to everything below it. -/
lemma covers_of_not_isMap {v : Value} (h : v.isMap = false) {path : List Value} :
    v.Covers path ↔ path ≠ [] := by
  constructor
  · rintro ⟨start, w, hstart, hne, -⟩ rfl
    exact hne (List.prefix_nil.1 hstart)
  · intro hne
    exact ⟨[], v, List.nil_prefix, hne.symm, at?_nil v, h⟩

lemma at?_append (v : Value) (path path' : List Value) :
    v.at? (path ++ path') = (v.at? path).bind fun w => w.at? path' := by
  induction path generalizing v with
  | nil => simp
  | cons key path ih =>
    cases v with
    | map es => simp [Option.bind_assoc, ih]
    | null | bool _ | int _ | float _ | text _ | list _ => rfl

lemma Covers.at?_eq_none {v : Value} {path : List Value} (h : v.Covers path) :
    v.at? path = none := by
  obtain ⟨start, w, ⟨rest, rfl⟩, hne, hat, hw⟩ := h
  cases rest with
  | nil => simp at hne
  | cons key rest => rw [at?_append, hat, Option.bind_some, at?_cons_of_not_isMap hw]

variable {base es merged : List (Value × Value)}

/-! ### Distinct keys -/

lemma wellKeyed_list_iff {vs : List Value} : (list vs).WellKeyed ↔ ∀ v ∈ vs, v.WellKeyed := by
  constructor
  · intro h
    cases h with
    | scalar h => nomatch h
    | list hvs => exact hvs
  · exact .list

lemma wellKeyed_map_iff :
    (map es).WellKeyed ↔ DistinctKeys es ∧ ∀ e ∈ es, e.2.WellKeyed := by
  constructor
  · intro h
    cases h with
    | scalar h => nomatch h
    | map hkeys hvalues => exact ⟨hkeys, hvalues⟩
  · rintro ⟨hkeys, hvalues⟩
    exact .map hkeys hvalues

lemma wellKeyed_of_find? (h : (map es).WellKeyed) {key v : Value} (hfind : find? key es = some v) :
    v.WellKeyed := by
  obtain ⟨e, he, -, rfl⟩ := mem_of_find? hfind
  exact (wellKeyed_map_iff.1 h).2 e he

lemma wellKeyed_put (h : (map es).WellKeyed) {key v : Value} (hkey : key.isScalar = true)
    (hv : v.WellKeyed) : (map (put key v es)).WellKeyed := by
  obtain ⟨hkeys, hvalues⟩ := wellKeyed_map_iff.1 h
  refine .map (hkeys.put hkey v) fun e he => ?_
  rcases mem_put he with he | ⟨-, rfl⟩
  · exact hvalues e he
  · exact hv

/-! ### Where lists meet -/

/-- Lists meet under a key, or further inside the mappings that are there. -/
lemma listsMeet_cons {key : Value} {path xs ys : List Value} :
    ListsMeet (map base) (map es) (key :: path) xs ys ↔
      (path = [] ∧ isAdditive key = true ∧ find? key base = some (list xs) ∧
        find? key es = some (list ys)) ∨
      ∃ os vs, find? key base = some (map os) ∧ find? key es = some (map vs) ∧
        ListsMeet (map os) (map vs) path xs ys := by
  cases path with
  | nil =>
    constructor
    · rintro ⟨hadd, hbase, hupdate⟩
      exact .inl ⟨rfl, by simpa using hadd, by simpa using hbase, by simpa using hupdate⟩
    · rintro (⟨-, hadd, hbase, hupdate⟩ | ⟨os, vs, -, -, hadd, -, -⟩)
      · exact ⟨by simpa using hadd, by simpa using hbase, by simpa using hupdate⟩
      · simp at hadd
  | cons key' path =>
    constructor
    · rintro ⟨hadd, hbase, hupdate⟩
      obtain ⟨os, hos, hbase⟩ := exists_map_of_at? hbase
      obtain ⟨vs, hvs, hupdate⟩ := exists_map_of_at? hupdate
      exact .inr ⟨os, vs, hos, hvs, by simpa using hadd, hbase, hupdate⟩
    · rintro (⟨hnil, -⟩ | ⟨os, vs, hos, hvs, hadd, hbase, hupdate⟩)
      · nomatch hnil
      · refine ⟨by simpa using hadd, ?_, ?_⟩
        · rw [at?_map_cons, hos, Option.bind_some, hbase]
        · rw [at?_map_cons, hvs, Option.bind_some, hupdate]

lemma not_listsMeet_nil {v w : Value} {xs ys : List Value} : ¬ ListsMeet v w [] xs ys := by
  rintro ⟨hadd, -, -⟩
  simp at hadd

/-! ### What a merge holds -/

variable {key : Value} {path : List Value}

lemma mergedAt_nil : MergedAt (map base) (map es) (map merged) [] where
  kept h := by simp at h
  covered h := by simpa using h.at?_eq_none
  replaced v h hv := by
    obtain rfl := Option.some.inj h
    nomatch hv
  united _ _ hmeet := absurd hmeet not_listsMeet_nil
  planted _ _ h := absurd rfl (h base)
  nested _ _ _ _ := ⟨merged, rfl⟩

/-- What lies under a key that the update does not have is kept. -/
lemma mergedAt_of_none (hupdate : find? key es = none)
    (hmerged : find? key merged = find? key base) :
    MergedAt (map base) (map es) (map merged) (key :: path) where
  kept _ _ := by rw [at?_map_cons, at?_map_cons, hmerged]
  covered h := by
    obtain ⟨v, hv, -⟩ := covers_map_cons.1 h
    rw [hupdate] at hv
    nomatch hv
  replaced v h := by simp [hupdate] at h
  united xs ys h := by simpa [hupdate] using h.update
  planted es h := by simp [hupdate] at h
  nested os es _ h := by simp [hupdate] at h

/-- What lies under the key of two mappings is what lies in their merge. -/
lemma mergedAt_of_maps {os vs ms : List (Value × Value)}
    (h : MergedAt (map os) (map vs) (map ms) path) (hbase : find? key base = some (map os))
    (hupdate : find? key es = some (map vs)) (hmerged : find? key merged = some (map ms)) :
    MergedAt (map base) (map es) (map merged) (key :: path) := by
  have hcovers : (map es).Covers (key :: path) ↔ (map vs).Covers path := by
    simp [covers_map_cons, hupdate]
  have hmeet (xs ys : List Value) : ListsMeet (map base) (map es) (key :: path) xs ys ↔
      ListsMeet (map os) (map vs) path xs ys := by
    simp [listsMeet_cons, hbase, hupdate]
  have hbase' : (map base).at? (key :: path) = (map os).at? path := by simp [hbase]
  have hupdate' : (map es).at? (key :: path) = (map vs).at? path := by simp [hupdate]
  have hmerged' : (map merged).at? (key :: path) = (map ms).at? path := by simp [hmerged]
  refine ⟨?_, ?_, ?_, ?_, ?_, ?_⟩ <;> simp only [hcovers, hmeet, hbase', hupdate', hmerged']
  · exact h.kept
  · exact h.covered
  · exact h.replaced
  · exact h.united
  · exact h.planted
  · exact h.nested

/-- Under the key of two lists that are united there is their union, and nothing inside it. -/
lemma mergedAt_of_lists {xs ys zs : List Value} (hadd : isAdditive key = true)
    (hunion : IsUnion xs ys zs) (hbase : find? key base = some (list xs))
    (hupdate : find? key es = some (list ys)) (hmerged : find? key merged = some (list zs)) :
    MergedAt (map base) (map es) (map merged) (key :: path) := by
  have hbase' : (map base).at? (key :: path) = (list xs).at? path := by simp [hbase]
  have hupdate' : (map es).at? (key :: path) = (list ys).at? path := by simp [hupdate]
  have hmerged' : (map merged).at? (key :: path) = (list zs).at? path := by simp [hmerged]
  cases path with
  | nil =>
    have hmeet : ListsMeet (map base) (map es) [key] xs ys :=
      listsMeet_cons.2 (.inl ⟨rfl, hadd, hbase, hupdate⟩)
    exact
      { kept := fun h => by simp [hupdate] at h
        covered := fun h => by simpa [hupdate] using h.at?_eq_none
        replaced := fun _ _ _ hno => absurd hmeet (hno xs ys)
        united := fun xs' ys' h => by
          obtain rfl : xs = xs' := by simpa [hbase] using h.base
          obtain rfl : ys = ys' := by simpa [hupdate] using h.update
          exact ⟨zs, hmerged', hunion⟩
        planted := fun _ h => by simp [hupdate] at h
        nested := fun _ _ _ h => by simp [hupdate] at h }
  | cons key' path =>
    have hcovers : (map es).Covers (key :: key' :: path) :=
      covers_map_cons.2 ⟨_, hupdate, (covers_of_not_isMap rfl).2 (List.cons_ne_nil _ _)⟩
    exact
      { kept := fun _ h => absurd hcovers h
        covered := fun _ => hmerged'
        replaced := fun _ h => nomatch hupdate' ▸ h
        united := fun _ _ h => nomatch hupdate' ▸ h.update
        planted := fun _ h => nomatch hupdate' ▸ h
        nested := fun _ _ _ h => nomatch hupdate' ▸ h }

/-- Under the key of any other value there is what lies in that value. -/
lemma mergedAt_of_value {v : Value}
    (hmaps : ∀ os vs, find? key base = some (map os) → v ≠ map vs)
    (hlists : ∀ xs ys, isAdditive key = true → find? key base = some (list xs) → v ≠ list ys)
    (hupdate : find? key es = some v) (hmerged : find? key merged = some v) :
    MergedAt (map base) (map es) (map merged) (key :: path) := by
  have hsame : (map merged).at? (key :: path) = (map es).at? (key :: path) := by
    rw [at?_map_cons, at?_map_cons, hmerged, hupdate]
  exact
    { kept := fun h hcovers => by
        rw [hsame, h, eq_comm]
        match path with
        | [] => simp [hupdate] at h
        | key' :: path =>
          by_contra hsome
          obtain ⟨w, hw⟩ := Option.ne_none_iff_exists'.1 hsome
          obtain ⟨os, hbase, -⟩ := exists_map_of_at? hw
          refine hcovers (covers_map_cons.2 ⟨v, hupdate, (covers_of_not_isMap ?_).2 nofun⟩)
          cases v with
          | map vs => exact absurd rfl (hmaps os vs hbase)
          | null | bool _ | int _ | float _ | text _ | list _ => rfl
      covered := fun h => hsame.trans h.at?_eq_none
      replaced := fun _ h _ _ => hsame.trans h
      united := fun xs ys h => by
        rcases listsMeet_cons.1 h with ⟨-, hadd, hbase, hlist⟩ | ⟨os, vs, hbase, hmap, -⟩
        · exact absurd (Option.some.inj (hupdate.symm.trans hlist)) (hlists xs ys hadd hbase)
        · exact absurd (Option.some.inj (hupdate.symm.trans hmap)) (hmaps os vs hbase)
      planted := fun _ h _ => hsame.trans h
      nested := fun _ vs _ h => ⟨vs, hsame.trans h⟩ }

/-! ### One entry after the other -/

lemma isAdditive_iff {key : Value} : isAdditive key = true ↔ key = text "external_packages" :=
  sameKey_text_iff

lemma isAdditive_congr {a b : Value} (h : a.sameKey b = true) : isAdditive a = isAdditive b :=
  sameKey_congr h _

section

variable [Arrangement]

/-- Two mappings are merged, two lists under an additive key are united, and otherwise the update's
value stands. -/
lemma mergeValue_cases (key : Value) (old : Option Value) (v : Value) :
    (∃ os es, old = some (map os) ∧ v = map es ∧
      mergeValue key old v = map <$> mergeEntries os es) ∨
    (∃ xs ys, isAdditive key = true ∧ old = some (list xs) ∧ v = list ys ∧
      mergeValue key old v = list <$> union xs ys) ∨
    ((∀ os es, old = some (map os) → v ≠ map es) ∧
      (∀ xs ys, isAdditive key = true → old = some (list xs) → v ≠ list ys) ∧
      mergeValue key old v = .ok v) := by
  cases v with
  | map es =>
    match old with
    | some (map os) => exact .inl ⟨os, es, rfl, rfl, by rw [mergeValue]⟩
    | none | some null | some (bool _) | some (int _) | some (float _) | some (text _)
    | some (list _) => exact .inr (.inr ⟨nofun, nofun, by simp [mergeValue]⟩)
  | list ys =>
    match old with
    | some (list xs) =>
      by_cases hkey : isAdditive key = true
      · exact .inr (.inl ⟨xs, ys, hkey, rfl, rfl, by simp [mergeValue, hkey]⟩)
      · exact .inr (.inr ⟨nofun, fun _ _ h => absurd h hkey, by simp [mergeValue, hkey]⟩)
    | none | some null | some (bool _) | some (int _) | some (float _) | some (text _)
    | some (map _) => exact .inr (.inr ⟨nofun, nofun, by simp [mergeValue]⟩)
  | null | bool _ | int _ | float _ | text _ =>
    exact .inr (.inr ⟨nofun, nofun, by simp [mergeValue]⟩)

lemma mergeValue_congr {a b : Value} (h : a.sameKey b = true) (old : Option Value) (v : Value) :
    mergeValue a old v = mergeValue b old v := by
  cases v with
  | list ys => simp only [mergeValue, isAdditive_congr h]
  | null | bool _ | int _ | float _ | text _ | map _ => simp only [mergeValue]

lemma mergeEntries_cons_ok {key value : Value} {rest : List (Value × Value)}
    (h : mergeEntries base ((key, value) :: rest) = .ok merged) :
    ∃ v, mergeValue key (find? key base) value = .ok v ∧
      mergeEntries (put key v base) rest = .ok merged := by
  rw [mergeEntries] at h
  exact bind_eq_ok_iff.1 h

/-- A key that the update does not have keeps its value. -/
lemma find?_mergeEntries_of_none (hm : mergeEntries base es = .ok merged) {key : Value}
    (hkey : find? key es = none) : find? key merged = find? key base := by
  induction es generalizing base with
  | nil =>
    rw [mergeEntries] at hm
    obtain rfl := Except.ok.inj hm
    rfl
  | cons e es ih =>
    obtain ⟨v, -, hrest⟩ := mergeEntries_cons_ok hm
    have hnone := find?_eq_none.1 hkey
    rw [ih hrest (find?_eq_none.2 fun d hd => hnone d (.tail _ hd)), find?_put,
      hnone e (.head _)]
    rfl

/-- A key that the update has gets the merged value of both. -/
lemma find?_mergeEntries_of_some (h : DistinctKeys es) (hm : mergeEntries base es = .ok merged)
    {key v : Value} (hkey : find? key es = some v) :
    ∃ w, mergeValue key (find? key base) v = .ok w ∧ find? key merged = some w := by
  induction es generalizing base with
  | nil => nomatch hkey
  | cons e es ih =>
    obtain ⟨w, hw, hrest⟩ := mergeEntries_cons_ok hm
    rw [find?] at hkey
    split at hkey
    · next hsame =>
      obtain rfl := Option.some.inj hkey
      refine ⟨w, ?_, ?_⟩
      · rw [← find?_congr hsame, ← mergeValue_congr hsame, hw]
      · rw [find?_mergeEntries_of_none hrest (h.find?_eq_none hsame), find?_put, if_pos hsame]
    · next hsame =>
      obtain ⟨x, hx, hfind⟩ := ih h.of_cons hrest hkey
      rw [find?_put, if_neg hsame] at hx
      exact ⟨x, hx, hfind⟩

/-- Entries are merged if the value of each is, whatever becomes of the others. -/
lemma mergeEntries_ok_of_forall (h : DistinctKeys es)
    (hall : ∀ e ∈ es, ∃ w, mergeValue e.1 (find? e.1 base) e.2 = .ok w) :
    ∃ merged, mergeEntries base es = .ok merged := by
  induction es generalizing base with
  | nil => exact ⟨base, by rw [mergeEntries]⟩
  | cons e es ih =>
    obtain ⟨w, hw⟩ := hall e (.head _)
    have hrest : ∀ d ∈ es, ∃ x, mergeValue d.1 (find? d.1 (put e.1 w base)) d.2 = .ok x := by
      intro d hd
      rw [find?_put, h.ne_head d hd]
      exact hall d (.tail _ hd)
    obtain ⟨merged, hmerged⟩ := ih h.of_cons hrest
    exact ⟨merged, by rw [mergeEntries, hw]; exact hmerged⟩

/-! ### Failing merges -/

mutual

lemma mergeEntries_error {base es : List (Value × Value)} {e : Failure}
    (h : mergeEntries base es = .error e) : e = .wrongSort := by
  match es with
  | [] =>
    rw [mergeEntries] at h
    nomatch h
  | (key, value) :: rest =>
    rw [mergeEntries] at h
    rcases bind_eq_error_iff.1 h with h | ⟨v, -, h⟩
    · exact mergeValue_error h
    · exact mergeEntries_error h

lemma mergeValue_error {key v : Value} {old : Option Value} {e : Failure}
    (h : mergeValue key old v = .error e) : e = .wrongSort := by
  rcases mergeValue_cases key old v with
    ⟨os, es, rfl, rfl, heq⟩ | ⟨xs, ys, -, rfl, rfl, heq⟩ | ⟨-, -, heq⟩ <;> rw [heq] at h
  · exact mergeEntries_error (map_eq_error_iff.1 h)
  · exact union_error (map_eq_error_iff.1 h)
  · nomatch h

end

/-! ### Keys that stay distinct -/

/-- A union has scalars only. -/
lemma wellKeyed_union {xs ys zs : List Value} (h : union xs ys = .ok zs) :
    (list zs).WellKeyed := by
  refine .list fun z hz => .scalar ?_
  have hmem := List.mem_of_find?_eq_some (((isUnion_of_ok h).mem_iff z).1 hz)
  exact (union_ok_iff.1 ⟨zs, h⟩).scalars z hmem

mutual

lemma wellKeyed_mergeEntries {base es merged : List (Value × Value)} (hbase : (map base).WellKeyed)
    (hes : (map es).WellKeyed) (hm : mergeEntries base es = .ok merged) :
    (map merged).WellKeyed := by
  match es with
  | [] =>
    rw [mergeEntries] at hm
    obtain rfl := Except.ok.inj hm
    exact hbase
  | (key, value) :: rest =>
    obtain ⟨hkeys, hvalues⟩ := wellKeyed_map_iff.1 hes
    obtain ⟨v, hv, hrest⟩ := mergeEntries_cons_ok hm
    have hold : ∀ o ∈ find? key base, o.WellKeyed := fun o ho => wellKeyed_of_find? hbase ho
    have hput := wellKeyed_put hbase hkeys.head_isScalar
      (wellKeyed_mergeValue hold (hvalues _ (.head _)) hv)
    exact wellKeyed_mergeEntries hput (.map hkeys.of_cons fun e he => hvalues e (.tail _ he)) hrest

lemma wellKeyed_mergeValue {key v w : Value} {old : Option Value}
    (hold : ∀ o ∈ old, o.WellKeyed) (hv : v.WellKeyed) (hm : mergeValue key old v = .ok w) :
    w.WellKeyed := by
  rcases mergeValue_cases key old v with
    ⟨os, es, rfl, rfl, heq⟩ | ⟨xs, ys, -, rfl, rfl, heq⟩ | ⟨-, -, heq⟩ <;> rw [heq] at hm
  · obtain ⟨ms, hms, rfl⟩ := map_eq_ok_iff.1 hm
    exact wellKeyed_mergeEntries (hold _ rfl) hv hms
  · obtain ⟨zs, hzs, rfl⟩ := map_eq_ok_iff.1 hm
    exact wellKeyed_union hzs
  · obtain rfl := Except.ok.inj hm
    exact hv

end

/-! ### Exactness -/

/-- Where a merge succeeds, lists that meet can be put in one order. -/
lemma unitable_of_ok {path xs ys : List Value} (hkeyed : (map es).WellKeyed)
    (hm : mergeEntries base es = .ok merged)
    (hmeet : ListsMeet (map base) (map es) path xs ys) : Unitable (xs ++ ys) := by
  induction path generalizing base es merged with
  | nil => exact absurd hmeet not_listsMeet_nil
  | cons key path ih =>
    have hkeys := (wellKeyed_map_iff.1 hkeyed).1
    rcases listsMeet_cons.1 hmeet with ⟨-, hadd, hbase, hupdate⟩ | ⟨os, vs, hos, hvs, hinside⟩
    · obtain ⟨w, hw, -⟩ := find?_mergeEntries_of_some hkeys hm hupdate
      rw [hbase, mergeValue, if_pos hadd] at hw
      obtain ⟨zs, hzs, -⟩ := map_eq_ok_iff.1 hw
      exact union_ok_iff.1 ⟨zs, hzs⟩
    · obtain ⟨w, hw, -⟩ := find?_mergeEntries_of_some hkeys hm hvs
      rw [hos, mergeValue] at hw
      obtain ⟨ms, hms, -⟩ := map_eq_ok_iff.1 hw
      exact ih (wellKeyed_of_find? hkeyed hvs) hms hinside

/-- Where all lists that meet can be put in one order, the merge succeeds. -/
lemma ok_of_unitable {base es : List (Value × Value)} (hkeyed : (map es).WellKeyed)
    (hall : ∀ path xs ys, ListsMeet (map base) (map es) path xs ys → Unitable (xs ++ ys)) :
    ∃ merged, mergeEntries base es = .ok merged := by
  obtain ⟨hkeys, hvalues⟩ := wellKeyed_map_iff.1 hkeyed
  refine mergeEntries_ok_of_forall hkeys fun ⟨key, v⟩ he => ?_
  have hfind : find? key es = some v := hkeys.find?_of_mem he
  rcases mergeValue_cases key (find? key base) v with
    ⟨os, vs, hos, rfl, heq⟩ | ⟨xs, ys, hadd, hxs, rfl, heq⟩ | ⟨-, -, heq⟩
  · -- the mapping in an entry is smaller than the entries
    have hsize : sizeOf vs < sizeOf es := by
      have hmem := List.sizeOf_lt_of_mem he
      simp only [Prod.mk.sizeOf_spec, map.sizeOf_spec] at hmem
      omega
    have hinside : ∀ path xs ys, ListsMeet (map os) (map vs) path xs ys → Unitable (xs ++ ys) := by
      intro path xs ys hmeet
      exact hall (key :: path) xs ys (listsMeet_cons.2 (.inr ⟨os, vs, hos, hfind, hmeet⟩))
    obtain ⟨ms, hms⟩ := ok_of_unitable (hvalues _ he) hinside
    exact ⟨map ms, by rw [heq, hms]; rfl⟩
  · obtain ⟨zs, hzs⟩ := union_ok_iff.2
      (hall [key] xs ys (listsMeet_cons.2 (.inl ⟨rfl, hadd, hxs, hfind⟩)))
    exact ⟨list zs, by rw [heq, hzs]; rfl⟩
  · exact ⟨v, heq⟩
termination_by sizeOf es

/-- What a merge holds at the end of every path. -/
lemma mergedAt_of_ok (hkeyed : (map es).WellKeyed) (hm : mergeEntries base es = .ok merged)
    (path : List Value) : MergedAt (map base) (map es) (map merged) path := by
  -- what the update has under the first key decides what can happen further along the path
  induction path generalizing base es merged with
  | nil => exact mergedAt_nil
  | cons key path ih =>
    cases hupdate : find? key es with
    | none => exact mergedAt_of_none hupdate (find?_mergeEntries_of_none hm hupdate)
    | some v =>
      obtain ⟨w, hw, hmerged⟩ :=
        find?_mergeEntries_of_some (wellKeyed_map_iff.1 hkeyed).1 hm hupdate
      rcases mergeValue_cases key (find? key base) v with
        ⟨os, vs, hbase, rfl, heq⟩ | ⟨xs, ys, hadd, hbase, rfl, heq⟩ | ⟨hmaps, hlists, heq⟩ <;>
        rw [heq] at hw
      · obtain ⟨ms, hms, rfl⟩ := map_eq_ok_iff.1 hw
        exact mergedAt_of_maps (ih (wellKeyed_of_find? hkeyed hupdate) hms) hbase hupdate hmerged
      · obtain ⟨zs, hzs, rfl⟩ := map_eq_ok_iff.1 hw
        exact mergedAt_of_lists hadd (isUnion_of_ok hzs) hbase hupdate hmerged
      · obtain rfl := Except.ok.inj hw
        exact mergedAt_of_value hmaps hlists hupdate hmerged

/-! ### Deep merging -/

/-- Merging a mapping into a base is exact at every path of keys, at any depth. It fails exactly if
somewhere two lists meet under an additive key that cannot be put in one order, and then always as
a fault of sort. Else the end of a path holds what the base has there, as long as the update has
nothing there and does not end on the way; nothing, if it ends on the way; a value of the update
that is no mapping; the union of two lists that meet under an additive key, which for texts is the
strictly ascending list of exactly those of either; the whole mapping of the update, where the base
has none; and some mapping where both have one. No key gets two entries. -/
theorem deepMerge_exact (base es : List (Value × Value)) (hkeyed : (map es).WellKeyed) :
    ((∃ merged, deepMerge base (map es) = .ok merged) ↔
      ∀ path xs ys, ListsMeet (map base) (map es) path xs ys → Unitable (xs ++ ys)) ∧
    (∀ e, deepMerge base (map es) = .error e → e = .wrongSort) ∧
    ∀ merged, deepMerge base (map es) = .ok merged →
      ((map base).WellKeyed → (map merged).WellKeyed) ∧
      ∀ path, MergedAt (map base) (map es) (map merged) path ∧
        ∀ us ws : List Text, ListsMeet (map base) (map es) path (us.map text) (ws.map text) →
          ∃ ts : List Text, (map merged).at? path = some (list (ts.map text)) ∧
            ts.Pairwise (· < ·) ∧ ∀ t, t ∈ ts ↔ t ∈ us ∨ t ∈ ws := by
  refine ⟨⟨?_, ok_of_unitable hkeyed⟩, fun e => mergeEntries_error, fun merged hm => ⟨?_, ?_⟩⟩
  · rintro ⟨merged, hm⟩ path xs ys hmeet
    exact unitable_of_ok hkeyed hm hmeet
  · intro hbase
    exact wellKeyed_mergeEntries hbase hkeyed hm
  · intro path
    have hat := mergedAt_of_ok hkeyed hm path
    refine ⟨hat, fun us ws hmeet => ?_⟩
    obtain ⟨zs, hzs, hunion⟩ := hat.united _ _ hmeet
    obtain ⟨ts, rfl, hts⟩ := hunion.texts
    exact ⟨ts, hzs, hts⟩

end

/-- Lists of packages that meet inside two mappings are united there. -/
theorem deepMerge_exact_packages :
    (map [(text "a", map [(text "external_packages", list [text "org", text "java"])])]).WellKeyed ∧
    ∃ merged,
      deepMerge [(text "a", map [(text "external_packages", list [text "javax", text "java"])])]
        (map [(text "a", map [(text "external_packages", list [text "org", text "java"])])]) =
          .ok merged ∧
      ∃ ts : List Text,
        (map merged).at? [text "a", text "external_packages"] = some (list (ts.map text)) ∧
        ts.Pairwise (· < ·) ∧
        ∀ t, t ∈ ts ↔ t ∈ (["javax", "java"] : List Text) ∨ t ∈ (["org", "java"] : List Text) := by
  have hkeyed : (map [(text "a",
      map [(text "external_packages", list [text "org", text "java"])])]).WellKeyed := by
    have htext (s : Text) : (text s).WellKeyed := .scalar rfl
    simp [wellKeyed_map_iff, wellKeyed_list_iff, distinctKeys_singleton, isScalar, htext]
  refine ⟨hkeyed, _, rfl, ?_⟩
  have hexact := deepMerge_exact
    [(text "a", map [(text "external_packages", list [text "javax", text "java"])])] _ hkeyed
  exact ((hexact.2.2 _ rfl).2 [text "a", text "external_packages"]).2 ["javax", "java"]
    ["org", "java"] ⟨⟨_, rfl, rfl⟩, rfl, rfl⟩

/-- Lists under an additive key are united whatever they hold: a list of numbers does not replace
another one. -/
theorem deepMerge_unites_numbers :
    (map [(text "external_packages", list [int 2])]).WellKeyed ∧
    deepMerge [(text "external_packages", list [int 1])]
      (map [(text "external_packages", list [int 2])]) =
        .ok [(text "external_packages", list [int 1, int 2])] ∧
    (map [(text "external_packages", list [int 2])]).at? [text "external_packages"] =
      some (list [int 2]) ∧
    (∀ ts : List Text, [int 2] ≠ ts.map text) ∧
    (map [(text "external_packages", list [int 1, int 2])]).at? [text "external_packages"] ≠
      some (list [int 2]) := by
  refine ⟨?_, rfl, rfl, ?_, ?_⟩
  · have hint : (int 2).WellKeyed := .scalar rfl
    simp [wellKeyed_map_iff, wellKeyed_list_iff, distinctKeys_singleton, isScalar, hint]
  · intro ts
    cases ts <;> simp
  · show some (list [int 1, int 2]) ≠ some (list [int 2])
    simp

end ApiDocs.Value
