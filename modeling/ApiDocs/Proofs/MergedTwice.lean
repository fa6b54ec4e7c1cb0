import ApiDocs.Proofs.DeepMerge

/-!
# Merging twice

Entries that come of merging onto a base are merged onto it once more. Where the base has no lists,
that changes nothing. Where it has an empty list under an additive key, the list that comes of it is
united with nothing: it is in order, unless what is not a number stands in it, and then it is
arranged anew.
-/

namespace ApiDocs.Value

/-- There are no lists inside a value, and the keys of each mapping are different scalars. -/
inductive Bare : Value → Prop
  | scalar {v : Value} : v.isScalar = true → Bare v
  | map {es : List (Value × Value)} : DistinctKeys es → (∀ e ∈ es, Bare e.2) → Bare (map es)

lemma Bare.wellKeyed {v : Value} (h : v.Bare) : v.WellKeyed := by
  induction h with
  | scalar h => exact .scalar h
  | map hdistinct _ ih => exact .map hdistinct ih

variable [Arrangement] {base es merged : List (Value × Value)}

/-! ### Entries that are merged already -/

/-- Entries that come of merging onto a base: they begin with the keys of the base, and the value of
each comes of merging some value onto the one of the base. -/
structure Merged (base es : List (Value × Value)) : Prop where
  keys : base.map (·.1) <+: es.map (·.1)
  distinct : DistinctKeys es
  values : ∀ e ∈ es, ∃ v : Value, v.WellKeyed ∧ mergeValue e.1 (find? e.1 base) v = .ok e.2

/-- Where some entries are merged, and the others begin with the keys of what is left of the base,
the others take their places, each with its merged value. -/
lemma mergeEntries_append (again : Value → Value → Value) {done rest : List (Value × Value)}
    (hkeys : base.map (·.1) <+: rest.map (·.1)) (hdistinct : DistinctKeys rest)
    (hdone : ∀ d ∈ done, ∀ e ∈ rest, d.1.sameKey e.1 = false)
    (hagain : ∀ e ∈ rest, mergeValue e.1 (find? e.1 base) e.2 = .ok (again e.1 e.2)) :
    mergeEntries (done ++ base) rest = .ok (done ++ rest.map fun e => (e.1, again e.1 e.2)) := by
  -- what is merged stands in front, what is left of the base behind it
  induction rest generalizing done base with
  | nil =>
    obtain rfl : base = [] := by simpa using hkeys
    simp [mergeEntries]
  | cons e rest ih =>
    have hnew : find? e.1 done = none := find?_eq_none.2 fun d hd => hdone d hd e (.head _)
    have hdone' : ∀ d ∈ done ++ [(e.1, again e.1 e.2)], ∀ f ∈ rest, d.1.sameKey f.1 = false := by
      intro d hd f hf
      rcases List.mem_append.1 hd with hd | hd
      · exact hdone d hd f (.tail _ hf)
      · obtain rfl := List.mem_singleton.1 hd
        exact hdistinct.ne_head f hf
    rw [mergeEntries, find?_append, hnew, Option.none_or, hagain e (.head _), ok_bind,
      put_append _ hnew]
    cases base with
    | nil =>
      have hkeys : ([] : List (Value × Value)).map (·.1) <+: rest.map (·.1) := List.nil_prefix
      have hrest := ih hkeys hdistinct.of_cons hdone' fun d hd => hagain d (.tail _ hd)
      simpa [put] using hrest
    | cons b base =>
      obtain ⟨hkey, hkeys⟩ := List.cons_prefix_cons.1 hkeys
      replace hkey : b.1 = e.1 := hkey
      have hput : put e.1 (again e.1 e.2) (b :: base) = (e.1, again e.1 e.2) :: base := by
        rw [put, hkey, if_pos (sameKey_self.2 hdistinct.head_isScalar)]
      have hagain' : ∀ d ∈ rest, mergeValue d.1 (find? d.1 base) d.2 = .ok (again d.1 d.2) := by
        intro d hd
        rw [← hagain d (.tail _ hd), find?, hkey, hdistinct.ne_head d hd]
        rfl
      have hrest := ih hkeys hdistinct.of_cons hdone' hagain'
      rw [hput]
      simpa using hrest

/-- Entries whose values all stay are merged without a change. -/
lemma mergeEntries_of_stays (hkeys : base.map (·.1) <+: es.map (·.1)) (hdistinct : DistinctKeys es)
    (hstays : ∀ e ∈ es, mergeValue e.1 (find? e.1 base) e.2 = .ok e.2) :
    mergeEntries base es = .ok es := by
  have hdone : ∀ d ∈ ([] : List (Value × Value)), ∀ e ∈ es, d.1.sameKey e.1 = false := nofun
  have happend := mergeEntries_append (fun _ v => v) hkeys hdistinct hdone hstays
  simpa using happend

namespace Merged

variable {again : Value → Value → Value}

/-- Merging again gives each entry what merging again gives its value. -/
lemma mergeEntries_eq (h : Merged base es)
    (hagain : ∀ key v w : Value, v.WellKeyed → mergeValue key (find? key base) v = .ok w →
      mergeValue key (find? key base) w = .ok (again key w)) :
    mergeEntries base es = .ok (es.map fun e => (e.1, again e.1 e.2)) := by
  have hdone : ∀ d ∈ ([] : List (Value × Value)), ∀ e ∈ es, d.1.sameKey e.1 = false := nofun
  refine mergeEntries_append again h.keys h.distinct hdone fun e he => ?_
  obtain ⟨v, hv, hvalue⟩ := h.values e he
  exact hagain e.1 v e.2 hv hvalue

lemma put (h : Merged base es) {key v w : Value} (hkey : key.isScalar = true) (hv : v.WellKeyed)
    (hw : mergeValue key (find? key base) v = .ok w) : Merged base (Value.put key w es) where
  keys := by
    rw [map_fst_put]
    exact h.keys.trans (List.prefix_append _ _)
  distinct := h.distinct.put hkey w
  values e he := by
    rcases mem_put he with he | ⟨rfl | hsame, rfl⟩
    · exact h.values e he
    · exact ⟨v, hv, hw⟩
    · exact ⟨v, hv, by rw [find?_congr hsame, mergeValue_congr hsame, hw]⟩

/-- Merging entries one after the other, under keys that are as in the base. -/
lemma merge {current : List (Value × Value)} (h : Merged base current) (hes : (map es).WellKeyed)
    (hfresh : ∀ e ∈ es, find? e.1 current = find? e.1 base)
    (hm : mergeEntries current es = .ok merged) : Merged base merged := by
  induction es generalizing current with
  | nil =>
    rw [mergeEntries] at hm
    obtain rfl := Except.ok.inj hm
    exact h
  | cons e es ih =>
    obtain ⟨hdistinct, hvalues⟩ := wellKeyed_map_iff.1 hes
    obtain ⟨w, hw, hrest⟩ := mergeEntries_cons_ok hm
    rw [hfresh e (.head _)] at hw
    have hput := h.put hdistinct.head_isScalar (hvalues e (.head _)) hw
    have hes' : (map es).WellKeyed := .map hdistinct.of_cons fun d hd => hvalues d (.tail _ hd)
    refine ih hput hes' (fun d hd => ?_) hrest
    rw [find?_put, hdistinct.ne_head d hd, hfresh d (.tail _ hd)]
    rfl

end Merged

/-! ### Bases without lists -/

lemma mergeValue_of_isScalar {v : Value} (h : v.isScalar = true) (key : Value)
    (old : Option Value) : mergeValue key old v = .ok v := by
  rcases mergeValue_cases key old v with
    ⟨_, _, -, rfl, -⟩ | ⟨_, _, -, -, rfl, -⟩ | ⟨-, -, heq⟩
  · nomatch h
  · nomatch h
  · exact heq

lemma mergeValue_none (key v : Value) : mergeValue key none v = .ok v := by
  rcases mergeValue_cases key none v with
    ⟨_, _, hold, -⟩ | ⟨_, _, -, hold, -⟩ | ⟨-, -, heq⟩
  · nomatch hold
  · nomatch hold
  · exact heq

/-- Entries are merged onto themselves if the value of each is. -/
lemma merged_self (hdistinct : DistinctKeys base) (hvalues : ∀ e ∈ base, e.2.WellKeyed)
    (hself : ∀ e ∈ base, mergeValue e.1 (some e.2) e.2 = .ok e.2) : Merged base base where
  keys := List.prefix_rfl
  distinct := hdistinct
  values e he := ⟨e.2, hvalues e he, by rw [hdistinct.find?_of_mem he, hself e he]⟩

lemma Bare.mergeValue_self {v : Value} (h : v.Bare) (key : Value) :
    mergeValue key (some v) v = .ok v := by
  induction h generalizing key with
  | scalar hv => exact mergeValue_of_isScalar hv key _
  | map hdistinct _ ih =>
    rw [mergeValue, mergeEntries_of_stays List.prefix_rfl hdistinct fun e he => ?_, map_ok]
    rw [hdistinct.find?_of_mem he, ih e he]

lemma mergeValue_again {key v w : Value} {old : Option Value}
    (hstands : mergeValue key old v = .ok v) (h : mergeValue key old v = .ok w) :
    mergeValue key old w = .ok w := by
  obtain rfl := Except.ok.inj (hstands.symm.trans h)
  exact h

/-- What comes of merging onto a bare value stays if it is merged onto it again. -/
lemma Bare.mergeValue_stays {o : Value} (ho : o.Bare) {key v w : Value} (hv : v.WellKeyed)
    (h : mergeValue key (some o) v = .ok w) : mergeValue key (some o) w = .ok w := by
  induction ho generalizing key v w with
  | @scalar o hscalar =>
    rcases mergeValue_cases key (some o) v with
      ⟨_, _, hold, -⟩ | ⟨_, _, -, hold, -⟩ | ⟨-, -, heq⟩
    · rw [Option.some.inj hold] at hscalar
      cases hscalar
    · rw [Option.some.inj hold] at hscalar
      cases hscalar
    · exact mergeValue_again heq h
  | @map os hdistinct hbare ih =>
    rcases mergeValue_cases key (some (Value.map os)) v with
      ⟨os', es, hold, rfl, heq⟩ | ⟨_, _, -, hold, -⟩ | ⟨-, -, heq⟩
    · obtain rfl : os = os' := by simpa using hold
      obtain ⟨ms, hms, rfl⟩ := map_eq_ok_iff.1 (heq.symm.trans h)
      have hself : Merged os os := merged_self hdistinct (fun e he => (hbare e he).wellKeyed)
        fun e he => (hbare e he).mergeValue_self e.1
      have hmerged := hself.merge hv (fun _ _ => rfl) hms
      have hstays : mergeEntries os ms = .ok ms := by
        refine mergeEntries_of_stays hmerged.keys hmerged.distinct fun e he => ?_
        obtain ⟨v, hv, hw⟩ := hmerged.values e he
        cases hold : find? e.1 os with
        | none => exact mergeValue_none e.1 e.2
        | some o =>
          obtain ⟨d, hd, -, rfl⟩ := mem_of_find? hold
          rw [hold] at hw
          exact ih d hd hv hw
      rw [mergeValue, hstays, map_ok]
    · cases hold
    · exact mergeValue_again heq h

/-! ### Lists that are united with nothing -/

/-- What a value becomes if it is merged onto an empty list once more. -/
def mergedAgain (key : Value) : Value → Value
  | list zs => if isAdditive key then list ((union [] zs).toOption.getD zs) else list zs
  | v => v

lemma mergedAgain_of_not_additive {key : Value} (h : isAdditive key = false) (v : Value) :
    mergedAgain key v = v := by
  cases v with
  | list zs => simp [mergedAgain, h]
  | null | bool _ | int _ | float _ | text _ | map _ => rfl

lemma mergedAgain_list {key : Value} (h : isAdditive key = true) {zs zs' : List Value}
    (hunion : union [] zs = .ok zs') : mergedAgain key (list zs) = list zs' := by
  rw [mergedAgain, if_pos h, hunion]
  rfl

/-- Under keys that are not additive, all values stay. -/
lemma map_mergedAgain_eq_self (h : ∀ e ∈ es, isAdditive e.1 = false) :
    es.map (fun e => (e.1, mergedAgain e.1 e.2)) = es := by
  refine (List.map_congr_left fun e he => ?_).trans (List.map_id es)
  rw [mergedAgain_of_not_additive (h e he)]
  rfl

/-- As keys are distinct, no more than the value under the additive key is another one. -/
lemma map_mergedAgain_eq_put (h : DistinctKeys es) {v : Value}
    (hv : find? (text "external_packages") es = some v) :
    es.map (fun e => (e.1, mergedAgain e.1 e.2)) =
      put (text "external_packages") (mergedAgain (text "external_packages") v) es := by
  induction es with
  | nil => nomatch hv
  | cons e es ih =>
    rw [find?] at hv
    rw [List.map_cons, put]
    split at hv
    · next hsame =>
      obtain rfl := Option.some.inj hv
      have hrest : ∀ d ∈ es, isAdditive d.1 = false := by
        intro d hd
        rw [isAdditive, sameKey_comm, ← sameKey_congr hsame, h.ne_head d hd]
      rw [if_pos hsame, isAdditive_iff.1 hsame, map_mergedAgain_eq_self hrest]
    · next hsame =>
      have hstays : isAdditive e.1 = false := by simpa [isAdditive] using hsame
      rw [if_neg hsame, mergedAgain_of_not_additive hstays, ih h.of_cons hv]

/-- A list that comes of merging onto an empty one under an additive key is a union. -/
lemma exists_union {key v : Value} {zs : List Value} (hadd : isAdditive key = true)
    (h : mergeValue key (some (list [])) v = .ok (list zs)) : ∃ ys, union [] ys = .ok zs := by
  rcases mergeValue_cases key (some (list [])) v with
    ⟨_, _, hold, -⟩ | ⟨xs, ys, -, hold, -, heq⟩ | ⟨-, hno, heq⟩
  · nomatch hold
  · obtain rfl : [] = xs := by simpa using hold
    obtain ⟨zs', hzs, hlist⟩ := map_eq_ok_iff.1 (heq.symm.trans h)
    obtain rfl : zs = zs' := by simpa using hlist.symm
    exact ⟨ys, hzs⟩
  · exact absurd (Except.ok.inj (heq.symm.trans h)) (hno [] zs hadd rfl)

/-- What comes of merging onto an empty list is merged onto it again. -/
lemma mergeValue_mergedAgain {key v w : Value} (h : mergeValue key (some (list [])) v = .ok w) :
    mergeValue key (some (list [])) w = .ok (mergedAgain key w) := by
  rcases mergeValue_cases key (some (list [])) w with
    ⟨_, _, hold, -⟩ | ⟨xs, zs, hadd, hold, rfl, heq⟩ | ⟨-, hlists, heq⟩
  · nomatch hold
  · obtain rfl : [] = xs := by simpa using hold
    obtain ⟨ys, hzs⟩ := exists_union hadd h
    obtain ⟨hordered, hunordered, -⟩ := union_nil_union hzs
    obtain ⟨zs', hagain⟩ : ∃ zs', union [] zs = .ok zs' := by
      by_cases hzs : Unordered zs
      · exact ⟨_, hunordered hzs⟩
      · exact ⟨_, hordered hzs⟩
    rw [heq, hagain, mergedAgain_list hadd hagain]
    rfl
  · rw [heq]
    cases w with
    | list zs =>
      have hadd : isAdditive key = false := by
        by_contra hadd
        exact hlists [] zs (by simpa using hadd) rfl rfl
      rw [mergedAgain_of_not_additive hadd]
    | null | bool _ | int _ | float _ | text _ | map _ => rfl

end ApiDocs.Value
