import ApiDocs.CommandLine.Program
import ApiDocs.Proofs.MergedTwice

/-!
# Settings that are merged twice

The settings of a settings file are the defaults with overrides merged in. The command line sets
some of them, and then they are merged onto the defaults once more. That can only change how the
packages stand that are external: the defaults have no other list, and what the command line sets
are scalars that pass the check. The packages stand as before, unless they are numbers, not all of
which have a place in the order of numbers.
-/

namespace ApiDocs

namespace Settings

open Value

variable {s : Settings}

/-! ### The defaults as a base -/

lemma find?_defaults_of_additive {key : Value} (h : isAdditive key = true) :
    find? key defaults.entries = some (list []) := by
  obtain rfl := isAdditive_iff.1 h
  rfl

/-- The only list of the defaults is the one under the additive key. -/
lemma bare_of_find?_defaults {key o : Value} (h : isAdditive key = false)
    (ho : find? key defaults.entries = some o) : o.Bare := by
  have hreport : (map [(text "path", text "resolution_report.json")]).Bare :=
    .map (distinctKeys_singleton.2 rfl) (by simpa using .scalar rfl)
  have hbare : ∀ e ∈ defaults.entries, isAdditive e.1 = false → e.2.Bare := by
    simp only [defaults, List.forall_mem_cons]
    refine ⟨?_, ?_, ?_, ?_, ?_, ?_, ?_, ?_, ?_, ?_, nofun⟩
    case refine_9 => exact nofun
    case refine_10 => exact fun _ => hreport
    all_goals exact fun _ => .scalar rfl
  obtain ⟨e, he, hsame, rfl⟩ := mem_of_find? ho
  exact hbare e he (by rw [isAdditive_congr hsame, h])

section

variable [Arrangement]

lemma mergeValue_defaults_again {key v w : Value} (hv : v.WellKeyed)
    (h : mergeValue key (find? key defaults.entries) v = .ok w) :
    mergeValue key (find? key defaults.entries) w = .ok (mergedAgain key w) := by
  cases hadd : isAdditive key with
  | true =>
    rw [find?_defaults_of_additive hadd] at h ⊢
    exact mergeValue_mergedAgain h
  | false =>
    rw [mergedAgain_of_not_additive hadd]
    cases hold : find? key defaults.entries with
    | none => exact mergeValue_none key w
    | some o =>
      rw [hold] at h
      exact (bare_of_find?_defaults hadd hold).mergeValue_stays hv h

lemma merged_defaults : Merged defaults.entries defaults.entries := by
  have hdistinct : DistinctKeys defaults.entries := ⟨by decide, by decide⟩
  have hlist : union [] [] = .ok [] := rfl
  have hself : ∀ e ∈ defaults.entries,
      e.2.WellKeyed ∧ mergeValue e.1 (some e.2) e.2 = .ok e.2 := by
    rintro ⟨key, v⟩ he
    have hfind := hdistinct.find?_of_mem he
    cases hadd : isAdditive key with
    | true =>
      obtain rfl : list [] = v := by simpa [find?_defaults_of_additive hadd] using hfind
      refine ⟨.list nofun, ?_⟩
      rw [mergeValue, if_pos hadd, hlist]
      rfl
    | false =>
      have hbare := bare_of_find?_defaults hadd hfind
      exact ⟨hbare.wellKeyed, hbare.mergeValue_self key⟩
  exact merged_self hdistinct (fun e he => (hself e he).1) fun e he => (hself e he).2

end

/-! ### Settings that are checked -/

lemma checkChoice_eq_ok_iff {name : Text} {choices : List Text} :
    s.checkChoice name choices = .ok () ↔ ∃ c ∈ choices, s.get name = text c := by
  have hany : (choices.any fun c => (s.get name).sameKey (text c)) = true ↔
      ∃ c ∈ choices, s.get name = text c := by
    simp only [List.any_eq_true, sameKey_text_iff]
  rw [checkChoice, ← hany]
  split
  · next h => simp [h]
  · next h =>
    refine iff_of_false (fun hok => ?_) h
    obtain ⟨_, -, hthrow⟩ := bind_eq_ok_iff.1 hok
    nomatch hthrow

/-- The checked settings are those that are checked. -/
lemma check_eq_ok_iff {s' : Settings} :
    s.check = .ok s' ↔ s' = s ∧ (∃ f ∈ formats, s.get "format" = text f) ∧
      ∃ l ∈ layouts, s.get "layout" = text l := by
  rw [check, ← checkChoice_eq_ok_iff, ← checkChoice_eq_ok_iff]
  cases s.checkChoice "format" formats <;> cases s.checkChoice "layout" layouts <;>
    simp [pure, Except.pure, eq_comm]

/-! ### Settings that are merged again -/

@[simp] lemma get_set (s : Settings) (name name' : Text) (v : Value) :
    (s.set name v).get name' = if name = name' then v else s.get name' := by
  have hkey : (text name).sameKey (text name') = decide (name = name') := by
    simp [sameKey, integer?]
  rw [get, get?, set, find?_put, hkey]
  by_cases h : name = name' <;> simp [h, get, get?]

section

variable [Arrangement]

/-- Settings that come of overrides come of merging onto the defaults, and pass the check. -/
lemma merged_of_ofOverrides {overrides : Value} (hkeyed : overrides.WellKeyed)
    (h : ofOverrides overrides = .ok s) :
    Merged defaults.entries s.entries ∧ s.check = .ok s := by
  obtain ⟨merged, hm, hcheck⟩ := bind_eq_ok_iff.1 h
  obtain ⟨rfl, hchoices⟩ := check_eq_ok_iff.1 hcheck
  refine ⟨?_, check_eq_ok_iff.2 ⟨rfl, hchoices⟩⟩
  have hkeyed' : (if overrides.isGiven then overrides else map []).WellKeyed := by
    split
    · exact hkeyed
    · exact .map .nil nofun
  generalize (if overrides.isGiven then overrides else map []) = update at hm hkeyed'
  cases update with
  | map es => exact merged_defaults.merge hkeyed' (fun _ _ => rfl) hm
  | null | bool _ | int _ | float _ | text _ | list _ => nomatch hm

lemma isGiven_of_merged (h : Merged defaults.entries s.entries) :
    (map s.entries).isGiven = true := by
  have hne : s.entries ≠ [] := by
    intro hnil
    have hkeys := h.keys
    rw [hnil] at hkeys
    nomatch List.prefix_nil.1 hkeys
  simpa [isGiven] using hne

/-- Settings after their values are merged onto the defaults once more. -/
def again (s : Settings) : Settings := ⟨s.entries.map fun e => (e.1, mergedAgain e.1 e.2)⟩

lemma get?_again (s : Settings) (name : Text) :
    s.again.get? name = (s.get? name).map (mergedAgain (text name)) := by
  rw [again, get?, get?]
  induction s.entries with
  | nil => rfl
  | cons e es ih =>
    rw [List.map_cons, find?, find?]
    split
    · next hsame =>
      obtain hkey : e.1 = text name := sameKey_text_iff.1 hsame
      simp [hkey]
    · exact ih

lemma get_again_of_ne (s : Settings) {name : Text} (h : name ≠ "external_packages") :
    s.again.get name = s.get name := by
  have hadd : isAdditive (text name) = false := by
    rw [← Bool.not_eq_true, isAdditive_iff]
    simpa using h
  rw [get, get, get?_again]
  cases s.get? name with
  | none => rfl
  | some v => exact mergedAgain_of_not_additive hadd v

/-- Only the list of packages is not as it was. -/
lemma again_eq_set (h : DistinctKeys s.entries) {v : Value}
    (hv : s.get? "external_packages" = some v) :
    s.again = s.set "external_packages" (mergedAgain (text "external_packages") v) := by
  rw [again, set, map_mergedAgain_eq_put h hv]

/-- Settings that come of merging onto the defaults are merged onto them once more. -/
lemma ofOverrides_of_merged (h : Merged defaults.entries s.entries) (hcheck : s.check = .ok s) :
    ofOverrides (map s.entries) = .ok s.again := by
  obtain ⟨-, hformat, hlayout⟩ := check_eq_ok_iff.1 hcheck
  have hmerge : mergeEntries defaults.entries s.entries = .ok s.again.entries :=
    h.mergeEntries_eq fun _ _ _ => mergeValue_defaults_again
  rw [ofOverrides, if_pos (isGiven_of_merged h), deepMerge, hmerge, ok_bind]
  have hformats : "format" ≠ ("external_packages" : Text) := by decide
  have hlayouts : "layout" ≠ ("external_packages" : Text) := by decide
  refine check_eq_ok_iff.2 ⟨rfl, ?_, ?_⟩
  · rwa [get_again_of_ne s hformats]
  · rwa [get_again_of_ne s hlayouts]

end

/-- Settings that differ at most in the order of the external packages. -/
def SameButOrder (s t : Settings) : Prop :=
  t = s ∨ ∃ zs zs', s.get "external_packages" = list zs ∧ zs'.Perm zs ∧
    t = s.set "external_packages" (list zs')

lemma set_of_get? {name : Text} {v : Value} (h : s.get? name = some v) : s.set name v = s := by
  rw [set, put_of_find? h]

section

variable [Arrangement]

/-- The external packages of settings that come of merging onto the defaults are a union. -/
lemma packages_united (h : Merged defaults.entries s.entries) {zs : List Value}
    (hzs : s.get? "external_packages" = some (list zs)) : ∃ ys, union [] ys = .ok zs := by
  obtain ⟨⟨key, v⟩, he, hsame, rfl⟩ := mem_of_find? hzs
  obtain rfl : key = text "external_packages" := sameKey_text_iff.1 hsame
  have hadd := isAdditive_iff.2 (rfl : text "external_packages" = text "external_packages")
  obtain ⟨w, -, hw⟩ := h.values _ he
  rw [find?_defaults_of_additive hadd] at hw
  exact exists_union hadd hw

/-- If the packages have an order, merging once more changes nothing. -/
lemma again_of_ordered (h : Merged defaults.entries s.entries)
    (hordered : ∀ zs, s.get? "external_packages" = some (list zs) → ¬ Unordered zs) :
    s.again = s := by
  cases hv : s.get? "external_packages" with
  | none => rw [again, map_mergedAgain_eq_self (find?_eq_none.1 hv)]
  | some v =>
    have hstays : mergedAgain (text "external_packages") v = v := by
      cases v with
      | list zs =>
        obtain ⟨ys, hys⟩ := packages_united h hv
        exact mergedAgain_list (isAdditive_iff.2 rfl) ((union_nil_union hys).1 (hordered zs hv))
      | null | bool _ | int _ | float _ | text _ | map _ => rfl
    rw [again_eq_set h.distinct hv, hstays, set_of_get? hv]

/-- What is merged once more is the same up to the order of the packages, and the same exactly if
these have an order or stand as they are arranged. -/
lemma again_exact (h : Merged defaults.entries s.entries) :
    s.SameButOrder s.again ∧
      (s.again = s ↔ ∀ zs, s.get "external_packages" = list zs → Unordered zs →
        Arrangement.arrange [] zs = zs) := by
  have hget {zs : List Value} :
      s.get "external_packages" = list zs ↔ s.get? "external_packages" = some (list zs) := by
    rw [get]
    cases s.get? "external_packages" <;> simp
  by_cases hno : ∃ zs, s.get? "external_packages" = some (list zs) ∧ Unordered zs
  · obtain ⟨zs, hv, hno⟩ := hno
    obtain ⟨ys, hys⟩ := packages_united h hv
    obtain ⟨-, hunordered, hperm⟩ := union_nil_union hys
    have hset := again_eq_set h.distinct hv
    rw [mergedAgain_list (isAdditive_iff.2 rfl) (hunordered hno)] at hset
    refine ⟨.inr ⟨zs, _, hget.2 hv, hperm, hset⟩, fun hsame zs' hzs' _ => ?_, fun hall => ?_⟩
    · obtain rfl : zs = zs' := by simpa [hv] using hget.1 hzs'
      have hlist := congrArg (fun t => t.get "external_packages") (hset.symm.trans hsame)
      simpa [hget.2 hv] using hlist
    · rw [hset, hall zs (hget.2 hv) hno, set_of_get? hv]
  · have hordered (zs : List Value) (hv : s.get? "external_packages" = some (list zs)) :
        ¬ Unordered zs := fun hzs => hno ⟨zs, hv, hzs⟩
    have hsame := again_of_ordered h hordered
    exact ⟨.inl hsame, fun _ zs hzs hzs' => absurd hzs' (hordered zs (hget.1 hzs)), fun _ => hsame⟩

end

/-! ### Settings on the command line -/

/-- Set a setting to a text that is given and not empty. -/
def setGiven (name : Text) (v : Option Text) (s : Settings) : Settings :=
  match v.filter (· ≠ []) with
  | some v => s.set name (text v)
  | none => s

section

variable [Arrangement]

lemma merged_set (h : Merged defaults.entries s.entries) (name : Text) {v : Value}
    (hv : v.isScalar = true) : Merged defaults.entries (s.set name v).entries :=
  h.put rfl (.scalar hv) (mergeValue_of_isScalar hv _ _)

lemma merged_setGiven (h : Merged defaults.entries s.entries) (name : Text) (v : Option Text) :
    Merged defaults.entries (s.setGiven name v).entries := by
  rw [setGiven]
  split
  · exact merged_set h name rfl
  · exact h

end

lemma get_setGiven_of_ne {name name' : Text} (h : name ≠ name') (v : Option Text) :
    (s.setGiven name v).get name' = s.get name' := by
  rw [setGiven]
  split
  · rw [get_set, if_neg h]
  · rfl

/-- A choice stays one if it is set to an accepted text or not at all. -/
lemma exists_choice_setGiven {name : Text} {choices : List Text}
    (h : ∃ c ∈ choices, s.get name = text c) {v : Option Text} (hv : ∀ c ∈ v, c ∈ choices) :
    ∃ c ∈ choices, (s.setGiven name v).get name = text c := by
  rw [setGiven]
  split
  · next c hc =>
    rw [get_set, if_pos rfl]
    exact ⟨c, hv c (Option.filter_eq_some_iff.1 hc).1, rfl⟩
  · exact h

end Settings

namespace CommandLine

open Value Settings

/-- The output format and the page layout are accepted ones, if they are given. -/
structure Arguments.Accepted (a : Arguments) : Prop where
  format : ∀ f ∈ a.format, f ∈ formats
  layout : ∀ l ∈ a.layout, l ∈ layouts

variable {a : Arguments} {s : Settings}

lemma Collected.accepted_flag {c c' : Collected} {o : Opt} (h : c.flag o = .ok c')
    (hc : c.arguments.Accepted) : c'.arguments.Accepted := by
  cases o with
  | help => nomatch h
  | homePage | dryRun | verbose | config | format | layout | apiRoot =>
    obtain rfl := Except.ok.inj h
    exact ⟨hc.format, hc.layout⟩

lemma Collected.accepted_flags {c c' : Collected} {os : List Opt}
    (h : os.foldlM Collected.flag c = .ok c') (hc : c.arguments.Accepted) :
    c'.arguments.Accepted := by
  induction os generalizing c with
  | nil =>
    obtain rfl := Except.ok.inj h
    exact hc
  | cons o os ih =>
    rw [List.foldlM_cons] at h
    obtain ⟨c₁, hflag, hrest⟩ := bind_eq_ok_iff.1 h
    exact ih hrest (accepted_flag hflag hc)

lemma Collected.accepted_value {c c' : Collected} {o : Opt} {v : Option Text}
    (h : c.value o v = .ok c') (hc : c.arguments.Accepted) : c'.arguments.Accepted := by
  by_cases hall : v.all o.accepts = true
  · have haccepts : ∀ t ∈ v, o.accepts t = true := by
      rintro t rfl
      exact hall
    have hno : (! v.all o.accepts) = false := by rw [hall]; rfl
    cases o <;> simp only [Collected.value, hno, Bool.false_eq_true, if_false] at h <;>
      obtain rfl := Except.ok.inj h
    case format => exact ⟨fun t ht => by simpa [Opt.accepts] using haccepts t ht, hc.layout⟩
    case layout => exact ⟨hc.format, fun t ht => by simpa [Opt.accepts] using haccepts t ht⟩
    all_goals exact ⟨hc.format, hc.layout⟩
  · simp only [Collected.value, hall, Bool.not_false, if_true] at h
    nomatch h

/-- Words that are collected leave accepted choices only. -/
lemma Collected.accepted_words {c c' : Collected} {ws : List Word} (h : c.words ws = .ok c')
    (hc : c.arguments.Accepted) : c'.arguments.Accepted := by
  induction c, ws using Collected.words.induct with
  | case1 c =>
    obtain rfl := Except.ok.inj h
    exact hc
  | case2 c s ws ih | case3 c s ws ih => exact ih h hc
  | case4 c ws hno ih =>
    rw [Collected.words] at h
    · exact ih h hc
    · exact hno
  | case5 c s ws hno ih =>
    rw [Collected.words] at h
    · exact ih h hc
    · exact hno
  | case6 c ws ih => exact ih h hc
  | case7 c ws => nomatch h
  | case8 c os ws ih =>
    obtain ⟨c₁, hflags, hrest⟩ := bind_eq_ok_iff.1 h
    exact ih c₁ hrest (accepted_flags hflags hc)
  | case9 c o v ws ih | case10 c o v ws ih =>
    obtain ⟨c₁, hvalue, hrest⟩ := bind_eq_ok_iff.1 h
    exact ih c₁ hrest (accepted_value hvalue hc)
  | case11 c o ws hno =>
    rw [Collected.words] at h
    · nomatch h
    · exact hno

/-- A command line that is taken sets accepted choices only. -/
lemma Arguments.accepted_ofWords {ss : List Text} (h : Arguments.ofWords ss = .ok a) :
    a.Accepted := by
  obtain ⟨ws, -, h⟩ := bind_eq_ok_iff.1 h
  obtain ⟨c, hc, h⟩ := bind_eq_ok_iff.1 h
  have haccepted := Collected.accepted_words hc ⟨nofun, nofun⟩
  split at h
  · split at h
    · nomatch h
    · obtain rfl := Except.ok.inj h
      exact ⟨haccepted.format, haccepted.layout⟩
  · nomatch h

lemma Arguments.override_eq (a : Arguments) (s : Settings) :
    a.override s =
      let s := s.setGiven "format" a.format |>.setGiven "layout" a.layout
        |>.setGiven "api_root" a.apiRoot
      if a.homePage then s.set "include_home_page" (.bool true) else s := rfl

lemma Arguments.merged_override [Arrangement] (a : Arguments)
    (h : Merged defaults.entries s.entries) : Merged defaults.entries (a.override s).entries := by
  have hchoices := merged_setGiven (merged_setGiven h "format" a.format) "layout" a.layout
  have hset := merged_setGiven hchoices "api_root" a.apiRoot
  rw [Arguments.override_eq]
  dsimp only
  split
  · exact merged_set hset _ rfl
  · exact hset

lemma Arguments.Accepted.check_override (ha : a.Accepted) (h : s.check = .ok s) :
    (a.override s).check = .ok (a.override s) := by
  obtain ⟨-, hformat, hlayout⟩ := check_eq_ok_iff.1 h
  have hhome (s : Settings) {name : Text} (hname : "include_home_page" ≠ name) :
      (if a.homePage then s.set "include_home_page" (.bool true) else s).get name = s.get name := by
    split
    · rw [get_set, if_neg hname]
    · rfl
  rw [check_eq_ok_iff, Arguments.override_eq]
  refine ⟨rfl, ?_, ?_⟩
  · rw [hhome _ (by decide), get_setGiven_of_ne (by decide), get_setGiven_of_ne (by decide)]
    exact exists_choice_setGiven hformat ha.format
  · rw [hhome _ (by decide), get_setGiven_of_ne (by decide)]
    refine exists_choice_setGiven ?_ ha.layout
    rwa [get_setGiven_of_ne (by decide)]

/-- The settings of a settings file come of merging onto the defaults, if its reader gives mappings
whose keys are different scalars. -/
lemma merged_of_settings [Arrangement] {env : Environment}
    (hread : ∀ text v, env.read text = .ok v → v.WellKeyed) (h : env.settings a = .ok s) :
    Merged defaults.entries s.entries ∧ s.check = .ok s := by
  have hload {text : Option Text} (h : settingsOf env.read text = .ok s) :
      Merged defaults.entries s.entries ∧ s.check = .ok s := by
    unfold settingsOf at h
    cases text with
    | none =>
      obtain ⟨overrides, hnull, h⟩ := bind_eq_ok_iff.1 h
      obtain rfl := Except.ok.inj hnull
      exact merged_of_ofOverrides (.scalar rfl) h
    | some text =>
      obtain ⟨overrides, hoverrides, h⟩ := bind_eq_ok_iff.1 h
      exact merged_of_ofOverrides (hread _ overrides hoverrides) h
  rw [Environment.settings] at h
  split at h
  · obtain ⟨entry, -, h⟩ := bind_eq_ok_iff.1 h
    obtain ⟨text, -, h⟩ := bind_eq_ok_iff.1 h
    exact hload h
  · exact hload h

/-- What is made of a model file is made with the settings of the settings file and what the command
line decided. At most the order of the external packages is another one. -/
theorem prepare_override [Arrangement] {env : Environment} {words : List Text}
    (hread : ∀ text v, env.read text = .ok v → v.WellKeyed)
    (ha : Arguments.ofWords words = .ok a) (hs : env.settings a = .ok s) :
    ∃ t, (a.override s).SameButOrder t ∧
      ∀ model, prepare env (a.override s) model = do
        let ds ← declarationsOf env.read (← textOf model)
        return (t, ← Run.ofDeclarations t ds) := by
  obtain ⟨hmerged, hcheck⟩ := merged_of_settings hread hs
  have hmerged' := a.merged_override hmerged
  have hcheck' := (Arguments.accepted_ofWords ha).check_override hcheck
  refine ⟨(a.override s).again, (again_exact hmerged').1, fun model => ?_⟩
  rw [prepare, ofOverrides_of_merged hmerged' hcheck']
  rfl

/-- Settings that come of overrides are merged onto the defaults once more, perhaps after the
command line has set some of them to what it accepts. That always succeeds, and nothing is changed
but, perhaps, the order of the external packages; so nothing that the command line decided is.
Nothing at all is changed exactly if the packages have an order, or stand as they are arranged. They
have an order, unless there are more than one and one of them is not a number. -/
theorem ofOverrides_twice [Arrangement] {overrides : Value} (hkeyed : overrides.WellKeyed)
    (hs : ofOverrides overrides = .ok s) {t : Settings}
    (ht : t = s ∨ ∃ a : Arguments, a.Accepted ∧ t = a.override s) :
    ∃ t', ofOverrides (map t.entries) = .ok t' ∧ t.SameButOrder t' ∧
      (t' = t ↔ ∀ zs, t.get "external_packages" = list zs → Unordered zs →
        Arrangement.arrange [] zs = zs) := by
  obtain ⟨hmerged, hcheck⟩ := merged_of_ofOverrides hkeyed hs
  obtain ⟨hmerged', hcheck'⟩ : Merged defaults.entries t.entries ∧ t.check = .ok t := by
    rcases ht with rfl | ⟨a, ha, rfl⟩
    · exact ⟨hmerged, hcheck⟩
    · exact ⟨a.merged_override hmerged, ha.check_override hcheck⟩
  exact ⟨t.again, ofOverrides_of_merged hmerged' hcheck', again_exact hmerged'⟩

/-- Overrides of a choice, of a list and inside a mapping. -/
def packagesAsData : Value :=
  map [(text "format", text "json"), (text "external_packages", list [text "org", text "java"]),
    (text "report", map [(text "depth", int 1)])]

/-- A command line that decides the page layout and asks for a home page. -/
def byPackageWithHome : Arguments := { layout := some "package", homePage := true }

theorem ofOverrides_twice_packages :
    packagesAsData.WellKeyed ∧ byPackageWithHome.Accepted ∧
    ∃ s, ofOverrides packagesAsData = .ok s ∧
      (byPackageWithHome.override s).get "external_packages" = list [text "java", text "org"] ∧
      ofOverrides (map (byPackageWithHome.override s).entries) =
        .ok (byPackageWithHome.override s) := by
  have hkeyed : packagesAsData.WellKeyed := by
    have htext (t : Text) : (text t).WellKeyed := .scalar rfl
    have hint : (int 1).WellKeyed := .scalar rfl
    refine .map ⟨by decide, by decide⟩ ?_
    simp [wellKeyed_map_iff, wellKeyed_list_iff, distinctKeys_singleton, isScalar, htext, hint]
  have haccepted : byPackageWithHome.Accepted := ⟨by simp [byPackageWithHome], by decide⟩
  refine ⟨hkeyed, haccepted, _, rfl, rfl, ?_⟩
  obtain ⟨t', ht', -, hiff⟩ := ofOverrides_twice hkeyed rfl (.inr ⟨_, haccepted, rfl⟩)
  rw [ht', hiff.2]
  intro zs hzs hno
  obtain rfl : [text "java", text "org"] = zs := Value.list.inj hzs
  simp [Unordered] at hno

/-- Overrides with numbers for packages, one of which is not a number. -/
def oddPackages : Value :=
  map [(text "external_packages", list [int 33, int (-103), int (-104), float .nan])]

/-- An arrangement that depends on how the numbers stand: for the ones above, what is not a number
comes last, and for any others it stands where zero does. -/
@[reducible] def lastOrZero : Arrangement where
  arrange xs ys :=
    if (xs ++ ys).map integer? = [some 33, some (-103), some (-104), none] then
      sortAround (2, 0, 1) (distinct (xs ++ ys))
    else sortAround (0, 0, 1) (distinct (xs ++ ys))
  perm xs ys := by
    split <;> exact sortBy_perm _ _

/-- Merging a second time changes the settings. -/
theorem ofOverrides_twice_changes :
    ∃ _ : Arrangement, ∃ s t,
      ofOverrides oddPackages = .ok s ∧
      s.get "external_packages" = list [int (-104), int (-103), int 33, float .nan] ∧
      ofOverrides (map s.entries) = .ok t ∧
      t.get "external_packages" = list [int (-104), int (-103), float .nan, int 33] ∧ t ≠ s := by
  refine ⟨lastOrZero, _, _, rfl, rfl, rfl, rfl, fun h => ?_⟩
  have hpackages : [int (-104), int (-103), float .nan, int 33] =
      [int (-104), int (-103), int 33, float .nan] :=
    Value.list.inj (congrArg (fun s => s.get "external_packages") h)
  simp at hpackages

end CommandLine

end ApiDocs
