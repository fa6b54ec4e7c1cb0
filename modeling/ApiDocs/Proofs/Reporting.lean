import ApiDocs.Proofs.Documented
import ApiDocs.Proofs.Resolving
import ApiDocs.Proofs.SharedTable
import ApiDocs.Workspace
import Mathlib.Algebra.BigOperators.Group.List.Basic
import Mathlib.Algebra.GroupWithZero.Nat

/-!
# What a run of resolution records

Resolving all references of a model leaves one outcome at each of them. The report lists the same
outcomes in the order of the references, whatever it held before, and there is a note for each
reference that links to nothing.
-/

namespace ApiDocs

open Text

/-! ### Counting unresolved references -/

namespace Report

/-- Each key counts as often as it occurs, so the counts add up to all occurrences. -/
lemma sum_count_eraseDups (keys : List Text) :
    (keys.eraseDups.map fun k => keys.count k).sum = keys.length := by
  induction hlength : keys.length using Nat.strong_induction_on generalizing keys with
  | _ n ih =>
    cases keys with
    | nil => exact hlength
    | cons k keys =>
      let others := keys.filter fun k' => ! k' == k
      have hle : others.length < n :=
        hlength ▸ Nat.lt_succ_of_le (List.length_filter_le _ keys)
      -- the other keys occur as often among the others as among all
      have hothers : others.eraseDups.map (fun k' => (k :: keys).count k') =
          others.eraseDups.map fun k' => others.count k' := by
        apply List.map_congr_left
        intro k' hk'
        have hk := (List.mem_filter.1 (List.mem_eraseDups.1 hk')).2
        have hne : k ≠ k' := by
          rintro rfl
          simp at hk
        rw [List.count_cons_of_ne hne]
        exact (List.count_filter (p := fun k' => ! k' == k) hk).symm
      have hsplit : keys.length = keys.count k + others.length := by
        rw [List.count, List.countP_eq_length_filter]
        exact List.length_eq_length_filter_add (· == k)
      rw [List.eraseDups_cons, List.map_cons, List.sum_cons, hothers, ih _ hle others rfl,
        List.count_cons_self]
      rw [List.length_cons] at hlength
      omega

/-- The counts of unresolved references add up to all of them. -/
theorem sum_unresolvedTargets (r : Report) :
    (r.unresolvedTargets.map (·.2)).sum = r.unresolved.length := by
  rw [unresolvedTargets, List.map_map]
  calc ((sortNames (r.unresolved.map fun u => targetKey u.2).eraseDups).map
          fun k => (r.unresolved.map fun u => targetKey u.2).count k).sum
    _ = ((r.unresolved.map fun u => targetKey u.2).eraseDups.map
          fun k => (r.unresolved.map fun u => targetKey u.2).count k).sum :=
        ((sortNames_perm _).map _).sum_eq
    _ = r.unresolved.length := by rw [sum_count_eraseDups, List.length_map]

end Report

/-! ### Outcomes after a run -/

section

variable {m : Model} {external : Text → Bool} {s : Resolving} {refs : List (Entity × Reference)}

/-- Where references stand at distinct sites, each holds what its text resolves to. -/
lemma get?_after (h : (sites (refs.map (·.2))).Nodup) {p : Entity × Reference} (hp : p ∈ refs) :
    (s.after m external refs).resolutions.get? p.2 = some (m.outcome p.1 p.2.text) := by
  have hnodup : ((refs.map fun p => (p.2.site, m.outcome p.1 p.2.text)).reverse.map
      (·.1)).Nodup := by
    rw [List.map_reverse, List.nodup_reverse, List.map_map]
    rwa [sites, List.map_map] at h
  have hmem : (p.2.site, m.outcome p.1 p.2.text) ∈
      (refs.map fun p => (p.2.site, m.outcome p.1 p.2.text)).reverse :=
    List.mem_reverse.2 (List.mem_map.2 ⟨p, hp, rfl⟩)
  rw [Resolving.after, Resolutions.get?, List.lookup_append, (lookup_eq_some_iff_mem hnodup).2 hmem,
    Option.some_or]

/-- What other references hold stays as it was. -/
lemma get?_after_of_notMem {r : Reference} (h : r.site ∉ sites (refs.map (·.2))) :
    (s.after m external refs).resolutions.get? r = s.resolutions.get? r := by
  have hnone : (refs.map fun p => (p.2.site, m.outcome p.1 p.2.text)).reverse.lookup r.site =
      none := by
    rw [List.lookup_eq_none_iff]
    intro q hq
    obtain ⟨p, hp, rfl⟩ := List.mem_map.1 (List.mem_reverse.1 hq)
    rw [bne_iff_ne]
    intro hsite
    exact h (List.mem_map.2 ⟨p.2, List.mem_map.2 ⟨p, hp, rfl⟩, hsite.symm⟩)
  rw [Resolving.after, Resolutions.get?, List.lookup_append, hnone, Option.none_or]
  rfl

variable (m refs) in
/-- A reference is listed as resolved or as unresolved. -/
lemma length_resolved_add_unresolved :
    (refs.filterMap m.resolvedEntry).length + (m.unresolvedAmong refs).length = refs.length := by
  induction refs with
  | nil => rfl
  | cons p refs ih =>
    rw [Model.unresolvedAmong] at ih ⊢
    rw [List.filterMap_cons, List.filter_cons, Model.resolvedEntry]
    cases m.outcome p.1 p.2.text with
    | link t =>
      simp only [List.length_cons, Bool.false_eq_true, if_false]
      omega
    | unresolved text =>
      simp only [List.length_cons, if_true]
      omega

end

/-- What a run of resolution with some settings leaves for the references of a model. -/
structure Model.Reported (m : Model) (settings : Settings) (before : Resolutions)
    (s : Resolving) : Prop where
  /-- Each reference holds what its text resolves to: an entity of the model, or the text. -/
  outcomes : ∀ p ∈ m.references, m.resolve p.1 p.2.text = .ok (m.outcome p.1 p.2.text) ∧
    s.resolutions.get? p.2 = some (m.outcome p.1 p.2.text) ∧
    ((∃ t ∈ m.names, m.outcome p.1 p.2.text = .link t) ∨
      m.outcome p.1 p.2.text = .unresolved (trim p.2.text))
  /-- No other reference has changed. -/
  others : ∀ r, r.site ∉ sites (m.references.map (·.2)) → s.resolutions.get? r = before.get? r
  resolved : s.report.resolved = m.references.filterMap m.resolvedEntry
  unresolved : s.report.unresolved =
    (m.unresolvedAmong m.references).map fun p => (p.1.qualifiedName, trim p.2.text)
  total : s.report.total = m.references.length
  /-- The counts of unresolved references add up. -/
  counts : (s.report.unresolvedTargets.map (·.2)).sum = s.report.unresolved.length
  references : m.unresolvedReferences s.resolutions = (m.unresolvedAmong m.references).map (·.2)
  /-- There is one note for each unresolved reference, and one at the end. -/
  notes : ∃ external : Text → Bool, (∀ text, settings.isExternal text = .ok (external text)) ∧
    s.notes = (m.unresolvedAmong m.references).map
        (fun p => .unresolved (external p.2.text) p.2.text p.1.qualifiedName) ++
      [.resolved s.report.resolved.length s.report.total]

/-- Resolving all references of a consistent model is reported, if they stand at distinct sites. -/
lemma Model.Consistent.resolveAll_reported {m : Model} (h : m.Consistent)
    (hsites : (sites (m.references.map (·.2))).Nodup) {settings : Settings}
    (hexternal : ∀ text, ∃ b, settings.isExternal text = .ok b) (before : Resolutions) :
    ∃ s, m.resolveAll settings before = (s, none) ∧ m.Reported settings before s := by
  obtain ⟨external, hexternal⟩ := Classical.skolem.1 hexternal
  have houtcome : ∀ p ∈ m.references,
      (Resolving.after m external { resolutions := before } m.references).resolutions.get? p.2 =
        some (m.outcome p.1 p.2.text) := fun p hp => get?_after hsites hp
  have hothers : ∀ r, r.site ∉ sites (m.references.map (·.2)) →
      (Resolving.after m external { resolutions := before } m.references).resolutions.get? r =
        before.get? r := fun r hr => get?_after_of_notMem hr
  have htotal : (Resolving.after m external { resolutions := before } m.references).report.total =
      m.references.length := by
    rw [← length_resolved_add_unresolved m m.references, Report.total, Resolving.after,
      List.nil_append, List.nil_append, List.length_map]
  refine ⟨_, by rw [Model.resolveAll, Model.each_eq h hexternal], ?_⟩
  exact
  { outcomes := fun p hp =>
      ⟨Model.resolve_eq h _ _, houtcome p hp, Model.outcome_sound h _ _⟩
    others := hothers
    resolved := List.nil_append _
    unresolved := List.nil_append _
    total := htotal
    counts := Report.sum_unresolvedTargets _
    references := by
      rw [Model.unresolvedReferences, List.filter_map, Model.unresolvedAmong]
      congr 1
      apply List.filter_congr
      intro p hp
      simp only [Function.comp_apply, houtcome p hp]
      cases m.outcome p.1 p.2.text <;> rfl
    notes := ⟨external, hexternal, rfl⟩ }

/-- Resolving all references of an extracted model in a workspace, whatever was resolved and
reported there before, succeeds. Each reference, at a site of its own, holds what its text resolves
to, the report lists these outcomes in order, and nothing else in the workspace has changed. -/
theorem apply_resolveAll_reported {n : Nat} {limit : Visibility} {ds : List Declaration}
    {x : Extracted} (h : extract n limit ds = .ok x) {w : Workspace} {name : Text}
    (hmodel : w.models.get? name = some x.model) {packages : List Text}
    (hexternal : w.settings.get? "external_packages" = some (.list (packages.map .text))) :
    (sites (x.model.references.map (·.2))).Nodup ∧
    ∃ s, x.model.resolveAll w.settings w.resolutions = (s, none) ∧
      x.model.Reported w.settings w.resolutions s ∧
      w.apply (.resolveAll name) =
        ({ w with resolutions := s.resolutions, report := s.report }, none) := by
  have hsites := nodup_sites_of_extract h
  obtain ⟨s, hrun, hreported⟩ := (consistent_of_extract h).resolveAll_reported hsites
    (Settings.isExternal_ok hexternal) w.resolutions
  refine ⟨hsites, s, hrun, hreported, ?_⟩
  have hget : w.model name = .ok x.model := by rw [Workspace.model, hmodel]
  simp only [Workspace.apply, hget, hrun]

/-- A workspace with one model, in which something was resolved and reported before. -/
def usedWorkspace (m : Model) : Workspace where
  settings := Settings.defaults.setAll
    [(.text "external_packages", .list [.text "java", .text "q"])]
  models := .ofEntries [("layers", m)]
  resolutions := ⟨[(⟨0, "p.Top#run()", .text 0⟩, .unresolved "Right")]⟩
  report := { unresolved := [("p.Top#run()", "Right")] }

theorem apply_resolveAll_reported_layers :
    ∃ x, extract 0 .declaring layers = .ok x ∧
      (usedWorkspace x.model).models.get? "layers" = some x.model ∧
      (usedWorkspace x.model).settings.get? "external_packages" =
        some (.list (["java", "q"].map .text)) ∧
      ∃ s, x.model.Reported (usedWorkspace x.model).settings (usedWorkspace x.model).resolutions s ∧
        (usedWorkspace x.model).apply (.resolveAll "layers") =
          ({ usedWorkspace x.model with resolutions := s.resolutions, report := s.report },
            none) := by
  obtain ⟨x, hx⟩ : ∃ x, extract 0 .declaring layers = .ok x := ⟨_, rfl⟩
  have hmodel : (usedWorkspace x.model).models.get? "layers" = some x.model := rfl
  have hexternal : (usedWorkspace x.model).settings.get? "external_packages" =
      some (.list (["java", "q"].map .text)) := by rfl
  obtain ⟨-, s, -, hreported, happly⟩ := apply_resolveAll_reported hx hmodel hexternal
  exact ⟨x, hx, hmodel, hexternal, s, hreported, happly⟩

end ApiDocs
