import ApiDocs.Disk
import ApiDocs.Proofs.Failing
import ApiDocs.Proofs.PageFiles

/-!
# Faults of texts and faults of disks

A change of a disk fails because of what stands there, or because a path or a text cannot be written
at all. Faults of the second sort need a path with the code point zero or a surrogate, or a text
with a surrogate.
-/

namespace ApiDocs

open Text

/-- A path or a text is at fault, whatever stands on the disk. -/
def FileFault.OfText : FileFault → Prop
  | .noPath | .unwritable => True
  | _ => False

def CodePoint.InPaths (c : CodePoint) : Prop := c.byteCount? ≠ none ∧ c ≠ '\x00'

/-- A path without code points that no path has. -/
def Path.Writable (p : Path) : Prop := ∀ c ∈ p.toText, c.InPaths

namespace Path

lemma writable_iff {root : Text} {names : List Text} : (Path.mk root names).Writable ↔
    (∀ c ∈ root, c.InPaths) ∧ ∀ n ∈ names, ∀ c ∈ n, c.InPaths := by
  have hdot : CodePoint.InPaths '.' := ⟨by decide, by decide⟩
  have hslash : CodePoint.InPaths '/' := ⟨by decide, by decide⟩
  rw [Writable, toText]
  split
  · rename_i hempty
    simp only [Bool.and_eq_true, List.isEmpty_iff] at hempty
    rw [hempty.1, hempty.2]
    refine iff_of_true (fun c hc => ?_) ⟨nofun, nofun⟩
    rw [List.mem_singleton.1 hc]
    exact hdot
  · simp only [List.mem_append, or_imp, forall_and]
    refine and_congr_right fun _ => ⟨fun h n hn c hc => h c ?_, fun h c hc => ?_⟩
    · exact mem_joinWith_of_mem hn hc
    · rcases mem_joinWith hc with rfl | ⟨n, hn, hc⟩
      · exact hslash
      · exact h n hn c hc

/-- What leads to a path that can be written can be written. -/
lemma Writable.above {root : Text} {names names' : List Text}
    (h : (Path.mk root names.reverse).Writable) (hsuffix : names' <:+ names) :
    (Path.mk root names'.reverse).Writable := by
  rw [writable_iff] at h ⊢
  exact ⟨h.1, fun n hn => h.2 n (List.mem_reverse.2 (hsuffix.subset (List.mem_reverse.1 hn)))⟩

end Path

lemma Text.byteCount?_ne_none {t : Text} (h : ∀ c ∈ t, c.byteCount? ≠ none) :
    t.byteCount? ≠ none := by
  rw [byteCount?]
  generalize 0 = n
  induction t generalizing n with
  | nil => exact Option.some_ne_none n
  | cons c t ih =>
    obtain ⟨k, hk⟩ := Option.ne_none_iff_exists'.1 (h c (List.mem_cons_self ..))
    rw [List.foldlM_cons, hk]
    exact ih (fun d hd => h d (List.mem_cons_of_mem _ hd)) (n + k)

namespace Disk

variable {d d' : Disk} {p : Path} {fault : FileFault}

lemma check_fault (hp : p.Writable) (h : check p = .error fault) : ¬ fault.OfText := by
  rw [check] at h
  split at h
  · rename_i hnone
    exact absurd hnone (Text.byteCount?_ne_none fun c hc => (hp c hc).1)
  · split at h
    · rename_i hzero
      rw [List.contains_iff_mem] at hzero
      exact absurd rfl (hp _ hzero).2
    · split at h
      · cases h
        exact id
      · cases h

lemma follow_fault {dir : Location} {names : List Text} (h : d.follow dir names = .error fault) :
    ¬ fault.OfText := by
  induction names generalizing dir with
  | nil => cases h
  | cons name rest ih =>
    rw [follow] at h
    split at h
    · exact ih h
    · split at h
      · cases h
        exact id
      · split at h
        · cases h
          exact id
        · exact ih h
        · split at h
          · cases h
          · cases h
            exact id

lemma enter_fault (h : d.enter p = .error fault) : ¬ fault.OfText := by
  rcases bind_eq_error_iff.1 h with h | ⟨loc, -, h⟩
  · exact follow_fault h
  · split at h
    · cases h
      exact id
    · cases h

lemma locate_fault (hp : p.Writable) (h : d.locate p = .error fault) : ¬ fault.OfText := by
  rcases bind_eq_error_iff.1 h with h | ⟨_, -, h⟩
  · exact check_fault hp h
  · split at h
    · cases h
    · rcases bind_eq_error_iff.1 h with h | ⟨dir, -, h⟩
      · exact enter_fault h
      · split at h
        · cases h
        · split at h
          · cases h
            exact id
          · cases h

lemma makeDirectory_fault (hp : p.Writable) (h : d.makeDirectory p = .error fault) :
    ¬ fault.OfText := by
  rcases bind_eq_error_iff.1 h with h | ⟨⟨dir, name?⟩, -, h⟩
  · exact locate_fault hp h
  · cases name? with
    | none =>
      cases h
      exact id
    | some name =>
      dsimp only at h
      split at h
      · cases h
        exact id
      · cases h

lemma find?_fault (h : d.find? p = .error fault) : ¬ fault.OfText := by
  rw [find?] at h
  split at h
  · cases h
  · cases h
    exact id
  · cases h

lemma faultAt_fault {fault' : FileFault} (hfault : ¬ fault.OfText)
    (h : d.faultAt p fault = some fault') : ¬ fault'.OfText := by
  unfold faultAt at h
  split at h
  · exact absurd trivial hfault
  · exact absurd trivial hfault
  · cases h
  · cases h
    exact hfault
  · rename_i hfind
    cases h
    exact find?_fault hfind

lemma makeAll_fault {root : Text} {names : List Text} (hp : (Path.mk root names.reverse).Writable)
    (h : d.makeAll root names = (d', some fault)) : ¬ fault.OfText := by
  induction names generalizing d d' fault with
  | nil =>
    rw [makeAll] at h
    split at h
    · cases h
    · rename_i first hmake
      have hfirst : ¬ first.OfText := makeDirectory_fault hp hmake
      split_ifs at h
      · cases h
        exact hfirst
      · exact faultAt_fault hfirst (Prod.mk.inj h).2
  | cons name above ih =>
    rw [makeAll] at h
    split at h
    · cases h
    · split at h
      · rename_i habove
        cases h
        exact ih (hp.above (List.suffix_cons ..)) habove
      · split at h
        · cases h
        · rename_i second hmake
          have hsecond : ¬ second.OfText := makeDirectory_fault hp hmake
          split_ifs at h
          · cases h
            exact hsecond
          · exact faultAt_fault hsecond (Prod.mk.inj h).2
    · rename_i hmake
      exact faultAt_fault (makeDirectory_fault hp hmake) (Prod.mk.inj h).2

/-- A directory whose path can be written is not made only if something stands in the way. -/
lemma makeDirectories_fault (hp : p.Writable) (h : d.makeDirectories p = (d', some fault)) :
    ¬ fault.OfText := by
  apply makeAll_fault _ h
  rwa [List.reverse_reverse]

/-- A text that can be written to a path that can is not written only if something stands in the
way. -/
lemma write_fault (hp : p.Writable) {text : Text} (htext : text.toString? ≠ none)
    (h : d.write p text = (d', some fault)) : ¬ fault.OfText := by
  rw [write] at h
  split at h
  · rename_i hlocate
    cases h
    exact locate_fault hp hlocate
  · cases h
    exact id
  · split at h
    · cases h
      exact id
    · exact absurd ‹_› htext
    · cases h

end Disk

end ApiDocs
