import ApiDocs.Proofs.MergedSettings
import ApiDocs.Yaml.Document

/-!
# Keys of documents that are read

A mapping of a document has an entry for each of its keys, and what is written under a key a second
time takes the place of what was there. So the keys of every mapping that is read are different
scalars, whatever the document, and the program can be run with this reader.
-/

namespace ApiDocs

namespace Yaml

lemma isScalar_of_plainNumber? {cs : Text} {v : Value} (h : plainNumber? cs = some (.ok v)) :
    v.isScalar = true := by
  simp only [plainNumber?] at h
  split at h
  · next n _ =>
    obtain ⟨i, -, rfl⟩ := map_eq_ok_iff.1 (Option.some.inj h)
    rfl
  · obtain ⟨x, -, hx⟩ := Option.map_eq_some_iff.1 h
    obtain ⟨y, -, rfl⟩ := map_eq_ok_iff.1 hx
    rfl

lemma isScalar_of_plainValue {cs : Text} {v : Value} (h : plainValue cs = .ok v) :
    v.isScalar = true := by
  simp only [plainValue] at h
  repeat' split at h
  · exact Except.ok.inj h ▸ rfl
  · exact Except.ok.inj h ▸ rfl
  · exact Except.ok.inj h ▸ rfl
  · nomatch h
  · cases hnumber : plainNumber? cs with
    | none =>
      rw [hnumber] at h
      exact Except.ok.inj h ▸ rfl
    | some x =>
      rw [hnumber] at h
      exact isScalar_of_plainNumber? (hnumber.trans (congrArg some h))

lemma isScalar_getD {x : Except Failure Value} (h : ∀ v, x = .ok v → v.isScalar = true) :
    (x.toOption.getD .null).isScalar = true := by
  cases x with
  | error e => rfl
  | ok v => exact h v rfl

lemma Node.isScalar_keyValue (n : Node) : n.keyValue.isScalar = true := by
  cases n with
  | plain s =>
    refine isScalar_getD fun v h => ?_
    rw [plainKey] at h
    split at h
    · obtain rfl := Except.ok.inj h
      rfl
    · exact isScalar_of_plainValue h
  | text s | sequence _ | mapping _ => rfl

mutual

/-- The keys of a mapping that is read are different scalars. -/
lemma Node.wellKeyed_value (n : Node) : n.value.WellKeyed := by
  match n with
  | plain s => exact .scalar (isScalar_getD fun v => isScalar_of_plainValue)
  | text s => exact .scalar rfl
  | sequence items => exact .list (wellKeyed_itemValues items)
  | mapping entries => exact wellKeyed_entryValues (.map .nil nofun) entries

lemma Node.wellKeyed_itemValues (ns : List Node) : ∀ v ∈ itemValues ns, v.WellKeyed := by
  match ns with
  | [] => nofun
  | n :: ns => exact List.forall_mem_cons.2 ⟨n.wellKeyed_value, wellKeyed_itemValues ns⟩

lemma Node.wellKeyed_entryValues {found : List (Value × Value)} (h : (Value.map found).WellKeyed)
    (entries : List (Node × Node)) : (Value.map (entryValues found entries)).WellKeyed := by
  match entries with
  | [] => exact h
  | (k, v) :: rest =>
    exact wellKeyed_entryValues (Value.wellKeyed_put h k.isScalar_keyValue v.wellKeyed_value) rest

end

/-- In all mappings of a document that is read the keys are different scalars. -/
theorem wellKeyed_of_read {cs : Text} {v : Value} (h : read cs = .ok v) : v.WellKeyed := by
  simp only [read] at h
  split at h
  · obtain ⟨n, -, h⟩ := bind_eq_ok_iff.1 h
    rw [Node.evaluate] at h
    split at h
    · obtain rfl := Except.ok.inj h
      exact n.wellKeyed_value
    · nomatch h
  · nomatch h

end Yaml

/-- Run with this reader, the program makes everything with what the command line decided. At most
the order of the external packages is another one. -/
theorem CommandLine.prepare_override_read [Value.Arrangement] {disk : Disk} {clock : Clock}
    {words : List Text} {a : Arguments} {s : Settings} (ha : Arguments.ofWords words = .ok a)
    (hs : (environmentOn Yaml.read disk clock).settings a = .ok s) :
    ∃ t, (a.override s).SameButOrder t ∧
      ∀ model, prepare (environmentOn Yaml.read disk clock) (a.override s) model = do
        let ds ← declarationsOf Yaml.read (← textOf model)
        return (t, ← Run.ofDeclarations t ds) :=
  prepare_override (fun _ _ => Yaml.wellKeyed_of_read) ha hs

end ApiDocs
