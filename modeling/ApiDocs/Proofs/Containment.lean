import ApiDocs.Path
import ApiDocs.Proofs.TargetFiles
import ApiDocs.Text.Word

/-!
# Files stay below the root

Names of packages and types are arbitrary texts, and every page is written to a file that is named
after one. Each such file lies below the root of the page paths, by a way on which every name is
made of letters, digits, underscores and dashes: no name leads back up or out, and no file stands
where another one needs a directory.
-/

namespace ApiDocs

open Page Text

/-! ### Names in paths -/

/-- A name in the root of the page paths: letters and digits of any script, underscores and
dashes. -/
structure RootName (s : Text) : Prop where
  ne_nil : s ≠ []
  chars : ∀ c ∈ s, isWord c = true ∨ c = '-'

/-- A root of page paths is made of names between slashes, perhaps with slashes around them. -/
structure IsRoot (root : Text) (names : List Text) : Prop where
  named : ∀ s ∈ names, RootName s
  text : ∃ before after,
    root = Text.replicate before '/' ++ joinWith "/" names ++ Text.replicate after '/'

/-- A segment of a page path: letters, digits, underscores and dashes, with no dash at either
end. -/
structure PlainSegment (s : Text) : Prop where
  ne_nil : s ≠ []
  chars : ∀ c ∈ s, Markdown.isSegmentChar c = true
  head : s.head? ≠ some (.char '-')
  last : s.getLast? ≠ some (.char '-')

/-- A file below a root: the names of the root, then segments, the last one with an ending. -/
def Below (names : List Text) (f : Text) : Prop :=
  ∃ dirs file, (∀ s ∈ dirs ++ [file], PlainSegment s) ∧
    f = joinWith "/" (names ++ dirs ++ [file ++ ".md"])

lemma RootName.notMem {s : Text} (h : RootName s) {c : CodePoint} (hword : isWord c = false)
    (hdash : c ≠ '-') : c ∉ s := by
  intro hc
  rcases h.chars c hc with h | h
  · simp [hword] at h
  · exact hdash h

lemma PlainSegment.notMem {s : Text} (h : PlainSegment s) {c : CodePoint}
    (hc : Markdown.isSegmentChar c = false) : c ∉ s := by
  intro hmem
  simp [h.chars c hmem] at hc

lemma Markdown.plainSegment_of_mem_segments {name s : Text} (h : s ∈ segments name) :
    PlainSegment s := by
  obtain ⟨t, -, rfl⟩ := List.mem_map.1 h
  exact
  { ne_nil := pathSegment_ne_nil t
    chars := fun _ hc => isSegmentChar_of_mem_pathSegment hc
    head := head?_pathSegment t
    last := getLast?_pathSegment t }

/-! ### The root -/

section

variable {root : Text} {names : List Text} (h : IsRoot root names)

include h

lemma IsRoot.notMem {c : CodePoint} (hword : isWord c = false) (hdash : c ≠ '-')
    (hslash : c ≠ '/') : c ∉ root := by
  obtain ⟨before, after, rfl⟩ := h.text
  have hnames : c ∉ joinWith "/" names := by
    intro hmem
    rcases mem_joinWith hmem with hsep | ⟨s, hs, hc⟩
    · exact hslash hsep
    · exact (h.named s hs).notMem hword hdash hc
  simp [Text.replicate, List.mem_replicate, hslash, hnames]

/-- The slashes around the names of a root do not count. -/
lemma IsRoot.fileRoot_append {segments : List Text} (hne : segments ≠ []) :
    fileRoot root ++ joinWith "/" segments = joinWith "/" (names ++ segments) := by
  obtain ⟨before, after, rfl⟩ := h.text
  have hslashes (n : Nat) : ∀ c ∈ Text.replicate n '/', (c == .char '/') = true := by
    intro c hc
    simp [List.eq_of_mem_replicate hc]
  have hafter : dropRightWhile (· == .char '/') (Text.replicate after '/') = [] := by
    simp [dropRightWhile, Text.replicate]
  by_cases hnames : names = []
  · have hroot : dropRightWhile (· == .char '/')
        (Text.replicate before '/' ++ [] ++ Text.replicate after '/') = [] := by
      simp [dropRightWhile, Text.replicate]
    rw [hnames, joinWith, fileRoot, hroot]
    rfl
  · have hnotSlash {c : CodePoint} (hc : ∃ s ∈ names, c ∈ s) : (c == .char '/') = false := by
      obtain ⟨s, hs, hc⟩ := hc
      rw [beq_eq_false_iff_ne]
      rintro rfl
      exact (h.named s hs).notMem (by decide) (by decide) hc
    have hnonempty : ∀ s ∈ names, s ≠ [] := fun s hs => (h.named s hs).ne_nil
    obtain ⟨s, d, hlast, hd⟩ := exists_concat_joinWith "/" hnames hnonempty
    obtain ⟨c, t, hfirst, hc⟩ := exists_cons_joinWith "/" hnames hnonempty
    have hright : dropRightWhile (· == .char '/')
        (Text.replicate before '/' ++ joinWith "/" names ++ Text.replicate after '/') =
          Text.replicate before '/' ++ joinWith "/" names := by
      rw [hlast, ← List.append_assoc, List.append_assoc _ [d], List.singleton_append,
        dropRightWhile_append_seam (p := (· == .char '/')) (hnotSlash hd), hafter]
    have hleft : (Text.replicate before '/' ++ joinWith "/" names ++ "/").dropWhile
        (· == .char '/') = joinWith "/" names ++ "/" := by
      rw [hfirst, List.append_assoc, List.cons_append,
        List.dropWhile_append_of_pos (hslashes before),
        List.dropWhile_cons_of_neg (by simp [hnotSlash hc])]
    rw [fileRoot, hright, hleft, ← joinWith_append "/" hnames hne]

/-- The page of a name has a file below the root. -/
lemma IsRoot.below (name : Text) : Below names (outputFile (pagePath root name)) := by
  have hhash : CodePoint.char '#' ∉ root := h.notMem (by decide) (by decide) (by decide)
  obtain ⟨dirs, file, hsegments⟩ :=
    (List.eq_nil_or_concat' (Markdown.segments name)).resolve_left (Markdown.segments_ne_nil name)
  refine ⟨dirs, file, fun s hs => ?_, ?_⟩
  · exact Markdown.plainSegment_of_mem_segments (hsegments ▸ hs)
  · rw [outputFile_pagePath hhash, h.fileRoot_append (Markdown.segments_ne_nil name), hsegments,
      joinWith_concat_append, List.append_assoc]

end

/-! ### Ways down -/

/-- A way down to a file: no name is empty or leads nowhere or back up, none has a slash, and only
that of the file has a dot. -/
structure WayDown (dirs : List Text) (file : Text) : Prop where
  steps : ∀ s ∈ dirs ++ [file], s ≠ [] ∧ s ≠ "." ∧ s ≠ Path.up ∧ .char '/' ∉ s
  dotless : ∀ s ∈ dirs, .char '.' ∉ s
  dotted : .char '.' ∈ file

/-- A way down from which another one goes on is that other one. -/
lemma WayDown.eq_of_prefix {dirs dirs' : List Text} {file file' : Text} (h : WayDown dirs file)
    (h' : WayDown dirs' file') (hstart : dirs ++ [file] <+: dirs' ++ [file']) :
    dirs ++ [file] = dirs' ++ [file'] := by
  rcases List.prefix_concat_iff.1 hstart with heq | hdirs
  · exact heq
  · have hmem : file ∈ dirs' := hdirs.subset (by simp)
    exact absurd h.dotted (h'.dotless file hmem)

lemma wayDown_single {file : Text} (hfile : file ≠ "." ∧ file ≠ Path.up ∧ .char '/' ∉ file)
    (hdot : .char '.' ∈ file) : WayDown [] file where
  steps := by
    intro s hs
    rw [List.nil_append, List.mem_singleton] at hs
    subst hs
    exact ⟨List.ne_nil_of_mem hdot, hfile⟩
  dotless := by simp
  dotted := hdot

/-- A file below a root is reached by a way down. -/
lemma Below.wayDown {names : List Text} (hnames : ∀ s ∈ names, RootName s) {f : Text}
    (h : Below names f) : ∃ dirs file, WayDown dirs file ∧ f = joinWith "/" (dirs ++ [file]) := by
  obtain ⟨dirs, file, hplain, rfl⟩ := h
  have hdirs : ∀ s ∈ names ++ dirs, s ≠ [] ∧ .char '/' ∉ s ∧ .char '.' ∉ s := by
    intro s hs
    rcases List.mem_append.1 hs with hs | hs
    · have hroot := hnames s hs
      exact ⟨hroot.ne_nil, hroot.notMem (by decide) (by decide),
        hroot.notMem (by decide) (by decide)⟩
    · have hsegment := hplain s (List.mem_append_left _ hs)
      exact ⟨hsegment.ne_nil, hsegment.notMem (by decide), hsegment.notMem (by decide)⟩
  have hfile : PlainSegment file := hplain file (by simp)
  refine ⟨names ++ dirs, file ++ ".md", ⟨fun s hs => ?_, fun s hs => (hdirs s hs).2.2, ?_⟩, rfl⟩
  · rcases List.mem_append.1 hs with hs | hs
    · obtain ⟨hne, hslash, hdot⟩ := hdirs s hs
      refine ⟨hne, ?_, ?_, hslash⟩
      · rintro rfl
        exact hdot (by decide)
      · rintro rfl
        exact hdot (by decide)
    · rw [List.mem_singleton.1 hs]
      -- with its ending the name of a file is longer than one or two dots
      have hlong : 3 ≤ (file ++ ".md" : Text).length := by
        rw [List.length_append]
        exact Nat.le_add_left 3 _
      refine ⟨?_, ?_, ?_, ?_⟩
      · intro heq
        simp [heq] at hlong
      · intro heq
        rw [heq] at hlong
        exact absurd hlong (by decide)
      · intro heq
        rw [heq] at hlong
        exact absurd hlong (by decide)
      · rw [List.mem_append, not_or]
        exact ⟨hfile.notMem (by decide), by decide⟩
  · exact List.mem_append_right _ (by decide)

/-- The path of a way down is not absolute, and its segments are the names on the way. -/
lemma WayDown.path {dirs : List Text} {file : Text} (h : WayDown dirs file) :
    splitWhere (· == '/') (joinWith "/" (dirs ++ [file])) = dirs ++ [file] ∧
      (Path.ofText (joinWith "/" (dirs ++ [file]))).isAbsolute = false := by
  have hne : dirs ++ [file] ≠ [] := by simp
  refine ⟨splitWhere_joinWith hne fun s hs => (h.steps s hs).2.2.2, ?_⟩
  obtain ⟨c, t, hfirst, s, hs, hc⟩ :=
    exists_cons_joinWith "/" hne fun s hs => (h.steps s hs).1
  have hslash : (c == .char '/') = false := by
    rw [beq_eq_false_iff_ne]
    rintro rfl
    exact (h.steps s hs).2.2.2 hc
  rw [hfirst, Path.isAbsolute, Path.ofText, Path.rootOf]
  simp [hslash]

/-! ### The documents of a run -/

lemma Model.Consistent.file_cases {m : Model} (hm : m.Consistent) {inherits : Bool}
    {settings : Settings} {names : List Text} (hroot : IsRoot settings.apiRoot names)
    {resolutions : Resolutions} {docs : Documents}
    (hdocs : m.documents (m.viewOf inherits) settings resolutions = .ok docs) {f : Text}
    (hf : f ∈ docs.keys) : f = Documents.dataFile ∨ f = Documents.homeFile ∨ Below names f := by
  cases hformat : settings.asData with
  | true =>
    obtain ⟨_, -, hdocs⟩ := bind_eq_ok_iff.1 hdocs
    rw [Documents.ofSource, if_pos hformat] at hdocs
    obtain ⟨text, -, hdocs⟩ := bind_eq_ok_iff.1 hdocs
    cases hdocs
    rw [Table.mem_keys_put, Table.keys_empty] at hf
    simp only [List.not_mem_nil, false_or] at hf
    exact .inl hf
  | false =>
    rcases (Model.mem_keys_documents hm inherits hformat hdocs f).1 hf with
      ⟨p, -, n, -, rfl⟩ | ⟨-, rfl⟩
    · exact .inr (.inr (hroot.below n))
    · exact .inr (.inl rfl)

/-- Whatever the names of packages and types, each file of a run is the data document, the home page
or a file below the root of the page paths, on a way of plain segments. So no file has an absolute
path or a segment that is empty or leads nowhere or back up, and no file is in the place of a
directory of another one. -/
theorem files_below_root {n : Nat} {limit : Visibility} {ds : List Declaration} {x : Extracted}
    (h : extract n limit ds = .ok x) {settings : Settings} {names : List Text}
    (hroot : IsRoot settings.apiRoot names) {inherits : Bool} {v : View}
    (hv : x.model.view inherits = .ok v) {resolutions : Resolutions} {docs : Documents}
    (hdocs : x.model.documents v settings resolutions = .ok docs) :
    (∀ f ∈ docs.keys, f = Documents.dataFile ∨ f = Documents.homeFile ∨ Below names f) ∧
      (∀ f ∈ docs.keys, (Path.ofText f).isAbsolute = false ∧
        ∀ s ∈ splitWhere (· == '/') f, s ≠ [] ∧ s ≠ "." ∧ s ≠ Path.up) ∧
      ∀ f ∈ docs.keys, ∀ g ∈ docs.keys,
        splitWhere (· == '/') f <+: splitWhere (· == '/') g → f = g := by
  have hc : x.model.Consistent := consistent_of_extract h
  obtain rfl : x.model.viewOf inherits = v := Except.ok.inj ((hc.view_eq inherits).symm.trans hv)
  have hcases : ∀ f ∈ docs.keys,
      f = Documents.dataFile ∨ f = Documents.homeFile ∨ Below names f :=
    fun f hf => hc.file_cases hroot hdocs hf
  have hway : ∀ f ∈ docs.keys,
      ∃ dirs file, WayDown dirs file ∧ f = joinWith "/" (dirs ++ [file]) := by
    intro f hf
    rcases hcases f hf with rfl | rfl | hbelow
    · exact ⟨[], _, wayDown_single (by decide) (by decide), rfl⟩
    · exact ⟨[], _, wayDown_single (by decide) (by decide), rfl⟩
    · exact hbelow.wayDown hroot.named
  refine ⟨hcases, fun f hf => ?_, fun f hf g hg hstart => ?_⟩
  · obtain ⟨dirs, file, hdown, rfl⟩ := hway f hf
    obtain ⟨hsegments, habsolute⟩ := hdown.path
    refine ⟨habsolute, fun s hs => ?_⟩
    rw [hsegments] at hs
    obtain ⟨hne, hdot, hup, -⟩ := hdown.steps s hs
    exact ⟨hne, hdot, hup⟩
  · obtain ⟨dirs, file, hdown, rfl⟩ := hway f hf
    obtain ⟨dirs', file', hdown', rfl⟩ := hway g hg
    rw [hdown.path.1, hdown'.path.1] at hstart
    rw [hdown.eq_of_prefix hdown' hstart]

/-- Declarations with names that look like ways out. -/
def climbingNames : List Declaration :=
  [ { kind := "package", name := "../etc" },
    { kind := "class", name := "/#..\\A", scope := "../etc" } ]

theorem files_below_root_climbingNames :
    ∃ x v docs, extract 0 .declaring climbingNames = .ok x ∧ x.model.view true = .ok v ∧
      x.model.documents v .defaults {} = .ok docs ∧ IsRoot Settings.defaults.apiRoot ["api"] ∧
      docs.keys = (["api/Unknown/Unknown/etc.md", "api/Unknown/Unknown/etc/Unknown/Unknown/A.md"] :
        List Text) ∧
      ∀ f ∈ docs.keys, (Path.ofText f).isAbsolute = false ∧
        ∀ s ∈ splitWhere (· == '/') f, s ≠ [] ∧ s ≠ "." ∧ s ≠ Path.up := by
  obtain ⟨x, hx, v, hv, docs, hdocs, hkeys⟩ :
      ∃ x, extract 0 .declaring climbingNames = .ok x ∧ ∃ v, x.model.view true = .ok v ∧
        ∃ docs, x.model.documents v .defaults {} = .ok docs ∧ docs.keys =
          (["api/Unknown/Unknown/etc.md", "api/Unknown/Unknown/etc/Unknown/Unknown/A.md"] :
            List Text) :=
    ⟨_, rfl, _, rfl, _, rfl, rfl⟩
  have hroot : IsRoot Settings.defaults.apiRoot ["api"] :=
    { named := by
        intro s hs
        rw [List.mem_singleton] at hs
        subst hs
        exact ⟨by decide, by decide⟩
      text := ⟨1, 0, rfl⟩ }
  obtain ⟨-, hinside, -⟩ := files_below_root hx hroot hv hdocs
  exact ⟨x, v, docs, hx, hv, hdocs, hroot, hkeys, hinside⟩

end ApiDocs
