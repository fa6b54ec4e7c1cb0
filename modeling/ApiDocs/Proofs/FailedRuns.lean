import ApiDocs.CommandLine.Program
import ApiDocs.Proofs.Completion
import ApiDocs.Proofs.DiskFaults

/-!
# Failed runs

A run that fails before all documents are made leaves the disk as it was. After that, a run fails
only because a step cannot be taken on the disk, or, if it is a dry run, because the settings give
no path for the report. This is noticed when the output directory is already made.
-/

namespace ApiDocs

open Text

namespace CommandLine

/-! ### Steps -/

/-- The disk after a step, and what is at fault if the step fails. -/
def Step.onDisk (disk : Disk) : Step → Disk × Option FileFault
  | .print _ => (disk, none)
  | .makeDirectories p => disk.makeDirectories p
  | .write p text => disk.write p text

/-- The path and the text of a step can be written. -/
def Step.Writable : Step → Prop
  | .print _ => True
  | .makeDirectories p => p.Writable
  | .write p text => p.Writable ∧ text.toString? ≠ none

lemma Step.onDisk_fault {step : Step} (hstep : step.Writable) {disk disk' : Disk}
    {fault : FileFault} (h : step.onDisk disk = (disk', some fault)) : ¬ fault.OfText := by
  cases step with
  | print line => cases h
  | makeDirectories p => exact Disk.makeDirectories_fault hstep h
  | write p text => exact Disk.write_fault hstep.1 hstep.2 h

/-- Steps that can all be taken, one after the other, with the disk that they lead to. -/
inductive Taken : Disk → List Step → Disk → Prop
  | nil (disk : Disk) : Taken disk [] disk
  | cons {disk disk' disk'' : Disk} {step : Step} {steps : List Step} :
      step.onDisk disk = (disk', none) → Taken disk' steps disk'' →
        Taken disk (step :: steps) disk''

/-- Among steps there is a first one that fails. The disk and the fault are what it leaves. -/
def FailsAt (disk : Disk) (steps : List Step) (step : Step) (disk' : Disk) (fault : FileFault) :
    Prop :=
  ∃ before after between, steps = before ++ step :: after ∧ Taken disk before between ∧
    step.onDisk between = (disk', some fault)

section

variable (ending : Except Failure Ending) {disk disk' disk'' : Disk} {step : Step}
  {steps : List Step} {fault : FileFault}

lemma FailsAt.cons {first : Step} (hfirst : first.onDisk disk = (disk', none))
    (h : FailsAt disk' steps step disk'' fault) :
    FailsAt disk (first :: steps) step disk'' fault := by
  obtain ⟨before, after, between, rfl, htaken, hfails⟩ := h
  exact ⟨first :: before, after, between, rfl, .cons hfirst htaken, hfails⟩

lemma takeSteps_of_taken (steps : List Step) (h : step.onDisk disk = (disk', none)) :
    (takeSteps ending disk (step :: steps)).disk = (takeSteps ending disk' steps).disk ∧
      (takeSteps ending disk (step :: steps)).ending = (takeSteps ending disk' steps).ending := by
  cases step with
  | print line =>
    cases h
    exact ⟨rfl, rfl⟩
  | makeDirectories p =>
    change disk.makeDirectories p = (disk', none) at h
    rw [takeSteps, h]
    exact ⟨rfl, rfl⟩
  | write p text =>
    change disk.write p text = (disk', none) at h
    rw [takeSteps, h]
    exact ⟨rfl, rfl⟩

lemma takeSteps_of_fault (steps : List Step) (h : step.onDisk disk = (disk', some fault)) :
    takeSteps ending disk (step :: steps) = { disk := disk', ending := .error (.file fault) } := by
  cases step with
  | print line => cases h
  | makeDirectories p =>
    change disk.makeDirectories p = (disk', some fault) at h
    rw [takeSteps, h]
  | write p text =>
    change disk.write p text = (disk', some fault) at h
    rw [takeSteps, h]

/-- Steps are taken to the end, or up to the first that fails. -/
lemma takeSteps_cases (disk : Disk) (steps : List Step) :
    (Taken disk steps (takeSteps ending disk steps).disk ∧
      (takeSteps ending disk steps).ending = ending) ∨
    ∃ step fault, FailsAt disk steps step (takeSteps ending disk steps).disk fault ∧
      (takeSteps ending disk steps).ending = .error (.file fault) := by
  induction steps generalizing disk with
  | nil => exact .inl ⟨.nil disk, rfl⟩
  | cons first steps ih =>
    cases hfirst : first.onDisk disk with
    | mk disk' fault? =>
      cases fault? with
      | none =>
        obtain ⟨hdisk, hending⟩ := takeSteps_of_taken ending steps hfirst
        rw [hdisk, hending]
        rcases ih disk' with ⟨htaken, hend⟩ | ⟨step, fault, hfails, hend⟩
        · exact .inl ⟨.cons hfirst htaken, hend⟩
        · exact .inr ⟨step, fault, hfails.cons hfirst, hend⟩
      | some fault =>
        rw [takeSteps_of_fault ending steps hfirst]
        exact .inr ⟨first, fault, ⟨[], steps, disk, rfl, .nil disk, hfirst⟩, rfl⟩

end

/-- Printing leaves the disk as it is. -/
lemma disk_of_prints {ending : Except Failure Ending} {disk : Disk} {steps : List Step}
    (h : ∀ s ∈ steps, ∃ line, s = .print line) : (takeSteps ending disk steps).disk = disk := by
  induction steps with
  | nil => rfl
  | cons s steps ih =>
    obtain ⟨⟨line, rfl⟩, hsteps⟩ := List.forall_mem_cons.1 h
    exact ih hsteps

/-! ### What a run gets to -/

lemma steps_failed (reported : Failure → Bool) (e : Failure) :
    ∀ s ∈ (Outcome.failed reported e).steps, ∃ line, s = .print line := by
  intro s hs
  rw [Outcome.failed] at hs
  split at hs
  · exact ⟨_, List.mem_singleton.1 hs⟩
  · cases hs

section

variable [Value.Arrangement]

/-- The arguments are taken, the model and the settings are read, all documents are made, and it is
known where they go: only writing is left. -/
structure Prepared (env : Environment) (words : List Text) (a : Arguments) (settings : Settings)
    (run : Run) (outDir : Path) : Prop where
  arguments : Arguments.ofWords words = .ok a
  made : ∃ model loaded, env.entry? (.ofText a.model) = .ok (some model) ∧
    env.settings a = .ok loaded ∧
    prepare env (a.override loaded) model = .ok (settings, run)
  outDir : env.outDir a = .ok outDir

/-- The last part of a run: what is left when all documents are made. -/
def writing (env : Environment) (a : Arguments) (settings : Settings) (r : Run) (outDir : Path) :
    Outcome :=
  if a.dryRun then writeReport env.clock outDir r settings else writeDocuments outDir r

lemma runOn_cases (env : Environment) (a : Arguments) (model : Entry) :
    (∃ loaded settings r outDir, env.settings a = .ok loaded ∧
      prepare env (a.override loaded) model = .ok (settings, r) ∧ env.outDir a = .ok outDir ∧
      runOn env a model = writing env a settings r outDir) ∨
    ∀ s ∈ (runOn env a model).steps, ∃ line, s = .print line := by
  cases hloaded : env.settings a with
  | error e =>
    rw [show runOn env a model = .failed isOfSettings e by rw [runOn, hloaded]]
    exact .inr (steps_failed _ e)
  | ok loaded =>
    cases hmade : prepare env (a.override loaded) model with
    | error e =>
      rw [show runOn env a model = .failed isOfDeclarations e by simp only [runOn, hloaded, hmade]]
      exact .inr (steps_failed _ e)
    | ok made =>
      obtain ⟨settings, r⟩ := made
      cases hdir : env.outDir a with
      | error e =>
        rw [show runOn env a model = { ending := .error e, notes := r.notes } by
          simp only [runOn, hloaded, hmade, hdir]]
        exact .inr fun s hs => absurd hs List.not_mem_nil
      | ok outDir =>
        exact .inl ⟨loaded, settings, r, outDir, rfl, hmade, rfl,
          by simp only [runOn, hloaded, hmade, hdir, writing]⟩

/-- A run gets to the point where only writing is left, or prints at most. -/
lemma run_cases (env : Environment) (words : List Text) :
    (∃ a settings r outDir, Prepared env words a settings r outDir ∧
      run env words = writing env a settings r outDir) ∨
    ∀ s ∈ (run env words).steps, ∃ line, s = .print line := by
  cases hwords : Arguments.ofWords words with
  | error refusal =>
    rw [run, hwords]
    cases refusal <;> exact .inr fun s hs => absurd hs List.not_mem_nil
  | ok a =>
    rw [show run env words = runWith env a by rw [run, hwords]]
    cases hmodel : env.entry? (.ofText a.model) with
    | error e =>
      rw [show runWith env a = { ending := .error e } by simp only [runWith, hmodel]]
      exact .inr fun s hs => absurd hs List.not_mem_nil
    | ok entry? =>
      cases entry? with
      | none =>
        right
        simp only [runWith, hmodel]
        exact fun s hs => absurd hs List.not_mem_nil
      | some model =>
        rw [show runWith env a = runOn env a model by simp only [runWith, hmodel]]
        refine (runOn_cases env a model).imp_left ?_
        rintro ⟨loaded, settings, r, outDir, hloaded, hmade, hdir, hrun⟩
        have hprepared := Prepared.mk hwords ⟨model, loaded, hmodel, hloaded, hmade⟩ hdir
        exact ⟨a, settings, r, outDir, hprepared, hrun⟩

lemma Prepared.run_eq {env : Environment} {words : List Text} {a : Arguments} {settings : Settings}
    {r : Run} {outDir : Path} (h : Prepared env words a settings r outDir) :
    run env words = writing env a settings r outDir := by
  obtain ⟨model, loaded, hmodel, hloaded, hmade⟩ := h.made
  simp only [run, h.arguments, runWith, hmodel, runOn, hloaded, hmade, h.outDir, writing]

end

/-! ### The path of the report -/

/-- The settings have a path for the report, a value that can be written out. -/
def NamesReport (s : Settings) : Prop :=
  ∃ es v, s.get "report" = .map es ∧ Value.find? (.text "path") es = some v ∧ v.HoldsShort

lemma reportPath_ok {s : Settings} (h : NamesReport s) : ∃ path, reportPath s = .ok path := by
  obtain ⟨es, v, hreport, hv, hshort⟩ := h
  have hwritable : [v].all Value.isWritable = true := by
    rw [List.all_cons, List.all_nil, Bool.and_true]
    exact (Value.isWritable_iff v).2 hshort
  refine ⟨.ofText v.toText, ?_⟩
  simp only [reportPath, hreport, hv]
  rw [Value.checkWritable, if_pos hwritable]
  rfl

lemma reportPath_error {s : Settings} (h : ¬ NamesReport s) : ∃ e, reportPath s = .error e := by
  rw [reportPath]
  split
  · rename_i es hreport
    split
    · rename_i v hv
      have hlong : ¬ [v].all Value.isWritable = true := by
        rw [List.all_cons, List.all_nil, Bool.and_true]
        exact fun hwritable => h ⟨es, v, hreport, hv, (Value.isWritable_iff v).1 hwritable⟩
      rw [Value.checkWritable, if_neg hlong]
      exact ⟨_, rfl⟩
    · exact ⟨_, rfl⟩
  · exact ⟨_, rfl⟩

section

variable {env : Environment} {a : Arguments} {settings : Settings} {r : Run} {outDir : Path}

/-- With a path for the report, or without a dry run, writing ends well if no step fails. -/
lemma ending_writing (h : a.dryRun = true → NamesReport settings) :
    (writing env a settings r outDir).ending = .ok (.code 0) := by
  rw [writing]
  split
  · rename_i hdry
    obtain ⟨path, hpath⟩ := reportPath_ok (h hdry)
    rw [writeReport, hpath]
  · rfl

/-- Without a path for the report, a dry run makes the output directory and fails. -/
lemma writing_of_no_report (env : Environment) (r : Run) (outDir : Path)
    (hdry : a.dryRun = true) (h : ¬ NamesReport settings) :
    ∃ e, writing env a settings r outDir =
      { steps := [.makeDirectories outDir], ending := .error e, notes := r.notes } := by
  obtain ⟨e, he⟩ := reportPath_error h
  exact ⟨e, by rw [writing, if_pos hdry, writeReport, he]⟩

lemma onDisk_of_no_report (hdry : a.dryRun = true) (h : ¬ NamesReport settings) (disk : Disk) :
    ((writing env a settings r outDir).onDisk disk).disk = (disk.makeDirectories outDir).1 ∧
      ∃ e, ((writing env a settings r outDir).onDisk disk).ending = .error e := by
  obtain ⟨e, he⟩ := writing_of_no_report env r outDir hdry h
  rw [he, Outcome.onDisk]
  cases hmake : disk.makeDirectories outDir with
  | mk disk' fault? =>
    cases fault? with
    | none =>
      have hstep : (Step.makeDirectories outDir).onDisk disk = (disk', none) := hmake
      obtain ⟨hdisk, hending⟩ := takeSteps_of_taken (.error e) [] hstep
      exact ⟨hdisk, e, hending⟩
    | some fault =>
      have hstep : (Step.makeDirectories outDir).onDisk disk = (disk', some fault) := hmake
      rw [takeSteps_of_fault _ _ hstep]
      exact ⟨rfl, _, rfl⟩

end

end CommandLine

open CommandLine

/-- A run that does not end well leaves the disk as it was, but for two cases in which all documents
were made. In one, a step cannot be taken on the disk; if a path or a text is at fault, it is one
that cannot be written. In the other, it is a dry run, and the settings have no path for the report:
such a run always fails, and it fails after the output directory is made. -/
theorem disk_of_failed_run [Value.Arrangement] {read : Text → Except Failure Value} {disk : Disk}
    {clock : Clock} {words : List Text} {t : Trace}
    (ht : (run (environmentOn read disk clock) words).onDisk disk = t) :
    ((t.ending ≠ .ok (.code 0) ∨ ∃ refusal, Arguments.ofWords words = .error refusal) →
      t.disk = disk ∨
      ∃ a settings r outDir, Prepared (environmentOn read disk clock) words a settings r outDir ∧
        ((∃ step fault,
          FailsAt disk (run (environmentOn read disk clock) words).steps step t.disk fault ∧
          t.ending = .error (.file fault) ∧ (fault.OfText → ¬ step.Writable)) ∨
        a.dryRun = true ∧ ¬ NamesReport settings ∧
          disk.makeDirectories outDir = (t.disk, none))) ∧
    ∀ a settings r outDir, Prepared (environmentOn read disk clock) words a settings r outDir →
      a.dryRun = true → ¬ NamesReport settings →
      t.disk = (disk.makeDirectories outDir).1 ∧ ∃ e, t.ending = .error e := by
  constructor
  · intro hfailed
    rcases run_cases (environmentOn read disk clock) words with
      ⟨a, settings, r, outDir, hprepared, hrun⟩ | hprints
    swap
    · rw [← ht]
      exact .inl (disk_of_prints hprints)
    have hending : t.ending ≠ .ok (.code 0) := by
      refine hfailed.resolve_right ?_
      rintro ⟨refusal, hrefused⟩
      rw [hprepared.arguments] at hrefused
      cases hrefused
    refine .inr ⟨a, settings, r, outDir, hprepared, ?_⟩
    have hcases := takeSteps_cases (run (environmentOn read disk clock) words).ending disk
      (run (environmentOn read disk clock) words).steps
    rw [← Outcome.onDisk, ht] at hcases
    rcases hcases with ⟨htaken, hend⟩ | ⟨step, fault, hfails, hend⟩
    · right
      -- no step failed, so the run was to end badly from the start
      have hno : ¬ (a.dryRun = true → NamesReport settings) := by
        intro hreport
        rw [hend, hrun, ending_writing hreport] at hending
        exact hending rfl
      obtain ⟨hdry, hreport⟩ := Classical.not_imp.1 hno
      obtain ⟨e, he⟩ := writing_of_no_report (environmentOn read disk clock) r outDir hdry hreport
      rw [hrun, he] at htaken
      cases htaken with
      | cons hmake hnil =>
        cases hnil
        exact ⟨hdry, hreport, hmake⟩
    · left
      refine ⟨step, fault, hfails, hend, fun hfault hstep => ?_⟩
      obtain ⟨_, _, _, -, -, hstepfails⟩ := hfails
      exact Step.onDisk_fault hstep hstepfails hfault
  · intro a settings r outDir hprepared hdry hreport
    rw [← ht, hprepared.run_eq]
    exact onDisk_of_no_report hdry hreport disk

def onePackage : Text := "declarations: [\x7bkind: package, name: p\x7d]\n"

/-- A settings file that says nothing in the place of the report. -/
def noReport : Text := "report:\n"

/-- A reader of these two files. -/
def readEmptyReport (text : Text) : Except Failure Value :=
  if text = onePackage then
    .ok (.map [(.text "declarations",
      .list [.map [(.text "kind", .text "package"), (.text "name", .text "p")]])])
  else if text = noReport then .ok (.map [(.text "report", .null)])
  else .error .badDocument

/-- A disk with these two files. -/
def emptyReport : Disk where
  entries := .ofEntries [("/model.yml", .file onePackage), ("/config.yml", .file noReport)]

/-- The words that ask for a dry run with these settings. -/
def dryRun : List Text := ["/model.yml", "/out", "--dry-run", "--config", "/config.yml"]

/-- What is left of this dry run. -/
def afterDryRun : Trace :=
  (run (environmentOn readEmptyReport emptyReport {}) dryRun).onDisk emptyReport

lemma afterDryRun_made :
    afterDryRun.disk.at? ["out"] = some .directory ∧ afterDryRun.ending = .error .wrongSort := by
  have hrun : afterDryRun.disk.at? ["out"] = some .directory ∧
      (match afterDryRun.ending with
        | .error .wrongSort => true
        | _ => false) = true := by
    decide +kernel
  generalize afterDryRun = t at hrun
  obtain ⟨hafter, hending⟩ := hrun
  refine ⟨hafter, ?_⟩
  split at hending
  · assumption
  · cases hending

theorem disk_of_failed_run_emptyReport :
    (run (environmentOn readEmptyReport emptyReport {}) dryRun).onDisk emptyReport = afterDryRun ∧
    afterDryRun.ending = .error .wrongSort ∧
    ∃ a settings r outDir,
      Prepared (environmentOn readEmptyReport emptyReport {}) dryRun a settings r outDir ∧
      a.dryRun = true ∧ ¬ NamesReport settings ∧
      emptyReport.makeDirectories outDir = (afterDryRun.disk, none) := by
  obtain ⟨hafter, hending⟩ := afterDryRun_made
  have hrun : (run (environmentOn readEmptyReport emptyReport {}) dryRun).onDisk emptyReport =
      afterDryRun := rfl
  generalize afterDryRun = t at hrun hafter hending
  have hbefore : emptyReport.at? ["out"] = none := by decide
  have hfailed : t.ending ≠ .ok (.code 0) := by
    rw [hending]
    exact nofun
  refine ⟨hrun, hending, ?_⟩
  rcases (disk_of_failed_run hrun).1 (.inl hfailed) with
    hsame | ⟨a, settings, r, outDir, hprepared, ⟨_, _, -, hfault, -⟩ | hreport⟩
  · rw [hsame, hbefore] at hafter
    cases hafter
  · rw [hending] at hfault
    cases hfault
  · exact ⟨a, settings, r, outDir, hprepared, hreport⟩

/-- A run fails, not because of the disk, and leaves a directory that was not there. -/
theorem dry_run_leaves_directory :
    afterDryRun.ending = .error .wrongSort ∧ emptyReport.at? ["out"] = none ∧
      afterDryRun.disk.at? ["out"] = some .directory := by
  obtain ⟨hafter, hending⟩ := afterDryRun_made
  exact ⟨hending, by decide, hafter⟩

end ApiDocs
