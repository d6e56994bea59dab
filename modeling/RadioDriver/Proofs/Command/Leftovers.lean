import RadioDriver.Proofs.Command.Reading
import RadioDriver.Proofs.Disk.Frame

namespace RadioDriver

/-- The files with these targets were staged, in this order, between two disks. -/
structure Progress (d₀ : Disk) (done : List String) (w : StagedWrites) (d : Disk) : Prop where
  staged : d₀.Staged d w.staged
  targets : w.staged.map (·.target) = done

/-- How staging files with planned targets ends: with all of them staged, or with the first of them
and a fault at the next. -/
inductive Advances {ε α : Type} (d₀ : Disk) (done planned : List String) :
    Except ε α × StagedWrites → Disk → Prop
  | all {a : α} {w : StagedWrites} {d : Disk} (h : Progress d₀ (done ++ planned) w d) :
    Advances d₀ done planned (.ok a, w) d
  | some {e : ε} {w : StagedWrites} {d : Disk} {first : List String} {next : String}
    {bytes : ByteArray} {fault : OsError} (h : Progress d₀ (done ++ first) w d)
    (hnext : first ++ [next] <+: planned)
    (hfault : d.write (Path.sibling next ".tmp") bytes = .error fault) :
    Advances d₀ done planned (.error e, w) d

section
variable {ε δ α β : Type} {d₀ d : Disk} {done planned before : List String} {w : StagedWrites}
  {r : Except ε α}

theorem Advances.answer (h : Advances d₀ done planned (r, w) d) {r' : Except δ β}
    (hr : r'.isOk = r.isOk) : Advances d₀ done planned (r', w) d := by
  cases h with
  | all h =>
    cases r' with
    | ok b => exact .all h
    | error e => cases hr
  | some h hnext hfault =>
    cases r' with
    | ok b => cases hr
    | error e => exact .some h hnext hfault

theorem Advances.stop {e : ε} (h : Advances d₀ done planned ((.error e : Except ε α), w) d)
    (more : List String) : Advances d₀ done (planned ++ more) ((.error e : Except ε α), w) d := by
  cases h with
  | some h hnext hfault => exact .some h (hnext.trans (List.prefix_append _ _)) hfault

theorem Advances.after (h : Advances d₀ (done ++ before) planned (r, w) d) :
    Advances d₀ done (before ++ planned) (r, w) d := by
  cases h with
  | all h =>
    rw [List.append_assoc] at h
    exact .all h
  | some h hnext hfault =>
    rw [List.append_assoc] at h
    refine .some h ?_ hfault
    rw [List.append_assoc]
    exact (List.prefix_append_right_inj _).mpr hnext

theorem Advances.progress {a : α} (h : Advances d₀ done planned ((.ok a : Except ε α), w) d) :
    Progress d₀ (done ++ planned) w d := by
  cases h with
  | all h => exact h

end

variable {d₀ d : Disk} {done : List String} {w : StagedWrites}

theorem Progress.stage (h : Progress d₀ done w d) (target : String) (bytes : ByteArray) :
    Advances d₀ done [target] ((w.stage target bytes : StateM Disk _).run d).1
      ((w.stage target bytes : StateM Disk _).run d).2 := by
  rcases hrun : (w.stage target bytes : StateM Disk _).run d with ⟨⟨r, w'⟩, d'⟩
  have hstaged := h.staged.stage hrun
  rcases Disk.stage_run hrun with ⟨rfl, -, hadded⟩ | ⟨⟨e, fault, rfl, hfault⟩, rfl, rfl⟩
  · refine .all ⟨hstaged, ?_⟩
    rw [hadded, List.map_append, h.targets]
    rfl
  · have hsame : Progress d₀ (done ++ []) w' d' := ⟨hstaged, by rw [h.targets, List.append_nil]⟩
    exact .some hsame (List.prefix_refl [target]) hfault

/-- A commit of what was staged changes no file but those that it owns, when nothing that it
replaces or removes is a directory. -/
theorem Progress.kept (h : Progress d₀ done w d)
    (hplain : ∀ path ∈ w.displaced, ¬ d.IsDirectory path) {place : Location}
    (hplace : ¬ Disk.Owned d w place) :
    ((w.commit : StateM Disk _).run d).2.fileAt place = d₀.fileAt place := by
  have hregular : Disk.Regular d w := by
    refine ⟨h.staged.named, ?_, hplain⟩
    rintro f hf ⟨directory, hdir⟩
    obtain ⟨q, bytes, hfile⟩ := h.staged.left f hf
    rw [hfile] at hdir
    cases hdir
  rw [Disk.fileAt_congr ((Disk.changedWithin_commit hregular).frame place hplace)]
  refine h.staged.frame place fun f hf node hfound => hplace (.temporary hf ?_)
  rw [h.staged.named f hf, Disk.lookup_sibling_iff] at hfound
  exact hfound.1

namespace LocaleStore

theorem stageFile_advances (h : Progress d₀ done w d) (target : String) (v : Json) :
    Advances d₀ done [target] ((stageFile target v w : StateM Disk _).run d).1
      ((stageFile target v w : StateM Disk _).run d).2 := by
  have hstage := h.stage target (encode v)
  unfold stageFile
  rw [run_bind_state]
  generalize (w.stage target (encode v) : StateM Disk _).run d = out at hstage ⊢
  obtain ⟨⟨e | u, w'⟩, d'⟩ := out
  · exact hstage.answer rfl
  · exact hstage.answer rfl

def targetsOf (s : LocaleStore) (policy : MarkerPolicy) (entry : String × LocaleTable) :
    List String := (s.documents policy entry).map (·.1)

theorem stageTable_advances (s : LocaleStore) (policy : MarkerPolicy) (h : Progress d₀ done w d)
    (entry : String × LocaleTable) :
    Advances d₀ done (s.targetsOf policy entry)
      ((s.stageTable policy entry.1 entry.2 w : StateM Disk _).run d).1
      ((s.stageTable policy entry.1 entry.2 w : StateM Disk _).run d).2 := by
  have htext := stageFile_advances h (s.textPath entry.1) (entry.2.render policy)
  unfold stageTable targetsOf
  rw [run_bind_state]
  generalize (stageFile (s.textPath entry.1) (entry.2.render policy) w : StateM Disk _).run d = out
    at htext ⊢
  obtain ⟨⟨e | u, w₁⟩, d₁⟩ := out
  · rw [documents, List.map_cons]
    exact (htext.stop _).answer rfl
  · dsimp only
    by_cases hside : HasSide policy entry.2
    · have hlist := stageFile_advances htext.progress (s.sidePath entry.1)
        (.ofStrings entry.2.fallback)
      have hstrip : policy = .strip ∧ entry.2.fallback ≠ [] := hside
      rw [if_pos hstrip, documents_of_side hside, run_bind_state]
      generalize (stageFile (s.sidePath entry.1) (.ofStrings entry.2.fallback) w₁ :
        StateM Disk _).run d₁ = out at hlist ⊢
      obtain ⟨⟨e | u, w₂⟩, d₂⟩ := out
      · exact hlist.after.answer rfl
      · exact hlist.after.answer rfl
    · have hkeep : ¬ (policy = .strip ∧ entry.2.fallback ≠ []) := hside
      have hone := htext.progress
      rw [if_neg hkeep, documents_of_not_side hside, run_bind_state, reads_exists]
      -- a side file that is out of date is only listed for the commit
      split
      · exact .all ⟨hone.staged, hone.targets⟩
      · exact .all hone

theorem stageTables_advances (s : LocaleStore) (policy : MarkerPolicy) (tables : Fields LocaleTable)
    (h : Progress d₀ done w d) :
    Advances d₀ done (tables.flatMap (s.targetsOf policy))
      ((s.stageTables policy tables w : StateM Disk _).run d).1
      ((s.stageTables policy tables w : StateM Disk _).run d).2 := by
  induction tables generalizing done w d with
  | nil => exact .all (by rwa [List.flatMap_nil, List.append_nil])
  | cons entry rest ih =>
    have htable := stageTable_advances s policy h entry
    rw [List.flatMap_cons, stageTables, run_bind_state]
    generalize (s.stageTable policy entry.1 entry.2 w : StateM Disk _).run d = out at htable ⊢
    obtain ⟨⟨e | targets, w₁⟩, d₁⟩ := out
    · exact (htable.stop _).answer rfl
    · have hrest := ih htable.progress
      dsimp only
      rw [run_bind_state]
      generalize (s.stageTables policy rest w₁ : StateM Disk _).run d₁ = out at hrest ⊢
      obtain ⟨⟨e | more, w₂⟩, d₂⟩ := out
      · exact hrest.after.answer rfl
      · exact hrest.after.answer rfl

/-- The directory of locale files cannot be made, or they are staged in it one by one. -/
theorem stage_advances (s : LocaleStore) (policy : MarkerPolicy) (c : Catalog)
    (h : Progress d₀ done w d) {r : Except LocaleError (List String)} {w' : StagedWrites}
    {d' : Disk} (hrun : (s.stage c policy w : StateM Disk _).run d = ((r, w'), d')) :
    (∃ e, (Files.makeDirs s.directory : StateM Disk _).run d = (.error e, d') ∧
        r = .error (.io s.directory e) ∧ Progress d₀ done w' d') ∨
      Advances d₀ done (c.tables.flatMap (s.targetsOf policy)) (r, w') d' := by
  have hgrows := Disk.grows_makeDirs s.directory d
  unfold stage at hrun
  rw [run_bind_state] at hrun
  generalize (Files.makeDirs s.directory : StateM Disk _).run d = out at hgrows hrun ⊢
  obtain ⟨e | u, d₁⟩ := out
  · cases hrun
    exact .inl ⟨e, rfl, rfl, h.staged.extends hgrows, h.targets⟩
  · have hstart : Progress d₀ done w d₁ := ⟨h.staged.extends hgrows, h.targets⟩
    have htables := stageTables_advances s policy c.tables hstart
    have hrun : (s.stageTables policy c.tables w : StateM Disk _).run d₁ = ((r, w'), d') := hrun
    rw [hrun] at htables
    exact .inr htables

end LocaleStore

namespace Command

section
variable {directory name : String} {v : Json} {rest : List (String × Json)} {w' : StagedWrites}
  {d' : Disk}

theorem stageDocuments_of_ok
    (h : (w.stage (Path.child directory name) v.pretty.toUTF8 : StateM Disk _).run d =
      ((.ok (), w'), d')) :
    (stageDocuments (m := StateM Disk) directory ((name, v) :: rest) w).run.run d =
      (stageDocuments (m := StateM Disk) directory rest w').run.run d' := by
  rw [stageDocuments, exceptT_bind_run, lift_run, h]
  dsimp only
  rw [exceptT_bind_of_ok (demand_of_ok rfl)]

theorem stageDocuments_of_error {e : WriteError}
    (h : (w.stage (Path.child directory name) v.pretty.toUTF8 : StateM Disk _).run d =
      ((.error e, w'), d')) :
    (stageDocuments (m := StateM Disk) directory ((name, v) :: rest) w).run.run d =
      (.error (failure "writing outputs" (.write e)), d') := by
  rw [stageDocuments, exceptT_bind_run, lift_run, h]
  rfl

end

theorem stageDocuments_advances (directory : String) (files : List (String × Json))
    (h : Progress d₀ done w d) {r : Except Outcome StagedWrites} {d' : Disk}
    (hrun : (stageDocuments (m := StateM Disk) directory files w).run.run d = (r, d')) :
    ∃ w', Advances d₀ done (files.map fun f => Path.child directory f.1) (r, w') d' ∧
      (r = .ok w' ∨ ∃ e, r = .error (failure "writing outputs" e)) := by
  induction files generalizing done w d with
  | nil =>
    cases hrun
    exact ⟨w, .all (by rwa [List.map_nil, List.append_nil]), .inl rfl⟩
  | cons file rest ih =>
    obtain ⟨name, v⟩ := file
    have hstage := h.stage (Path.child directory name) v.pretty.toUTF8
    rcases hout : (w.stage (Path.child directory name) v.pretty.toUTF8 : StateM Disk _).run d with
      ⟨⟨e | u, w₁⟩, d₁⟩
    all_goals rw [hout] at hstage
    · rw [stageDocuments_of_error hout] at hrun
      cases hrun
      exact ⟨w₁, (hstage.stop _).answer rfl, .inr ⟨_, rfl⟩⟩
    · rw [stageDocuments_of_ok hout] at hrun
      obtain ⟨w', hrest, hr⟩ := ih hstage.progress hrun
      exact ⟨w', hrest.after, hr⟩

/-- The files of a compiled project, in the order in which they are staged. -/
def targetsOf (given : Given) (p : Project) (files : List (String × Json)) (catalog : Catalog) :
    List String :=
  (files.map fun f => Path.child (outputOf given p.settings) f.1) ++
    catalog.tables.flatMap (p.store.targetsOf p.settings.policy)

/-- A project that compiles, with the documents and texts that are to be written. -/
structure Planned (env : Environment) (given : Given) (d : Disk) (p : Project)
    (files : List (String × Json)) (catalog : Catalog) : Prop where
  compiled : (compileProject (m := StateM Disk) env given).run.run d = (.ok p, d)
  documents : documents env p = .ok files
  texts : p.compiler.locales = .ok catalog

/-- How a failed compilation leaves the disk. -/
inductive Leaves (env : Environment) (given : Given) (d d' : Disk) : Prop
  /-- Nothing was to be written. -/
  | notCompiled (unplanned : ∀ p files catalog, ¬ Planned env given d p files catalog)
    (untouched : ∀ place, d'.fileAt place = d.fileAt place)
  /-- There is no directory to write to. -/
  | noDirectory {p : Project} {files : List (String × Json)} {catalog : Catalog} {e : OsError}
    (planned : Planned env given d p files catalog)
    (unmade : (Files.makeDirs (outputOf given p.settings) : StateM Disk _).run d = (.error e, d'))
    (untouched : ∀ place, d'.fileAt place = d.fileAt place)
  /-- A file cannot be staged, and those staged before it are left. -/
  | stopped {p : Project} {files : List (String × Json)} {catalog : Catalog}
    {staged : List StagedFile} {next : String} {bytes : ByteArray} {fault : OsError}
    (planned : Planned env given d p files catalog)
    (first : staged.map (·.target) ++ [next] <+: targetsOf given p files catalog)
    (unwritten : d'.write (Path.sibling next ".tmp") bytes = .error fault)
    (left : d.Staged d' staged)
  /-- There is no directory for texts, and the staged documents are left. -/
  | noTextDirectory {p : Project} {files : List (String × Json)} {catalog : Catalog}
    {staged : List StagedFile} {d₁ : Disk} {e : OsError}
    (planned : Planned env given d p files catalog)
    (all : staged.map (·.target) = files.map fun f => Path.child (outputOf given p.settings) f.1)
    (unmade : (Files.makeDirs p.store.directory : StateM Disk _).run d₁ = (.error e, d'))
    (left : d.Staged d' staged)
  /-- Everything was staged, and the commit failed, which drops it. Other files than those that the
  commit owns are as they were. -/
  | uncommitted {p : Project} {files : List (String × Json)} {catalog : Catalog}
    {d₁ : Disk} {w : StagedWrites} {e : WriteError} (planned : Planned env given d p files catalog)
    (all : Progress d (targetsOf given p files catalog) w d₁)
    (failed : (w.commit : StateM Disk _).run d₁ = (.error e, d'))
    (dropped : ∀ f ∈ w.staged, d'.NoFile f.temporary)
    (others : (∀ path ∈ w.displaced, ¬ d₁.IsDirectory path) →
      ∀ place, ¬ d₁.Owned w place → d'.fileAt place = d.fileAt place)

theorem leaves_of_stop {ε α : Type} {env : Environment} {given : Given} {d d' : Disk} {p : Project}
    {files : List (String × Json)} {catalog : Catalog} {e : ε} {w : StagedWrites}
    (hplanned : Planned env given d p files catalog)
    (h : Advances d [] (targetsOf given p files catalog) ((.error e : Except ε α), w) d') :
    Leaves env given d d' := by
  cases h with
  | some h hnext hfault =>
    rw [List.nil_append] at h
    rw [← h.targets] at hnext
    exact .stopped hplanned hnext hfault h.staged

theorem code_of_documents_error {env : Environment} {p : Project} {outcome : Outcome}
    (h : documents env p = .error outcome) : outcome.code = 1 := by
  unfold documents at h
  cases hdevices : p.compiler.deviceConfig with
  | error e =>
    rw [hdevices] at h
    cases h
    rfl
  | ok devices =>
    cases hmanifest : p.compiler.manifest with
    | error e =>
      rw [hdevices, hmanifest] at h
      cases h
      rfl
    | ok manifest =>
      rw [hdevices, hmanifest] at h
      cases h

theorem documents_of_ok (env : Environment) {p : Project} {devices : Json} {manifest : Manifest}
    (hdevices : p.compiler.deviceConfig = .ok devices)
    (hmanifest : p.compiler.manifest = .ok manifest) :
    ∃ report, documents env p = .ok [("device_config.json", devices),
      ("app_manifest.json", manifest.toJson), ("compile_report.json", report)] := by
  unfold documents
  rw [hdevices, hmanifest]
  exact ⟨_, rfl⟩

theorem code_of_compile_ok {env : Environment} {given : Given} {d d' : Disk} {outcome : Outcome}
    (hrun : (compile (m := StateM Disk) env given).run.run d = (.ok outcome, d')) :
    outcome.code = 0 := by
  unfold compile at hrun
  obtain ⟨p, d₁, -, hrun⟩ := ok_of_exceptT_bind hrun
  obtain ⟨files, d₂, -, hrun⟩ := ok_of_exceptT_bind hrun
  obtain ⟨catalog, d₃, -, hrun⟩ := ok_of_exceptT_bind hrun
  obtain ⟨_, d₄, -, hrun⟩ := ok_of_exceptT_bind hrun
  obtain ⟨writes, d₅, -, hrun⟩ := ok_of_exceptT_bind hrun
  obtain ⟨⟨targets, writes⟩, d₆, -, hrun⟩ := ok_of_exceptT_bind hrun
  obtain ⟨targets, d₇, -, hrun⟩ := ok_of_exceptT_bind hrun
  obtain ⟨_, d₈, -, hrun⟩ := ok_of_exceptT_bind hrun
  cases hrun
  rfl

theorem unplanned_of_compile_error {env : Environment} {given : Given} {d d' : Disk}
    {e : CompileError}
    (h : (compileProject (m := StateM Disk) env given).run.run d = (.error e, d'))
    (p : Project) (files : List (String × Json)) (catalog : Catalog) :
    ¬ Planned env given d p files catalog := by
  intro hplanned
  have hcompiled := hplanned.compiled
  rw [h] at hcompiled
  cases hcompiled

theorem eq_of_planned {env : Environment} {given : Given} {d : Disk} {p q : Project}
    {files : List (String × Json)} {catalog : Catalog} (h : Planned env given d p files catalog)
    (hq : (compileProject (m := StateM Disk) env given).run.run d = (.ok q, d)) : p = q := by
  have hcompiled := h.compiled
  rw [hq] at hcompiled
  cases hcompiled
  rfl

/-- Whatever a compilation fails at, all that it staged is left, unless it fails at its commit. -/
theorem leaves_of_compile_error {env : Environment} {given : Given} {d d' : Disk}
    {outcome : Outcome}
    (hrun : (compile (m := StateM Disk) env given).run.run d = (.error outcome, d')) :
    outcome.code = 1 ∧ Leaves env given d d' := by
  unfold compile at hrun
  -- until the output directory is made, the disk is only read
  rcases error_of_exceptT_bind hrun with h | ⟨p, d₁, hproject, hrun₁⟩
  · obtain ⟨e, he, rfl⟩ := orFail_eq_error h
    obtain rfl : d' = d := (congrArg Prod.snd he).symm.trans (reads_compileProject env given d)
    exact ⟨rfl, .notCompiled (unplanned_of_compile_error he) fun _ => rfl⟩
  have hcompiled := orFail_eq_ok hproject
  obtain rfl : d₁ = d := (congrArg Prod.snd hcompiled).symm.trans (reads_compileProject env given d)
  rcases error_of_exceptT_bind hrun₁ with h | ⟨files, d₂, hdemand, hrun₂⟩
  · obtain ⟨e, he, rfl, rfl⟩ := demand_eq_error h
    refine ⟨code_of_documents_error he, .notCompiled ?_ fun _ => rfl⟩
    intro q files catalog hplanned
    have hdocuments := hplanned.documents
    rw [eq_of_planned hplanned hcompiled, he] at hdocuments
    cases hdocuments
  obtain ⟨hfiles, rfl⟩ := demand_eq_ok hdemand
  rcases error_of_exceptT_bind hrun₂ with h | ⟨catalog, d₃, hlocales, hrun₃⟩
  · obtain ⟨e, he, rfl, rfl⟩ := demand_eq_error h
    refine ⟨rfl, .notCompiled ?_ fun _ => rfl⟩
    intro q files catalog hplanned
    have htexts := hplanned.texts
    rw [eq_of_planned hplanned hcompiled, he] at htexts
    cases htexts
  obtain ⟨hcatalog, rfl⟩ := demand_eq_ok hlocales
  have hplanned : Planned env given d₃ p files catalog := ⟨hcompiled, hfiles, hcatalog⟩
  have hgrows := Disk.grows_makeDirs (outputOf given p.settings) d₃
  rcases error_of_exceptT_bind hrun₃ with h | ⟨_, d₄, hmade, hrun₄⟩
  · obtain ⟨e, he, rfl⟩ := orFail_eq_error h
    rw [he] at hgrows
    exact ⟨rfl, .noDirectory hplanned he hgrows.fileAt_eq⟩
  rw [orFail_eq_ok hmade] at hgrows
  -- from here on what is staged is counted
  have hstart : Progress d₃ [] {} d₄ := ⟨(Disk.staged_nil d₃).extends hgrows, rfl⟩
  rcases error_of_exceptT_bind hrun₄ with h | ⟨w, d₅, hdocuments, hrun₅⟩
  · obtain ⟨w, hadvances, hr | ⟨e, hr⟩⟩ := stageDocuments_advances _ _ hstart h
    · cases hr
    · cases hr
      exact ⟨rfl, leaves_of_stop hplanned (hadvances.stop _)⟩
  obtain ⟨w', hadvances, hr⟩ := stageDocuments_advances _ _ hstart hdocuments
  obtain rfl : w = w' := by
    rcases hr with hr | ⟨e, hr⟩
    · exact Except.ok.inj hr
    · cases hr
  have hdone := hadvances.progress
  rw [exceptT_bind_run, lift_run] at hrun₅
  rcases hstage : (p.store.stage catalog p.settings.policy w : StateM Disk _).run d₅ with
    ⟨⟨r, w'⟩, d₆⟩
  rw [hstage] at hrun₅
  dsimp only at hrun₅
  rcases LocaleStore.stage_advances _ _ _ hdone hstage with ⟨e, hunmade, rfl, hleft⟩ | htexts
  · cases hrun₅
    exact ⟨rfl, .noTextDirectory hplanned hleft.targets hunmade hleft.staged⟩
  rcases error_of_exceptT_bind hrun₅ with h | ⟨targets, d₇, htargets, hrun₆⟩
  · obtain ⟨e, rfl, rfl, rfl⟩ := demand_eq_error h
    exact ⟨rfl, leaves_of_stop hplanned htexts.after⟩
  obtain ⟨rfl, rfl⟩ := demand_eq_ok htargets
  rcases error_of_exceptT_bind hrun₆ with h | ⟨_, d₈, -, hrun₇⟩
  · obtain ⟨e, he, rfl⟩ := orFail_eq_error h
    have hall := htexts.after.progress
    refine ⟨rfl, .uncommitted hplanned hall he (fun f hf => Disk.noFile_of_commit_error he hf) ?_⟩
    intro hplain place hplace
    have hkept := hall.kept hplain hplace
    rwa [he] at hkept
  · cases hrun₇

section
variable {env : Environment} {arguments : List String} {given : Given} {d d' : Disk}
  {outcome : Outcome}

theorem run_of_compile (env : Environment) (d : Disk)
    (hrequest : Request.ofArguments arguments = some (.run .compile given)) :
    (run env arguments : StateM Disk Outcome).run d =
      match (compile (m := StateM Disk) env given).run.run d with
      | (.ok outcome, d) => (outcome, d)
      | (.error outcome, d) => (outcome, d) := by
  unfold run
  rw [hrequest]
  dsimp only
  rw [run_bind_state]
  rcases (compile (m := StateM Disk) env given).run.run d with ⟨e | o, d₁⟩ <;> rfl

/-- The program ends with code 1 when a compilation fails. It leaves everything that it staged by
then beside its targets, unless it was the commit that failed. -/
theorem failed_compile_leaves
    (hrequest : Request.ofArguments arguments = some (.run .compile given))
    (hrun : (run env arguments : StateM Disk Outcome).run d = (outcome, d'))
    (hfailed : outcome.code ≠ 0) : outcome.code = 1 ∧ Leaves env given d d' := by
  rw [run_of_compile env d hrequest] at hrun
  rcases hcompile : (compile (m := StateM Disk) env given).run.run d with ⟨e | o, d₁⟩
  · rw [hcompile] at hrun
    cases hrun
    exact leaves_of_compile_error hcompile
  · rw [hcompile] at hrun
    cases hrun
    exact absurd (code_of_compile_ok hcompile) hfailed

end

/-- A project without devices, in whose output directory a directory stands where the manifest is to
be staged. -/
def stuckDisk : Disk where
  nodes := [(["app"], .directory), (["app", "433_generator"], .directory),
    (["app", "433_generator", "config.json"], .file "{}".toUTF8), (["app", "drivers"], .directory),
    (["app", "drivers", "app_manifest.json.tmp"], .directory)]

def homeless : Environment := ⟨none, ""⟩

def stuckPlace : Location := ["app", "drivers", "device_config.json.tmp"]

def stuckBytes : ByteArray := (Json.object [("devices", .object [])]).pretty.toUTF8

theorem request_stuck :
    Request.ofArguments ["compile", "--root", "app"] =
      some (.run .compile [(.root, "app")]) :=
  rfl

theorem write_stuck (bytes : ByteArray) :
    stuckDisk.write "app/drivers/device_config.json.tmp" bytes =
      .ok (stuckDisk.put stuckPlace (.file bytes)) := by
  have hentry : stuckDisk.entry "app/drivers/device_config.json.tmp" =
      .ok ⟨["app", "drivers"], "device_config.json.tmp", false⟩ := rfl
  unfold Disk.write
  rw [hentry]
  rfl

theorem write_stuck_again (staged bytes : ByteArray) :
    (stuckDisk.put stuckPlace (.file staged)).write "app/drivers/app_manifest.json.tmp" bytes =
      .error .isADirectory := by
  have hentry : (stuckDisk.put stuckPlace (.file staged)).entry
      "app/drivers/app_manifest.json.tmp" =
      .ok ⟨["app", "drivers"], "app_manifest.json.tmp", false⟩ := rfl
  unfold Disk.write
  rw [hentry]
  rfl

theorem stageDocuments_stuck (v v' : Json) (rest : List (String × Json)) : ∃ outcome,
    (stageDocuments (m := StateM Disk) "app/drivers"
      (("device_config.json", v) :: ("app_manifest.json", v') :: rest) {}).run.run stuckDisk =
      (.error outcome, stuckDisk.put stuckPlace (.file v.pretty.toUTF8)) := by
  have hconfig : Path.sibling (Path.child "app/drivers" "device_config.json") ".tmp" =
      "app/drivers/device_config.json.tmp" := by decide +kernel
  have hmanifest : Path.sibling (Path.child "app/drivers" "app_manifest.json") ".tmp" =
      "app/drivers/app_manifest.json.tmp" := by decide +kernel
  have hfirst := write_stuck v.pretty.toUTF8
  have hnext := write_stuck_again v.pretty.toUTF8 v'.pretty.toUTF8
  rw [← hconfig] at hfirst
  rw [← hmanifest] at hnext
  exact ⟨_, (stageDocuments_of_ok (Disk.stage_of_write {} hfirst)).trans
    (stageDocuments_of_error (Disk.stage_of_write_error _ hnext))⟩

theorem compile_stuck : ∃ outcome,
    (compile (m := StateM Disk) homeless [(.root, "app")]).run.run stuckDisk =
      (.error outcome, stuckDisk.put stuckPlace (.file stuckBytes)) := by
  have hread : (Settings.readForRoot none "app" none : StateM Disk _).run stuckDisk =
      (.ok Settings.builtin, stuckDisk) := by
    rw [← Settings.ofLayers_defaults]
    rfl
  obtain ⟨p, hp, hsettings, hdevices, ⟨m, hm⟩, catalog, hcatalog⟩ :=
    compileProject_of_empty homeless [(.root, "app")] hread rfl rfl rfl
  obtain ⟨report, hdocuments⟩ := documents_of_ok homeless hdevices hm
  have hdirectory : outputOf [(.root, "app")] p.settings = "app/drivers" := by
    rw [hsettings]
    rfl
  have hmade : (Files.makeDirs "app/drivers" : StateM Disk _).run stuckDisk =
      (.ok (), stuckDisk) := rfl
  obtain ⟨outcome, hstuck⟩ := stageDocuments_stuck (.object [("devices", .object [])]) m.toJson
    [("compile_report.json", report)]
  have hproject : (orFail (m := StateM Disk) (failure "compiling configuration")
      (compileProject (m := StateM Disk) homeless [(.root, "app")])).run.run stuckDisk =
        (.ok p, stuckDisk) :=
    orFail_of_ok hp
  refine ⟨outcome, ?_⟩
  unfold compile
  rw [exceptT_bind_of_ok hproject, exceptT_bind_of_ok (demand_of_ok hdocuments),
    exceptT_bind_of_ok (demand_of_ok hcatalog)]
  dsimp only
  rw [hdirectory, exceptT_bind_of_ok (orFail_of_ok hmade)]
  exact exceptT_bind_of_error hstuck

theorem run_stuck : ∃ outcome,
    (run homeless ["compile", "--root", "app"] : StateM Disk _).run stuckDisk =
      (outcome, stuckDisk.put stuckPlace (.file stuckBytes)) ∧ outcome.code = 1 := by
  obtain ⟨outcome, hstuck⟩ := compile_stuck
  refine ⟨outcome, ?_, (leaves_of_compile_error hstuck).1⟩
  rw [run_of_compile homeless stuckDisk request_stuck, hstuck]

/-- The manifest of the project cannot be staged. -/
theorem stuck_compile_leaves : ∃ outcome d',
    (run homeless ["compile", "--root", "app"] : StateM Disk _).run stuckDisk = (outcome, d') ∧
      outcome.code = 1 ∧ Leaves homeless [(.root, "app")] stuckDisk d' := by
  obtain ⟨outcome, hrun, hcode⟩ := run_stuck
  have hfailed : outcome.code ≠ 0 := by
    rw [hcode]
    decide
  exact ⟨outcome, _, hrun, failed_compile_leaves request_stuck hrun hfailed⟩

/-- The program ends with code 1, and the device configuration is left beside its target. -/
theorem stuck_compile_leaves_file : ∃ outcome d',
    (run homeless ["compile", "--root", "app"] : StateM Disk _).run stuckDisk = (outcome, d') ∧
      outcome.code = 1 ∧ stuckDisk.fileAt stuckPlace = none ∧
      d'.fileAt stuckPlace = some stuckBytes := by
  obtain ⟨outcome, hrun, hcode⟩ := run_stuck
  refine ⟨outcome, _, hrun, hcode, rfl, ?_⟩
  rw [Disk.fileAt_eq_some]
  exact Disk.node?_put_self _ _ (List.cons_ne_nil _ _)

end Command

end RadioDriver
