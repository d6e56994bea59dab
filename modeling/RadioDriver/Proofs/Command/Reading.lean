import RadioDriver.Command.Run
import RadioDriver.Proofs.Compiler.Builtins
import RadioDriver.Proofs.Locale.Persistence

namespace RadioDriver

open LocaleStore (Reads reads_pure reads_loadTable)

section
variable {ε δ α β : Type} {x : ExceptT ε (StateM Disk) α} {f : α → ExceptT ε (StateM Disk) β}
  {d d' : Disk}

theorem exceptT_bind_run (x : ExceptT ε (StateM Disk) α) (f : α → ExceptT ε (StateM Disk) β)
    (d : Disk) :
    (x >>= f).run.run d =
      match x.run.run d with
      | (.ok a, d) => (f a).run.run d
      | (.error e, d) => (.error e, d) := by
  show (x.run >>= ExceptT.bindCont f).run d = _
  rw [run_bind_state]
  rcases x.run.run d with ⟨e | a, d₁⟩ <;> rfl

theorem lift_run (x : StateM Disk α) (d : Disk) :
    (liftM x : ExceptT ε (StateM Disk) α).run.run d = (.ok (x.run d).1, (x.run d).2) := rfl

theorem reads_exceptT_bind (h : Reads x.run) (hf : ∀ a, Reads (f a).run) : Reads (x >>= f).run := by
  intro d
  rw [exceptT_bind_run]
  have hd := h d
  rcases hx : x.run.run d with ⟨e | a, d₁⟩
  · rw [hx] at hd
    exact hd
  · rw [hx] at hd
    exact (hf a d₁).trans hd

theorem exceptT_bind_of_ok {a : α} {d₁ : Disk} (h : x.run.run d = (.ok a, d₁)) :
    (x >>= f).run.run d = (f a).run.run d₁ := by
  rw [exceptT_bind_run, h]

theorem exceptT_bind_of_error {e : ε} (h : x.run.run d = (.error e, d')) :
    (x >>= f).run.run d = (.error e, d') := by
  rw [exceptT_bind_run, h]

theorem error_of_exceptT_bind {e : ε} (h : (x >>= f).run.run d = (.error e, d')) :
    x.run.run d = (.error e, d') ∨
      ∃ a d₁, x.run.run d = (.ok a, d₁) ∧ (f a).run.run d₁ = (.error e, d') := by
  rw [exceptT_bind_run] at h
  rcases hx : x.run.run d with ⟨e' | a, d₁⟩
  · rw [hx] at h
    cases h
    exact .inl rfl
  · rw [hx] at h
    exact .inr ⟨a, d₁, rfl, h⟩

theorem ok_of_exceptT_bind {b : β} (h : (x >>= f).run.run d = (.ok b, d')) :
    ∃ a d₁, x.run.run d = (.ok a, d₁) ∧ (f a).run.run d₁ = (.ok b, d') := by
  rw [exceptT_bind_run] at h
  rcases hx : x.run.run d with ⟨e | a, d₁⟩
  · rw [hx] at h
    cases h
  · rw [hx] at h
    exact ⟨a, d₁, rfl, h⟩

namespace Command

theorem orFail_run (fault : ε → δ) (step : StateM Disk (Except ε α)) (d : Disk) :
    (orFail fault step).run.run d = ((step.run d).1.mapError fault, (step.run d).2) := by
  show ((step >>= _ : StateM Disk _)).run d = _
  rw [run_bind_state]
  cases (step.run d).1 <;> rfl

theorem demand_run (fault : ε → δ) (result : Except ε α) (d : Disk) :
    (demand (m := StateM Disk) fault result).run.run d = (result.mapError fault, d) :=
  orFail_run fault _ d

theorem orFail_of_ok {fault : ε → δ} {step : StateM Disk (Except ε α)} {a : α}
    (h : step.run d = (.ok a, d')) : (orFail fault step).run.run d = (.ok a, d') := by
  rw [orFail_run, h]
  rfl

theorem demand_of_ok {fault : ε → δ} {result : Except ε α} {a : α} (h : result = .ok a) :
    (demand (m := StateM Disk) fault result).run.run d = (.ok a, d) := by
  rw [demand_run, h]
  rfl

theorem orFail_eq_ok {fault : ε → δ} {step : StateM Disk (Except ε α)} {a : α}
    (h : (orFail fault step).run.run d = (.ok a, d')) : step.run d = (.ok a, d') := by
  rw [orFail_run] at h
  rcases hstep : step.run d with ⟨e | a', d₁⟩
  · rw [hstep] at h
    cases h
  · rw [hstep] at h
    cases h
    rfl

theorem orFail_eq_error {fault : ε → δ} {step : StateM Disk (Except ε α)} {f : δ}
    (h : (orFail fault step).run.run d = (.error f, d')) :
    ∃ e, step.run d = (.error e, d') ∧ f = fault e := by
  rw [orFail_run] at h
  rcases hstep : step.run d with ⟨e | a, d₁⟩
  · rw [hstep] at h
    cases h
    exact ⟨e, rfl, rfl⟩
  · rw [hstep] at h
    cases h

theorem demand_eq_ok {fault : ε → δ} {result : Except ε α} {a : α}
    (h : (demand (m := StateM Disk) fault result).run.run d = (.ok a, d')) :
    result = .ok a ∧ d' = d := by
  cases orFail_eq_ok h
  exact ⟨rfl, rfl⟩

theorem demand_eq_error {fault : ε → δ} {result : Except ε α} {f : δ}
    (h : (demand (m := StateM Disk) fault result).run.run d = (.error f, d')) :
    ∃ e, result = .error e ∧ f = fault e ∧ d' = d := by
  obtain ⟨e, hstep, rfl⟩ := orFail_eq_error h
  cases hstep
  exact ⟨e, rfl, rfl, rfl⟩

end Command

end

namespace Settings

def builtin : Settings := ⟨mergeLayers [defaults], [{ origin := .builtin }]⟩

theorem ofLayers_defaults : ofLayers [({ origin := .builtin }, defaults)] = .ok builtin := by
  obtain ⟨u, hcheck⟩ := exists_of_isOk
    (show (check (mergeLayers [defaults])).isOk = true by decide +kernel)
  unfold ofLayers
  simp only [List.map_cons, List.map_nil, hcheck]
  rfl

end Settings

theorem reads_orFail {ε δ α : Type} (fault : ε → δ) {step : StateM Disk (Except ε α)}
    (h : Reads step) : Reads (Command.orFail fault step).run := by
  intro d
  rw [Command.orFail_run]
  exact h d

theorem reads_demand {ε δ α : Type} (fault : ε → δ) (result : Except ε α) :
    Reads (Command.demand (m := StateM Disk) fault result).run :=
  reads_orFail fault (reads_pure result)

theorem reads_kind (path : String) : Reads (Files.kind? path) := fun _ => rfl

theorem reads_isDir (path : String) : Reads (Files.isDir path) :=
  (reads_kind path).bind fun _ => reads_pure _

theorem reads_isFile (path : String) : Reads (Files.isFile path) :=
  (reads_kind path).bind fun _ => reads_pure _

theorem reads_exists (path : String) : Reads (Files.exists? path) :=
  (reads_kind path).bind fun _ => reads_pure _

theorem reads_file (path : String) : Reads (Files.read path) := fun _ => rfl

theorem reads_readText (path : String) : Reads (Files.readText path) := by
  refine (reads_file path).bind ?_
  rintro (e | bytes)
  · exact reads_pure _
  · dsimp only
    split <;> exact reads_pure _

theorem reads_readLayer (origin : SettingsOrigin) (path : Option String) :
    Reads (Settings.readLayer origin path) := by
  unfold Settings.readLayer
  split
  · exact reads_pure _
  · refine (reads_exists _).bind fun found => ?_
    split
    · refine (reads_file _).bind ?_
      rintro (e | bytes) <;> exact reads_pure _
    · exact reads_pure _

theorem reads_readForRoot (home : Option String) (root : String) (commandLine : Option Json) :
    Reads (Settings.readForRoot home root commandLine) := by
  refine (reads_readLayer _ _).bind ?_
  rintro (e | host)
  · exact reads_pure _
  · refine (reads_readLayer _ _).bind ?_
    rintro (e | project) <;> exact reads_pure _

theorem reads_firstFile (paths : List String) : Reads (ConfigFile.firstFile? paths) := by
  induction paths with
  | nil => exact reads_pure _
  | cons path rest ih =>
    refine (reads_isFile path).bind fun isFile => ?_
    split
    · exact reads_pure _
    · exact ih

theorem reads_locate (location : String) : Reads (ConfigFile.locate location) := by
  refine (reads_isDir location).bind fun isDir => ?_
  split
  · refine (reads_firstFile _).bind ?_
    rintro (- | path) <;> exact reads_pure _
  · exact reads_pure _

theorem reads_configFile (location : String) : Reads (ConfigFile.read location) := by
  refine (reads_locate location).bind ?_
  rintro (e | path)
  · exact reads_pure _
  · refine (reads_readText path).bind ?_
    rintro (e | text) <;> exact reads_pure _

theorem reads_loadTables (s : LocaleStore) (languages : List String) (c : Catalog) :
    Reads (s.loadTables languages c) := by
  induction languages generalizing c with
  | nil => exact reads_pure _
  | cons language rest ih =>
    refine (reads_loadTable s language).bind ?_
    rintro (e | table)
    · exact reads_pure _
    · exact ih _

theorem reads_load (s : LocaleStore) : Reads s.load := by
  refine (reads_isDir _).bind fun isDir => ?_
  split
  · refine Reads.bind (fun _ => rfl) fun languages => reads_loadTables s languages _
  · exact reads_pure _

namespace Command

theorem reads_compileProject (env : Environment) (given : Given) :
    Reads (compileProject (m := StateM Disk) env given).run := by
  unfold compileProject
  refine reads_exceptT_bind (reads_orFail _ (reads_readForRoot _ _ _)) fun settings => ?_
  refine reads_exceptT_bind (reads_demand _ _) fun compiler => ?_
  refine reads_exceptT_bind (reads_orFail _ (reads_locate _)) fun file => ?_
  refine reads_exceptT_bind (reads_orFail _ (reads_configFile _)) fun value => ?_
  refine reads_exceptT_bind (reads_demand _ _) fun fragment => ?_
  refine reads_exceptT_bind (reads_demand _ _) fun _ => ?_
  refine reads_exceptT_bind (reads_orFail _ (reads_load _)) fun texts => ?_
  dsimp only
  refine reads_exceptT_bind (reads_demand _ _) fun _ => ?_
  exact reads_pure _

theorem compileProject_of_empty (env : Environment) (given : Given) {d : Disk}
    {settings : Settings} {file : String}
    (hsettings : (Settings.readForRoot env.home (rootOf given) (overrides given) :
      StateM Disk _).run d = (.ok settings, d))
    (hfile : (ConfigFile.locate (configOf given settings) : StateM Disk _).run d = (.ok file, d))
    (hvalue : (ConfigFile.read file : StateM Disk _).run d = (.ok (.object []), d))
    (htexts : (LocaleStore.load ⟨Path.child (rootOf given) settings.localesDir⟩ :
      StateM Disk _).run d = (.ok .empty, d)) :
    ∃ p, (compileProject (m := StateM Disk) env given).run.run d = (.ok p, d) ∧
      p.settings = settings ∧ p.compiler.deviceConfig = .ok (.object [("devices", .object [])]) ∧
      (∃ m, p.compiler.manifest = .ok m) ∧ ∃ catalog, p.compiler.locales = .ok catalog := by
  let base := Path.between (Path.child (rootOf given) settings.driverDir)
    ((Path.parent? file).getD ".")
  obtain ⟨c, c', c'', hbuiltins, hadd, hfinal, hshown⟩ :=
    Compiler.empty_project_compiles settings.compilerOptions base
  refine ⟨⟨settings, c'', ⟨Path.child (rootOf given) settings.localesDir⟩⟩, ?_, rfl, hshown⟩
  unfold compileProject
  rw [exceptT_bind_of_ok (orFail_of_ok hsettings), exceptT_bind_of_ok (demand_of_ok hbuiltins),
    exceptT_bind_of_ok (orFail_of_ok hfile), exceptT_bind_of_ok (orFail_of_ok hvalue),
    exceptT_bind_of_ok (demand_of_ok (show Fragment.ofJson (.object []) = .ok {} from rfl))]
  dsimp only
  rw [hadd, exceptT_bind_of_ok (demand_of_ok rfl), exceptT_bind_of_ok (orFail_of_ok htexts)]
  dsimp only
  rw [hfinal, exceptT_bind_of_ok (demand_of_ok rfl)]
  rfl

end Command

end RadioDriver
