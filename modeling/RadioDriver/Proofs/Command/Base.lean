import RadioDriver.Proofs.Command.Reading
import RadioDriver.Proofs.Path.Leading

namespace RadioDriver.Command

open LocaleStore (Reads)

variable {env : Environment} {given : Given} {d d' : Disk}

/-- A run on the disk `d` that gets as far as its fragment: what it has read by then. -/
structure Loaded (env : Environment) (given : Given) (d : Disk) where
  settings : Settings
  compiler : Compiler
  file : String
  value : Json
  fragment : Fragment
  settings_read : (Settings.readForRoot env.home (rootOf given) (overrides given) :
    StateM Disk _).run d = (.ok settings, d)
  builtins : Compiler.withBuiltins settings.compilerOptions = .ok compiler
  located : (ConfigFile.locate (configOf given settings) : StateM Disk _).run d = (.ok file, d)
  value_read : (ConfigFile.read file : StateM Disk _).run d = (.ok value, d)
  fragment_read : Fragment.ofJson value = .ok fragment

namespace Loaded

def start (l : Loaded env given d) : String := Path.child (rootOf given) l.settings.driverDir

/-- The directory of the fragment. -/
def goal (l : Loaded env given d) : String := (Path.parent? l.file).getD "."

/-- What the fragment is anchored under: the way to its directory. -/
def base (l : Loaded env given d) : String := Path.between l.start l.goal

/-- How the run ends, from what adding the fragment came to. -/
def finish (l : Loaded env given d) :
    Except CompileError Unit × Compiler → Except CompileError Project × Disk
  | (.error e, _) => (.error e, d)
  | (.ok (), compiler) =>
    let store : LocaleStore := ⟨Path.child (rootOf given) l.settings.localesDir⟩
    match (store.load : StateM Disk _).run d with
    | (.error e, d) => (.error (.locale e), d)
    | (.ok texts, d) =>
      match compiler.finalize texts with
      | (.error e, _) => (.error e, d)
      | (.ok (), compiler) => (.ok ⟨l.settings, compiler, store⟩, d)

theorem run_eq (l : Loaded env given d) :
    (compileProject (m := StateM Disk) env given).run.run d =
      l.finish (l.compiler.addConfig l.fragment l.base) := by
  unfold compileProject
  rw [exceptT_bind_of_ok (orFail_of_ok l.settings_read),
    exceptT_bind_of_ok (demand_of_ok l.builtins), exceptT_bind_of_ok (orFail_of_ok l.located),
    exceptT_bind_of_ok (orFail_of_ok l.value_read),
    exceptT_bind_of_ok (demand_of_ok l.fragment_read)]
  dsimp only
  show _ = l.finish (l.compiler.addConfig l.fragment
    (Path.between (Path.child (rootOf given) l.settings.driverDir)
      ((Path.parent? l.file).getD ".")))
  rcases l.compiler.addConfig l.fragment _ with ⟨e | ⟨⟩, compiler⟩
  · exact exceptT_bind_of_error (demand_run id (.error e) d)
  dsimp only
  rw [exceptT_bind_of_ok (demand_of_ok rfl)]
  unfold finish
  dsimp only
  rcases hload : (LocaleStore.load ⟨Path.child (rootOf given) l.settings.localesDir⟩ :
    StateM Disk _).run d with ⟨e | texts, d₁⟩
  · have hfailed := orFail_run CompileError.locale
      (LocaleStore.load ⟨Path.child (rootOf given) l.settings.localesDir⟩ : StateM Disk _) d
    rw [hload] at hfailed
    exact exceptT_bind_of_error hfailed
  rw [exceptT_bind_of_ok (orFail_of_ok hload)]
  dsimp only
  rcases compiler.finalize texts with ⟨e | ⟨⟩, finished⟩
  · exact exceptT_bind_of_error (demand_run id (.error e) d₁)
  · exact exceptT_bind_of_ok (demand_of_ok rfl)

end Loaded

theorem orFail_eq_ok_of_reads {α ε δ : Type} {fault : ε → δ} {step : StateM Disk (Except ε α)}
    {a : α} (hreads : Reads step) (h : (orFail fault step).run.run d = (.ok a, d')) :
    step.run d = (.ok a, d) ∧ d' = d := by
  have hstep := orFail_eq_ok h
  have hsame : d' = d := (congrArg Prod.snd hstep).symm.trans (hreads d)
  exact ⟨hsame ▸ hstep, hsame⟩

theorem loaded_of_ok {p : Project}
    (hrun : (compileProject (m := StateM Disk) env given).run.run d = (.ok p, d')) :
    Nonempty (Loaded env given d) := by
  unfold compileProject at hrun
  dsimp only at hrun
  -- nothing is written on the way, so every step reads the disk `d`
  obtain ⟨settings, d₁, hstep, hrun₁⟩ := ok_of_exceptT_bind hrun
  obtain ⟨hsettings, rfl⟩ := orFail_eq_ok_of_reads (reads_readForRoot _ _ _) hstep
  obtain ⟨compiler, d₂, hstep, hrun₂⟩ := ok_of_exceptT_bind hrun₁
  obtain ⟨hbuiltins, rfl⟩ := demand_eq_ok hstep
  obtain ⟨file, d₃, hstep, hrun₃⟩ := ok_of_exceptT_bind hrun₂
  obtain ⟨hfile, rfl⟩ := orFail_eq_ok_of_reads (reads_locate _) hstep
  obtain ⟨value, d₄, hstep, hrun₄⟩ := ok_of_exceptT_bind hrun₃
  obtain ⟨hvalue, rfl⟩ := orFail_eq_ok_of_reads (reads_configFile file) hstep
  obtain ⟨fragment, d₅, hstep, -⟩ := ok_of_exceptT_bind hrun₄
  obtain ⟨hfragment, -⟩ := demand_eq_ok hstep
  exact ⟨⟨settings, compiler, file, value, fragment, hsettings, hbuiltins, hfile, hvalue,
    hfragment⟩⟩

/-- The way between two directories is the second seen from the first. Every run that gets as far as
its fragment anchors it under the way from the driver directory, which is the fragment's directory
seen from there. -/
theorem way_leads_to_fragment :
    (∀ start goal, Path.HasWay start goal → Path.Denotes start (Path.between start goal) goal) ∧
    ∀ (env : Environment) (given : Given) (d : Disk),
      (∀ p d', (compileProject (m := StateM Disk) env given).run.run d = (.ok p, d') →
        Nonempty (Loaded env given d)) ∧
      ∀ l : Loaded env given d,
        (compileProject (m := StateM Disk) env given).run.run d =
          l.finish (l.compiler.addConfig l.fragment l.base) ∧
        (Path.HasWay l.start l.goal → Path.Denotes l.start l.base l.goal) := by
  refine ⟨fun start goal h => h.denotes, fun env given d => ⟨fun p d' => loaded_of_ok, ?_⟩⟩
  intro l
  exact ⟨l.run_eq, fun h => h.denotes⟩

def appDisk : Disk where
  nodes := [(["app"], .directory), (["app", "433_generator"], .directory),
    (["app", "433_generator", "config.json"], .file "{}".toUTF8)]

theorem hasWay_app : Path.HasWay "app/drivers" "app/433_generator" where
  start_slashed := by decide
  goal_slashed := by decide
  root := by decide
  down := ⟨["app"], ["drivers"], ["433_generator"], by decide, by decide, by decide⟩

/-- The fragment of the app is anchored under `../433_generator`. -/
theorem app_way_leads_to_fragment :
    Path.Denotes "app/drivers" "../433_generator" "app/433_generator" ∧
      (∃ p, (compileProject (m := StateM Disk) ⟨none, ""⟩ [(.root, "app")]).run.run appDisk =
        (.ok p, appDisk) ∧ Nonempty (Loaded ⟨none, ""⟩ [(.root, "app")] appDisk)) ∧
      ∃ l : Loaded ⟨none, ""⟩ [(.root, "app")] appDisk,
        l.start = "app/drivers" ∧ l.goal = "app/433_generator" ∧
          Path.Denotes l.start l.base l.goal := by
  have hread : (Settings.readForRoot none "app" none : StateM Disk _).run appDisk =
      (.ok Settings.builtin, appDisk) := by
    rw [← Settings.ofLayers_defaults]
    rfl
  have hbase : Path.between "app/drivers" "app/433_generator" = "../433_generator" := by
    decide +kernel
  obtain ⟨p, hrun, -⟩ := compileProject_of_empty ⟨none, ""⟩ [(.root, "app")] hread rfl rfl rfl
  obtain ⟨c, -, -, hbuiltins, -⟩ :=
    Compiler.empty_project_compiles Settings.builtin.compilerOptions ""
  let l : Loaded ⟨none, ""⟩ [(.root, "app")] appDisk :=
    ⟨Settings.builtin, c, "app/433_generator/config.json", .object [], {}, hread, hbuiltins, rfl,
      rfl, rfl⟩
  have hstart : l.start = "app/drivers" := by
    show Path.child "app" Settings.builtin.driverDir = "app/drivers"
    rfl
  have hgoal : l.goal = "app/433_generator" := by
    show (Path.parent? "app/433_generator/config.json").getD "." = "app/433_generator"
    decide +kernel
  refine ⟨hbase ▸ way_leads_to_fragment.1 _ _ hasWay_app,
    ⟨p, hrun, (way_leads_to_fragment.2 _ _ appDisk).1 p appDisk hrun⟩, l, hstart, hgoal, ?_⟩
  apply ((way_leads_to_fragment.2 _ _ appDisk).2 l).2
  rw [hstart, hgoal]
  exact hasWay_app

end RadioDriver.Command
