import RadioDriver.Proofs.Compiler.Outcome

namespace RadioDriver.Compiler

/-- Everything that a compiler shows of itself. -/
structure Observation where
  options : CompilerOptions
  isFinalized : Bool
  config : Except CompileError Json
  deviceConfig : Except CompileError Json
  manifest : Except CompileError Manifest
  locales : Except CompileError Catalog
  report : Report
  registry : Signal.Registry
  advisories : List Advisory
  missing : List MissingText

def observe (c : Compiler) : Observation where
  options := c.options
  isFinalized := c.finalized.isSome
  config := c.config
  deviceConfig := c.deviceConfig
  manifest := c.manifest
  locales := c.locales
  report := c.report
  registry := c.currentRegistry
  advisories := c.advisories
  missing := c.missingTexts

/-- The states that operations lead to from a new compiler, with or without the built-in
fragment. -/
inductive Reachable : Compiler → Prop
  | new (options : CompilerOptions) : Reachable (.new options)
  | withBuiltins {options : CompilerOptions} {c : Compiler}
      (h : Compiler.withBuiltins options = .ok c) : Reachable c
  | perform {c : Compiler} (h : Reachable c) (op : Operation) : Reachable (c.perform op).2

/-- The answers of operations in turn, each with what the compiler shows after it. -/
def trace : Compiler → List Operation → List (Except CompileError Unit × Observation)
  | _, [] => []
  | c, op :: rest =>
    let (answer, c) := c.perform op
    (answer, c.observe) :: trace c rest

theorem observe_core (c : Compiler) : c.core.observe = c.observe := rfl

theorem new_coherent (options : CompilerOptions) : (new options).Coherent where
  views := Resolver.fits_new View.rules (show 0 < 3 by decide)
  classes := Resolver.fits_new DeviceClass.rules (show 1 < 3 by decide)

theorem withBuiltinTexts_coherent (options : CompilerOptions) :
    (withBuiltinTexts options).Coherent :=
  ⟨(new_coherent options).views, (new_coherent options).classes⟩

theorem eq_of_accepted {run : Except CompileError Unit × Compiler} {c : Compiler}
    (h : accepted run = .ok c) : run.2 = c := by
  obtain ⟨e | u, d⟩ := run
  · cases h
  · cases h
    rfl

theorem ok_of_accepted {run : Except CompileError Unit × Compiler} {c : Compiler}
    (h : accepted run = .ok c) : run.1 = .ok () := by
  obtain ⟨e | u, d⟩ := run
  · cases h
  · rfl

theorem eq_of_withBuiltins {options : CompilerOptions} {c : Compiler}
    (h : Compiler.withBuiltins options = .ok c) :
    ((withBuiltinTexts options).addConfig Builtin.fragment Builtin.base).2 = c := by
  unfold Compiler.withBuiltins at h
  exact eq_of_accepted h

theorem Reachable.coherent {c : Compiler} (h : Reachable c) : c.Coherent := by
  induction h with
  | new options => exact new_coherent options
  | @withBuiltins options _ h =>
    rw [← eq_of_withBuiltins h]
    exact (addConfig_follows (withBuiltinTexts_coherent options) _ _).coherent
  | perform _ op ih => exact (perform_follows ih op).coherent

theorem trace_congr {c d : Compiler} (hc : c.Coherent) (hd : d.Coherent) (hcore : c.core = d.core)
    (ops : List Operation) : c.trace ops = d.trace ops := by
  induction ops generalizing c d with
  | nil => rfl
  | cons op rest ih =>
    obtain ⟨hanswer, hnext⟩ := perform_congr hc hd hcore op
    simp only [trace]
    rw [hanswer, ← observe_core (c.perform op).2, hnext, observe_core,
      ih (perform_follows hc op).coherent (perform_follows hd op).coherent hnext]

/-- A refused operation is as if it had never been tried: everything the compiler shows is as
before, and so is every answer to later operations. -/
theorem refused_operation_leaves_no_trace {c : Compiler} (hc : Reachable c) {op : Operation}
    {e : CompileError} (he : (c.perform op).1 = .error e) :
    (c.perform op).2.observe = c.observe ∧
      ∀ later, (c.perform op).2.trace later = c.trace later := by
  have hcore := core_of_refused hc.coherent he
  constructor
  · rw [← observe_core, hcore, observe_core]
  · intro later
    exact trace_congr (perform_follows hc.coherent op).coherent hc.coherent hcore later

/-- A fragment with a view that can be resolved, and one that extends an undeclared id. -/
def orphaned : Fragment :=
  { views := [("plain", .object []), ("orphan", .object [("extends", .string "ghost")])] }

theorem plan_orphaned :
    (new {}).plan orphaned "" = .error (.resolve (.notFound .view "ghost" (some "orphan"))) := by
  have hanchor : orphaned.anchor "" = .ok orphaned := by
    simp only [orphaned, Fragment.anchor, Fragment.anchorDrivers, Path.anchorObject]
    rfl
  -- the views are resolved in their order, so the plain one succeeds before the orphan fails
  have hplain : Lineage.entity View.rules orphaned.views [] "plain" =
      .ok (View.rules.combine "plain" [] []) := by
    rw [Lineage.entity_of_declared (by decide) rfl]
    rfl
  have hghost : Lineage.entity View.rules orphaned.views ["orphan"] "ghost" =
      .error (.notFound .view "ghost" (some "orphan")) :=
    Lineage.entity_of_undeclared (by decide) rfl
  have horphan : Lineage.entity View.rules orphaned.views [] "orphan" =
      .error (.notFound .view "ghost" (some "orphan")) := by
    rw [Lineage.entity_of_declared (by decide) rfl, Lineage.combined_of_parents rfl,
      List.mapM_cons, List.nil_append, hghost]
    rfl
  have hall : Lineage.entities View.rules orphaned.views =
      .error (.notFound .view "ghost" (some "orphan")) := by
    show Lineage.entitiesOf View.rules orphaned.views ["plain", "orphan"] = _
    rw [Lineage.entitiesOf_cons, Lineage.entitiesOf_cons, hplain, horphan]
    rfl
  have htexts : (new {}).withTexts orphaned = .ok (new {}).builtin := rfl
  have hviews : Fields.override (new {}).views.declarations orphaned.views = orphaned.views := rfl
  simp only [plan, hanchor, htexts, hviews, hall]

/-- The orphan is refused when the plain view is already remembered. -/
theorem refused_orphan_leaves_no_trace :
    ((new {}).perform (.addConfig orphaned "")).1 =
        .error (.resolve (.notFound .view "ghost" (some "orphan"))) ∧
      ((new {}).perform (.addConfig orphaned "")).2.observe = (new {}).observe ∧
      ∀ later, ((new {}).perform (.addConfig orphaned "")).2.trace later =
        (new {}).trace later := by
  have hrefused : ((new {}).perform (.addConfig orphaned "")).1 =
      .error (.resolve (.notFound .view "ghost" (some "orphan"))) := by
    rw [(perform_follows (new_coherent {}) _).answer, outcome, plan_orphaned]
    rfl
  exact ⟨hrefused, refused_operation_leaves_no_trace (.new {}) hrefused⟩

end RadioDriver.Compiler
