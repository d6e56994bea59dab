import RadioDriver.Builtin
import RadioDriver.Inherit.DeviceClass
import RadioDriver.Inherit.View
import RadioDriver.Manifest
import RadioDriver.Report

namespace RadioDriver

/-- What a successful finalization leaves. -/
structure Finalized where
  devices : Fields Entity
  catalog : Catalog
  missing : List MissingText
  advisories : List Advisory
  registry : Signal.Registry

/-- A compilation in progress. Fragments are merged into pools, and views and device classes are
resolved after every merge. A step that fails leaves everything as it was that later answers can
show; only what the resolvers remember may differ. -/
structure Compiler where
  options : CompilerOptions
  /-- How many fragments were merged. -/
  fragments : Nat
  views : Pool
  deviceClasses : Pool
  devices : Pool
  viewResolver : Resolver
  classResolver : Resolver
  resolvedViews : Fields Entity
  resolvedClasses : Fields Entity
  drivers : List Json
  /-- Declared signals by radio type, then by id. -/
  declaredSignals : Fields (Fields Json)
  globals : Fields Json
  builtin : Catalog
  /-- Transforms and the ceiling; every finalization registers signals afresh. -/
  registry : Signal.Registry
  finalized : Option Finalized
  /-- The next unused snapshot number. -/
  nextSnapshot : Nat

namespace Compiler

def new (options : CompilerOptions) : Compiler where
  options := options
  fragments := 0
  views := .empty 0
  deviceClasses := .empty 1
  devices := .empty 2
  viewResolver := {}
  classResolver := {}
  resolvedViews := []
  resolvedClasses := []
  drivers := []
  declaredSignals := []
  globals := []
  builtin := .empty
  registry := { ceiling := options.ceiling }
  finalized := none
  nextSnapshot := 3

def addTransform (c : Compiler) (name : String) (transform : Signal.Transform) : Compiler :=
  { c with registry := c.registry.addTransform name transform }

def withTexts (c : Compiler) (fragment : Fragment) : Except LocaleError Catalog :=
  match fragment.locales with
  | none => .ok c.builtin
  | some languages =>
    match c.builtin.extendAuthored (.object languages) with
    | (.ok (), catalog) => .ok catalog
    | (.error e, _) => .error e

def declare (declared : Fields (Fields Json)) (signals : Fields Json) : Fields (Fields Json) :=
  signals.foldl
    (fun acc s => Manifest.addSignals acc s.1 (s.2.fields?.getD [])) declared

/-- The compiler with a fragment merged and everything else about it worked out. -/
def accept (c : Compiler) (fragment : Fragment) (views deviceClasses : Pool)
    (resolvedViews resolvedClasses : Fields Entity) (builtin : Catalog) : Compiler :=
  { c with
    fragments := c.fragments + 1
    views
    deviceClasses
    devices := c.devices.extend fragment.devices c.nextSnapshot
    resolvedViews
    resolvedClasses
    drivers := c.drivers ++ fragment.drivers
    declaredSignals := declare c.declaredSignals fragment.signals
    globals := Fields.override c.globals fragment.globals
    builtin
    finalized := none
    nextSnapshot := c.nextSnapshot + 1 }

/-- Merges a fragment whose references are anchored under `base`. An earlier finalization is
dropped. -/
def addConfig (c : Compiler) (fragment : Fragment) (base : String) :
    Except CompileError Unit × Compiler :=
  match fragment.anchor base with
  | .error e => (.error (.path e), c)
  | .ok fragment =>
    match c.withTexts fragment with
    | .error e => (.error (.locale e), c)
    | .ok builtin =>
      let views := c.views.extend fragment.views c.nextSnapshot
      let deviceClasses := c.deviceClasses.extend fragment.deviceClasses (c.nextSnapshot + 1)
      let c := { c with nextSnapshot := c.nextSnapshot + 2 }
      match c.viewResolver.resolveAll View.rules views with
      | (.error e, viewResolver) => (.error (.resolve e), { c with viewResolver })
      | (.ok resolvedViews, viewResolver) =>
        match c.classResolver.resolveAll DeviceClass.rules deviceClasses with
        | (.error e, classResolver) =>
          (.error (.resolve e), { c with viewResolver, classResolver })
        | (.ok resolvedClasses, classResolver) =>
          let c := { c with viewResolver, classResolver }
          (.ok (), c.accept fragment views deviceClasses resolvedViews resolvedClasses builtin)

def accepted : Except CompileError Unit × Compiler → Except CompileError Compiler
  | (.ok (), c) => .ok c
  | (.error e, _) => .error e

def withBuiltinTexts (options : CompilerOptions) : Compiler :=
  { new options with builtin := Builtin.catalog }

def withBuiltins (options : CompilerOptions) : Except CompileError Compiler :=
  accepted ((withBuiltinTexts options).addConfig Builtin.fragment Builtin.base)

def surroundings (c : Compiler) : Device.Surroundings where
  views := c.resolvedViews
  declaredSignals := (Fields.get? c.declaredSignals c.options.radio.name).getD []
  globalDriver := Device.present (Fields.get? c.globals "driver")
  globalSignal := Device.present (Fields.get? c.globals "signal")

/-- Devices resolved and assembled in order, up to the first fault. -/
def assembleAll (s : Device.Surroundings) (classes : Pool) :
    Fields Json → Resolver → Signal.Registry →
      Except CompileError (Fields Entity × Signal.Registry) × Resolver
  | [], resolver, registry => (.ok ([], registry), resolver)
  | (id, declaration) :: rest, resolver, registry =>
    match resolver.resolveDetached DeviceClass.rules classes id declaration with
    | (.error e, resolver) => (.error (.resolve e), resolver)
    | (.ok resolved, resolver) =>
      match Device.assemble s id resolved registry with
      | .error e => (.error e, resolver)
      | .ok (device, registry) =>
        match assembleAll s classes rest resolver registry with
        | (.error e, resolver) => (.error e, resolver)
        | (.ok (devices, registry), resolver) => (.ok ((id, device) :: devices, registry), resolver)

/-- Resolves and assembles every device and fills the missing texts of the project. -/
def finalize (c : Compiler) (project : Catalog) : Except CompileError Unit × Compiler :=
  match assembleAll c.surroundings c.deviceClasses c.devices.declarations c.classResolver
      c.registry with
  | (.error e, classResolver) => (.error e, { c with classResolver })
  | (.ok (devices, registry), classResolver) =>
    let c := { c with classResolver }
    let tree := Json.object (Fields.mapValues .object devices)
    match project.backfill c.builtin tree (some c.options.radio.textSpace) with
    | .error e => (.error (.locale e), c)
    | .ok (catalog, missing) =>
      let advisories := devices.flatMap fun d => Advisory.ofDevice d.1 d.2
      (.ok (), { c with finalized := some { devices, catalog, missing, advisories, registry } })

def result (c : Compiler) : Except CompileError Finalized :=
  match c.finalized with
  | some f => .ok f
  | none => .error .notFinalized

def entitiesJson (entities : Fields Entity) : Json := .object (Fields.mapValues .object entities)

def config (c : Compiler) : Except CompileError Json := do
  let f ← c.result
  return .object [("views", entitiesJson c.resolvedViews),
    ("deviceClasses", entitiesJson c.resolvedClasses), ("devices", entitiesJson f.devices)]

def deviceConfig (c : Compiler) : Except CompileError Json := do
  let f ← c.result
  return .object [("devices", entitiesJson f.devices)]

/-- The platform manifest, its paths anchored in the driver directory. -/
def manifest (c : Compiler) : Except CompileError Manifest := do
  let f ← c.result
  match Manifest.build {
      radio := c.options.radio
      devices := f.devices
      rawDrivers := c.drivers
      declaredSignals := c.declaredSignals
      globalFlow := Fields.get? c.globals "flow"
      registry := f.registry
      catalog := f.catalog
      base := "./" ++ c.options.driverDir } with
  | .ok m => return m
  | .error e => throw (.path e)

def locales (c : Compiler) : Except CompileError Catalog := c.result.map (·.catalog)

def advisories (c : Compiler) : List Advisory := (c.finalized.map (·.advisories)).getD []

def missingTexts (c : Compiler) : List MissingText := (c.finalized.map (·.missing)).getD []

/-- The registry of the last finalization, else the one without signals. -/
def currentRegistry (c : Compiler) : Signal.Registry :=
  (c.finalized.map (·.registry)).getD c.registry

def report (c : Compiler) : Report where
  radio := c.options.radio
  counts :=
    { fragments := c.fragments
      views := c.resolvedViews.length
      deviceClasses := c.resolvedClasses.length
      devices := (c.finalized.map (·.devices.length)).getD 0
      signals := c.currentRegistry.entries.length }
  advisories := c.advisories
  missing := c.missingTexts

end Compiler

end RadioDriver
