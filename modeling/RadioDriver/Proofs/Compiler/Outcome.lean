import RadioDriver.Compiler
import RadioDriver.Proofs.Inherit.Memory

namespace RadioDriver

namespace Resolver

/-- What a resolver remembers may be used for a pool, and snapshot numbers from `fresh` on are in
use for neither. -/
structure Fits (rules : Rules) (r : Resolver) (pool : Pool) (fresh : Nat) : Prop where
  pool_lt : pool.snapshot < fresh
  memory_lt : ∀ n, r.snapshot = some n → n < fresh
  sound : r.SoundFor rules pool

variable {rules : Rules} {r r' : Resolver} {pool : Pool} {fresh later : Nat}

theorem fits_new (rules : Rules) (h : pool.snapshot < fresh) : Fits rules {} pool fresh where
  pool_lt := h
  memory_lt n hn := by cases hn
  sound := soundFor_new rules pool

theorem Fits.mono (h : Fits rules r pool fresh) (hle : fresh ≤ later) :
    Fits rules r pool later where
  pool_lt := Nat.lt_of_lt_of_le h.pool_lt hle
  memory_lt n hn := Nat.lt_of_lt_of_le (h.memory_lt n hn) hle
  sound := h.sound

theorem Fits.soundFor_extend (h : Fits rules r pool fresh) (declarations : Fields Json)
    (hle : fresh ≤ later) : r.SoundFor rules (pool.extend declarations later) := by
  rcases pool.extend_eq_or declarations later with he | he
  · rw [he]
    exact h.sound
  · intro hr
    have := h.memory_lt _ hr
    omega

theorem fits_of_settles {α : Type} {run : Except ResolveError α × Resolver}
    {expected : Except ResolveError α} (h : Settles rules pool run expected)
    (hlt : pool.snapshot < fresh) : Fits rules run.2 pool fresh where
  pool_lt := hlt
  memory_lt n hn := by
    rw [h.2.1] at hn
    cases hn
    exact hlt
  sound _ := h.2.2

theorem Fits.accept {α : Type} {run : Except ResolveError α × Resolver}
    {expected : Except ResolveError α} {declarations : Fields Json}
    (h : Fits rules r pool fresh) (hle : fresh ≤ later)
    (hr : Settles rules (pool.extend declarations later) run expected) :
    Fits rules run.2 (pool.extend declarations later) (later + 1) := by
  apply fits_of_settles hr
  have hlt := h.pool_lt
  rcases pool.extend_eq_or declarations later with he | he
  · rw [he]
    omega
  · omega

/-- A resolver that was asked about an extended pool fits the pool before as well: what it
remembers is about another state, or the two states are one. -/
theorem Fits.reject {α : Type} {run : Except ResolveError α × Resolver}
    {expected : Except ResolveError α} {declarations : Fields Json}
    (h : Fits rules r pool fresh) (hle : fresh ≤ later)
    (hr : Settles rules (pool.extend declarations later) run expected) :
    Fits rules run.2 pool (later + 1) where
  pool_lt := Nat.lt_succ_of_lt (Nat.lt_of_lt_of_le h.pool_lt hle)
  memory_lt := (h.accept hle hr).memory_lt
  sound := by
    intro hm
    have hlt := h.pool_lt
    rw [hr.2.1] at hm
    rcases pool.extend_eq_or declarations later with he | he
    · rw [← he]
      exact hr.2.2
    · have := Option.some.inj hm
      omega

end Resolver

namespace Compiler

/-- What a fragment adds once it is accepted. -/
structure Merge where
  fragment : Fragment
  builtin : Catalog
  views : Fields Entity
  deviceClasses : Fields Entity

def plan (c : Compiler) (fragment : Fragment) (base : String) : Except CompileError Merge :=
  match fragment.anchor base with
  | .error e => .error (.path e)
  | .ok fragment =>
    match c.withTexts fragment with
    | .error e => .error (.locale e)
    | .ok builtin =>
      match Lineage.entities View.rules (Fields.override c.views.declarations fragment.views) with
      | .error e => .error (.resolve e)
      | .ok views =>
        match Lineage.entities DeviceClass.rules
            (Fields.override c.deviceClasses.declarations fragment.deviceClasses) with
        | .error e => .error (.resolve e)
        | .ok deviceClasses => .ok ⟨fragment, builtin, views, deviceClasses⟩

def merged (c : Compiler) (m : Merge) : Compiler :=
  c.accept m.fragment (c.views.extend m.fragment.views 0)
    (c.deviceClasses.extend m.fragment.deviceClasses 0) m.views m.deviceClasses m.builtin

def assembled (s : Device.Surroundings) (classes : Fields Json) :
    Fields Json → Signal.Registry → Except CompileError (Fields Entity × Signal.Registry)
  | [], registry => .ok ([], registry)
  | (id, declaration) :: rest, registry =>
    match Lineage.detached DeviceClass.rules classes id declaration with
    | .error e => .error (.resolve e)
    | .ok resolved =>
      match Device.assemble s id resolved registry with
      | .error e => .error e
      | .ok (device, registry) =>
        match assembled s classes rest registry with
        | .error e => .error e
        | .ok (devices, registry) => .ok ((id, device) :: devices, registry)

theorem assembled_cons_eq_ok {s : Device.Surroundings} {classes rest : Fields Json} {id : String}
    {declaration : Json} {registry registry' : Signal.Registry} {devices : Fields Entity}
    (h : assembled s classes ((id, declaration) :: rest) registry = .ok (devices, registry')) :
    ∃ resolved device grown others,
      Lineage.detached DeviceClass.rules classes id declaration = .ok resolved ∧
      Device.assemble s id resolved registry = .ok (device, grown) ∧
      assembled s classes rest grown = .ok (others, registry') ∧
      devices = (id, device) :: others := by
  rw [assembled] at h
  split at h
  · cases h
  · next resolved hresolved =>
    split at h
    · cases h
    · next device grown hassemble =>
      split at h
      · cases h
      · next others last hrest =>
        cases h
        exact ⟨resolved, device, grown, others, hresolved, hassemble, hrest, rfl⟩

def completion (c : Compiler) (project : Catalog) : Except CompileError Finalized :=
  match assembled c.surroundings c.deviceClasses.declarations c.devices.declarations c.registry with
  | .error e => .error e
  | .ok (devices, registry) =>
    let tree := Json.object (Fields.mapValues .object devices)
    match project.backfill c.builtin tree (some c.options.radio.textSpace) with
    | .error e => .error (.locale e)
    | .ok (catalog, missing) =>
      let advisories := devices.flatMap fun d => Advisory.ofDevice d.1 d.2
      .ok { devices, catalog, missing, advisories, registry }

/-- A step that changes a compiler. -/
inductive Operation
  | addTransform (name : String) (transform : Signal.Transform)
  | addConfig (fragment : Fragment) (base : String)
  | finalize (project : Catalog)

def perform (c : Compiler) : Operation → Except CompileError Unit × Compiler
  | .addTransform name transform => (.ok (), c.addTransform name transform)
  | .addConfig fragment base => c.addConfig fragment base
  | .finalize project => c.finalize project

/-- The compiler after an operation, or why the operation is refused. -/
def outcome (c : Compiler) : Operation → Except CompileError Compiler
  | .addTransform name transform => .ok (c.addTransform name transform)
  | .addConfig fragment base => (c.plan fragment base).map c.merged
  | .finalize project => (c.completion project).map fun f => { c with finalized := some f }

/-- The compiler without what its resolvers remember and without snapshot numbers: what steps and
answers depend on. -/
def core (c : Compiler) : Compiler :=
  { c with
    views := ⟨c.views.declarations, 0⟩
    deviceClasses := ⟨c.deviceClasses.declarations, 0⟩
    devices := ⟨c.devices.declarations, 0⟩
    viewResolver := {}
    classResolver := {}
    nextSnapshot := 0 }

/-- What the resolvers remember may be used. -/
structure Coherent (c : Compiler) : Prop where
  views : Resolver.Fits View.rules c.viewResolver c.views c.nextSnapshot
  classes : Resolver.Fits DeviceClass.rules c.classResolver c.deviceClasses c.nextSnapshot

/-- The core an outcome leads to; a refusal leads nowhere. -/
def coreAfter (c : Compiler) : Except CompileError Compiler → Compiler
  | .ok d => d.core
  | .error _ => c.core

/-- A run answers as expected, ends with the expected core, and leaves resolvers that may be
used. -/
structure Follows (c : Compiler) (run : Except CompileError Unit × Compiler)
    (expected : Except CompileError Compiler) : Prop where
  answer : run.1 = expected.map fun _ => ()
  core_eq : run.2.core = c.coreAfter expected
  coherent : run.2.Coherent

variable {c : Compiler}

theorem merged_core (m : Merge) {d : Compiler} {views deviceClasses : Pool} (hd : d.core = c.core)
    (hv : views.declarations = Fields.override c.views.declarations m.fragment.views)
    (hc : deviceClasses.declarations =
      Fields.override c.deviceClasses.declarations m.fragment.deviceClasses) :
    (d.accept m.fragment views deviceClasses m.views m.deviceClasses m.builtin).core =
      (c.merged m).core := by
  simp only [core, merged, accept, Pool.extend_declarations, mk.injEq, Pool.mk.injEq] at hd ⊢
  simp only [hv, hc, hd, and_self]

/-- A fragment can be merged when its references can be anchored, its texts taken in, and all views
and device classes resolved with its own over the ones before. -/
theorem plan_eq_ok_iff {fragment : Fragment} {base : String} {m : Merge} :
    c.plan fragment base = .ok m ↔
      fragment.anchor base = .ok m.fragment ∧ c.withTexts m.fragment = .ok m.builtin ∧
        Lineage.entities View.rules (Fields.override c.views.declarations m.fragment.views) =
          .ok m.views ∧
        Lineage.entities DeviceClass.rules
          (Fields.override c.deviceClasses.declarations m.fragment.deviceClasses) =
            .ok m.deviceClasses := by
  obtain ⟨merged, texts, views, classes⟩ := m
  unfold plan
  constructor
  · intro h
    split at h
    · cases h
    · next hanchor =>
      split at h
      · cases h
      · next htexts =>
        split at h
        · cases h
        · next hviews =>
          split at h
          · cases h
          · next hclasses =>
            cases h
            exact ⟨hanchor, htexts, hviews, hclasses⟩
  · rintro ⟨hanchor, htexts, hviews, hclasses⟩
    simp only [hanchor, htexts, hviews, hclasses]

theorem merged_of_outcome {fragment : Fragment} {base : String} {d : Compiler}
    (h : c.outcome (.addConfig fragment base) = .ok d) :
    ∃ m, c.plan fragment base = .ok m ∧ d = c.merged m := by
  rw [outcome] at h
  cases hplan : c.plan fragment base with
  | error e => rw [hplan] at h; cases h
  | ok m =>
    rw [hplan] at h
    cases h
    exact ⟨m, rfl, rfl⟩

theorem addConfig_follows (h : c.Coherent) (fragment : Fragment) (base : String) :
    Follows c (c.addConfig fragment base) ((c.plan fragment base).map c.merged) := by
  -- along the faults in their order: path, texts, views, device classes
  unfold addConfig plan
  cases fragment.anchor base with
  | error e => exact ⟨rfl, rfl, h⟩
  | ok fragment =>
    dsimp only
    cases c.withTexts fragment with
    | error e => exact ⟨rfl, rfl, h⟩
    | ok builtin =>
      dsimp only
      have hle := Nat.le_refl c.nextSnapshot
      have hle' := Nat.le_succ c.nextSnapshot
      have hv := Resolver.resolveAll_settles (h.views.soundFor_extend fragment.views hle)
      rw [Pool.extend_declarations] at hv
      generalize c.viewResolver.resolveAll View.rules _ = run at hv ⊢
      obtain ⟨e | views, viewResolver⟩ := run
      · -- the view resolver was asked about a pool that is thrown away
        have hviews : Resolver.Fits View.rules viewResolver c.views (c.nextSnapshot + 2) :=
          (h.views.reject hle hv).mono (by omega)
        rw [← hv.1]
        exact ⟨rfl, rfl, hviews, h.classes.mono (Nat.le_add_right _ 2)⟩
      have hc := Resolver.resolveAll_settles (h.classes.soundFor_extend fragment.deviceClasses hle')
      rw [Pool.extend_declarations] at hc
      dsimp only
      generalize c.classResolver.resolveAll DeviceClass.rules _ = run at hc ⊢
      obtain ⟨e | classes, classResolver⟩ := run
      · -- now both resolvers were, and the views that were resolved are thrown away too
        have hviews : Resolver.Fits View.rules viewResolver c.views (c.nextSnapshot + 2) :=
          (h.views.reject hle hv).mono (by omega)
        rw [← hv.1, ← hc.1]
        exact ⟨rfl, rfl, hviews, h.classes.reject hle' hc⟩
      · rw [← hv.1, ← hc.1]
        refine ⟨rfl, ?_, (h.views.accept hle hv).mono ?_, (h.classes.accept hle' hc).mono ?_⟩
        · exact merged_core ⟨fragment, builtin, views, classes⟩ rfl (Pool.extend_declarations _ _ _)
            (Pool.extend_declarations _ _ _)
        · exact Nat.le_add_right (c.nextSnapshot + 1) 2
        · exact Nat.le_succ (c.nextSnapshot + 2)

theorem assembleAll_fits {classes : Pool} {fresh : Nat} {r : Resolver}
    (h : Resolver.Fits DeviceClass.rules r classes fresh) (s : Device.Surroundings)
    (declarations : Fields Json) (registry : Signal.Registry) :
    (assembleAll s classes declarations r registry).1 =
        assembled s classes.declarations declarations registry ∧
      Resolver.Fits DeviceClass.rules (assembleAll s classes declarations r registry).2 classes
        fresh := by
  induction declarations generalizing r registry with
  | nil => exact ⟨rfl, h⟩
  | cons declaration rest ih =>
    obtain ⟨id, declaration⟩ := declaration
    -- the resolver still fits after a device, so that the next device may use it
    have hr := Resolver.resolveDetached_settles h.sound id declaration
    have hf := Resolver.fits_of_settles hr h.pool_lt
    rw [assembleAll, assembled, ← hr.1]
    generalize r.resolveDetached DeviceClass.rules classes id declaration = run at hf ⊢
    obtain ⟨e | resolved, r⟩ := run
    · exact ⟨rfl, hf⟩
    dsimp only
    cases Device.assemble s id resolved registry with
    | error e => exact ⟨rfl, hf⟩
    | ok made =>
      obtain ⟨device, registry⟩ := made
      have hrest := ih hf registry
      dsimp only
      rw [← hrest.1]
      generalize assembleAll s classes rest r registry = run at hrest ⊢
      obtain ⟨e | ⟨devices, registry⟩, r⟩ := run
      · exact ⟨rfl, hrest.2⟩
      · exact ⟨rfl, hrest.2⟩

theorem finalize_follows (h : c.Coherent) (project : Catalog) :
    Follows c (c.finalize project)
      ((c.completion project).map fun f => { c with finalized := some f }) := by
  obtain ⟨hrun, hfits⟩ :=
    assembleAll_fits h.classes c.surroundings c.devices.declarations c.registry
  unfold finalize completion
  rw [← hrun]
  generalize assembleAll c.surroundings c.deviceClasses c.devices.declarations c.classResolver
    c.registry = run at hfits ⊢
  obtain ⟨e | ⟨devices, registry⟩, classResolver⟩ := run
  · exact ⟨rfl, rfl, h.views, hfits⟩
  dsimp only
  cases project.backfill c.builtin (Json.object (Fields.mapValues .object devices))
    (some c.options.radio.textSpace) with
  | error e => exact ⟨rfl, rfl, h.views, hfits⟩
  | ok filled => exact ⟨rfl, rfl, h.views, hfits⟩

theorem assembled_of_completion {project : Catalog} {f : Finalized}
    (h : c.completion project = .ok f) :
    assembled c.surroundings c.deviceClasses.declarations c.devices.declarations c.registry =
        .ok (f.devices, f.registry) ∧
      project.backfill c.builtin (entitiesJson f.devices) (some c.options.radio.textSpace) =
        .ok (f.catalog, f.missing) := by
  unfold completion at h
  split at h
  · cases h
  · next hassembled =>
    dsimp only at h
    split at h
    · cases h
    · next hfilled =>
      cases h
      exact ⟨hassembled, hfilled⟩

theorem completion_of_finalize {project : Catalog} {c' : Compiler} (h : c.Coherent)
    (hok : c.finalize project = (.ok (), c')) :
    ∃ f, c.completion project = .ok f ∧ c'.core = { c with finalized := some f }.core := by
  obtain ⟨hanswer, hcore, -⟩ := finalize_follows h project
  rw [hok] at hanswer hcore
  cases hdone : c.completion project with
  | error e => rw [hdone] at hanswer; cases hanswer
  | ok f =>
    rw [hdone] at hcore
    exact ⟨f, rfl, hcore⟩

theorem completion_of_finalize_error {project : Catalog} {error : CompileError} (h : c.Coherent)
    (herror : (c.finalize project).1 = .error error) : c.completion project = .error error := by
  rw [(finalize_follows h project).answer] at herror
  cases hdone : c.completion project with
  | ok f => rw [hdone] at herror; cases herror
  | error e =>
    rw [hdone] at herror
    cases herror
    rfl

theorem perform_follows (h : c.Coherent) (op : Operation) :
    Follows c (c.perform op) (c.outcome op) := by
  cases op with
  | addTransform name transform => exact ⟨rfl, rfl, h.views, h.classes⟩
  | addConfig fragment base => exact addConfig_follows h fragment base
  | finalize project => exact finalize_follows h project

theorem outcome_core (c : Compiler) (op : Operation) :
    (c.core.outcome op).map core = (c.outcome op).map core := by
  cases op with
  | addTransform name transform => rfl
  | addConfig fragment base =>
    -- a plan looks at declarations, texts and options, and the core keeps them
    have hplan : c.core.plan fragment base = c.plan fragment base := rfl
    simp only [outcome, hplan]
    cases c.plan fragment base with
    | error e => rfl
    | ok m =>
      have hmerged : (c.core.merged m).core = (c.merged m).core :=
        merged_core m rfl (Pool.extend_declarations _ _ _) (Pool.extend_declarations _ _ _)
      exact congrArg Except.ok hmerged
  | finalize project =>
    have hdone : c.core.completion project = c.completion project := rfl
    simp only [outcome, hdone]
    cases c.completion project <;> rfl

theorem outcome_congr {d : Compiler} (hd : c.core = d.core) (op : Operation) :
    (c.outcome op).map core = (d.outcome op).map core := by
  rw [← outcome_core c, ← outcome_core d, hd]

theorem perform_congr {d : Compiler} (hc : c.Coherent) (hd : d.Coherent) (hcore : c.core = d.core)
    (op : Operation) :
    (c.perform op).1 = (d.perform op).1 ∧ (c.perform op).2.core = (d.perform op).2.core := by
  have hfc := perform_follows hc op
  have hfd := perform_follows hd op
  have hout := outcome_congr hcore op
  -- the two outcomes agree in their cores only, and the cores are all that is compared
  generalize c.outcome op = x at hfc hout
  generalize d.outcome op = y at hfd hout
  rw [hfc.answer, hfd.answer, hfc.core_eq, hfd.core_eq]
  cases x with
  | error e =>
    cases y with
    | error e' =>
      cases hout
      exact ⟨rfl, hcore⟩
    | ok b => cases hout
  | ok a =>
    cases y with
    | error e' => cases hout
    | ok b => exact ⟨rfl, Except.ok.inj hout⟩

theorem core_of_refused (h : c.Coherent) {op : Operation} {e : CompileError}
    (he : (c.perform op).1 = .error e) : (c.perform op).2.core = c.core := by
  have hf := perform_follows h op
  rw [hf.core_eq]
  cases hout : c.outcome op with
  | error _ => rfl
  | ok d =>
    rw [hf.answer, hout] at he
    cases he

end Compiler

end RadioDriver
