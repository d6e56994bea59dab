import RadioDriver.Proofs.Compiler.Resolution
import RadioDriver.Proofs.Device.Assembly
import RadioDriver.Proofs.Json.Fields
import RadioDriver.Proofs.Signal.Identity

namespace RadioDriver

namespace Signal.Registry

variable {r : Registry} {transforms : Fields Transform}

def withTransforms (r : Registry) (transforms : Fields Transform) : Registry :=
  { r with transforms }

theorem register_withTransforms
    (h : ∀ name, Fields.get? transforms name = Fields.get? r.transforms name) (definition : Json) :
    (r.withTransforms transforms).register definition =
      (r.register definition).map fun x => (x.1, x.2.withTransforms transforms) := by
  have htransform : (r.withTransforms transforms).transformFor = r.transformFor := by
    funext definition
    unfold transformFor withTransforms
    simp only [h]
  have hcommands : (r.withTransforms transforms).commandsOf = r.commandsOf := by
    funext definition content
    unfold commandsOf
    rw [htransform]
  -- everything else is looked up in the entries and the indexes, which are the same
  have hclamp : (r.withTransforms transforms).clamp definition = r.clamp definition := rfl
  unfold register
  rw [registering_run, registering_run, hclamp, hcommands]
  cases contentOf (r.clamp definition) with
  | error e => rfl
  | ok content =>
    dsimp only
    cases suppliedId (r.clamp definition) with
    | error e => rfl
    | ok supplied =>
      have hexisting : (r.withTransforms transforms).existing? supplied content =
          r.existing? supplied content := rfl
      have hcontains : ∀ id, (r.withTransforms transforms).contains id = r.contains id :=
        fun _ => rfl
      dsimp only
      rw [hexisting, hcontains]
      cases r.existing? supplied content with
      | some entry => rfl
      | none =>
        cases r.contains (supplied.getD (contentId content)) with
        | true => rfl
        | false => cases r.commandsOf (r.clamp definition) content <;> rfl

theorem transforms_of_register {definition : Json} {a : Registration} {r' : Registry}
    (h : r.register definition = .ok (a, r')) : r'.transforms = r.transforms := by
  obtain ⟨-, content, supplied, -, -, ⟨entry, -, -, rfl⟩ | ⟨commands, -, -, -, -, rfl⟩⟩ :=
    cases_of_register h
  · rfl
  · rfl

end Signal.Registry

namespace Device

open Signal

variable {s : Surroundings} {registry : Registry} {transforms : Fields Transform}

theorem assignSignal_withTransforms
    (h : ∀ name, Fields.get? transforms name = Fields.get? registry.transforms name) (id : String)
    (device : Entity) :
    assignSignal s id device (registry.withTransforms transforms) =
      (assignSignal s id device registry).map fun x => (x.1, x.2.withTransforms transforms) := by
  have hsignal : signalOf s id device (registry.withTransforms transforms) =
      signalOf s id device registry := rfl
  unfold assignSignal
  rw [hsignal]
  cases signalOf s id device registry with
  | error e => rfl
  | ok definition =>
    simp only [bind, Except.bind, Registry.register_withTransforms h]
    cases registry.register definition <;> rfl

theorem assemble_withTransforms
    (h : ∀ name, Fields.get? transforms name = Fields.get? registry.transforms name) (id : String)
    (device : Entity) :
    assemble s id device (registry.withTransforms transforms) =
      (assemble s id device registry).map fun x => (x.1, x.2.withTransforms transforms) := by
  unfold assemble
  rw [assignSignal_withTransforms h]
  cases assignSignal s id (withDriver s device) registry with
  | error e => rfl
  | ok assigned =>
    simp only [Except.map, bind, Except.bind]
    cases pairUp s id assigned.1 <;> rfl

theorem transforms_of_assemble {id : String} {device made : Entity} {registry' : Registry}
    (h : assemble s id device registry = .ok (made, registry')) :
    registry'.transforms = registry.transforms := by
  obtain ⟨signalled, paired, hassign, -, -⟩ := assemble_eq_ok h
  obtain ⟨definition, answer, -, hregister, -⟩ := assignSignal_eq_ok hassign
  exact Registry.transforms_of_register hregister

end Device

/-- The finalization with another table of transforms in its registry. -/
def Finalized.withTransforms (f : Finalized) (transforms : Fields Signal.Transform) : Finalized :=
  { f with registry := f.registry.withTransforms transforms }

namespace Compiler

variable {c d : Compiler} {p q : History}

theorem assembled_withTransforms (s : Device.Surroundings) (classes declarations : Fields Json)
    {transforms : Fields Signal.Transform} {registry : Signal.Registry}
    (h : ∀ name, Fields.get? transforms name = Fields.get? registry.transforms name) :
    assembled s classes declarations (registry.withTransforms transforms) =
      (assembled s classes declarations registry).map fun x =>
        (x.1, x.2.withTransforms transforms) := by
  induction declarations generalizing registry with
  | nil => rfl
  | cons declaration rest ih =>
    obtain ⟨id, declaration⟩ := declaration
    rw [assembled, assembled]
    cases Lineage.detached DeviceClass.rules classes id declaration with
    | error e => rfl
    | ok resolved =>
      dsimp only
      rw [Device.assemble_withTransforms h]
      cases hmade : Device.assemble s id resolved registry with
      | error e => rfl
      | ok made =>
        -- the next device meets the same transforms, in either order
        have hmade' : ∀ name,
            Fields.get? transforms name = Fields.get? made.2.transforms name := by
          simpa only [Device.transforms_of_assemble hmade] using h
        have hnext := ih hmade'
        simp only [Except.map, hnext]
        cases assembled s classes rest made.2 <;> rfl

def addTexts (texts : Catalog) (fragment : Fragment) : Catalog :=
  match fragment.locales with
  | none => texts
  | some languages => (texts.extendAuthored (.object languages)).2

/-- The compiler holds what the fragments add up to, after the texts and with the transforms. -/
structure Accumulates (options : CompilerOptions) (texts : Catalog)
    (transforms : List (String × Signal.Transform)) (fragments : List Fragment) (c : Compiler) :
    Prop where
  options_eq : c.options = options
  count_eq : c.fragments = fragments.length
  views_eq : c.views.declarations = Fields.ofPairs (fragments.flatMap (·.views))
  classes_eq : c.deviceClasses.declarations = Fields.ofPairs (fragments.flatMap (·.deviceClasses))
  devices_eq : c.devices.declarations = Fields.ofPairs (fragments.flatMap (·.devices))
  drivers_eq : c.drivers = fragments.flatMap (·.drivers)
  signals_eq : c.declaredSignals = declare [] (fragments.flatMap (·.signals))
  globals_eq : c.globals = Fields.ofPairs (fragments.flatMap (·.globals))
  builtin_eq : c.builtin = fragments.foldl addTexts texts
  registry_eq : c.registry =
    { ceiling := options.ceiling, transforms := Fields.ofPairs transforms }
  resolved : c.Resolved

variable {options : CompilerOptions} {texts : Catalog}
  {transforms : List (String × Signal.Transform)} {fragments : List Fragment}

theorem accumulates_new (options : CompilerOptions) :
    Accumulates options .empty [] [] (new options) :=
  ⟨rfl, rfl, rfl, rfl, rfl, rfl, rfl, rfl, rfl, rfl, resolved_new options⟩

theorem accumulates_withBuiltinTexts (options : CompilerOptions) :
    Accumulates options Builtin.catalog [] [] (withBuiltinTexts options) :=
  ⟨rfl, rfl, rfl, rfl, rfl, rfl, rfl, rfl, rfl, rfl, ⟨rfl, rfl⟩⟩

theorem Accumulates.of_core_eq (h : Accumulates options texts transforms fragments c)
    (hcore : c.core = d.core) : Accumulates options texts transforms fragments d := by
  have hkept : Accumulates options texts transforms fragments c.core :=
    ⟨h.options_eq, h.count_eq, h.views_eq, h.classes_eq, h.devices_eq, h.drivers_eq, h.signals_eq,
      h.globals_eq, h.builtin_eq, h.registry_eq, ⟨h.resolved.views, h.resolved.classes⟩⟩
  rw [hcore] at hkept
  exact ⟨hkept.options_eq, hkept.count_eq, hkept.views_eq, hkept.classes_eq, hkept.devices_eq,
    hkept.drivers_eq, hkept.signals_eq, hkept.globals_eq, hkept.builtin_eq, hkept.registry_eq,
    ⟨hkept.resolved.views, hkept.resolved.classes⟩⟩

theorem declare_append (declared : Fields (Fields Json)) (signals more : Fields Json) :
    declare declared (signals ++ more) = declare (declare declared signals) more :=
  List.foldl_append

theorem addTexts_of_withTexts {fragment : Fragment} {catalog : Catalog}
    (h : c.withTexts fragment = .ok catalog) : catalog = addTexts c.builtin fragment := by
  unfold withTexts at h
  unfold addTexts
  cases hlocales : fragment.locales with
  | none =>
    rw [hlocales] at h
    exact (Except.ok.inj h).symm
  | some languages =>
    rw [hlocales] at h
    dsimp only at h ⊢
    cases hextended : c.builtin.extendAuthored (.object languages) with
    | mk answer merged =>
      rw [hextended] at h
      cases answer with
      | error e => cases h
      | ok _ => exact (Except.ok.inj h).symm

theorem Accumulates.merged {fragment : Fragment} {base : String} {m : Merge}
    (h : Accumulates options texts transforms fragments c) (hm : c.plan fragment base = .ok m) :
    Accumulates options texts transforms (fragments ++ [m.fragment]) (c.merged m) where
  options_eq := h.options_eq
  count_eq := by
    rw [List.length_append, ← h.count_eq]
    rfl
  views_eq := by
    rw [Compiler.merged, accept, Pool.extend_declarations, h.views_eq, Fields.override_ofPairs]
    simp
  classes_eq := by
    rw [Compiler.merged, accept, Pool.extend_declarations, h.classes_eq, Fields.override_ofPairs]
    simp
  devices_eq := by
    rw [Compiler.merged, accept, Pool.extend_declarations, h.devices_eq, Fields.override_ofPairs]
    simp
  drivers_eq := by
    rw [Compiler.merged, accept, h.drivers_eq]
    simp
  signals_eq := by
    rw [Compiler.merged, accept, h.signals_eq, ← declare_append]
    simp
  globals_eq := by
    rw [Compiler.merged, accept, h.globals_eq, Fields.override_ofPairs]
    simp
  builtin_eq := by
    obtain ⟨-, htexts, -⟩ := plan_eq_ok_iff.mp hm
    rw [List.foldl_append, ← h.builtin_eq]
    exact addTexts_of_withTexts htexts
  registry_eq := h.registry_eq
  resolved := resolved_merged hm

theorem Accumulates.addTransform (h : Accumulates options texts transforms fragments c)
    (name : String) (transform : Signal.Transform) :
    Accumulates options texts (transforms ++ [(name, transform)]) fragments
      (c.addTransform name transform) where
  options_eq := h.options_eq
  count_eq := h.count_eq
  views_eq := h.views_eq
  classes_eq := h.classes_eq
  devices_eq := h.devices_eq
  drivers_eq := h.drivers_eq
  signals_eq := h.signals_eq
  globals_eq := h.globals_eq
  builtin_eq := h.builtin_eq
  registry_eq := by
    rw [Compiler.addTransform, h.registry_eq, Fields.ofPairs_concat]
    rfl
  resolved := ⟨h.resolved.views, h.resolved.classes⟩

theorem Accumulates.finalized (h : Accumulates options texts transforms fragments c)
    (f : Finalized) :
    Accumulates options texts transforms fragments { c with finalized := some f } :=
  ⟨h.options_eq, h.count_eq, h.views_eq, h.classes_eq, h.devices_eq, h.drivers_eq, h.signals_eq,
    h.globals_eq, h.builtin_eq, h.registry_eq, ⟨h.resolved.views, h.resolved.classes⟩⟩

/-- The fragments of the history can be anchored, and the compiler holds what they add up to. -/
structure Records (p : History) (c : Compiler) : Prop where
  anchored : p.accepted.map (fun f => f.1.anchor f.2) = p.fragments.map .ok
  accumulates : Accumulates p.options p.startTexts p.transforms p.fragments c

theorem accepted_after (p : History) (fragment : Fragment) (base : String) :
    (p.after (.addConfig fragment base)).accepted = p.accepted ++ [(fragment, base)] :=
  (List.append_assoc _ _ _).symm

theorem fragments_after {fragment anchored : Fragment} {base : String}
    (h : fragment.anchor base = .ok anchored) :
    (p.after (.addConfig fragment base)).fragments = p.fragments ++ [anchored] := by
  simp only [History.fragments, accepted_after, List.filterMap_append]
  simp [h, Except.toOption]

theorem fragments_of_accepted {fragment anchored : Fragment} {base : String}
    (haccepted : p.accepted = [(fragment, base)]) (h : fragment.anchor base = .ok anchored) :
    p.fragments = [anchored] := by
  rw [History.fragments, haccepted]
  simp [h, Except.toOption]

theorem Records.outcome {op : Operation} (h : Records p c) (hout : c.outcome op = .ok d) :
    Records (p.after op) d := by
  cases op with
  | addTransform name transform =>
    cases hout
    exact ⟨h.anchored, h.accumulates.addTransform name transform⟩
  | addConfig fragment base =>
    obtain ⟨m, hm, rfl⟩ := merged_of_outcome hout
    obtain ⟨hanchor, -⟩ := plan_eq_ok_iff.mp hm
    have hfragments := fragments_after (p := p) hanchor
    refine ⟨?_, ?_⟩
    · rw [hfragments, accepted_after, List.map_append, List.map_append, h.anchored]
      simp [hanchor]
    · rw [hfragments]
      exact h.accumulates.merged hm
  | finalize project =>
    obtain ⟨f, -, rfl⟩ := except_map_eq_ok.mp hout
    exact ⟨h.anchored, h.accumulates.finalized f⟩

theorem Past.records (h : Past p c) : Records p c := by
  refine h.induction (P := Records) ?_ ?_ ?_ (fun _ hc hout => hc.outcome hout)
  · intro p c d hcore hc
    exact ⟨hc.anchored, hc.accumulates.of_core_eq hcore⟩
  · intro options
    exact ⟨rfl, accumulates_new options⟩
  · intro options d hout
    obtain ⟨m, hm, rfl⟩ := merged_of_outcome hout
    obtain ⟨hanchor, -⟩ := plan_eq_ok_iff.mp hm
    have haccepted : ({ options, builtins := true } : History).accepted =
        [(Builtin.fragment, Builtin.base)] := rfl
    -- by a lemma about any fragment, so that the built-in one is not worked out to check it
    have hfragments : ({ options, builtins := true } : History).fragments = [m.fragment] :=
      fragments_of_accepted haccepted hanchor
    refine ⟨?_, ?_⟩
    · rw [hfragments, haccepted, List.map_cons, hanchor]
      rfl
    · rw [hfragments, History.startTexts, if_pos rfl]
      exact (accumulates_withBuiltinTexts options).merged hm

/-- What a list of signal sections declares for one radio type. -/
def signalsFor (radio : String) (signals : Fields Json) : Fields Json :=
  (signals.filter fun s => s.1 = radio).flatMap fun s => s.2.fields?.getD []

theorem names_declare (signals : Fields Json) :
    Fields.names (declare [] signals) = (Fields.names signals).eraseDups := by
  induction signals using List.reverseRecOn with
  | nil => rfl
  | append_singleton signals last ih =>
    obtain ⟨radio, v⟩ := last
    have hnames : Fields.names (signals ++ [(radio, v)]) = Fields.names signals ++ [radio] := by
      simp [Fields.names]
    rw [declare_append, hnames]
    exact Fields.names_set_of_eraseDups ih radio _

/-- The declared signals of a radio type are those given for it, whichever section they stood in. -/
theorem get?_declare (declared : Fields (Fields Json)) (signals : Fields Json) (radio : String) :
    (Fields.get? (declare declared signals) radio).getD [] =
      Fields.override ((Fields.get? declared radio).getD []) (signalsFor radio signals) := by
  induction signals using List.reverseRecOn with
  | nil => rfl
  | append_singleton signals last ih =>
    obtain ⟨other, v⟩ := last
    rw [declare_append, signalsFor, List.filter_append, List.flatMap_append]
    show (Fields.get? (Fields.set _ _ _) radio).getD [] = _
    by_cases hk : other = radio
    · subst hk
      rw [Fields.get?_set_self, ih]
      simp [signalsFor, Fields.override]
    · rw [Fields.get?_set_of_ne _ _ (Ne.symm hk), ih]
      simp [signalsFor, hk]

/-- Two compilers that accumulate the same differ in no more than the order of their transforms and
in whether they are finalized. -/
theorem Accumulates.core_eq {others : List (String × Signal.Transform)}
    (hc : Accumulates options texts transforms fragments c)
    (hd : Accumulates options texts others fragments d) (f : Option Finalized) :
    { d with finalized := f }.core =
      { c with
        registry := c.registry.withTransforms d.registry.transforms, finalized := f }.core := by
  have hviews : d.resolvedViews = c.resolvedViews := by
    have h := hd.resolved.views
    rw [hd.views_eq, ← hc.views_eq, hc.resolved.views] at h
    exact (Except.ok.inj h).symm
  have hclasses : d.resolvedClasses = c.resolvedClasses := by
    have h := hd.resolved.classes
    rw [hd.classes_eq, ← hc.classes_eq, hc.resolved.classes] at h
    exact (Except.ok.inj h).symm
  simp only [core, Signal.Registry.withTransforms, hviews, hclasses, hc.options_eq, hd.options_eq,
    hc.count_eq, hd.count_eq, hc.views_eq, hd.views_eq, hc.classes_eq, hd.classes_eq, hc.devices_eq,
    hd.devices_eq, hc.drivers_eq, hd.drivers_eq, hc.signals_eq, hd.signals_eq, hc.globals_eq,
    hd.globals_eq, hc.builtin_eq, hd.builtin_eq, hc.registry_eq, hd.registry_eq]

theorem completion_withTransforms {table : Fields Signal.Transform} {project : Catalog}
    (h : ∀ name, Fields.get? table name = Fields.get? c.registry.transforms name) :
    { c with registry := c.registry.withTransforms table }.completion project =
      (c.completion project).map (·.withTransforms table) := by
  have hassembled := assembled_withTransforms c.surroundings c.deviceClasses.declarations
    c.devices.declarations h
  have hsurroundings : { c with registry := c.registry.withTransforms table }.surroundings =
      c.surroundings := rfl
  unfold completion
  rw [hsurroundings]
  dsimp only
  rw [hassembled]
  cases assembled c.surroundings c.deviceClasses.declarations c.devices.declarations c.registry with
  | error e => rfl
  | ok made =>
    simp only [Except.map]
    cases project.backfill c.builtin (Json.object (Fields.mapValues .object made.1))
      (some c.options.radio.textSpace) <;> rfl

/-- Compilers that accumulate the same, with the same transforms under each name, finalize in the
same way. -/
theorem Accumulates.completion_eq {others : List (String × Signal.Transform)} {project : Catalog}
    (hc : Accumulates options texts transforms fragments c)
    (hd : Accumulates options texts others fragments d)
    (h : ∀ name, Fields.get? d.registry.transforms name = Fields.get? c.registry.transforms name) :
    d.completion project =
      (c.completion project).map (·.withTransforms d.registry.transforms) := by
  have hcore := hc.core_eq hd none
  have hleft : d.completion project = { d with finalized := none }.core.completion project := rfl
  rw [hleft, hcore, ← completion_withTransforms h]
  rfl

/-- The same options, start and fragments, and the same transform under every name. -/
structure History.Agrees (p q : History) : Prop where
  options : q.options = p.options
  builtins : q.builtins = p.builtins
  added : q.added = p.added
  transforms : ∀ name, Fields.get? q.transforms.reverse name = Fields.get? p.transforms.reverse name

theorem Records.of_agrees (h : Records q d) (hpq : p.Agrees q) :
    Accumulates p.options p.startTexts q.transforms p.fragments d := by
  have hd := h.accumulates
  simp only [History.startTexts, History.fragments, History.accepted, hpq.options, hpq.builtins,
    hpq.added] at hd
  exact hd

theorem Records.latest_transforms (h : Records p c) :
    Fields.Latest p.transforms c.registry.transforms := by
  rw [h.accumulates.registry_eq]
  exact Fields.latest_ofPairs p.transforms

/-- What compilers with agreeing histories show after they are finalized differs in no more than the
order of the transforms. -/
theorem finalize_of_agrees (hc : Past p c) (hd : Past q d) (hpq : p.Agrees q) (project : Catalog) :
    (d.finalize project).1 = (c.finalize project).1 ∧
      ((c.finalize project).1 = .ok () → (d.finalize project).2.observe =
        { (c.finalize project).2.observe with
          registry := (c.finalize project).2.currentRegistry.withTransforms
            d.registry.transforms }) := by
  have hrecorded := hc.records
  have hother := hd.records.of_agrees hpq
  have htable : ∀ name,
      Fields.get? d.registry.transforms name = Fields.get? c.registry.transforms name := by
    intro name
    rw [hd.records.latest_transforms.get?_eq, hrecorded.latest_transforms.get?_eq, hpq.transforms]
  have hdone : d.completion project =
      (c.completion project).map (·.withTransforms d.registry.transforms) :=
    hrecorded.accumulates.completion_eq hother htable
  have hfollows := finalize_follows hc.reachable.coherent project
  have hfollows' := finalize_follows hd.reachable.coherent project
  rw [hdone] at hfollows'
  constructor
  · rw [hfollows.answer, hfollows'.answer]
    cases c.completion project <;> rfl
  · intro hok
    rw [hfollows.answer] at hok
    cases hcompletion : c.completion project with
    | error e => rw [hcompletion] at hok; cases hok
    | ok f =>
      have hcore := hfollows.core_eq
      have hcore' := hfollows'.core_eq
      rw [hcompletion] at hcore hcore'
      -- the two cores agree but for the table of transforms, which only the registry shows
      have heq := hcore'.trans
        (hrecorded.accumulates.core_eq hother (some (f.withTransforms d.registry.transforms)))
      have hregistry : (c.finalize project).2.currentRegistry = f.registry := by
        show (c.finalize project).2.core.currentRegistry = _
        rw [hcore]
        rfl
      rw [hregistry, ← observe_core (d.finalize project).2, heq,
        ← observe_core (c.finalize project).2,
        hcore]
      rfl

/-- The declarations, globals, signals, drivers and texts of a compiler are those its history gives,
and what it has resolved is what a new resolver makes of them. -/
structure Reflects (p : History) (c : Compiler) : Prop where
  options : c.options = p.options
  /-- Every accepted fragment could be anchored. -/
  anchored : p.accepted.map (fun f => f.1.anchor f.2) = p.fragments.map .ok
  views : Fields.Latest (p.fragments.flatMap (·.views)) c.views.declarations
  classes : Fields.Latest (p.fragments.flatMap (·.deviceClasses)) c.deviceClasses.declarations
  devices : Fields.Latest (p.fragments.flatMap (·.devices)) c.devices.declarations
  globals : Fields.Latest (p.fragments.flatMap (·.globals)) c.globals
  radios : Fields.names c.declaredSignals =
    (Fields.names (p.fragments.flatMap (·.signals))).eraseDups
  signals : ∀ radio declared, Fields.get? c.declaredSignals radio = some declared →
    Fields.Latest (signalsFor radio (p.fragments.flatMap (·.signals))) declared
  drivers : c.drivers = p.fragments.flatMap (·.drivers)
  texts : c.builtin = p.fragments.foldl addTexts p.startTexts
  transforms : Fields.Latest p.transforms c.registry.transforms
  resolvedViews : (Resolver.resolveAll View.rules {} c.views).1 = .ok c.resolvedViews
  resolvedClasses :
    (Resolver.resolveAll DeviceClass.rules {} c.deviceClasses).1 = .ok c.resolvedClasses

theorem Records.reflects (h : Records p c) : Reflects p c where
  options := h.accumulates.options_eq
  anchored := h.anchored
  views := by
    rw [h.accumulates.views_eq]
    apply Fields.latest_ofPairs
  classes := by
    rw [h.accumulates.classes_eq]
    apply Fields.latest_ofPairs
  devices := by
    rw [h.accumulates.devices_eq]
    apply Fields.latest_ofPairs
  globals := by
    rw [h.accumulates.globals_eq]
    apply Fields.latest_ofPairs
  radios := by
    rw [h.accumulates.signals_eq, names_declare]
  signals := by
    intro radio declared hdeclared
    have htable := get?_declare [] (p.fragments.flatMap (·.signals)) radio
    rw [← h.accumulates.signals_eq, hdeclared, Option.getD_some] at htable
    rw [htable]
    apply Fields.latest_ofPairs
  drivers := h.accumulates.drivers_eq
  texts := h.accumulates.builtin_eq
  transforms := h.latest_transforms
  resolvedViews := by
    rw [(Resolver.resolveAll_settles (Resolver.soundFor_new View.rules c.views)).1]
    exact h.accumulates.resolved.views
  resolvedClasses := by
    rw [(Resolver.resolveAll_settles (Resolver.soundFor_new DeviceClass.rules c.deviceClasses)).1]
    exact h.accumulates.resolved.classes

/-- Every compiler that can be reached has a history of accepted operations, and holds what its
history gives. What comes of finalizing depends on the options, the start, the fragments in their
order, the transform under every name and the texts of the project: refused operations and earlier
finalizations, which no history lists, change nothing. -/
theorem compiler_reflects_history (h : Reachable c) :
    (∃ p, Past p c) ∧ ∀ p, Past p c → Reflects p c ∧
      ∀ q d, Past q d → p.Agrees q → ∀ project,
        (d.finalize project).1 = (c.finalize project).1 ∧
          ((c.finalize project).1 = .ok () → (d.finalize project).2.observe =
            { (c.finalize project).2.observe with
              registry := (c.finalize project).2.currentRegistry.withTransforms
                d.registry.transforms }) :=
  ⟨h.exists_past, fun _ hp => ⟨hp.records.reflects, fun _ _ hd hpq project =>
    finalize_of_agrees hp hd hpq project⟩⟩

def lamps : Fragment :=
  { deviceClasses := [("lamp", .object [("name", .string "Lamp")]), ("plug", .object [])]
    devices := [("desk", .object [("extends", .string "lamp")])] }

/-- The class of the lamp declared anew, and a signal for all devices. -/
def bulbs : Fragment :=
  { deviceClasses := [("lamp", .object [("name", .string "Bulb")])]
    globals := [("signal", .object [("id", .string "on")])] }

theorem anchor_lamps : lamps.anchor "" = .ok lamps := by
  simp only [lamps, Fragment.anchor, Fragment.anchorDrivers, Path.anchorObject]
  rfl

theorem anchor_bulbs : bulbs.anchor "" = .ok bulbs := by
  simp only [bulbs, Fragment.anchor, Fragment.anchorDrivers, Path.anchorObject]
  rfl

theorem past_lamps : Past { options := {}, added := [(lamps, "")] }
    ((new {}).perform (.addConfig lamps "")).2 := by
  obtain ⟨classes, hclasses⟩ := exists_of_isOk
    (show (Lineage.entitiesWithin DeviceClass.rules lamps.deviceClasses 1).isOk = true by
      decide +kernel)
  have hplan : (new {}).plan lamps "" = .ok ⟨lamps, .empty, [], classes⟩ :=
    plan_eq_ok_iff.mpr ⟨anchor_lamps, rfl, rfl, Lineage.entities_of_within hclasses⟩
  have hout : (new {}).outcome (.addConfig lamps "") =
      .ok ((new {}).merged ⟨lamps, .empty, [], classes⟩) := by
    rw [outcome, hplan]
    rfl
  exact (Past.new {}).accepted (perform_of_outcome (new_coherent {}) hout).1

theorem past_bulbs (h : Past { options := {}, added := [(lamps, "")] } c) :
    Past { options := {}, added := [(lamps, ""), (bulbs, "")] }
      (c.perform (.addConfig bulbs "")).2 := by
  have hfragments : ({ options := {}, added := [(lamps, "")] } : History).fragments = [lamps] := by
    simp [History.fragments, History.accepted, anchor_lamps, Except.toOption]
  have hholds := h.records.accumulates
  rw [hfragments] at hholds
  obtain ⟨classes, hclasses⟩ := exists_of_isOk
    (show (Lineage.entitiesWithin DeviceClass.rules
      (Fields.override lamps.deviceClasses bulbs.deviceClasses) 1).isOk = true by decide +kernel)
  have hplan : c.plan bulbs "" = .ok ⟨bulbs, c.builtin, [], classes⟩ := by
    refine plan_eq_ok_iff.mpr ⟨anchor_bulbs, rfl, ?_, ?_⟩
    · rw [hholds.views_eq]
      rfl
    · rw [hholds.classes_eq]
      exact Lineage.entities_of_within hclasses
  have hout : c.outcome (.addConfig bulbs "") = .ok (c.merged ⟨bulbs, c.builtin, [], classes⟩) := by
    rw [outcome, hplan]
    rfl
  exact h.accepted (perform_of_outcome h.reachable.coherent hout).1

/-- The lamp is declared anew at its old place, and a finalization between the two fragments, which
the lamp without a signal makes fail, has no influence. -/
theorem bulbs_reflect_history :
    ∃ c d, Reachable c ∧
      c = (((((new {}).addConfig lamps "").2.finalize .empty).2).addConfig bulbs "").2 ∧
      d = ((((new {}).addConfig lamps "").2).addConfig bulbs "").2 ∧
      Fields.names c.deviceClasses.declarations = ["lamp", "plug"] ∧
      Fields.get? c.deviceClasses.declarations "lamp" =
        some (.object [("name", .string "Bulb")]) ∧
      (d.finalize .empty).1 = (c.finalize .empty).1 := by
  have hc := past_bulbs (past_lamps.finalize .empty)
  have hd := past_bulbs past_lamps
  have hfragments : ({ options := {}, added := [(lamps, ""), (bulbs, "")] } : History).fragments =
      [lamps, bulbs] := by
    simp [History.fragments, History.accepted, anchor_lamps, anchor_bulbs, Except.toOption]
  obtain ⟨-, hreflects⟩ := compiler_reflects_history hc.reachable
  obtain ⟨hholds, hsame⟩ := hreflects _ hc
  have hclasses := hholds.classes
  rw [hfragments] at hclasses
  refine ⟨_, _, hc.reachable, rfl, rfl, ?_, ?_, ?_⟩
  · rw [hclasses.names_eq]
    decide
  · rw [hclasses.get?_eq]
    rfl
  · exact (hsame _ _ hd ⟨rfl, rfl, rfl, fun _ => rfl⟩ .empty).1

end Compiler

end RadioDriver
