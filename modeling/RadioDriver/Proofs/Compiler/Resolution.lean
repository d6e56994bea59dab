import RadioDriver.Proofs.Compiler.Builtins
import RadioDriver.Proofs.Compiler.Past
import RadioDriver.Proofs.Device.Pairing
import RadioDriver.Proofs.Inherit.Resolvable

namespace RadioDriver

namespace Lineage

open Inherit

/-- The faults of a declaration from outside that lie in the declaration itself. -/
inductive DetachedFault (kind : EntityKind) (declared : Fields Json) (id : String)
    (declaration : Json) : ResolveError → Prop
  | notAnObject (plain : declaration.isObject = false) :
      DetachedFault kind declared id declaration (.notAnObject kind id)
  | invalidExtends {own : Fields Json} (object : declaration = .object own)
      (invalid : ∀ parents, ¬ ParentList (Fields.get? own "extends") parents) :
      DetachedFault kind declared id declaration (.invalidExtends kind id)
  | undeclared {own : Fields Json} {parents : List String} {parent : String}
      (object : declaration = .object own) (list : ParentList (Fields.get? own "extends") parents)
      (listed : parent ∈ parents) (absent : Fields.get? declared parent = none) :
      DetachedFault kind declared id declaration (.notFound kind parent none)

variable {rules : Rules} {declared : Fields Json} {id : String} {declaration : Json}
  {error : ResolveError}

/-- Among declarations that can all be resolved, a declaration from outside that cannot be is at
fault itself. -/
theorem detachedFault_of_error
    (hall : ∀ name ∈ Fields.names declared, ∃ e, entity rules declared [] name = .ok e)
    (h : detached rules declared id declaration = .error error) :
    DetachedFault rules.kind declared id declaration error := by
  cases declaration with
  | object own =>
    cases hp : parents? (Fields.get? own "extends") with
    | none =>
      simp only [detached, combined, hp] at h
      cases h
      refine .invalidExtends rfl ?_
      intro parents hlist
      rw [parents?_eq_some.mpr hlist] at hp
      cases hp
    | some parents =>
      rw [detached, combined_of_parents hp] at h
      cases hm : parents.mapM (entity rules declared []) with
      | ok ancestors =>
        rw [hm] at h
        cases h
      | error e =>
        rw [hm] at h
        cases h
        obtain ⟨parent, hparent, he⟩ := exists_of_mapM_error hm
        -- a declared parent can be resolved, so the one that cannot be is not declared
        cases hd : Fields.get? declared parent with
        | none =>
          rw [entity_of_undeclared List.not_mem_nil hd] at he
          cases he
          exact .undeclared rfl (parents?_eq_some.mp hp) hparent hd
        | some d =>
          obtain ⟨resolved, hresolved⟩ := hall parent (Fields.mem_names_of_get? hd)
          rw [hresolved] at he
          cases he
  | _ =>
    cases h
    exact .notAnObject rfl

end Lineage

namespace Device

/-- The faults that are met when a resolved device is assembled; each of them names the device. -/
inductive Fault (device : String) : CompileError → Prop
  | missingOption (view option : String) : Fault device (.missingOption device view option)
  | unknownView (view : String) : Fault device (.unknownView device view)
  | noSignal : Fault device (.noSignal device)
  | unknownSignal (signal : String) : Fault device (.unknownSignal device signal)
  | invalidSignal (cause : SignalError) : Fault device (.invalidSignal device cause)

variable {s : Surroundings} {id : String} {device : Entity} {registry : Signal.Registry}
  {error : CompileError}

theorem fault_of_expandPair {pair : Fields Json} {order : Json}
    (h : expandPair s id pair order = .error error) : Fault id error := by
  cases expandPair_eq_error h with
  | notText => exact .unknownView _
  | unknownView => exact .unknownView _
  | missingOption => exact .missingOption _ _

theorem fault_of_pairUp (h : pairUp s id device = .error error) : Fault id error := by
  unfold pairUp at h
  split at h
  · split at h
    · cases h
    · rcases except_bind_eq_error.mp h with hpair | ⟨pair, -, hdone⟩
      · exact fault_of_expandPair hpair
      · cases hdone
  · cases h

theorem fault_of_signalOf (h : signalOf s id device registry = .error error) : Fault id error := by
  unfold signalOf at h
  split at h
  · cases h
    exact .noSignal
  · unfold namedSignal at h
    split at h
    · cases h
    · cases h
    · cases h
      exact .unknownSignal _
  · cases h

theorem fault_of_assignSignal (h : assignSignal s id device registry = .error error) :
    Fault id error := by
  rcases except_bind_eq_error.mp h with hsignal | ⟨definition, -, h⟩
  · exact fault_of_signalOf hsignal
  · split at h
    · cases h
      exact .invalidSignal _
    · cases h

theorem fault_of_assemble (h : assemble s id device registry = .error error) : Fault id error := by
  rcases except_bind_eq_error.mp h with hsignal | ⟨signalled, -, h⟩
  · exact fault_of_assignSignal hsignal
  · rcases except_bind_eq_error.mp h with hpair | ⟨paired, -, hdone⟩
    · exact fault_of_pairUp hpair
    · cases hdone

theorem Fault.not_resolve (h : Fault id error) : ∀ cause, error ≠ .resolve cause := by
  rintro cause rfl
  cases h

end Device

namespace Compiler

variable {c : Compiler}

/-- What is kept as resolved is what the declarations make. -/
structure Resolved (c : Compiler) : Prop where
  views : Lineage.entities View.rules c.views.declarations = .ok c.resolvedViews
  classes : Lineage.entities DeviceClass.rules c.deviceClasses.declarations =
    .ok c.resolvedClasses

theorem resolved_new (options : CompilerOptions) : (new options).Resolved := ⟨rfl, rfl⟩

theorem Resolved.of_core_eq {d : Compiler} (h : c.Resolved) (hcore : c.core = d.core) :
    d.Resolved := by
  have hkept : c.core.Resolved := ⟨h.views, h.classes⟩
  rw [hcore] at hkept
  exact ⟨hkept.views, hkept.classes⟩

theorem resolved_merged {fragment : Fragment} {base : String} {m : Merge}
    (h : c.plan fragment base = .ok m) : (c.merged m).Resolved := by
  obtain ⟨-, -, hviews, hclasses⟩ := plan_eq_ok_iff.mp h
  constructor
  · rw [merged, accept, Pool.extend_declarations]
    exact hviews
  · rw [merged, accept, Pool.extend_declarations]
    exact hclasses

theorem Resolved.outcome {d : Compiler} {op : Operation} (h : c.Resolved)
    (hout : c.outcome op = .ok d) : d.Resolved := by
  cases op with
  | addTransform name transform =>
    cases hout
    exact ⟨h.views, h.classes⟩
  | addConfig fragment base =>
    obtain ⟨m, hm, rfl⟩ := merged_of_outcome hout
    exact resolved_merged hm
  | finalize project =>
    obtain ⟨f, -, rfl⟩ := except_map_eq_ok.mp hout
    exact ⟨h.views, h.classes⟩

theorem Reachable.resolved (h : Reachable c) : c.Resolved := by
  obtain ⟨p, hp⟩ := h.exists_past
  refine hp.induction (P := fun _ c => c.Resolved) (fun hcore hc => hc.of_core_eq hcore)
    resolved_new ?_ (fun _ hc hout => hc.outcome hout)
  intro options d hout
  have hstart : (withBuiltinTexts options).Resolved := ⟨rfl, rfl⟩
  exact hstart.outcome hout

/-- When the devices cannot be assembled, one of their declarations is at fault, or the assembling
of one of them is. -/
theorem fault_of_assembled {s : Device.Surroundings} {classes : Fields Json}
    (hall : ∀ name ∈ Fields.names classes,
      ∃ e, Lineage.entity DeviceClass.rules classes [] name = .ok e)
    {declarations : Fields Json} {registry : Signal.Registry} {error : CompileError}
    (h : assembled s classes declarations registry = .error error) :
    ∃ d ∈ declarations, Device.Fault d.1 error ∨
      ∃ cause, error = .resolve cause ∧
        Lineage.DetachedFault .deviceClass classes d.1 d.2 cause := by
  induction declarations generalizing registry with
  | nil => cases h
  | cons declaration rest ih =>
    obtain ⟨id, declaration⟩ := declaration
    rw [assembled] at h
    split at h
    · next cause hdetached =>
      cases h
      exact ⟨_, List.mem_cons_self,
        .inr ⟨cause, rfl, Lineage.detachedFault_of_error hall hdetached⟩⟩
    · split at h
      · next hassemble =>
        cases h
        exact ⟨_, List.mem_cons_self, .inl (Device.fault_of_assemble hassemble)⟩
      · split at h
        · next hrest =>
          cases h
          obtain ⟨d, hd, hfault⟩ := ih hrest
          exact ⟨d, List.mem_cons_of_mem _ hd, hfault⟩
        · cases h

theorem code_ne_cycle_of_fault {device : String} {error : CompileError}
    (h : Device.Fault device error) : error.code ≠ .cycle := by
  cases h <;> simp [CompileError.code]

theorem code_ne_cycle_of_detachedFault {kind : EntityKind} {declared : Fields Json} {id : String}
    {declaration : Json} {cause : ResolveError}
    (h : Lineage.DetachedFault kind declared id declaration cause) :
    (CompileError.resolve cause).code ≠ .cycle := by
  cases h <;> simp [CompileError.code]

theorem code_ne_cycle_of_locale (cause : LocaleError) :
    (CompileError.locale cause).code ≠ .cycle := by
  cases cause <;> simp [CompileError.code]

theorem completion_of_assembled_error {project : Catalog} {error : CompileError}
    (h : assembled c.surroundings c.deviceClasses.declarations c.devices.declarations c.registry =
      .error error) : c.completion project = .error error := by
  unfold completion
  rw [h]

theorem fault_of_completion (h : c.Resolved) {project : Catalog} {error : CompileError}
    (herror : c.completion project = .error error) :
    (∃ cause, error = .locale cause) ∨
      ∃ d ∈ c.devices.declarations, Device.Fault d.1 error ∨
        ∃ cause, error = .resolve cause ∧
          Lineage.DetachedFault .deviceClass c.deviceClasses.declarations d.1 d.2 cause := by
  unfold completion at herror
  split at herror
  · next hdevices =>
    cases herror
    exact .inr (fault_of_assembled (Lineage.exists_entitiesOf_iff.mp ⟨_, h.classes⟩) hdevices)
  · dsimp only at herror
    split at herror
    · cases herror
      exact .inl ⟨_, rfl⟩
    · cases herror

/-- In every state that can be reached, every declared view and device class can be resolved, with
what the compiler's resolvers remember as without it. Finalizing never meets a cycle, and when a
device cannot be resolved its declaration is not an object, has no list of parents, or lists a
parent that is no declared device class. -/
theorem finalize_meets_no_cycle (h : Reachable c) :
    (∀ id ∈ c.views.ids, ∃ e, (c.viewResolver.resolve View.rules c.views id).1 = .ok e ∧
        (Resolver.resolve View.rules {} c.views id).1 = .ok e) ∧
      (∀ id ∈ c.deviceClasses.ids,
        ∃ e, (c.classResolver.resolve DeviceClass.rules c.deviceClasses id).1 = .ok e ∧
          (Resolver.resolve DeviceClass.rules {} c.deviceClasses id).1 = .ok e) ∧
      ∀ project error, (c.finalize project).1 = .error error →
        error.code ≠ .cycle ∧ ∀ cause, error = .resolve cause →
          ∃ d ∈ c.devices.declarations,
            Lineage.DetachedFault .deviceClass c.deviceClasses.declarations d.1 d.2 cause := by
  have hresolved := h.resolved
  have hcoherent := h.coherent
  refine ⟨?_, ?_, ?_⟩
  · intro id hid
    obtain ⟨e, he⟩ := Lineage.exists_entitiesOf_iff.mp ⟨_, hresolved.views⟩ id hid
    refine ⟨e, ?_, ?_⟩
    · rw [(Resolver.resolve_settles hcoherent.views.sound id).1, he]
    · rw [(Resolver.resolve_settles (Resolver.soundFor_new _ _) id).1, he]
  · intro id hid
    obtain ⟨e, he⟩ := Lineage.exists_entitiesOf_iff.mp ⟨_, hresolved.classes⟩ id hid
    refine ⟨e, ?_, ?_⟩
    · rw [(Resolver.resolve_settles hcoherent.classes.sound id).1, he]
    · rw [(Resolver.resolve_settles (Resolver.soundFor_new _ _) id).1, he]
  · intro project error herror
    have hcompletion := completion_of_finalize_error hcoherent herror
    rcases fault_of_completion hresolved hcompletion with
      ⟨cause, rfl⟩ | ⟨d, hd, hfault | ⟨cause, rfl, hfault⟩⟩
    · refine ⟨code_ne_cycle_of_locale cause, ?_⟩
      rintro cause' ⟨⟩
    · refine ⟨code_ne_cycle_of_fault hfault, ?_⟩
      intro cause heq
      exact absurd heq (hfault.not_resolve cause)
    · refine ⟨code_ne_cycle_of_detachedFault hfault, ?_⟩
      rintro cause' ⟨⟩
      exact ⟨d, hd, hfault⟩

def lampClass : Fields Json := [("lamp", .object [])]

def lampDevice : Json :=
  .object [("extends", .string "lamp"), ("signal", .object [("id", .string "on")])]

/-- A device under the id of its class, and one whose class is missing. -/
def strayDevices : Fragment :=
  { deviceClasses := lampClass
    devices := [("lamp", lampDevice), ("orphan", .object [("extends", .string "ghost")])] }

def withStrays : Compiler := ((new {}).perform (.addConfig strayDevices "")).2

theorem entity_lampClass :
    Lineage.entity DeviceClass.rules lampClass [] "lamp" = .ok [("id", .string "lamp")] :=
  Lineage.entity_of_within
    (show Lineage.entityWithin DeviceClass.rules lampClass 1 "lamp" = _ from rfl)
    (Lineage.leads_nil _ _)

theorem detached_lampDevice :
    Lineage.detached DeviceClass.rules lampClass "lamp" lampDevice =
      .ok [("id", .string "lamp"), ("signal", .object [("id", .string "on")])] := by
  rw [lampDevice, Lineage.detached, Lineage.combined_of_parents rfl, List.mapM_cons,
    entity_lampClass]
  rfl

theorem detached_orphan :
    Lineage.detached DeviceClass.rules lampClass "orphan"
        (.object [("extends", .string "ghost")]) =
      .error (.notFound .deviceClass "ghost" none) := by
  rw [Lineage.detached, Lineage.combined_of_parents rfl, List.mapM_cons,
    Lineage.entity_of_undeclared List.not_mem_nil rfl]
  rfl

def strayMerge : Merge := ⟨strayDevices, .empty, [], [("lamp", [("id", .string "lamp")])]⟩

theorem core_withStrays : withStrays.core = ((new {}).merged strayMerge).core := by
  have hanchor : strayDevices.anchor "" = .ok strayDevices := by
    simp only [strayDevices, Fragment.anchor, Fragment.anchorDrivers, Path.anchorObject]
    rfl
  have hwithin : Lineage.entitiesWithin DeviceClass.rules lampClass 1 =
      .ok strayMerge.deviceClasses := rfl
  have hclasses : Lineage.entities DeviceClass.rules lampClass = .ok strayMerge.deviceClasses :=
    Lineage.entities_of_within hwithin
  have hplan : (new {}).plan strayDevices "" = .ok strayMerge :=
    plan_eq_ok_iff.mpr ⟨hanchor, rfl, rfl, hclasses⟩
  have hout : (new {}).outcome (.addConfig strayDevices "") = .ok ((new {}).merged strayMerge) := by
    rw [outcome, hplan]
    rfl
  exact (perform_of_outcome (new_coherent {}) hout).2.1

theorem completion_withStrays :
    withStrays.completion .empty = .error (.resolve (.notFound .deviceClass "ghost" none)) := by
  have hkept : withStrays.completion .empty = withStrays.core.completion .empty := rfl
  -- the first device is resolved and assembled, so that the second is reached
  obtain ⟨made, hmade⟩ := exists_of_isOk (show (Device.assemble (new {}).surroundings "lamp"
    [("id", .string "lamp"), ("signal", .object [("id", .string "on")])]
      (new {}).registry).isOk = true by decide +kernel)
  have hassembled : assembled (new {}).surroundings lampClass strayDevices.devices
      (new {}).registry = .error (.resolve (.notFound .deviceClass "ghost" none)) := by
    simp only [strayDevices, assembled, detached_lampDevice, hmade, detached_orphan]
  rw [hkept, core_withStrays]
  exact completion_of_assembled_error hassembled

/-- The device that shares the id of its class is no cycle, and the orphan is reported. -/
theorem finalize_reports_orphan :
    Reachable withStrays ∧ "lamp" ∈ withStrays.deviceClasses.ids ∧
      (withStrays.finalize .empty).1 =
        .error (.resolve (.notFound .deviceClass "ghost" none)) ∧
      (∃ e, (Resolver.resolve DeviceClass.rules {} withStrays.deviceClasses "lamp").1 = .ok e) ∧
      ∃ d ∈ withStrays.devices.declarations,
        Lineage.DetachedFault .deviceClass withStrays.deviceClasses.declarations d.1 d.2
          (.notFound .deviceClass "ghost" none) := by
  have hreachable : Reachable withStrays := (Reachable.new {}).perform _
  obtain ⟨-, hclasses, hfault⟩ := finalize_meets_no_cycle hreachable
  have hids : withStrays.core.deviceClasses.ids = ["lamp"] := by
    rw [core_withStrays]
    rfl
  have hlamp : "lamp" ∈ withStrays.deviceClasses.ids := by
    show "lamp" ∈ withStrays.core.deviceClasses.ids
    simp [hids]
  have herror : (withStrays.finalize .empty).1 =
      .error (.resolve (.notFound .deviceClass "ghost" none)) := by
    rw [(finalize_follows hreachable.coherent .empty).answer, completion_withStrays]
    rfl
  obtain ⟨e, -, he⟩ := hclasses "lamp" hlamp
  exact ⟨hreachable, hlamp, herror, ⟨e, he⟩, (hfault _ _ herror).2 _ rfl⟩

end Compiler

end RadioDriver
