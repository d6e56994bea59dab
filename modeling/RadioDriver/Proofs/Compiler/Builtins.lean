import RadioDriver.Proofs.Compiler.Atomicity
import RadioDriver.Proofs.Compiler.References
import RadioDriver.Proofs.Inherit.Generations
import RadioDriver.Proofs.Locale.Backfill
import RadioDriver.Proofs.Locale.Clean

namespace RadioDriver

theorem exists_of_any {ε α : Type} {x : Except ε α} {test : α → Bool}
    (h : x.toOption.any test = true) : ∃ a, x = .ok a ∧ test a = true := by
  cases x with
  | error e => cases h
  | ok a => exact ⟨a, rfl, h⟩

namespace Backfill

variable {builtin : Catalog} {space : String}

theorem runtimePaths_not_nested (h : Readable builtin) (known : List String) :
    ¬ Nested (runtimePaths builtin space known) := by
  rintro ⟨path, hp, other, ho, hne, hpre⟩
  unfold runtimePaths at hp ho
  cases htable : builtin.get? defaultLanguage with
  | none =>
    rw [htable] at hp
    cases hp
  | some table =>
    rw [htable] at hp ho
    have htext : ∀ {p : String}, p ∈ table.leaves.map (·.1) → (table.text? p).isSome := by
      intro p hp
      obtain ⟨leaf, hleaf, rfl⟩ := List.mem_map.mp hp
      rw [(LocaleTable.mem_leaves (h table htable)).mp hleaf]
      rfl
    exact LocaleTable.not_prefix_of_text? (htext (List.mem_filter.mp hp).1)
      (htext (List.mem_filter.mp ho).1) hne hpre

theorem not_blocked_empty (paths : List String) : ¬ Blocked Catalog.empty.tables paths := by
  rintro ⟨t, ht, path, -, hobstructed⟩
  rw [List.mem_singleton.mp ht] at hobstructed
  rcases hobstructed with ⟨children, hvalue⟩ | ⟨above, v, -, -, hvalue, -⟩
  · rw [Locale.valueAt_empty] at hvalue
    cases hvalue
  · rw [Locale.valueAt_empty] at hvalue
    cases hvalue

theorem exists_backfill (h : Readable builtin) (space : String) :
    ∃ out, Catalog.empty.backfill builtin (.object []) (some space) = .ok out := by
  cases hout : Catalog.empty.backfill builtin (.object []) (some space) with
  | ok out => exact ⟨out, rfl⟩
  | error e =>
    rcases (Catalog.backfill_of_error hout (pathsOf_nodup _ h _)).1 with hnested | hblocked
    · exact absurd hnested (runtimePaths_not_nested h _)
    · exact absurd hblocked (not_blocked_empty _)

end Backfill

namespace Compiler

/-- An operation with an outcome is carried out, and leads to the core of the outcome. -/
theorem perform_of_outcome {c d : Compiler} (hc : c.Coherent) {op : Operation}
    (hout : c.outcome op = .ok d) :
    (c.perform op).1 = .ok () ∧ (c.perform op).2.core = d.core ∧ (c.perform op).2.Coherent := by
  obtain ⟨hanswer, hcore, hcoherent⟩ := perform_follows hc op
  rw [hout] at hanswer hcore
  exact ⟨hanswer, hcore, hcoherent⟩

def builtins : Fragment := (Builtin.fragment.anchor Builtin.base).toOption.getD {}

theorem anchor_builtins : Builtin.fragment.anchor Builtin.base = .ok builtins := by
  obtain ⟨f, hf⟩ := exists_of_isOk
    (show (Builtin.fragment.anchor Builtin.base).isOk = true by decide +kernel)
  unfold builtins
  rw [hf]
  rfl

theorem builtins_within :
    (Lineage.entitiesWithin View.rules (Fields.override [] builtins.views) 4).isOk = true ∧
      (Lineage.entitiesWithin DeviceClass.rules (Fields.override [] builtins.deviceClasses)
        2).isOk = true := by
  decide +kernel

theorem builtins_alone :
    builtins.devices = [] ∧ builtins.drivers = [] ∧ builtins.locales = none := by
  have h := anchor_builtins
  unfold Fragment.anchor at h
  simp only [except_bind_eq_ok] at h
  obtain ⟨drivers, hdrivers, views, -, classes, -, devices, hdevices, signals, -, globals, -, h⟩ :=
    h
  cases hdrivers
  cases hdevices
  rw [← Except.ok.inj h]
  exact ⟨rfl, rfl, rfl⟩

/-- A compiler with the built-in texts, whose views and device classes can be resolved, and without
devices and raw drivers. -/
structure Bare (c : Compiler) : Prop where
  texts : c.builtin = Builtin.catalog
  views : ∃ all, Lineage.entities View.rules c.views.declarations = .ok all
  classes : ∃ all, Lineage.entities DeviceClass.rules c.deviceClasses.declarations = .ok all
  devices : c.devices.declarations = []
  drivers : c.drivers = []

theorem bare_core {c : Compiler} : c.core.Bare ↔ c.Bare :=
  ⟨fun h => ⟨h.texts, h.views, h.classes, h.devices, h.drivers⟩,
    fun h => ⟨h.texts, h.views, h.classes, h.devices, h.drivers⟩⟩

theorem Bare.of_core_eq {c d : Compiler} (h : d.Bare) (hcore : c.core = d.core) : c.Bare := by
  rw [← bare_core, hcore, bare_core]
  exact h

theorem outcome_builtins (options : CompilerOptions) :
    ∃ d, (withBuiltinTexts options).outcome (.addConfig Builtin.fragment Builtin.base) = .ok d ∧
      d.Bare := by
  obtain ⟨hdevices, hdrivers, hlocales⟩ := builtins_alone
  obtain ⟨views, hviews⟩ := exists_of_isOk builtins_within.1
  obtain ⟨classes, hclasses⟩ := exists_of_isOk builtins_within.2
  have hviews := Lineage.entities_of_within hviews
  have hclasses := Lineage.entities_of_within hclasses
  have htexts : (withBuiltinTexts options).withTexts builtins = .ok Builtin.catalog := by
    unfold withTexts
    rw [hlocales]
    rfl
  have hplan : (withBuiltinTexts options).plan Builtin.fragment Builtin.base =
      .ok ⟨builtins, Builtin.catalog, views, classes⟩ := by
    have hviews' : Lineage.entities View.rules (Fields.override
        (withBuiltinTexts options).views.declarations builtins.views) = .ok views := hviews
    have hclasses' : Lineage.entities DeviceClass.rules (Fields.override
        (withBuiltinTexts options).deviceClasses.declarations builtins.deviceClasses) =
        .ok classes := hclasses
    simp only [plan, anchor_builtins, htexts, hviews', hclasses']
  refine ⟨(withBuiltinTexts options).merged ⟨builtins, Builtin.catalog, views, classes⟩, ?_, rfl,
    ?_, ?_, ?_, ?_⟩
  · rw [outcome, hplan]
    rfl
  · exact ⟨views, by rw [merged, accept, Pool.extend_declarations]; exact hviews⟩
  · exact ⟨classes, by rw [merged, accept, Pool.extend_declarations]; exact hclasses⟩
  · rw [merged, accept, Pool.extend_declarations, hdevices]
    rfl
  · rw [merged, accept, hdrivers]
    rfl

theorem accepted_of_ok {run : Except CompileError Unit × Compiler} (h : run.1 = .ok ()) :
    accepted run = .ok run.2 := by
  obtain ⟨answer, c⟩ := run
  cases h
  rfl

theorem withBuiltins_bare (options : CompilerOptions) :
    ∃ c, withBuiltins options = .ok c ∧ c.Coherent ∧ c.Bare := by
  obtain ⟨d, hout, hbare⟩ := outcome_builtins options
  obtain ⟨hok, hcore, hcoherent⟩ := perform_of_outcome (withBuiltinTexts_coherent options) hout
  exact ⟨_, accepted_of_ok hok, hcoherent, hbare.of_core_eq hcore⟩

theorem anchor_empty (base : String) : ({} : Fragment).anchor base = .ok {} := by
  have hobject : Path.anchorObject base [] = .ok [] := by
    unfold Path.anchorObject
    split <;> rfl
  unfold Fragment.anchor
  dsimp only
  rw [hobject]
  rfl

theorem Bare.addConfig {c : Compiler} (hc : c.Coherent) (h : c.Bare) (base : String) :
    (c.addConfig {} base).1 = .ok () ∧ (c.addConfig {} base).2.Coherent ∧
      (c.addConfig {} base).2.Bare := by
  obtain ⟨views, hviews⟩ := h.views
  obtain ⟨classes, hclasses⟩ := h.classes
  have hplan : c.plan {} base = .ok ⟨{}, c.builtin, views, classes⟩ := by
    have hviews' : Lineage.entities View.rules (Fields.override c.views.declarations []) =
        .ok views := hviews
    have hclasses' : Lineage.entities DeviceClass.rules
        (Fields.override c.deviceClasses.declarations []) = .ok classes := hclasses
    simp only [plan, anchor_empty, withTexts, hviews', hclasses']
  have hout : c.outcome (.addConfig {} base) =
      .ok (c.merged ⟨{}, c.builtin, views, classes⟩) := by
    rw [outcome, hplan]
    rfl
  have hbare : (c.merged ⟨{}, c.builtin, views, classes⟩).Bare :=
    ⟨h.texts, h.views, h.classes, h.devices, by rw [merged, accept, h.drivers]; rfl⟩
  obtain ⟨hok, hcore, hcoherent⟩ := perform_of_outcome hc hout
  exact ⟨hok, hcoherent, hbare.of_core_eq hcore⟩

theorem Bare.finalize {c : Compiler} (hc : c.Coherent) (h : c.Bare) :
    (c.finalize .empty).1 = .ok () ∧ (c.finalize .empty).2.drivers = [] ∧
      ∃ f, (c.finalize .empty).2.finalized = some f ∧ f.devices = [] := by
  obtain ⟨⟨catalog, missing⟩, hfilled⟩ :=
    Backfill.exists_backfill Catalog.plain_builtin.readable c.options.radio.textSpace
  have hdone : c.completion .empty = .ok ⟨[], catalog, missing, [], c.registry⟩ := by
    unfold completion
    rw [h.devices, h.texts]
    dsimp only [assembled]
    rw [show Json.object (Fields.mapValues Json.object []) = .object [] from rfl, hfilled]
    rfl
  have hout : c.outcome (.finalize .empty) =
      .ok { c with finalized := some ⟨[], catalog, missing, [], c.registry⟩ } := by
    rw [outcome, hdone]
    rfl
  obtain ⟨hok, hcore, -⟩ := perform_of_outcome hc hout
  have hdrivers : (c.finalize .empty).2.drivers = c.drivers := congrArg (·.drivers) hcore
  exact ⟨hok, hdrivers.trans h.drivers, _, congrArg (·.finalized) hcore, rfl⟩

theorem empty_project_compiles (options : CompilerOptions) (base : String) :
    ∃ c c' c'', withBuiltins options = .ok c ∧ c.addConfig {} base = (.ok (), c') ∧
      c'.finalize .empty = (.ok (), c'') ∧
      c''.deviceConfig = .ok (.object [("devices", .object [])]) ∧
      (∃ m, c''.manifest = .ok m) ∧ ∃ catalog, c''.locales = .ok catalog := by
  obtain ⟨c, hbuiltins, hc, hbare⟩ := withBuiltins_bare options
  obtain ⟨hadded, hc', hbare'⟩ := hbare.addConfig hc base
  obtain ⟨hfinished, hdrivers, f, hf, hdevices⟩ := hbare'.finalize hc'
  refine ⟨c, _, _, hbuiltins, Prod.ext hadded rfl, Prod.ext hfinished rfl, ?_,
    ⟨_, (manifest_eq_ok_iff hf).mpr ⟨?_, rfl⟩⟩, f.catalog, ?_⟩
  · unfold deviceConfig result
    rw [hf]
    show Except.ok (Json.object [("devices", entitiesJson f.devices)]) = _
    rw [hdevices]
    rfl
  · rw [hdevices, hdrivers]
    simp
  · unfold locales result
    rw [hf]
    rfl

end Compiler

end RadioDriver
