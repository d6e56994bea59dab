import RadioDriver.Proofs.Compiler.Builtins
import RadioDriver.Proofs.Compiler.Records
import RadioDriver.Proofs.Inherit.Redeclared

namespace RadioDriver

namespace Compiler

variable {c : Compiler} {options : CompilerOptions} {texts : Catalog}
  {transforms : List (String × Signal.Transform)} {fragments : List Fragment} {v : Json}

theorem Accumulates.stable (h : Accumulates options texts transforms fragments c) :
    Session.Stable View.rules (· = ·) c.resolvedViews ∧
      Session.Stable DeviceClass.rules (Fields.SameButPlace "id") c.resolvedClasses := by
  constructor
  · apply Session.stable_of_entities View.reproduces _ h.resolved.views
    rw [h.views_eq]
    apply Fields.nodup_ofPairs
  · apply Session.stable_of_entities DeviceClass.reproduces _ h.resolved.classes
    rw [h.classes_eq]
    apply Fields.nodup_ofPairs

theorem sections_of_config (h : c.config = .ok v) :
    v.field? "views" = some (entitiesJson c.resolvedViews) ∧
      v.field? "deviceClasses" = some (entitiesJson c.resolvedClasses) := by
  obtain ⟨f, -, hv⟩ := except_bind_eq_ok.mp h
  cases hv
  exact ⟨rfl, rfl⟩

open Session in
/-- What a pool resolves to can be declared and resolves to itself, a view exactly and a device
class but for the place of its id, and so do the views and device classes that a compiler emits. -/
theorem resolution_idempotent :
    (∀ moves, ∀ pool ∈ (start.after View.rules moves).pools, ∀ all,
      ((start.after View.rules moves).resolver.resolveAll View.rules pool).1 = .ok all →
        Stable View.rules (· = ·) all) ∧
    (∀ moves, ∀ pool ∈ (start.after DeviceClass.rules moves).pools, ∀ all,
      ((start.after DeviceClass.rules moves).resolver.resolveAll DeviceClass.rules pool).1 =
        .ok all →
        Stable DeviceClass.rules (Fields.SameButPlace "id") all) ∧
    ∀ c, Reachable c → ∀ v, c.config = .ok v → ∃ views classes,
      v.field? "views" = some (entitiesJson views) ∧
      v.field? "deviceClasses" = some (entitiesJson classes) ∧
      Stable View.rules (· = ·) views ∧
      Stable DeviceClass.rules (Fields.SameButPlace "id") classes := by
  refine ⟨?_, ?_, ?_⟩
  · intro moves pool hpool all hall
    exact stable_of_resolveAll View.reproduces moves hpool hall
  · intro moves pool hpool all hall
    exact stable_of_resolveAll DeviceClass.reproduces moves hpool hall
  · intro c hc v hv
    obtain ⟨p, hp⟩ := hc.exists_past
    obtain ⟨hviews, hclasses⟩ := sections_of_config hv
    exact ⟨_, _, hviews, hclasses, hp.records.accumulates.stable⟩

open Session in
/-- The sample views and classes resolve to themselves, and so do those that a compiler emits that
has the built-in ones. -/
theorem samples_resolve_again :
    (∃ views, ((start.after View.rules [.create, .extend 0 View.viewSample]).resolver.resolveAll
        View.rules View.viewPool).1 = .ok views ∧ Stable View.rules (· = ·) views) ∧
    (∃ classes, ((start.after DeviceClass.rules
        [.create, .extend 0 DeviceClass.classSample]).resolver.resolveAll
          DeviceClass.rules DeviceClass.classPool).1 = .ok classes ∧
      Stable DeviceClass.rules (Fields.SameButPlace "id") classes) ∧
    ∃ c v views classes, Reachable c ∧ c.config = .ok v ∧
      v.field? "views" = some (entitiesJson views) ∧
      v.field? "deviceClasses" = some (entitiesJson classes) ∧
      Stable View.rules (· = ·) views ∧
      Stable DeviceClass.rules (Fields.SameButPlace "id") classes := by
  obtain ⟨hviews, hclasses, hemitted⟩ := resolution_idempotent
  refine ⟨?_, ?_, ?_⟩
  · obtain ⟨views, hall⟩ : ∃ views, ((start.after View.rules
        [.create, .extend 0 View.viewSample]).resolver.resolveAll View.rules View.viewPool).1 =
          .ok views := ⟨_, by cbv⟩
    exact ⟨views, hall, hviews _ _ (List.mem_singleton_self _) views hall⟩
  · obtain ⟨classes, hall⟩ : ∃ classes, ((start.after DeviceClass.rules
        [.create, .extend 0 DeviceClass.classSample]).resolver.resolveAll
          DeviceClass.rules DeviceClass.classPool).1 = .ok classes := ⟨_, by cbv⟩
    exact ⟨classes, hall, hclasses _ _ (List.mem_singleton_self _) classes hall⟩
  · obtain ⟨c, hbuiltins, hcoherent, hbare⟩ := withBuiltins_bare {}
    obtain ⟨-, -, f, hf, -⟩ := hbare.finalize hcoherent
    have hreachable : Reachable (c.finalize .empty).2 :=
      (Reachable.withBuiltins hbuiltins).perform (.finalize .empty)
    obtain ⟨v, hv⟩ : ∃ v, (c.finalize .empty).2.config = .ok v := by
      unfold config result
      rw [hf]
      exact ⟨_, rfl⟩
    obtain ⟨views, classes, hstable⟩ := hemitted _ hreachable v hv
    exact ⟨_, v, views, classes, hreachable, hv, hstable⟩

end Compiler

end RadioDriver
