import RadioDriver.Proofs.Inherit.Settled

namespace RadioDriver

namespace Lineage

variable {rules : Rules} {alike : Entity → Entity → Prop} {declared : Fields Json}
  {chain : List String} {name : String} {e : Entity} {all : Fields Entity}

/-- Combining takes no parents over, and what it made comes with no ancestors to something alike. -/
structure Reproduces (rules : Rules) (alike : Entity → Entity → Prop) : Prop where
  noParents : ∀ {id ancestors own}, (∀ s ∈ ancestors ++ [own], Fields.get? s "extends" = none) →
    Fields.get? (rules.combine id ancestors own) "extends" = none
  again : ∀ id ancestors own,
    alike (rules.combine id ancestors own) (rules.combine id [] (rules.combine id ancestors own))

theorem Reproduces.entity (h : Reproduces rules alike)
    (he : entity rules declared chain name = .ok e) :
    Fields.get? e "extends" = none ∧ alike e (rules.combine name [] e) := by
  -- by induction over the ancestors, which have no parents left themselves
  refine entity_of_combine (P := fun name e =>
    Fields.get? e "extends" = none ∧ alike e (rules.combine name [] e)) ?_ he
  intro id own ancestors _ hancestors
  refine ⟨h.noParents ?_, h.again id ancestors _⟩
  rw [List.forall_mem_append, List.forall_mem_singleton]
  refine ⟨fun a ha => ?_, Fields.get?_erase_self own "extends"⟩
  obtain ⟨_, hnone, _⟩ := hancestors a ha
  exact hnone

def recombined (rules : Rules) (all : Fields Entity) : Fields Entity :=
  all.map fun e => (e.1, rules.combine e.1 [] e.2)

theorem entity_of_redeclared (hd : Fields.get? declared name = some (.object e))
    (hparents : Fields.get? e "extends" = none) :
    entity rules declared [] name = .ok (rules.combine name [] e) := by
  have hnone : Inherit.parents? (Fields.get? e "extends") = some [] := by
    rw [hparents]
    rfl
  rw [entity_of_declared List.not_mem_nil hd, combined_of_parents hnone,
    Fields.erase_of_get?_none hparents]
  rfl

/-- Entities without parents are each combined with no ancestors when they are declared. -/
theorem entities_redeclared (hnodup : (Fields.names all).Nodup)
    (hparents : ∀ e ∈ all, Fields.get? e.2 "extends" = none) :
    entities rules (Fields.mapValues .object all) = .ok (recombined rules all) := by
  rw [entities, entitiesOf_eq_ok_iff, Fields.names_mapValues, Fields.names, recombined,
    List.forall₂_map_left_iff, List.forall₂_map_right_iff, List.forall₂_same]
  intro e he
  refine ⟨rfl, entity_of_redeclared ?_ (hparents e he)⟩
  rw [Fields.get?_mapValues, Fields.get?_of_mem hnodup he]
  rfl

theorem names_of_entities (h : entities rules declared = .ok all) :
    Fields.names all = Fields.names declared := by
  have hpairs := entitiesOf_eq_ok_iff.mp h
  clear h
  generalize Fields.names declared = names at hpairs
  induction hpairs with
  | nil => rfl
  | cons hfirst _ ih => exact congrArg₂ List.cons hfirst.1 ih

theorem Reproduces.entities (h : Reproduces rules alike) (hnodup : (Fields.names declared).Nodup)
    (hall : entities rules declared = .ok all) :
    entities rules (Fields.mapValues .object all) = .ok (recombined rules all) ∧
      ∀ e ∈ all, alike e.2 (rules.combine e.1 [] e.2) := by
  have hsettled : ∀ e ∈ all,
      Fields.get? e.2 "extends" = none ∧ alike e.2 (rules.combine e.1 [] e.2) :=
    fun e he => h.entity (entity_of_mem_entities hall he)
  refine ⟨entities_redeclared ?_ fun e he => (hsettled e he).1, fun e he => (hsettled e he).2⟩
  rwa [names_of_entities hall]

end Lineage

theorem View.reproduces : Lineage.Reproduces View.rules (· = ·) where
  noParents := View.noParents_combine
  again _ ancestors own := (View.combine_of_settled (View.settled_combine ancestors own)).symm

theorem DeviceClass.reproduces :
    Lineage.Reproduces DeviceClass.rules (Fields.SameButPlace "id") where
  noParents := DeviceClass.noParents_combine
  again := DeviceClass.combine_again

namespace Session

variable {rules : Rules} {alike : Entity → Entity → Prop} {declared : Fields Json}
  {all : Fields Entity} {s : Session}

theorem nodup_step (h : ∀ pool ∈ s.pools, (Fields.names pool.declarations).Nodup) (move : Move) :
    ∀ pool ∈ (s.step rules move).2.pools, (Fields.names pool.declarations).Nodup := by
  cases move with
  | create =>
    intro pool hpool
    rcases List.mem_append.mp hpool with hold | hnew
    · exact h pool hold
    · rw [List.mem_singleton.mp hnew]
      exact List.nodup_nil
  | clone i =>
    simp only [step]
    split
    · exact h
    · next original hi =>
      rw [List.forall_mem_append, List.forall_mem_singleton]
      exact ⟨h, h original (List.mem_of_getElem? hi)⟩
  | extend i declarations =>
    simp only [step]
    split
    · exact h
    · next original hi =>
      intro pool hpool
      rcases List.mem_or_eq_of_mem_set hpool with hold | rfl
      · exact h pool hold
      · rw [Pool.extend_declarations]
        exact Fields.nodup_override (h original (List.mem_of_getElem? hi)) declarations
  | ask i query =>
    simp only [step]
    split <;> exact h

theorem nodup_after (moves : List Move) :
    ∀ pool ∈ (start.after rules moves).pools, (Fields.names pool.declarations).Nodup :=
  List.foldlRecOn moves _ (motive := fun s : Session =>
    ∀ pool ∈ s.pools, (Fields.names pool.declarations).Nodup) (fun _ h => nomatch h)
    fun _ h move _ => nodup_step h move

/-- Entities that a pool can hold as its declarations. Whatever was asked before, such a pool
resolves, alone and as a whole, and each entity comes to one alike. -/
structure Stable (rules : Rules) (alike : Entity → Entity → Prop) (all : Fields Entity) : Prop where
  held : ∃ moves, ∃ pool ∈ (start.after rules moves).pools,
    pool.declarations = Fields.mapValues .object all
  resolved : ∀ moves, ∀ pool ∈ (start.after rules moves).pools,
    pool.declarations = Fields.mapValues .object all →
      let r := (start.after rules moves).resolver
      ∃ again, (r.resolveAll rules pool).1 = .ok again ∧
        (∀ e ∈ again, (r.resolve rules pool e.1).1 = .ok e.2) ∧
        List.Forall₂ (fun e e' => e.1 = e'.1 ∧ alike e.2 e'.2) all again

theorem stable_of_entities (h : Lineage.Reproduces rules alike)
    (hnodup : (Fields.names declared).Nodup) (hall : Lineage.entities rules declared = .ok all) :
    Stable rules alike all := by
  obtain ⟨hagain, halike⟩ := h.entities hnodup hall
  constructor
  · -- a new pool that is extended once holds them, since none is named twice
    refine ⟨[.create, .extend 0 (Fields.mapValues .object all)], _, List.mem_singleton_self _, ?_⟩
    rw [Pool.extend_declarations]
    apply Fields.ofPairs_of_nodup
    rwa [Fields.names_mapValues, Lineage.names_of_entities hall]
  · intro moves pool hpool hheld r
    have hsound : r.SoundFor rules pool :=
      (coherent_after (start_coherent rules) moves).sound pool hpool
    refine ⟨Lineage.recombined rules all, ?_, ?_, ?_⟩
    · rw [(r.resolveAll_settles hsound).1, hheld, hagain]
    · intro e he
      rw [(r.resolve_settles hsound e.1).1, hheld]
      exact Lineage.entity_of_mem_entities hagain he
    · rw [Lineage.recombined, List.forall₂_map_right_iff, List.forall₂_same]
      exact fun e he => ⟨rfl, halike e he⟩

theorem stable_of_resolveAll (h : Lineage.Reproduces rules alike) (moves : List Move) {pool : Pool}
    (hpool : pool ∈ (start.after rules moves).pools)
    (hall : ((start.after rules moves).resolver.resolveAll rules pool).1 = .ok all) :
    Stable rules alike all := by
  have hsound : (start.after rules moves).resolver.SoundFor rules pool :=
    (coherent_after (start_coherent rules) moves).sound pool hpool
  rw [(Resolver.resolveAll_settles hsound).1] at hall
  exact stable_of_entities h (nodup_after moves pool hpool) hall

end Session

end RadioDriver
