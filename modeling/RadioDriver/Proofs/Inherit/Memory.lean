import RadioDriver.Proofs.Inherit.Lineage

namespace RadioDriver.Inherit

open Lineage

/-- Every remembered entity is what the declarations make of its id. -/
def Sound (rules : Rules) (declared : Fields Json) (memo : Memo) : Prop :=
  ∀ name e, Fields.get? memo name = some e → entity rules declared [] name = .ok e

/-- A run gives the expected answer and leaves a sound memory. -/
def Answers {α : Type} (rules : Rules) (declared : Fields Json)
    (run : Except ResolveError α × Memo) (expected : Except ResolveError α) : Prop :=
  run.1 = expected ∧ Sound rules declared run.2

variable {rules : Rules} {pool : Pool} {chain : List String} {memo : Memo}

theorem sound_nil (rules : Rules) (declared : Fields Json) : Sound rules declared [] := by
  intro name e h
  cases h

/-- One more entity may be remembered once it is resolved, whatever chain it was reached through. -/
theorem Sound.set {declared : Fields Json} {name : String} {e : Entity}
    (hs : Sound rules declared memo) (h : entity rules declared chain name = .ok e) :
    Sound rules declared (Fields.set memo name e) := by
  intro other e' h'
  by_cases ho : other = name
  · subst ho
    rw [Fields.get?_set_self] at h'
    cases h'
    exact entity_of_leads h (leads_nil declared other)
  · rw [Fields.get?_set_of_ne memo e ho] at h'
    exact hs other e' h'

theorem resolveParents_answers {parents : List String}
    (hp : ∀ p ∈ parents, ∀ memo, Sound rules pool.declarations memo →
      Answers rules pool.declarations (resolveIn rules pool chain p memo)
        (entity rules pool.declarations chain p))
    (hs : Sound rules pool.declarations memo) :
    Answers rules pool.declarations (resolveParents rules pool chain parents memo)
      (parents.mapM (entity rules pool.declarations chain)) := by
  induction parents generalizing memo with
  | nil =>
    rw [resolveParents]
    exact ⟨rfl, hs⟩
  | cons p rest ih =>
    have hfirst := hp p List.mem_cons_self memo hs
    rw [resolveParents, List.mapM_cons]
    generalize resolveIn rules pool chain p memo = run at hfirst ⊢
    obtain ⟨e | first, memo₁⟩ := run
    · exact ⟨by rw [← hfirst.1]; rfl, hfirst.2⟩
    -- the other parents are resolved with what the first one left in memory
    · have hrest := ih (fun p hm => hp p (List.mem_cons_of_mem _ hm)) hfirst.2
      dsimp only
      generalize resolveParents rules pool chain rest memo₁ = run at hrest ⊢
      obtain ⟨e | others, memo₂⟩ := run
      · exact ⟨by rw [← hfirst.1, ← hrest.1]; rfl, hrest.2⟩
      · exact ⟨by rw [← hfirst.1, ← hrest.1]; rfl, hrest.2⟩

/-- A declaration is combined as without memory when each of its parents is resolved so. -/
theorem expand_answers {id : String} {declaration : Json}
    (hp : ∀ own parents, declaration = .object own →
      parents? (Fields.get? own "extends") = some parents →
      ∀ p ∈ parents, ∀ memo, Sound rules pool.declarations memo →
        Answers rules pool.declarations (resolveIn rules pool chain p memo)
          (entity rules pool.declarations chain p))
    (hs : Sound rules pool.declarations memo) :
    Answers rules pool.declarations (expand rules pool chain id declaration memo)
      (combined rules (entity rules pool.declarations chain) id declaration) := by
  cases declaration with
  | object own =>
    rw [expand]
    cases hl : parents? (Fields.get? own "extends") with
    | none => exact ⟨by simp only [combined, hl], hs⟩
    | some parents =>
      have hr := resolveParents_answers (hp own parents rfl hl) hs
      rw [combined_of_parents hl]
      dsimp only
      generalize resolveParents rules pool chain parents memo = run at hr ⊢
      obtain ⟨e | ancestors, memo₁⟩ := run
      · exact ⟨by rw [← hr.1]; rfl, hr.2⟩
      · exact ⟨by rw [← hr.1]; rfl, hr.2⟩
  | _ =>
    rw [expand]
    · exact ⟨rfl, hs⟩
    · intro own h
      cases h

theorem resolveIn_of_remembered {name : String} {e : Entity} (hc : name ∉ chain)
    (hm : Fields.get? memo name = some e) :
    resolveIn rules pool chain name memo = (.ok e, memo) := by
  rw [resolveIn, dif_neg hc, hm]

theorem resolveIn_of_undeclared {name : String} (hc : name ∉ chain)
    (hm : Fields.get? memo name = none) (hd : pool.get? name = none) :
    resolveIn rules pool chain name memo =
      (.error (.notFound rules.kind name chain.getLast?), memo) := by
  rw [resolveIn, dif_neg hc, hm]
  dsimp only
  split
  · rfl
  · next h => rw [hd] at h; cases h

theorem resolveIn_of_declared {name : String} {declaration : Json} (hc : name ∉ chain)
    (hm : Fields.get? memo name = none) (hd : pool.get? name = some declaration) :
    resolveIn rules pool chain name memo =
      match expand rules pool (chain ++ [name]) name declaration memo with
      | (.ok entity, memo) => (.ok entity, Fields.set memo name entity)
      | (.error e, memo) => (.error e, memo) := by
  rw [resolveIn, dif_neg hc, hm]
  dsimp only
  split
  · next h => rw [hd] at h; cases h
  · next h => rw [hd] at h; cases h; rfl

/-- With a sound memory an entity is resolved as without any. A remembered entity hides neither a
cycle, since the chain is looked at first and a resolved entity lies on none, nor another fault. -/
theorem resolveIn_answers {name : String} (hl : Leads pool.declarations chain name)
    (hs : Sound rules pool.declarations memo) :
    Answers rules pool.declarations (resolveIn rules pool chain name memo)
      (entity rules pool.declarations chain name) := by
  -- along the resolution without memory, which asks for at least the parents that this one asks for
  induction chain, name using entity.induct pool.declarations generalizing memo with
  | case1 chain name hc =>
    rw [resolveIn, dif_pos hc, entity_of_mem hc]
    exact ⟨rfl, hs⟩
  | case2 chain name hc hd =>
    cases hm : Fields.get? memo name with
    | some e =>
      rw [resolveIn_of_remembered hc hm]
      exact ⟨(entity_of_leads (hs name e hm) hl).symm, hs⟩
    | none =>
      rw [resolveIn_of_undeclared hc hm hd, entity_of_undeclared hc hd]
      exact ⟨rfl, hs⟩
  | case3 chain name hc declaration hd _ ih =>
    cases hm : Fields.get? memo name with
    | some e =>
      rw [resolveIn_of_remembered hc hm]
      exact ⟨(entity_of_leads (hs name e hm) hl).symm, hs⟩
    | none =>
      have hr : Answers rules pool.declarations
          (expand rules pool (chain ++ [name]) name declaration memo)
          (entity rules pool.declarations chain name) := by
        rw [entity_of_declared hc hd]
        apply expand_answers _ hs
        rintro own parents rfl hp p hm memo hs
        exact ih p (hl.snoc ⟨own, parents, hd, hp, hm⟩) hs
      rw [resolveIn_of_declared hc hm hd]
      generalize expand rules pool (chain ++ [name]) name declaration memo = run at hr ⊢
      obtain ⟨e | resolved, memo₁⟩ := run
      · exact hr
      · -- it is remembered for every chain although it was reached through this one
        exact ⟨hr.1, hr.2.set hr.1.symm⟩

theorem resolveNames_answers {names : List String} (hs : Sound rules pool.declarations memo) :
    Answers rules pool.declarations (resolveNames rules pool names memo)
      (entitiesOf rules pool.declarations names) := by
  induction names generalizing memo with
  | nil => exact ⟨rfl, hs⟩
  | cons name rest ih =>
    have hfirst := resolveIn_answers (leads_nil pool.declarations name) hs
    rw [resolveNames, entitiesOf_cons]
    generalize resolveIn rules pool [] name memo = run at hfirst ⊢
    obtain ⟨e | first, memo₁⟩ := run
    · exact ⟨by rw [← hfirst.1]; rfl, hfirst.2⟩
    · have hrest := ih hfirst.2
      dsimp only
      generalize resolveNames rules pool rest memo₁ = run at hrest ⊢
      obtain ⟨e | others, memo₂⟩ := run
      · exact ⟨by rw [← hfirst.1, ← hrest.1]; rfl, hrest.2⟩
      · exact ⟨by rw [← hfirst.1, ← hrest.1]; rfl, hrest.2⟩

end RadioDriver.Inherit

namespace RadioDriver.Resolver

open Inherit Lineage

variable {rules : Rules} {pool : Pool} {r : Resolver}

/-- What is remembered is sound, should it be about the present state of the pool. -/
def SoundFor (rules : Rules) (r : Resolver) (pool : Pool) : Prop :=
  r.snapshot = some pool.snapshot → Sound rules pool.declarations r.memo

/-- A run gives the expected answer, and the resolver remembers sound entities of the pool. -/
def Settles {α : Type} (rules : Rules) (pool : Pool) (run : Except ResolveError α × Resolver)
    (expected : Except ResolveError α) : Prop :=
  run.1 = expected ∧ run.2.snapshot = some pool.snapshot ∧
    Sound rules pool.declarations run.2.memo

theorem sync_snapshot (r : Resolver) (pool : Pool) :
    (r.sync pool).snapshot = some pool.snapshot := by
  unfold sync
  split
  · assumption
  · rfl

theorem SoundFor.sync (h : r.SoundFor rules pool) :
    Sound rules pool.declarations (r.sync pool).memo := by
  unfold Resolver.sync
  split
  · next hr => exact h hr
  · exact sound_nil rules pool.declarations

theorem soundFor_new (rules : Rules) (pool : Pool) : SoundFor rules {} pool := by
  intro h
  cases h

theorem remember_settles {α : Type} {run : Except ResolveError α × Memo}
    {expected : Except ResolveError α} (h : Answers rules pool.declarations run expected) :
    Settles rules pool ((r.sync pool).remember run) expected :=
  ⟨h.1, r.sync_snapshot pool, h.2⟩

theorem resolve_settles (h : r.SoundFor rules pool) (name : String) :
    Settles rules pool (r.resolve rules pool name) (entity rules pool.declarations [] name) :=
  remember_settles (resolveIn_answers (leads_nil _ name) h.sync)

theorem resolveAll_settles (h : r.SoundFor rules pool) :
    Settles rules pool (r.resolveAll rules pool) (entities rules pool.declarations) :=
  remember_settles (resolveNames_answers h.sync)

theorem resolveDetached_settles (h : r.SoundFor rules pool) (id : String) (declaration : Json) :
    Settles rules pool (r.resolveDetached rules pool id declaration)
      (detached rules pool.declarations id declaration) :=
  remember_settles
    (expand_answers (fun _ _ _ _ p _ _ hs => resolveIn_answers (leads_nil _ p) hs) h.sync)

end RadioDriver.Resolver
