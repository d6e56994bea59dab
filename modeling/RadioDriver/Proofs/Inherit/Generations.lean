import RadioDriver.Proofs.Inherit.Lineage

namespace RadioDriver.Lineage

/-- The entity `name` from no more than so many generations. The bound takes the place of the
chain. -/
def entityWithin (rules : Rules) (declared : Fields Json) :
    Nat → String → Except ResolveError Entity
  | 0, name => .error (.notFound rules.kind name none)
  | generations + 1, name =>
    match Fields.get? declared name with
    | none => .error (.notFound rules.kind name none)
    | some declaration =>
      combined rules (entityWithin rules declared generations) name declaration

/-- Every declared entity under its id, each from no more than so many generations. -/
def entitiesWithin (rules : Rules) (declared : Fields Json) (generations : Nat) :
    Except ResolveError (Fields Entity) :=
  (Fields.names declared).mapM fun name =>
    (entityWithin rules declared generations name).map (name, ·)

variable {rules : Rules} {declared : Fields Json} {generations : Nat} {chain : List String}
  {name : String} {e : Entity}

theorem declared_of_within (h : entityWithin rules declared (generations + 1) name = .ok e) :
    ∃ declaration, Fields.get? declared name = some declaration ∧
      combined rules (entityWithin rules declared generations) name declaration = .ok e := by
  rw [entityWithin] at h
  split at h
  · cases h
  · next declaration hd => exact ⟨declaration, hd, h⟩

theorem grounded_of_within (h : entityWithin rules declared generations name = .ok e) :
    Grounded declared name := by
  induction generations generalizing name e with
  | zero => cases h
  | succ generations ih =>
    obtain ⟨declaration, hd, hcombined⟩ := declared_of_within h
    obtain ⟨own, parents, rfl, hp, ha⟩ := parents_of_combined hcombined
    refine Acc.intro name ?_
    rintro parent ⟨own', parents', hd', hp', hm⟩
    rw [hd] at hd'
    cases hd'
    rw [hp] at hp'
    cases hp'
    obtain ⟨a, ha⟩ := ha parent hm
    exact ih ha

theorem entity_of_within (h : entityWithin rules declared generations name = .ok e)
    (hl : Leads declared chain name) : entity rules declared chain name = .ok e := by
  induction generations generalizing chain name e with
  | zero => cases h
  | succ generations ih =>
    -- what few generations make is grounded, so the chain cannot hold it
    have hn : name ∉ chain := hl.not_mem (grounded_of_within h)
    obtain ⟨declaration, hd, hcombined⟩ := declared_of_within h
    rw [entity_of_declared hn hd]
    refine combined_of_combined ?_ hcombined
    rintro own parents rfl hp p hm a ha
    exact ih ha (hl.snoc ⟨own, parents, hd, hp, hm⟩)

theorem entities_of_within {all : Fields Entity}
    (h : entitiesWithin rules declared generations = .ok all) :
    entities rules declared = .ok all := by
  rw [← h]
  apply mapM_congr
  intro name hname
  obtain ⟨found, hfound⟩ := exists_of_mapM_ok h name hname
  cases he : entityWithin rules declared generations name with
  | error e =>
    rw [he] at hfound
    cases hfound
  | ok e => rw [entity_of_within he (leads_nil declared name)]

end RadioDriver.Lineage
