import Mathlib.Data.List.Chain
import Mathlib.Logic.Relation
import RadioDriver.Inherit.Resolver

namespace RadioDriver.Lineage

/-- A declaration combined with its parents, each resolved by `parent`. -/
def combined (rules : Rules) (parent : String → Except ResolveError Entity) (id : String)
    (declaration : Json) : Except ResolveError Entity :=
  match declaration with
  | .object own =>
    match Inherit.parents? (Fields.get? own "extends") with
    | none => .error (.invalidExtends rules.kind id)
    | some parents => do
      let ancestors ← parents.mapM parent
      return rules.combine id ancestors (Fields.erase own "extends")
  | _ => .error (.notAnObject rules.kind id)

def entity (rules : Rules) (declared : Fields Json) (chain : List String) (name : String) :
    Except ResolveError Entity :=
  if hc : name ∈ chain then .error (.cycle rules.kind (chain ++ [name]))
  else
    match hd : Fields.get? declared name with
    | none => .error (.notFound rules.kind name chain.getLast?)
    | some declaration =>
      have : Pool.unvisited ⟨declared, 0⟩ (chain ++ [name]) < Pool.unvisited ⟨declared, 0⟩ chain :=
        Pool.unvisited_lt hd hc
      combined rules (fun parent => entity rules declared (chain ++ [name]) parent) name declaration
termination_by Pool.unvisited ⟨declared, 0⟩ chain

def entitiesOf (rules : Rules) (declared : Fields Json) (names : List String) :
    Except ResolveError (Fields Entity) :=
  names.mapM fun name => (entity rules declared [] name).map (name, ·)

/-- Every declared entity under its id, in the order of declaration. -/
def entities (rules : Rules) (declared : Fields Json) : Except ResolveError (Fields Entity) :=
  entitiesOf rules declared (Fields.names declared)

/-- A declaration from outside, which may extend declared entities. -/
def detached (rules : Rules) (declared : Fields Json) (id : String) (declaration : Json) :
    Except ResolveError Entity :=
  combined rules (entity rules declared []) id declaration

/-- The child's declaration lists the parent. -/
def Extends (declared : Fields Json) (child parent : String) : Prop :=
  ∃ own parents, Fields.get? declared child = some (.object own) ∧
    Inherit.parents? (Fields.get? own "extends") = some parents ∧ parent ∈ parents

/-- Every entity of the chain extends the next one, and the last extends `name`. -/
def Leads (declared : Fields Json) (chain : List String) (name : String) : Prop :=
  (chain ++ [name]).IsChain (Extends declared)

/-- Every way up from the entity comes to an end. -/
def Grounded (declared : Fields Json) (name : String) : Prop :=
  Acc (fun parent child => Extends declared child parent) name

variable {rules : Rules} {declared : Fields Json} {chain : List String} {name parent : String}

theorem entitiesOf_cons (rules : Rules) (declared : Fields Json) (name : String)
    (rest : List String) :
    entitiesOf rules declared (name :: rest) = (do
      let first ← entity rules declared [] name
      let others ← entitiesOf rules declared rest
      return (name, first) :: others) := by
  rw [entitiesOf, List.mapM_cons, ← entitiesOf]
  cases entity rules declared [] name <;> rfl

theorem leads_nil (declared : Fields Json) (name : String) : Leads declared [] name :=
  List.isChain_singleton name

theorem Leads.snoc (h : Leads declared chain name) (hp : Extends declared name parent) :
    Leads declared (chain ++ [name]) parent := by
  apply List.IsChain.append h (List.isChain_singleton parent)
  intro x hx y hy
  simp only [List.getLast?_append, List.getLast?_singleton, Option.some_or, List.head?_cons,
    Option.mem_some_iff] at hx hy
  subst hx hy
  exact hp

theorem Leads.transGen (h : Leads declared chain name) {x : String} (hx : x ∈ chain) :
    Relation.TransGen (fun parent child => Extends declared child parent) name x := by
  obtain ⟨before, after, rfl⟩ := List.append_of_mem hx
  -- the part of the chain that begins at the entity is a chain of its own
  have hc : (x :: (after ++ [name])).IsChain (Extends declared) := by
    have h' : (before ++ x :: (after ++ [name])).IsChain (Extends declared) := by
      simpa [Leads] using h
    exact (List.isChain_append.mp h').2.1
  clear h hx
  induction after generalizing x with
  | nil => exact .single (List.isChain_pair.mp hc)
  | cons y rest ih =>
    obtain ⟨hxy, hrest⟩ := List.isChain_cons_cons.mp hc
    exact .tail (ih hrest) hxy

theorem Grounded.no_loop (hg : Grounded declared name) :
    ¬ Relation.TransGen (fun parent child => Extends declared child parent) name name := by
  intro hloop
  -- accessibility of single steps does not meet the loop, that of ways does
  have hacc := hg.transGen
  clear hg
  induction hacc with
  | intro x _ ih => exact ih x hloop hloop

theorem Leads.not_mem (h : Leads declared chain name) (hg : Grounded declared name) :
    name ∉ chain :=
  fun hm => hg.no_loop (h.transGen hm)

theorem exists_of_mapM_ok {α β ε : Type} {f : α → Except ε β} {xs : List α} {ys : List β}
    (h : xs.mapM f = .ok ys) : ∀ x ∈ xs, ∃ y, f x = .ok y := by
  induction xs generalizing ys with
  | nil => simp
  | cons x xs ih =>
    cases hx : f x with
    | error e => rw [List.mapM_cons, hx] at h; cases h
    | ok y =>
      cases hxs : xs.mapM f with
      | error e => rw [List.mapM_cons, hx, hxs] at h; cases h
      | ok zs =>
        intro x' hx'
        rcases List.mem_cons.mp hx' with rfl | hm
        · exact ⟨y, hx⟩
        · exact ih hxs x' hm

theorem mapM_congr {α β ε : Type} {f g : α → Except ε β} {xs : List α}
    (h : ∀ x ∈ xs, f x = g x) : xs.mapM f = xs.mapM g := by
  induction xs with
  | nil => rfl
  | cons x xs ih =>
    rw [List.mapM_cons, List.mapM_cons, h x List.mem_cons_self,
      ih fun x' hx' => h x' (List.mem_cons_of_mem _ hx')]

theorem combined_of_parents {lookUp : String → Except ResolveError Entity} {id : String}
    {own : Fields Json} {parents : List String}
    (hp : Inherit.parents? (Fields.get? own "extends") = some parents) :
    combined rules lookUp id (.object own) = (parents.mapM lookUp).map fun ancestors =>
      rules.combine id ancestors (Fields.erase own "extends") := by
  simp only [combined, hp]
  cases parents.mapM lookUp <;> rfl

/-- A declaration that can be combined is an object with parents that can all be resolved. -/
theorem parents_of_combined {lookUp : String → Except ResolveError Entity} {id : String}
    {declaration : Json} {e : Entity} (h : combined rules lookUp id declaration = .ok e) :
    ∃ own parents, declaration = .object own ∧
      Inherit.parents? (Fields.get? own "extends") = some parents ∧
      ∀ p ∈ parents, ∃ a, lookUp p = .ok a := by
  cases declaration with
  | object own =>
    cases hp : Inherit.parents? (Fields.get? own "extends") with
    | none => simp [combined, hp] at h
    | some parents =>
      rw [combined_of_parents hp] at h
      cases hm : parents.mapM lookUp with
      | error err => rw [hm] at h; cases h
      | ok ancestors => exact ⟨own, parents, rfl, hp, exists_of_mapM_ok hm⟩
  | _ => cases h

theorem combined_of_combined {lookUp other : String → Except ResolveError Entity} {id : String}
    {declaration : Json} {e : Entity}
    (hsame : ∀ own parents, declaration = .object own →
      Inherit.parents? (Fields.get? own "extends") = some parents →
      ∀ p ∈ parents, ∀ a, lookUp p = .ok a → other p = .ok a)
    (h : combined rules lookUp id declaration = .ok e) :
    combined rules other id declaration = .ok e := by
  obtain ⟨own, parents, rfl, hp, ha⟩ := parents_of_combined h
  rw [combined_of_parents hp] at h ⊢
  rw [← h]
  congr 1
  apply mapM_congr
  intro p hm
  obtain ⟨a, ha⟩ := ha p hm
  rw [ha]
  exact hsame own parents rfl hp p hm a ha

theorem entity_of_mem (hc : name ∈ chain) :
    entity rules declared chain name = .error (.cycle rules.kind (chain ++ [name])) := by
  rw [entity, dif_pos hc]

theorem entity_of_undeclared (hc : name ∉ chain) (hd : Fields.get? declared name = none) :
    entity rules declared chain name = .error (.notFound rules.kind name chain.getLast?) := by
  rw [entity, dif_neg hc]
  split
  · rfl
  · next h => rw [hd] at h; cases h

theorem entity_of_declared {declaration : Json} (hc : name ∉ chain)
    (hd : Fields.get? declared name = some declaration) :
    entity rules declared chain name =
      combined rules (entity rules declared (chain ++ [name])) name declaration := by
  rw [entity, dif_neg hc]
  split
  · next h => rw [hd] at h; cases h
  · next h => rw [hd] at h; cases h; rfl

theorem grounded_of_entity {e : Entity} (h : entity rules declared chain name = .ok e) :
    Grounded declared name := by
  induction chain, name using entity.induct declared generalizing e with
  | case1 chain name hc =>
    rw [entity_of_mem hc] at h
    cases h
  | case2 chain name hc hd =>
    rw [entity_of_undeclared hc hd] at h
    cases h
  | case3 chain name hc declaration hd _ ih =>
    rw [entity_of_declared hc hd] at h
    obtain ⟨own, parents, rfl, hp, ha⟩ := parents_of_combined h
    -- a success came only after every parent had succeeded, one link further on
    refine Acc.intro name ?_
    rintro parent ⟨own', parents', hd', hp', hm⟩
    rw [hd] at hd'
    cases hd'
    rw [hp] at hp'
    cases hp'
    obtain ⟨a, ha⟩ := ha parent hm
    exact ih parent ha

/-- An entity is the same through whatever chain it is reached. The chain decides between two faults
but never changes a success, because an entity that can be resolved lies on no cycle. -/
theorem entity_of_leads {other : List String} {e : Entity}
    (h : entity rules declared chain name = .ok e) (hl : Leads declared other name) :
    entity rules declared other name = .ok e := by
  induction chain, name using entity.induct declared generalizing other e with
  | case1 chain name hc =>
    rw [entity_of_mem hc] at h
    cases h
  | case2 chain name hc hd =>
    rw [entity_of_undeclared hc hd] at h
    cases h
  | case3 chain name hc declaration hd _ ih =>
    -- only here could the other chain matter: a resolved entity lies on no way to itself
    have hn : name ∉ other := hl.not_mem (grounded_of_entity h)
    rw [entity_of_declared hc hd] at h
    rw [entity_of_declared hn hd]
    refine combined_of_combined ?_ h
    rintro own parents rfl hp p hm a ha
    exact ih p ha (hl.snoc ⟨own, parents, hd, hp, hm⟩)

end RadioDriver.Lineage
