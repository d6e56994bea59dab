import Mathlib.Data.List.Forall2
import Mathlib.Data.List.Nodup
import Mathlib.Data.List.Permutation
import Mathlib.Logic.Relation
import RadioDriver.Inherit.View
import RadioDriver.Proofs.Inherit.Session

namespace RadioDriver

theorem exists_part {σ τ : Type} {R : σ → τ → Prop} {parts : List σ} {wholes : List τ}
    (h : List.Forall₂ R parts wholes) : ∀ whole ∈ wholes, ∃ part, R part whole := by
  induction h with
  | nil => exact fun whole hwhole => nomatch hwhole
  | cons hfirst _ ih => exact List.forall_mem_cons.mpr ⟨⟨_, hfirst⟩, ih⟩

namespace Inherit

/-- The values of `extends` that list parents: nothing, one id, or a list of ids. -/
inductive ParentList : Option Json → List String → Prop
  | absent : ParentList none []
  | null : ParentList (some .null) []
  | one (parent : String) : ParentList (some (.string parent)) [parent]
  | many (parents : List String) : ParentList (some (.ofStrings parents)) parents

theorem allStrings?_eq_some {items : List Json} {parents : List String} :
    allStrings? items = some parents ↔ items = parents.map .string := by
  induction items generalizing parents with
  | nil => cases parents <;> simp [allStrings?]
  | cons item rest ih =>
    cases item with
    | string s => cases parents <;> simp [allStrings?, ih, and_comm]
    | _ => cases parents <;> simp [allStrings?]

theorem parents?_eq_some {v : Option Json} {parents : List String} :
    parents? v = some parents ↔ ParentList v parents := by
  constructor
  · intro h
    cases v with
    | none =>
      cases h
      exact .absent
    | some v =>
      cases v with
      | null =>
        cases h
        exact .null
      | string parent =>
        cases h
        exact .one parent
      | array items =>
        have hitems : items = parents.map .string := allStrings?_eq_some.mp h
        rw [hitems]
        exact .many parents
      | _ => cases h
  · intro h
    cases h with
    | absent => rfl
    | null => rfl
    | one parent => rfl
    | many parents => exact allStrings?_eq_some.mpr rfl

end Inherit

namespace Lineage

open Inherit

/-- The declaration is an object, and its `extends` lists parents. -/
def WellFormed (declared : Fields Json) (id : String) : Prop :=
  ∃ own parents, Fields.get? declared id = some (.object own) ∧
    ParentList (Fields.get? own "extends") parents

/-- The entity is the other one or inherits from it. -/
def Reaches (declared : Fields Json) (name id : String) : Prop :=
  Relation.ReflTransGen (Extends declared) name id

/-- All that the entity reaches is well formed and on no cycle. -/
def Resolvable (declared : Fields Json) (name : String) : Prop :=
  ∀ id, Reaches declared name id →
    WellFormed declared id ∧ ¬ Relation.TransGen (Extends declared) id id

/-- The faults that the declarations have above an entity. -/
inductive HasFault (kind : EntityKind) (declared : Fields Json) (name : String) :
    ResolveError → Prop
  /-- A walk from the entity in which only the last step comes back to where it has been. -/
  | cycle {walked : List String} {last : String} (begins : (walked ++ [last]).head? = some name)
      (links : (walked ++ [last]).IsChain (Extends declared)) (closes : last ∈ walked)
      (apart : walked.Nodup) : HasFault kind declared name (.cycle kind (walked ++ [last]))
  | undeclared (absent : Fields.get? declared name = none) :
      HasFault kind declared name (.notFound kind name none)
  | orphaned {id child : String} (absent : Fields.get? declared id = none)
      (reached : Reaches declared name child) (refers : Extends declared child id) :
      HasFault kind declared name (.notFound kind id (some child))
  | notAnObject {id : String} {v : Json} (reached : Reaches declared name id)
      (declaration : Fields.get? declared id = some v) (plain : v.isObject = false) :
      HasFault kind declared name (.notAnObject kind id)
  | invalidExtends {id : String} {own : Fields Json} (reached : Reaches declared name id)
      (declaration : Fields.get? declared id = some (.object own))
      (invalid : ∀ parents, ¬ ParentList (Fields.get? own "extends") parents) :
      HasFault kind declared name (.invalidExtends kind id)

variable {rules : Rules} {declared : Fields Json} {chain : List String} {name id : String}
  {error : ResolveError}

theorem Leads.reaches {start : String} (h : Leads declared chain name)
    (hstart : (chain ++ [name]).head? = some start) : Reaches declared start name := by
  cases chain with
  | nil =>
    cases hstart
    exact .refl
  | cons first rest =>
    cases hstart
    have hway := h.transGen List.mem_cons_self
    exact (Relation.transGen_swap.mp hway).to_reflTransGen

theorem exists_of_mapM_error {α β ε : Type} {f : α → Except ε β} {xs : List α} {e : ε}
    (h : xs.mapM f = .error e) : ∃ x ∈ xs, f x = .error e := by
  induction xs with
  | nil => cases h
  | cons x xs ih =>
    cases hx : f x with
    | error e' =>
      rw [List.mapM_cons, hx] at h
      cases h
      exact ⟨x, List.mem_cons_self, hx⟩
    | ok y =>
      cases hxs : xs.mapM f with
      | error e' =>
        rw [List.mapM_cons, hx, hxs] at h
        cases h
        obtain ⟨x', hx', he⟩ := ih hxs
        exact ⟨x', List.mem_cons_of_mem x hx', he⟩
      | ok ys =>
        rw [List.mapM_cons, hx, hxs] at h
        cases h

/-- Without a chain an undeclared entity is missing itself, else the chain's last link refers to
it. -/
theorem hasFault_of_undeclared {kind : EntityKind} {start : String}
    (hd : Fields.get? declared name = none) (hl : Leads declared chain name)
    (hstart : (chain ++ [name]).head? = some start) :
    HasFault kind declared start (.notFound kind name chain.getLast?) := by
  rcases List.eq_nil_or_concat chain with rfl | ⟨before, child, rfl⟩
  · cases hstart
    exact .undeclared hd
  · rw [List.concat_eq_append] at hl hstart ⊢
    rw [List.getLast?_concat]
    have hsplit : (before ++ [child] ++ [name]).IsChain (Extends declared) := hl
    have hchild : Leads declared before child := (List.isChain_append.mp hsplit).1
    have hrefers : Extends declared child name :=
      (List.isChain_append.mp hsplit).2.2 child (by simp) name (by simp)
    have hhead : (before ++ [child]).head? = some start := by
      cases before with
      | nil => exact hstart
      | cons first rest => exact hstart
    exact .orphaned hd (hchild.reaches hhead) hrefers

/-- A fault that is met through a chain lies above the entity that the chain begins with. -/
theorem hasFault_of_entity {start : String} (h : entity rules declared chain name = .error error)
    (hl : Leads declared chain name) (hn : chain.Nodup)
    (hstart : (chain ++ [name]).head? = some start) :
    HasFault rules.kind declared start error := by
  induction chain, name using entity.induct declared with
  | case1 chain name hc =>
    rw [entity_of_mem hc] at h
    cases h
    exact .cycle hstart hl hc hn
  | case2 chain name hc hd =>
    rw [entity_of_undeclared hc hd] at h
    cases h
    exact hasFault_of_undeclared hd hl hstart
  | case3 chain name hc declaration hd _ ih =>
    rw [entity_of_declared hc hd] at h
    have hreached : Reaches declared start name := hl.reaches hstart
    cases declaration with
    | object own =>
      cases hp : parents? (Fields.get? own "extends") with
      | none =>
        simp only [combined, hp] at h
        cases h
        refine .invalidExtends hreached hd ?_
        intro parents hlist
        rw [parents?_eq_some.mpr hlist] at hp
        cases hp
      | some parents =>
        rw [combined_of_parents hp] at h
        cases hm : parents.mapM (entity rules declared (chain ++ [name])) with
        | ok ancestors =>
          rw [hm] at h
          cases h
        | error e =>
          rw [hm] at h
          cases h
          -- the fault of the first parent that fails, whose chain is longer by this entity
          obtain ⟨parent, hparent, he⟩ := exists_of_mapM_error hm
          have hlonger : (chain ++ [name]).Nodup := by
            refine List.nodup_append.mpr ⟨hn, List.pairwise_singleton _ name, ?_⟩
            intro a ha b hb heq
            rw [List.mem_singleton.mp hb] at heq
            exact hc (heq ▸ ha)
          have hfrom : (chain ++ [name] ++ [parent]).head? = some start := by
            rw [List.head?_append, hstart]
            rfl
          exact ih parent he (hl.snoc ⟨own, parents, hd, hp, hparent⟩) hlonger hfrom
    | _ =>
      cases h
      exact .notAnObject hreached hd rfl

theorem HasFault.not_resolvable {kind : EntityKind} (h : HasFault kind declared name error) :
    ¬ Resolvable declared name := by
  intro hr
  cases h with
  | @cycle walked last begins links closes apart =>
    have hleads : Leads declared walked last := links
    have hloop := Relation.transGen_swap.mp (hleads.transGen closes)
    exact (hr last (hleads.reaches begins)).2 hloop
  | undeclared absent =>
    obtain ⟨own, parents, hd, -⟩ := (hr name .refl).1
    rw [absent] at hd
    cases hd
  | @orphaned id child absent reached refers =>
    obtain ⟨own, parents, hd, -⟩ := (hr id (reached.tail refers)).1
    rw [absent] at hd
    cases hd
  | @notAnObject id v reached declaration plain =>
    obtain ⟨own, parents, hd, -⟩ := (hr id reached).1
    rw [declaration] at hd
    cases hd
    cases plain
  | @invalidExtends id own reached declaration invalid =>
    obtain ⟨own', parents, hd, hlist⟩ := (hr id reached).1
    rw [declaration] at hd
    cases hd
    exact invalid parents hlist

theorem entity_of_extends {parent : String} {e : Entity}
    (h : entity rules declared [] name = .ok e) (hp : Extends declared name parent) :
    ∃ e, entity rules declared [] parent = .ok e := by
  obtain ⟨own, parents, hd, hlist, hmem⟩ := hp
  rw [entity_of_declared List.not_mem_nil hd] at h
  obtain ⟨own', parents', hown, hlist', hall⟩ := parents_of_combined h
  cases hown
  rw [hlist] at hlist'
  cases hlist'
  obtain ⟨e, he⟩ := hall parent hmem
  exact ⟨e, entity_of_leads he (leads_nil declared parent)⟩

theorem wellFormed_of_entity {e : Entity} (h : entity rules declared [] name = .ok e) :
    WellFormed declared name := by
  cases hd : Fields.get? declared name with
  | none =>
    rw [entity_of_undeclared List.not_mem_nil hd] at h
    cases h
  | some declaration =>
    rw [entity_of_declared List.not_mem_nil hd] at h
    obtain ⟨own, parents, rfl, hlist, -⟩ := parents_of_combined h
    exact ⟨own, parents, hd, parents?_eq_some.mp hlist⟩

theorem resolvable_of_entity {e : Entity} (h : entity rules declared [] name = .ok e) :
    Resolvable declared name := by
  intro id hid
  have hok : ∃ e, entity rules declared [] id = .ok e := by
    induction hid with
    | refl => exact ⟨e, h⟩
    | tail _ hstep ih =>
      obtain ⟨e', he'⟩ := ih
      exact entity_of_extends he' hstep
  obtain ⟨e', he'⟩ := hok
  refine ⟨wellFormed_of_entity he', ?_⟩
  intro hloop
  exact (grounded_of_entity he').no_loop (Relation.transGen_swap.mpr hloop)

/-- An entity resolves just when it is resolvable, and otherwise has the fault that is reported. -/
theorem entity_ok_iff (rules : Rules) (declared : Fields Json) (name : String) :
    ((∃ e, entity rules declared [] name = .ok e) ↔ Resolvable declared name) ∧
      ∀ error, entity rules declared [] name = .error error →
        HasFault rules.kind declared name error := by
  have hfault : ∀ error, entity rules declared [] name = .error error →
      HasFault rules.kind declared name error := fun error h =>
    hasFault_of_entity h (leads_nil declared name) List.nodup_nil rfl
  refine ⟨⟨?_, ?_⟩, hfault⟩
  · rintro ⟨e, h⟩
    exact resolvable_of_entity h
  · intro hr
    cases h : entity rules declared [] name with
    | ok e => exact ⟨e, rfl⟩
    | error error => exact absurd hr (hfault error h).not_resolvable

theorem mapM_eq_ok_iff {α β ε : Type} {f : α → Except ε β} {xs : List α} {ys : List β} :
    xs.mapM f = .ok ys ↔ List.Forall₂ (fun x y => f x = .ok y) xs ys := by
  induction xs generalizing ys with
  | nil =>
    rw [List.forall₂_nil_left_iff]
    exact ⟨fun h => (Except.ok.inj h).symm, fun h => h ▸ rfl⟩
  | cons x xs ih =>
    rw [List.mapM_cons, List.forall₂_cons_left_iff]
    constructor
    · intro h
      cases hx : f x with
      | error e => rw [hx] at h; cases h
      | ok y =>
        cases hxs : xs.mapM f with
        | error e => rw [hx, hxs] at h; cases h
        | ok ys =>
          rw [hx, hxs] at h
          cases h
          exact ⟨y, ys, rfl, ih.mp hxs, rfl⟩
    · rintro ⟨y, ys, hx, hxs, rfl⟩
      rw [hx, ih.mpr hxs]
      rfl

theorem exists_mapM_iff {α β ε : Type} {f : α → Except ε β} {xs : List α} :
    (∃ ys, xs.mapM f = .ok ys) ↔ ∀ x ∈ xs, ∃ y, f x = .ok y := by
  constructor
  · rintro ⟨ys, h⟩
    exact exists_of_mapM_ok h
  · intro hall
    cases h : xs.mapM f with
    | ok ys => exact ⟨ys, rfl⟩
    | error e =>
      obtain ⟨x, hx, he⟩ := exists_of_mapM_error h
      obtain ⟨y, hy⟩ := hall x hx
      rw [he] at hy
      cases hy

theorem map_named_eq_ok {x : Except ResolveError Entity} {entry : String × Entity} :
    x.map (name, ·) = .ok entry ↔ entry.1 = name ∧ x = .ok entry.2 := by
  obtain ⟨key, e⟩ := entry
  cases x with
  | error err =>
    constructor
    · intro h
      cases h
    · rintro ⟨-, h⟩
      cases h
  | ok found =>
    constructor
    · intro h
      cases h
      exact ⟨rfl, rfl⟩
    · rintro ⟨rfl, h⟩
      cases h
      rfl

theorem entitiesOf_eq_ok_iff {names : List String} {es : Fields Entity} :
    entitiesOf rules declared names = .ok es ↔
      List.Forall₂ (fun id entry => entry.1 = id ∧ entity rules declared [] id = .ok entry.2)
        names es := by
  simp only [entitiesOf, mapM_eq_ok_iff, map_named_eq_ok]

theorem entity_of_mem_entities {es : Fields Entity} (h : entities rules declared = .ok es)
    {entry : String × Entity} (hentry : entry ∈ es) :
    entity rules declared [] entry.1 = .ok entry.2 := by
  obtain ⟨_, rfl, hentity⟩ := exists_part (entitiesOf_eq_ok_iff.mp h) entry hentry
  exact hentity

theorem exists_entitiesOf_iff {names : List String} :
    (∃ es, entitiesOf rules declared names = .ok es) ↔
      ∀ id ∈ names, ∃ e, entity rules declared [] id = .ok e := by
  simp only [entitiesOf, exists_mapM_iff, map_named_eq_ok, Prod.exists, exists_and_left,
    exists_eq_left]

end Lineage

namespace Session

def after (rules : Rules) (s : Session) (moves : List Move) : Session :=
  moves.foldl (fun s move => (s.step rules move).2) s

theorem coherent_after {rules : Rules} {s : Session} (h : s.Coherent rules) (moves : List Move) :
    (s.after rules moves).Coherent rules := by
  induction moves generalizing s with
  | nil => exact h
  | cons move rest ih => exact ih (coherent_step h move)

/-- Whatever was asked before, an entity of a pool resolves just when it is resolvable, and else has
the fault that is reported. A whole pool resolves just when each of its entities does, and then to
what each of them resolves to, in the order of declaration. -/
theorem resolves_exactly_resolvable (rules : Rules) (moves : List Move) {pool : Pool}
    (hpool : pool ∈ (start.after rules moves).pools) :
    let r := (start.after rules moves).resolver
    (∀ name, ((∃ e, (r.resolve rules pool name).1 = .ok e) ↔
          Lineage.Resolvable pool.declarations name) ∧
        ∀ error, (r.resolve rules pool name).1 = .error error →
          Lineage.HasFault rules.kind pool.declarations name error) ∧
      ((∃ es, (r.resolveAll rules pool).1 = .ok es) ↔
        ∀ id ∈ pool.ids, ∃ e, (r.resolve rules pool id).1 = .ok e) ∧
      ∀ es, (r.resolveAll rules pool).1 = .ok es →
        List.Forall₂ (fun id entry => entry.1 = id ∧ (r.resolve rules pool id).1 = .ok entry.2)
          pool.ids es := by
  intro r
  have hsound : r.SoundFor rules pool :=
    (coherent_after (start_coherent rules) moves).sound pool hpool
  have hone : ∀ name, (r.resolve rules pool name).1 =
      Lineage.entity rules pool.declarations [] name :=
    fun name => (r.resolve_settles hsound name).1
  have hall : (r.resolveAll rules pool).1 =
      Lineage.entitiesOf rules pool.declarations pool.ids := (r.resolveAll_settles hsound).1
  simp only [hone, hall]
  exact ⟨fun name => Lineage.entity_ok_iff rules pool.declarations name,
    Lineage.exists_entitiesOf_iff, fun es h => Lineage.entitiesOf_eq_ok_iff.mp h⟩

/-- A diamond, and a cycle that one entity leads to without being on it. -/
def tangled : Fields Json :=
  [("base", .object []),
    ("left", .object [("extends", .string "base")]),
    ("right", .object [("extends", .string "base")]),
    ("leaf", .object [("extends", .ofStrings ["left", "right"])]),
    ("loop", .object [("extends", .string "loop")]),
    ("fan", .object [("extends", .ofStrings ["leaf", "loop"])])]

def tangledPool : Pool := (Pool.empty 0).extend tangled 1

/-- After a question about the fan, whose first parent is remembered by then and whose second is on
a cycle, the leaf of the diamond resolves and the fan has the reported fault. -/
theorem tangled_resolves_exactly :
    tangledPool ∈ (start.after View.rules
        [.create, .extend 0 tangled, .ask 0 (.entity "fan")]).pools ∧
      Lineage.Resolvable tangledPool.declarations "leaf" ∧
      ¬ Lineage.Resolvable tangledPool.declarations "fan" ∧
      Lineage.HasFault .view tangledPool.declarations "fan"
        (.cycle .view ["fan", "loop", "loop"]) := by
  have hpool : tangledPool ∈ (start.after View.rules
      [.create, .extend 0 tangled, .ask 0 (.entity "fan")]).pools := List.mem_singleton_self _
  obtain ⟨hone, -⟩ := resolves_exactly_resolvable View.rules _ hpool
  have hleaf : ∃ e, (((start.after View.rules
      [.create, .extend 0 tangled, .ask 0 (.entity "fan")]).resolver.resolve View.rules
        tangledPool "leaf").1) = .ok e := ⟨_, by cbv⟩
  have hfan : ((start.after View.rules
      [.create, .extend 0 tangled, .ask 0 (.entity "fan")]).resolver.resolve View.rules
        tangledPool "fan").1 = .error (.cycle .view ["fan", "loop", "loop"]) := by cbv
  refine ⟨hpool, (hone "leaf").1.mp hleaf, ?_, (hone "fan").2 _ hfan⟩
  intro hr
  obtain ⟨e, he⟩ := (hone "fan").1.mpr hr
  rw [hfan] at he
  cases he

end Session

end RadioDriver
