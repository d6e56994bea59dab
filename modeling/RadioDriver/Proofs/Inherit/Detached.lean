import RadioDriver.Proofs.Inherit.Resolvable
import RadioDriver.Proofs.Json.Fields

namespace RadioDriver

namespace Lineage

/-- The declaration lists the parent. -/
def Lists (declaration : Json) (parent : String) : Prop :=
  ∃ own parents, declaration = .object own ∧
    Inherit.parents? (Fields.get? own "extends") = some parents ∧ parent ∈ parents

/-- Neither the declaration nor an entity that it inherits from lists the id. -/
def Unlisted (declared : Fields Json) (id : String) (declaration : Json) : Prop :=
  ¬ Lists declaration id ∧
    ∀ parent, Lists declaration parent → ∀ above, Reaches declared parent above →
      ¬ Extends declared above id

variable {rules : Rules} {declared others : Fields Json} {chain : List String}
  {name parent id : String} {declaration : Json} {e : Entity}

theorem extends_iff_lists :
    Extends declared name parent ↔
      ∃ declaration, Fields.get? declared name = some declaration ∧ Lists declaration parent := by
  constructor
  · rintro ⟨own, parents, hd, hp, hm⟩
    exact ⟨.object own, hd, own, parents, rfl, hp, hm⟩
  · rintro ⟨declaration, hd, own, parents, rfl, hp, hm⟩
    exact ⟨own, parents, hd, hp, hm⟩

theorem entity_congr
    (h : ∀ above, Reaches declared name above →
      Fields.get? others above = Fields.get? declared above) :
    entity rules others chain name = entity rules declared chain name := by
  induction chain, name using entity.induct declared with
  | case1 chain name hc => rw [entity_of_mem hc, entity_of_mem hc]
  | case2 chain name hc hd =>
    have hd' : Fields.get? others name = none := (h name .refl).trans hd
    rw [entity_of_undeclared hc hd, entity_of_undeclared hc hd']
  | case3 chain name hc declaration hd _ ih =>
    have hd' : Fields.get? others name = some declaration := (h name .refl).trans hd
    rw [entity_of_declared hc hd, entity_of_declared hc hd']
    cases declaration with
    | object own =>
      cases hp : Inherit.parents? (Fields.get? own "extends") with
      | none => simp only [combined, hp]
      | some parents =>
        rw [combined_of_parents hp, combined_of_parents hp]
        congr 1
        apply mapM_congr
        intro parent hm
        have hextends : Extends declared name parent := ⟨own, parents, hd, hp, hm⟩
        exact ih parent fun above habove => h above (.head hextends habove)
    | _ => rfl

theorem Unlisted.entity_set (h : Unlisted declared id declaration) (hp : Lists declaration parent)
    (chain : List String) :
    entity rules (Fields.set declared id declaration) chain parent =
      entity rules declared chain parent := by
  apply entity_congr
  intro above habove
  apply Fields.get?_set_of_ne
  rintro rfl
  -- the id is reached as a parent of the declaration or of something above it
  rcases Relation.ReflTransGen.cases_tail habove with rfl | ⟨child, hchild, hextends⟩
  · exact h.1 hp
  · exact h.2 parent hp child hchild hextends

/-- From outside and as one of the declared, an unlisted declaration makes the same entity. -/
theorem Unlisted.detached_iff (h : Unlisted declared id declaration) :
    detached rules declared id declaration = .ok e ↔
      entity rules (Fields.set declared id declaration) [] id = .ok e := by
  have hd := Fields.get?_set_self declared id declaration
  rw [entity_of_declared List.not_mem_nil hd]
  constructor
  · intro hdetached
    refine combined_of_combined ?_ hdetached
    rintro own parents rfl hp parent hm a ha
    have hlists : Lists (.object own) parent := ⟨own, parents, rfl, hp, hm⟩
    have hextends : Extends (Fields.set declared id (.object own)) id parent :=
      extends_iff_lists.mpr ⟨_, hd, hlists⟩
    rw [← h.entity_set hlists] at ha
    exact entity_of_leads ha ((leads_nil _ id).snoc hextends)
  · intro hentity
    refine combined_of_combined ?_ hentity
    rintro own parents rfl hp parent hm a ha
    rw [h.entity_set ⟨own, parents, rfl, hp, hm⟩] at ha
    exact entity_of_leads ha (leads_nil declared parent)

end Lineage

namespace Session

open Lineage

variable {rules : Rules} {s : Session}

theorem pools_ask (rules : Rules) (s : Session) (i : Nat) (query : Query) :
    (s.step rules (.ask i query)).2.pools = s.pools ∧
      (s.step rules (.ask i query)).2.fresh = s.fresh := by
  simp only [step]
  split <;> exact ⟨rfl, rfl⟩

theorem answers_after_ask (h : s.Coherent rules) (i : Nat) (query : Query) (rest : List Move) :
    answers rules (s.step rules (.ask i query)).2 rest = answers rules s rest := by
  obtain ⟨hpools, hfresh⟩ := pools_ask rules s i query
  rw [answers_eq_freshAnswers rest (coherent_step h _) hpools hfresh,
    answers_eq_freshAnswers rest h rfl rfl]

/-- Whatever two resolvers were asked before, an unlisted declaration resolves from outside a pool
just when it resolves in the pool that it is added to, and to the same entity, by the rules of
views, of device classes or any others. It may take the place of a declaration with its id. No
question about a declaration from outside, whatever its id, changes an answer to what is asked
later. -/
theorem detached_as_declared (rules : Rules) (moves : List Move) :
    (∀ (others : List Move) (pool : Pool) (id : String) (declaration : Json) (number : Nat),
      pool ∈ (start.after rules moves).pools →
      pool.extend [(id, declaration)] number ∈ (start.after rules others).pools →
      Unlisted pool.declarations id declaration →
      ∀ e,
        ((start.after rules moves).resolver.resolveDetached rules pool id declaration).1 = .ok e ↔
          ((start.after rules others).resolver.resolve rules
            (pool.extend [(id, declaration)] number) id).1 = .ok e) ∧
    ∀ (i : Nat) (id : String) (declaration : Json) (rest : List Move),
      answers rules
          ((start.after rules moves).step rules (.ask i (.detached id declaration))).2 rest =
        answers rules (start.after rules moves) rest := by
  have hcoherent := fun moves => coherent_after (start_coherent rules) moves
  refine ⟨?_, fun i id declaration rest => answers_after_ask (hcoherent moves) i _ rest⟩
  intro others pool id declaration number hpool hextended hunlisted e
  have hdetached :=
    Resolver.resolveDetached_settles ((hcoherent moves).sound pool hpool) id declaration
  have hresolved := Resolver.resolve_settles ((hcoherent others).sound _ hextended) id
  rw [hdetached.1, hresolved.1]
  exact hunlisted.detached_iff

/-- A declaration that inherits from the leaf of the diamond, and from one of its sides directly. -/
def lamp : Json := .object [("extends", .ofStrings ["left", "leaf"]), ("name", .string "Lamp")]

theorem unlisted_lamp : Unlisted tangledPool.declarations "lamp" lamp := by
  have hnever : ∀ above, ¬ Extends tangledPool.declarations above "lamp" := by
    rintro above ⟨own, parents, hd, hp, hm⟩
    have hmem : (above, Json.object own) ∈ tangled := Fields.mem_of_get? hd
    simp only [tangled, List.mem_cons, List.not_mem_nil, or_false, Prod.mk.injEq,
      Json.object.injEq] at hmem
    rcases hmem with ⟨-, rfl⟩ | ⟨-, rfl⟩ | ⟨-, rfl⟩ | ⟨-, rfl⟩ | ⟨-, rfl⟩ | ⟨-, rfl⟩ <;>
      · cases hp
        revert hm
        decide
  refine ⟨?_, fun parent _ above _ => hnever above⟩
  rintro ⟨own, parents, hown, hp, hm⟩
  cases hown
  cases hp
  revert hm
  decide

/-- After a question about the fan, which is on no cycle but leads to one, the lamp resolves from
outside the pool. A copy of the pool that declares it, and of which nothing was asked, resolves it
to the same entity. -/
theorem lamp_detached_as_declared :
    tangledPool ∈ (start.after View.rules
        [.create, .extend 0 tangled, .ask 0 (.entity "fan")]).pools ∧
      tangledPool.extend [("lamp", lamp)] 2 ∈ (start.after View.rules
        [.create, .extend 0 tangled, .clone 0, .extend 1 [("lamp", lamp)]]).pools ∧
      Unlisted tangledPool.declarations "lamp" lamp ∧
      ∃ e,
        ((start.after View.rules
          [.create, .extend 0 tangled, .ask 0 (.entity "fan")]).resolver.resolveDetached
          View.rules tangledPool "lamp" lamp).1 = .ok e ∧
        ((start.after View.rules
          [.create, .extend 0 tangled, .clone 0,
            .extend 1 [("lamp", lamp)]]).resolver.resolve View.rules
            (tangledPool.extend [("lamp", lamp)] 2) "lamp").1 = .ok e := by
  have hpool : tangledPool ∈ (start.after View.rules
      [.create, .extend 0 tangled, .ask 0 (.entity "fan")]).pools := List.mem_singleton_self _
  have hextended : tangledPool.extend [("lamp", lamp)] 2 ∈ (start.after View.rules
      [.create, .extend 0 tangled, .clone 0, .extend 1 [("lamp", lamp)]]).pools :=
    List.mem_cons_of_mem _ (List.mem_singleton_self _)
  have hdetached : ∃ e, ((start.after View.rules
      [.create, .extend 0 tangled, .ask 0 (.entity "fan")]).resolver.resolveDetached View.rules
        tangledPool "lamp" lamp).1 = .ok e := ⟨_, by cbv⟩
  obtain ⟨hsame, -⟩ := detached_as_declared View.rules
    [.create, .extend 0 tangled, .ask 0 (.entity "fan")]
  obtain ⟨e, he⟩ := hdetached
  exact ⟨hpool, hextended, unlisted_lamp, e, he,
    (hsame _ tangledPool "lamp" lamp 2 hpool hextended unlisted_lamp e).mp he⟩

end Session

end RadioDriver
