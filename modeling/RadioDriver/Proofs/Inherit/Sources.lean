import RadioDriver.Proofs.Inherit.Resolvable
import RadioDriver.Proofs.Json.Distinct
import RadioDriver.Proofs.Path.Anchoring

namespace RadioDriver

section
variable {σ τ α : Type} {f : σ → Option α}

/-- What the last of several sources gives that gives anything. A rule of combining that only asks
for this, for all values in order or for the order in which names first appear gives the same
whether it is applied to the sources at once or to entities that stand for parts of them. -/
def lastOf (f : σ → Option α) (sources : List σ) : Option α := sources.reverse.findSome? f

theorem lastOf_append (f : σ → Option α) (sources more : List σ) :
    lastOf f (sources ++ more) = (lastOf f more).or (lastOf f sources) := by
  rw [lastOf, List.reverse_append, List.findSome?_append]
  rfl

theorem lastOf_singleton (f : σ → Option α) (source : σ) : lastOf f [source] = f source := by
  cases h : f source <;> simp [lastOf, h]

theorem lastOf_concat (f : σ → Option α) (sources : List σ) (last : σ) :
    lastOf f (sources ++ [last]) = (f last).or (lastOf f sources) := by
  rw [lastOf_append, lastOf_singleton]

theorem lastOf_map (f : τ → Option α) (g : σ → τ) (sources : List σ) :
    lastOf f (sources.map g) = lastOf (fun s => f (g s)) sources := by
  rw [lastOf, ← List.map_reverse, List.findSome?_map]
  rfl

theorem lastOf_filterMap (f : τ → Option α) (g : σ → Option τ) (sources : List σ) :
    lastOf f (sources.filterMap g) = lastOf (fun s => (g s).bind f) sources := by
  induction sources using List.reverseRecOn with
  | nil => rfl
  | append_singleton sources last ih =>
    rw [List.filterMap_append, lastOf_append, ih, lastOf_concat]
    cases h : g last with
    | none => simp [h, lastOf]
    | some t => simp [h, lastOf_singleton]

theorem lastOf_eq_none {sources : List σ} (h : ∀ s ∈ sources, f s = none) :
    lastOf f sources = none :=
  List.findSome?_eq_none_iff.mpr fun s hs => h s (List.mem_reverse.mp hs)

end

theorem Fields.get?_foldl_override {α : Type} {sources : List (Fields α)}
    (h : ∀ s ∈ sources, (names s).Nodup) (base : Fields α) (name : String) :
    get? (sources.foldl override base) name =
      (lastOf (get? · name) sources).or (get? base name) := by
  induction sources using List.reverseRecOn with
  | nil => rfl
  | append_singleton sources last ih =>
    rw [List.foldl_append, List.foldl_cons, List.foldl_nil, get?_override,
      get?_reverse (h last (by simp)), ih fun s hs => h s (List.mem_append_left _ hs),
      lastOf_concat, Option.or_assoc]

theorem Fields.get?_foldl_override_filter {α : Type} {sources : List (Fields α)}
    (h : ∀ s ∈ sources, (names s).Nodup) (p : String → Bool) (name : String) :
    get? (sources.foldl (fun acc s => override acc (s.filter fun f => p f.1)) []) name =
      if p name then lastOf (get? · name) sources else none := by
  have hmap : sources.foldl (fun acc s => override acc (s.filter fun f => p f.1)) [] =
      (sources.map fun s => s.filter fun f => p f.1).foldl override [] := List.foldl_map.symm
  have hnodup : ∀ s ∈ sources.map (fun s => s.filter fun f => p f.1), (names s).Nodup := by
    intro kept hkept
    obtain ⟨s, hs, rfl⟩ := List.mem_map.mp hkept
    exact (h s hs).sublist (List.filter_sublist.map Prod.fst)
  rw [hmap, get?_foldl_override hnodup, lastOf_map, get?, Option.or_none]
  simp only [get?_filter]
  cases p name with
  | true => rfl
  | false => exact lastOf_eq_none fun s _ => rfl

section
variable {σ α : Type} {sources : List σ} {given : σ → Fields α}

theorem Fields.ofPairs_flatMap (given : σ → Fields α) (sources : List σ) :
    ofPairs (sources.flatMap given) = (sources.map given).foldl override [] := by
  rw [ofPairs, override, List.foldl_flatMap, List.foldl_map]
  rfl

theorem Fields.names_flatMap (given : σ → Fields α) (sources : List σ) :
    names (sources.flatMap given) = sources.flatMap fun s => names (given s) :=
  List.map_flatMap

/-- A field that is set again and again has the value of the last source that gives it one. -/
theorem Fields.get?_ofPairs_flatMap (h : ∀ s ∈ sources, (names (given s)).Nodup) (name : String) :
    get? (ofPairs (sources.flatMap given)) name =
      lastOf (fun s => get? (given s) name) sources := by
  have hnodup : ∀ fields ∈ sources.map given, (names fields).Nodup := by
    intro fields hfields
    obtain ⟨s, hs, rfl⟩ := List.mem_map.mp hfields
    exact h s hs
  rw [ofPairs_flatMap, get?_foldl_override hnodup, lastOf_map, get?, Option.or_none]

end

section
variable {σ α : Type} {parts : List (List σ)} {wholes : List σ}

theorem lastOf_flatten {f : σ → Option α}
    (h : List.Forall₂ (fun part whole => f whole = lastOf f part) parts wholes) :
    lastOf f wholes = lastOf f parts.flatten := by
  induction h with
  | nil => rfl
  | @cons part whole parts wholes hfirst _ ih =>
    have hcons : whole :: wholes = [whole] ++ wholes := rfl
    rw [hcons, lastOf_append, lastOf_singleton, List.flatten_cons, lastOf_append, hfirst, ih]

theorem flatMap_flatten {f : σ → List α}
    (h : List.Forall₂ (fun part whole => f whole = part.flatMap f) parts wholes) :
    wholes.flatMap f = parts.flatten.flatMap f := by
  induction h with
  | nil => rfl
  | cons hfirst _ ih =>
    rw [List.flatMap_cons, List.flatten_cons, List.flatMap_append, hfirst, ih]

theorem eraseDups_flatten [BEq α] [LawfulBEq α] {f : σ → List α}
    (h : List.Forall₂ (fun part whole => (f whole).eraseDups = (part.flatMap f).eraseDups)
      parts wholes) :
    (wholes.flatMap f).eraseDups = (parts.flatten.flatMap f).eraseDups := by
  induction h with
  | nil => rfl
  | cons hfirst _ ih =>
    rw [List.flatMap_cons, List.flatten_cons, List.flatMap_append]
    exact Fields.eraseDups_append_congr hfirst ih

theorem exists_flatten {P : σ → Prop}
    (h : List.Forall₂ (fun part whole => P whole ↔ ∃ s ∈ part, P s) parts wholes) :
    (∃ s ∈ wholes, P s) ↔ ∃ s ∈ parts.flatten, P s := by
  induction h with
  | nil => simp
  | cons hfirst _ ih =>
    simp only [List.mem_cons, List.flatten_cons, List.mem_append, or_and_right, exists_or,
      exists_eq_left, ih, hfirst]

end

namespace Lineage

open Inherit

/-- The sources of some entities in turn. -/
inductive Sources (declared : Fields Json) : List String → List Entity → Prop
  | nil : Sources declared [] []
  | cons {id : String} {own : Entity} {parents rest : List String} {above more : List Entity}
      (declaration : Fields.get? declared id = some (.object own))
      (extended : ParentList (Fields.get? own "extends") parents)
      (ancestors : Sources declared parents above) (others : Sources declared rest more) :
      Sources declared (id :: rest) (above ++ own :: more)

/-- The sources of a declaration: those of its parents in turn, then itself. -/
def SourcesOf (declared : Fields Json) (declaration : Json) (sources : List Entity) : Prop :=
  ∃ own parents above, declaration = .object own ∧ ParentList (Fields.get? own "extends") parents ∧
    Sources declared parents above ∧ sources = above ++ [own]

variable {rules : Rules} {declared : Fields Json} {chain names parents : List String}
  {id name : String} {declaration : Json} {sources others : List Entity} {e : Entity}

theorem parentList_unique {v : Option Json} {other : List String} (h : ParentList v parents)
    (ho : ParentList v other) : parents = other := by
  rw [← parents?_eq_some] at h ho
  rw [h] at ho
  exact Option.some.inj ho

theorem Sources.unique (h : Sources declared names sources) (ho : Sources declared names others) :
    sources = others := by
  induction h generalizing others with
  | nil =>
    cases ho
    rfl
  | cons declaration extended _ _ ihabove ihmore =>
    cases ho with
    | cons declaration' extended' above' more' =>
      rw [declaration] at declaration'
      cases declaration'
      cases parentList_unique extended extended'
      rw [ihabove above', ihmore more']

theorem SourcesOf.unique (h : SourcesOf declared declaration sources)
    (ho : SourcesOf declared declaration others) : sources = others := by
  obtain ⟨own, parents, above, rfl, extended, habove, rfl⟩ := h
  obtain ⟨own', parents', above', hown, extended', habove', rfl⟩ := ho
  cases hown
  cases parentList_unique extended extended'
  rw [habove.unique habove']

theorem sources_of_declared (hd : Fields.get? declared name = some declaration)
    (h : SourcesOf declared declaration sources) : Sources declared [name] sources := by
  obtain ⟨own, parents, above, rfl, extended, habove, rfl⟩ := h
  exact .cons hd extended habove .nil

theorem Sources.append_first {first more : List Entity} (h : Sources declared [id] first)
    (ho : Sources declared names more) : Sources declared (id :: names) (first ++ more) := by
  cases h with
  | cons declaration extended above rest =>
    cases rest
    rw [List.append_assoc]
    exact .cons declaration extended above ho

theorem sources_of_forall₂ {Flat : List Entity → Entity → Prop} {ancestors : List Entity}
    (h : List.Forall₂ (fun parent a => ∃ part, Sources declared [parent] part ∧ Flat part a)
      parents ancestors) :
    ∃ parts, Sources declared parents parts.flatten ∧ List.Forall₂ Flat parts ancestors := by
  induction h with
  | nil => exact ⟨[], .nil, .nil⟩
  | cons hfirst _ ih =>
    obtain ⟨part, hpart, hflat⟩ := hfirst
    obtain ⟨parts, hparts, hall⟩ := ih
    exact ⟨part :: parts, hpart.append_first hparts, .cons hflat hall⟩

/-- Combining makes of flat ancestors and a declaration what is flat over all of their sources. -/
def CombinesFlat (rules : Rules) (Flat : String → List Entity → Entity → Prop) : Prop :=
  ∀ id own parts ancestors, (Json.object own).distinct = true →
    List.Forall₂ (fun part a => ∃ parent, Flat parent part a) parts ancestors →
    Flat id (parts.flatten ++ [own]) (rules.combine id ancestors (Fields.erase own "extends"))

section
variable {Flat : String → List Entity → Entity → Prop}

theorem flat_of_combined {lookUp : String → Except ResolveError Entity}
    (hcombine : CombinesFlat rules Flat)
    (hlookUp : ∀ parent a, lookUp parent = .ok a →
      ∃ part, Sources declared [parent] part ∧ Flat parent part a)
    (hdistinct : declaration.distinct = true)
    (h : combined rules lookUp id declaration = .ok e) :
    ∃ sources, SourcesOf declared declaration sources ∧ Flat id sources e := by
  obtain ⟨own, parents, rfl, hp, -⟩ := parents_of_combined h
  rw [combined_of_parents hp] at h
  obtain ⟨ancestors, hancestors, rfl⟩ := except_map_eq_ok.mp h
  have hall : List.Forall₂ (fun parent a => ∃ part, Sources declared [parent] part ∧
      ∃ parent, Flat parent part a) parents ancestors := by
    refine (mapM_eq_ok_iff.mp hancestors).imp fun parent a ha => ?_
    obtain ⟨part, hpart, hflat⟩ := hlookUp parent a ha
    exact ⟨part, hpart, parent, hflat⟩
  obtain ⟨parts, hparts, hflat⟩ := sources_of_forall₂ hall
  exact ⟨_, ⟨own, parents, _, rfl, parents?_eq_some.mp hp, hparts, rfl⟩,
    hcombine id own parts ancestors hdistinct hflat⟩

theorem flat_of_entity (hcombine : CombinesFlat rules Flat)
    (hdeclared : (Json.object declared).distinct = true)
    (h : entity rules declared chain name = .ok e) :
    ∃ sources, Sources declared [name] sources ∧ Flat name sources e := by
  induction chain, name using entity.induct declared generalizing e with
  | case1 chain name hc =>
    rw [entity_of_mem hc] at h
    cases h
  | case2 chain name hc hd =>
    rw [entity_of_undeclared hc hd] at h
    cases h
  | case3 chain name hc declaration hd _ ih =>
    rw [entity_of_declared hc hd] at h
    obtain ⟨sources, hsources, hflat⟩ := flat_of_combined hcombine (fun parent a ha => ih parent ha)
      (Json.distinct_of_get? hdeclared hd) h
    exact ⟨sources, sources_of_declared hd hsources, hflat⟩

end

end Lineage

namespace Session

open Lineage

/-- Where combining keeps entities flat, whatever was asked before, what a pool resolves to and what
a declaration from outside resolves to have sources, and are flat over them. -/
theorem flat_of_resolve {rules : Rules} {Flat : String → List Entity → Entity → Prop}
    (hcombine : CombinesFlat rules Flat) (moves : List Move) {pool : Pool}
    (hpool : pool ∈ (start.after rules moves).pools)
    (hdistinct : (Json.object pool.declarations).distinct = true) :
    let r := (start.after rules moves).resolver
    (∀ name e, (r.resolve rules pool name).1 = .ok e →
      (∃ sources, Sources pool.declarations [name] sources) ∧
        ∀ sources, Sources pool.declarations [name] sources → Flat name sources e) ∧
    ∀ id declaration e, declaration.distinct = true →
      (r.resolveDetached rules pool id declaration).1 = .ok e →
        (∃ sources, SourcesOf pool.declarations declaration sources) ∧
          ∀ sources, SourcesOf pool.declarations declaration sources → Flat id sources e := by
  intro r
  have hsound : r.SoundFor rules pool :=
    (coherent_after (start_coherent rules) moves).sound pool hpool
  constructor
  · intro name e h
    rw [(r.resolve_settles hsound name).1] at h
    obtain ⟨sources, hsources, hflat⟩ := flat_of_entity hcombine hdistinct h
    refine ⟨⟨sources, hsources⟩, fun others hothers => ?_⟩
    rw [hothers.unique hsources]
    exact hflat
  · intro id declaration e hdeclaration h
    rw [(r.resolveDetached_settles hsound id declaration).1] at h
    obtain ⟨sources, hsources, hflat⟩ := flat_of_combined hcombine
      (fun parent a ha => flat_of_entity hcombine hdistinct ha) hdeclaration h
    refine ⟨⟨sources, hsources⟩, fun others hothers => ?_⟩
    rw [hothers.unique hsources]
    exact hflat

end Session

end RadioDriver
