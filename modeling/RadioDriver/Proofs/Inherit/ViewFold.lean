import RadioDriver.Inherit.View
import RadioDriver.Proofs.Inherit.Sources

namespace RadioDriver

namespace View

open RadioDriver.Lineage

/-- The options of a declaration, which are none unless `options` is an object. -/
def optionsOf (s : Entity) : Fields Json := ((Fields.get? s "options").bind Json.fields?).getD []

/-- The fields that a value gives an option: its own if it is an object, else itself as the
default. -/
def optionFields : Json → Fields Json
  | .object fields => fields
  | v => [("default", v)]

/-- The fields that a declaration gives an option. -/
def fieldsOf (option : String) (s : Entity) : Fields Json :=
  ((Fields.get? (optionsOf s) option).map optionFields).getD []

/-- The items that a declaration has in a list. -/
def listItems (name : String) (s : Entity) : List Json := Json.asList (Fields.get? s name)

/-- The fields that are not just the last ones given. -/
def ruledNames : List String := "extends" :: mergedNames

/-- The names of the fields without rules of their own. -/
def plainNames (s : Entity) : List String := (Fields.names s).filter (· ∉ ruledNames)

/-- What the sources of a view come to in one go. -/
structure Flat (sources : List Entity) (e : Entity) : Prop where
  /-- The plain fields come first, in the order of their first appearance. -/
  names_eq : Fields.names e = (sources.flatMap plainNames).eraseDups ++ mergedNames
  /-- The last source that has a plain field decides. -/
  plain : ∀ name ∉ ruledNames, Fields.get? e name = lastOf (Fields.get? · name) sources
  noParents : Fields.get? e "extends" = none
  options : Fields.get? e "options" = some (.object (optionsOf e))
  /-- The options are those of all sources, in the order of their first appearance. -/
  optionNames : Fields.names (optionsOf e) =
    (sources.flatMap fun s => Fields.names (optionsOf s)).eraseDups
  option : ∀ name ∈ Fields.names (optionsOf e),
    Fields.get? (optionsOf e) name = some (.object (fieldsOf name e))
  fieldNames : ∀ option, Fields.names (fieldsOf option e) =
    (sources.flatMap fun s => Fields.names (fieldsOf option s)).eraseDups
  /-- The last source that gives an option this field decides. -/
  field : ∀ option name, Fields.get? (fieldsOf option e) name =
    lastOf (fun s => Fields.get? (fieldsOf option s) name) sources
  /-- Lists are concatenated in the order of the sources. -/
  list : ∀ name ∈ ["prepend", "append"],
    Fields.get? e name = some (.array (sources.flatMap (listItems name)))
  /-- No object in it names a field twice. -/
  distinct : (Json.object e).distinct = true

variable {sources part : List Entity} {parts : List (List Entity)} {ancestors : List Entity}
  {own e s : Entity} {name option : String} {table : OptionTable}

theorem distinct_optionFields {v : Json} (h : v.distinct = true) :
    (Json.object (optionFields v)).distinct = true := by
  cases v with
  | object fields => exact h
  | _ => simpa [optionFields, Json.distinct_object, Fields.names] using h

theorem distinct_optionsOf (h : (Json.object s).distinct = true) :
    (Json.object (optionsOf s)).distinct = true := by
  unfold optionsOf
  cases hget : Fields.get? s "options" with
  | none => rfl
  | some v =>
    have hv := Json.distinct_of_get? h hget
    cases v with
    | object options => exact hv
    | _ => rfl

theorem distinct_fieldsOf (h : (Json.object s).distinct = true) (option : String) :
    (Json.object (fieldsOf option s)).distinct = true := by
  unfold fieldsOf
  cases hget : Fields.get? (optionsOf s) option with
  | none => rfl
  | some v => exact distinct_optionFields (Json.distinct_of_get? (distinct_optionsOf h) hget)

def layOption (table : OptionTable) (option : String × Fields Json) : OptionTable :=
  Fields.set table option.1 (Fields.override ((Fields.get? table option.1).getD []) option.2)

def givenOptions (s : Entity) : OptionTable := Fields.mapValues optionFields (optionsOf s)

def optionTable (sources : List Entity) : OptionTable :=
  (sources.flatMap givenOptions).foldl layOption []

theorem mergeOption_normalizeOption (table : OptionTable) (name : String) (v : Json) :
    mergeOption table (name, normalizeOption v) = layOption table (name, optionFields v) := by
  cases v <;> rfl

theorem get?_normalizeOwn_options (s : Entity) :
    Fields.get? (normalizeOwn s) "options" = (Fields.get? s "options").map normalizeOptions := by
  unfold normalizeOwn
  split
  · next v hv =>
    rw [Fields.get?_set_self, hv]
    rfl
  · next hnone =>
    rw [hnone]
    rfl

theorem mergeOptions_normalizeOwn (table : OptionTable) (s : Entity) :
    mergeOptions table (normalizeOwn s) = (givenOptions s).foldl layOption table := by
  unfold mergeOptions givenOptions optionsOf
  rw [get?_normalizeOwn_options]
  cases Fields.get? s "options" with
  | none => rfl
  | some v =>
    cases v with
    | object options =>
      show (Fields.mapValues normalizeOption options).foldl mergeOption table =
        (Fields.mapValues optionFields options).foldl layOption table
      simp only [Fields.mapValues, List.foldl_map, mergeOption_normalizeOption]
    | _ => rfl

theorem foldl_mergeOptions (sources : List Entity) :
    (sources.map normalizeOwn).foldl mergeOptions [] = optionTable sources := by
  rw [optionTable, List.foldl_flatMap, List.foldl_map]
  simp only [mergeOptions_normalizeOwn]

theorem names_layOptions (given : List (String × Fields Json)) :
    Fields.names (given.foldl layOption []) = (Fields.names given).eraseDups := by
  induction given using List.reverseRecOn with
  | nil => rfl
  | append_singleton given last ih =>
    rw [List.foldl_append, List.foldl_cons, List.foldl_nil, layOption,
      Fields.names_set_of_eraseDups ih]
    simp [Fields.names]

theorem get?_layOptions (given : List (String × Fields Json)) (option : String) :
    (Fields.get? (given.foldl layOption []) option).getD [] =
      Fields.ofPairs ((given.filter fun o => o.1 = option).flatMap (·.2)) := by
  induction given using List.reverseRecOn with
  | nil => rfl
  | append_singleton given last ih =>
    obtain ⟨name, fields⟩ := last
    rw [List.foldl_append, List.foldl_cons, List.foldl_nil, layOption, List.filter_append,
      List.flatMap_append]
    by_cases hname : name = option
    · subst hname
      rw [Fields.get?_set_self, ih, Option.getD_some, Fields.override_ofPairs]
      simp
    · rw [Fields.get?_set_of_ne _ _ (Ne.symm hname), ih]
      simp [hname]

theorem filter_givenOptions (h : (Fields.names (optionsOf s)).Nodup) (option : String) :
    ((givenOptions s).filter fun o => o.1 = option).flatMap (·.2) = fieldsOf option s := by
  unfold givenOptions fieldsOf
  generalize optionsOf s = options at h
  induction options with
  | nil => rfl
  | cons o rest ih =>
    obtain ⟨name, v⟩ := o
    obtain ⟨hnew, hrest⟩ := List.nodup_cons.mp h
    have hcons : Fields.mapValues optionFields ((name, v) :: rest) =
        (name, optionFields v) :: Fields.mapValues optionFields rest := rfl
    rw [hcons, List.filter_cons, Fields.get?]
    by_cases hname : name = option
    · subst hname
      have hlater : Fields.get? rest name = none := Fields.get?_eq_none_iff.mpr hnew
      rw [hlater] at ih
      simp [ih hrest]
    · simpa [hname] using ih hrest

theorem names_optionTable (sources : List Entity) :
    Fields.names (optionTable sources) =
      (sources.flatMap fun s => Fields.names (optionsOf s)).eraseDups := by
  have hgiven : ∀ s, Fields.names (givenOptions s) = Fields.names (optionsOf s) := by
    intro s
    rw [givenOptions, Fields.names_mapValues]
  rw [optionTable, names_layOptions, Fields.names_flatMap]
  simp only [hgiven]

theorem get?_optionTable (h : ∀ s ∈ sources, (Json.object s).distinct = true) (option : String) :
    (Fields.get? (optionTable sources) option).getD [] =
      Fields.ofPairs (sources.flatMap (fieldsOf option)) := by
  rw [optionTable, get?_layOptions, List.filter_flatMap, List.flatMap_assoc]
  congr 1
  apply List.flatMap_congr
  intro s hs
  exact filter_givenOptions (Json.distinct_object.mp (distinct_optionsOf (h s hs))).1 option

theorem distinct_layOption (h : (Json.object (Fields.mapValues .object table)).distinct = true)
    {given : String × Fields Json} (hgiven : (Json.object given.2).distinct = true) :
    (Json.object (Fields.mapValues .object (layOption table given))).distinct = true := by
  have hold : (Json.object ((Fields.get? table given.1).getD [])).distinct = true := by
    cases hget : Fields.get? table given.1 with
    | none => rfl
    | some fields =>
      have hobject : Fields.get? (Fields.mapValues Json.object table) given.1 =
          some (.object fields) := by
        rw [Fields.get?_mapValues, hget]
        rfl
      exact Json.distinct_of_get? h hobject
  rw [layOption, Fields.mapValues_set]
  exact Json.distinct_set h (Json.distinct_override hold (Json.distinct_object.mp hgiven).2)

theorem distinct_optionTable (h : ∀ s ∈ sources, (Json.object s).distinct = true) :
    (Json.object (Fields.mapValues .object (optionTable sources))).distinct = true := by
  refine List.foldlRecOn _ layOption (motive := fun table =>
    (Json.object (Fields.mapValues .object table)).distinct = true) rfl ?_
  intro table htable given hgiven
  obtain ⟨s, hs, hmem⟩ := List.mem_flatMap.mp hgiven
  obtain ⟨o, ho, rfl⟩ := List.mem_map.mp hmem
  have hvalue := (Json.distinct_object.mp (distinct_optionsOf (h s hs))).2 o ho
  exact distinct_layOption htable (distinct_optionFields hvalue)

def plainFields (s : Entity) : Fields Json := s.filter fun f => f.1 ∉ ruledNames

theorem names_plainFields (s : Entity) : Fields.names (plainFields s) = plainNames s := by
  simp [plainFields, plainNames, Fields.names, List.filter_map, Function.comp_def]

theorem mergePlain_normalizeOwn (fields : Fields Json) (h : Fields.get? s "extends" = none) :
    mergePlain fields (normalizeOwn s) = Fields.override fields (plainFields s) := by
  have hkept : (normalizeOwn s).filter (fun f => f.1 ∉ mergedNames) =
      s.filter fun f => f.1 ∉ mergedNames := by
    unfold normalizeOwn
    split
    · exact Fields.filter_set (· ∉ mergedNames) (by decide) s _
    · rfl
  rw [mergePlain, hkept, plainFields]
  congr 1
  apply List.filter_congr
  intro f hf
  have hname : f.1 ≠ "extends" := by
    intro heq
    exact Fields.get?_eq_none_iff.mp h (heq ▸ List.mem_map_of_mem hf)
  simp [ruledNames, hname]

theorem foldl_mergePlain (h : ∀ s ∈ sources, Fields.get? s "extends" = none) :
    (sources.map normalizeOwn).foldl mergePlain [] =
      Fields.ofPairs (sources.flatMap plainFields) := by
  rw [Fields.ofPairs_flatMap, List.foldl_map, List.foldl_map]
  exact List.foldl_ext _ _ _ fun fields s hs => mergePlain_normalizeOwn fields (h s hs)

def gathered (sources : List Entity) : Entity :=
  Fields.ofPairs (sources.flatMap plainFields) ++
    [("options", .object (Fields.mapValues .object (optionTable sources))),
      ("prepend", .array (sources.flatMap (listItems "prepend"))),
      ("append", .array (sources.flatMap (listItems "append")))]

theorem combine_eq_gathered (hnormal : ∀ a ∈ ancestors, normalizeOwn a = a)
    (hparents : ∀ s ∈ ancestors ++ [own], Fields.get? s "extends" = none) :
    combine ancestors own = gathered (ancestors ++ [own]) := by
  have hsources : ancestors ++ [normalizeOwn own] = (ancestors ++ [own]).map normalizeOwn := by
    rw [List.map_append, List.map_congr_left hnormal, List.map_id']
    rfl
  have hlist : ∀ name, name ≠ "options" →
      concatenated name ((ancestors ++ [own]).map normalizeOwn) =
      (ancestors ++ [own]).flatMap (listItems name) := by
    intro name hname
    rw [concatenated, List.flatMap_map]
    congr 1
    funext s
    unfold normalizeOwn listItems
    split
    · rw [Fields.get?_set_of_ne _ _ hname]
    · rfl
  unfold combine
  dsimp only
  rw [hsources, foldl_mergePlain hparents, foldl_mergeOptions, hlist "prepend" (by decide),
    hlist "append" (by decide), gathered]

theorem names_gathered (sources : List Entity) :
    Fields.names (gathered sources) = (sources.flatMap plainNames).eraseDups ++ mergedNames := by
  have hnames : Fields.names (Fields.ofPairs (sources.flatMap plainFields)) =
      (sources.flatMap plainNames).eraseDups := by
    rw [Fields.names_ofPairs, Fields.names_flatMap]
    simp only [names_plainFields]
  rw [← hnames, gathered, Fields.names_append]
  rfl

theorem plain_of_mem_gathered (h : name ∈ (sources.flatMap plainNames).eraseDups) :
    name ∉ ruledNames := by
  obtain ⟨s, hs, hname⟩ := List.mem_flatMap.mp (List.mem_eraseDups.mp h)
  simpa using (List.mem_filter.mp hname).2

theorem get?_gathered (sources : List Entity) (name : String) :
    Fields.get? (gathered sources) name =
      (Fields.get? (Fields.ofPairs (sources.flatMap plainFields)) name).or
        (Fields.get? [("options", Json.object (Fields.mapValues .object (optionTable sources))),
          ("prepend", .array (sources.flatMap (listItems "prepend"))),
          ("append", .array (sources.flatMap (listItems "append")))] name) :=
  Fields.get?_append _ _ _

theorem get?_plainFields_of_ruled (hname : name ∈ ruledNames) :
    Fields.get? (Fields.ofPairs (sources.flatMap plainFields)) name = none := by
  rw [Fields.get?_eq_none_iff, Fields.names_ofPairs, Fields.names_flatMap]
  simp only [names_plainFields]
  exact fun hmem => plain_of_mem_gathered hmem hname

theorem get?_gathered_options (sources : List Entity) :
    Fields.get? (gathered sources) "options" =
      some (.object (Fields.mapValues .object (optionTable sources))) := by
  rw [get?_gathered, get?_plainFields_of_ruled (by decide)]
  rfl

theorem optionsOf_gathered (sources : List Entity) :
    optionsOf (gathered sources) = Fields.mapValues .object (optionTable sources) := by
  rw [optionsOf, get?_gathered_options]
  rfl

theorem fieldsOf_gathered (h : ∀ s ∈ sources, (Json.object s).distinct = true) (option : String) :
    fieldsOf option (gathered sources) = Fields.ofPairs (sources.flatMap (fieldsOf option)) := by
  rw [← get?_optionTable h, fieldsOf, optionsOf_gathered, Fields.get?_mapValues]
  cases Fields.get? (optionTable sources) option <;> rfl

theorem distinct_gathered (h : ∀ s ∈ sources, (Json.object s).distinct = true) :
    (Json.object (gathered sources)).distinct = true := by
  refine Json.distinct_object.mpr ⟨?_, ?_⟩
  · rw [names_gathered]
    refine List.nodup_append.mpr ⟨Fields.nodup_eraseDups _, by decide, ?_⟩
    rintro name hplain _ hmerged rfl
    exact plain_of_mem_gathered hplain (List.mem_cons_of_mem _ hmerged)
  · have hlist : ∀ name, (Json.array (sources.flatMap (listItems name))).distinct = true := by
      intro name
      refine Json.distinct_array.mpr fun v hv => ?_
      obtain ⟨s, hs, hitem⟩ := List.mem_flatMap.mp hv
      exact Json.distinct_of_mem_asList (fun w hw => Json.distinct_of_get? (h s hs) hw) v hitem
    intro f hf
    rcases List.mem_append.mp hf with hplain | hmerged
    · obtain ⟨s, hs, hmem⟩ := List.mem_flatMap.mp (Fields.mem_of_mem_ofPairs hplain)
      exact (Json.distinct_object.mp (h s hs)).2 f (List.mem_of_mem_filter hmem)
    · simp only [List.mem_cons, List.not_mem_nil, or_false] at hmerged
      rcases hmerged with rfl | rfl | rfl
      · exact distinct_optionTable h
      · exact hlist "prepend"
      · exact hlist "append"

theorem flat_gathered (h : ∀ s ∈ sources, (Json.object s).distinct = true) :
    Flat sources (gathered sources) where
  names_eq := names_gathered sources
  plain name hname := by
    have hnodup : ∀ s ∈ sources, (Fields.names (plainFields s)).Nodup := by
      intro s hs
      rw [names_plainFields]
      exact (Json.distinct_object.mp (h s hs)).1.filter _
    -- a plain name is none of the three that stand behind the plain fields
    have hlast :
        Fields.get? [("options", Json.object (Fields.mapValues .object (optionTable sources))),
        ("prepend", .array (sources.flatMap (listItems "prepend"))),
        ("append", .array (sources.flatMap (listItems "append")))] name = none := by
      rw [Fields.get?_eq_none_iff]
      exact fun hmem => hname (List.mem_cons_of_mem _ hmem)
    have hkept : ∀ s, Fields.get? (plainFields s) name = Fields.get? s name := by
      intro s
      have hfilter := Fields.get?_filter (fun n => n ∉ ruledNames) s name
      rwa [if_pos (decide_eq_true hname)] at hfilter
    rw [get?_gathered, hlast, Option.or_none, Fields.get?_ofPairs_flatMap hnodup]
    simp only [hkept]
  noParents := by
    rw [get?_gathered, get?_plainFields_of_ruled (by decide)]
    rfl
  options := by rw [optionsOf_gathered, get?_gathered_options]
  optionNames := by
    rw [optionsOf_gathered, ← names_optionTable, Fields.names_mapValues]
  option name hname := by
    rw [optionsOf_gathered] at hname ⊢
    rw [fieldsOf, optionsOf_gathered, Fields.get?_mapValues]
    cases hget : Fields.get? (optionTable sources) name with
    | some fields => rfl
    | none =>
      have habsent :
          Fields.get? (Fields.mapValues Json.object (optionTable sources)) name = none := by
        rw [Fields.get?_mapValues, hget]
        rfl
      exact absurd hname (Fields.get?_eq_none_iff.mp habsent)
  fieldNames option := by
    rw [fieldsOf_gathered h, Fields.names_ofPairs, Fields.names_flatMap]
  field option name := by
    rw [fieldsOf_gathered h]
    exact Fields.get?_ofPairs_flatMap
      (fun s hs => (Json.distinct_object.mp (distinct_fieldsOf (h s hs) option)).1) name
  list name hname := by
    simp only [List.mem_cons, List.not_mem_nil, or_false] at hname
    rcases hname with rfl | rfl <;>
      rw [get?_gathered, get?_plainFields_of_ruled (by decide)] <;> rfl
  distinct := distinct_gathered h

theorem normalizeOwn_of_flat (h : Flat sources e) : normalizeOwn e = e := by
  have hoptions := Json.distinct_object.mp (distinct_optionsOf h.distinct)
  have hnormal : Fields.mapValues normalizeOption (optionsOf e) = optionsOf e := by
    refine (List.map_congr_left fun o ho => ?_).trans (List.map_id _)
    have hname : o.1 ∈ Fields.names (optionsOf e) := List.mem_map_of_mem ho
    have hvalue := Fields.get?_of_mem hoptions.1 ho
    rw [h.option o.1 hname] at hvalue
    rw [← Option.some.inj hvalue]
    exact Prod.ext rfl (Option.some.inj hvalue)
  unfold normalizeOwn
  rw [h.options]
  show Fields.set e "options" (.object (Fields.mapValues normalizeOption (optionsOf e))) = e
  rw [hnormal]
  exact Fields.set_of_get? h.options

/-- An entity that can take the place of a part of the sources. -/
structure StandsFor (part : List Entity) (e : Entity) : Prop where
  plainNames : (plainNames e).eraseDups = (part.flatMap plainNames).eraseDups
  plain : ∀ name ∉ ruledNames, Fields.get? e name = lastOf (Fields.get? · name) part
  optionNames : (Fields.names (optionsOf e)).eraseDups =
    (part.flatMap fun s => Fields.names (optionsOf s)).eraseDups
  fieldNames : ∀ option, (Fields.names (fieldsOf option e)).eraseDups =
    (part.flatMap fun s => Fields.names (fieldsOf option s)).eraseDups
  field : ∀ option name, Fields.get? (fieldsOf option e) name =
    lastOf (fun s => Fields.get? (fieldsOf option s) name) part
  list : ∀ name ∈ ["prepend", "append"], listItems name e = part.flatMap (listItems name)

theorem standsFor_of_flat (h : Flat sources e) : StandsFor sources e where
  plainNames := by
    have hplain : ((sources.flatMap View.plainNames).eraseDups).filter (· ∉ ruledNames) =
        (sources.flatMap View.plainNames).eraseDups := by
      rw [List.filter_eq_self]
      exact fun name hname => decide_eq_true (plain_of_mem_gathered hname)
    have hruled : mergedNames.filter (· ∉ ruledNames) = [] := by decide
    rw [View.plainNames, h.names_eq, List.filter_append, hplain, hruled, List.append_nil]
    exact Fields.eraseDups_of_nodup (Fields.nodup_eraseDups _)
  plain := h.plain
  optionNames := by
    rw [h.optionNames]
    exact Fields.eraseDups_of_nodup (Fields.nodup_eraseDups _)
  fieldNames option := by
    rw [h.fieldNames]
    exact Fields.eraseDups_of_nodup (Fields.nodup_eraseDups _)
  field := h.field
  list name hname := by
    rw [listItems, h.list name hname]
    rfl

theorem standsFor_own (own : Entity) : StandsFor [own] (Fields.erase own "extends") := by
  have hget : ∀ name, name ≠ "extends" →
      Fields.get? (Fields.erase own "extends") name = Fields.get? own name :=
    fun name hname => Fields.get?_erase_of_ne own hname
  have hoptions : optionsOf (Fields.erase own "extends") = optionsOf own := by
    rw [optionsOf, hget "options" (by decide), optionsOf]
  have hfields : ∀ option, fieldsOf option (Fields.erase own "extends") = fieldsOf option own := by
    intro option
    rw [fieldsOf, hoptions, fieldsOf]
  have hplain : plainFields (Fields.erase own "extends") = plainFields own := by
    rw [plainFields, Fields.erase, List.filter_filter, plainFields]
    congr 1
    funext f
    by_cases hname : f.1 = "extends" <;> simp [ruledNames, hname]
  refine ⟨?_, fun name hname => ?_, ?_, fun option => ?_, fun option name => ?_,
    fun name hname => ?_⟩
  · rw [← names_plainFields, hplain, names_plainFields]
    simp
  · rw [lastOf_singleton, hget name fun heq => hname (heq ▸ List.mem_cons_self)]
  · simp [hoptions]
  · simp [hfields]
  · rw [lastOf_singleton, hfields]
  · have hne : name ≠ "extends" := fun heq => absurd (heq ▸ hname) (by decide)
    simp [listItems, hget name hne]

theorem Flat.flatten (h : Flat sources e) (hparts : List.Forall₂ StandsFor parts sources) :
    Flat parts.flatten e where
  names_eq := by
    rw [h.names_eq, eraseDups_flatten (hparts.imp fun _ _ hp => hp.plainNames)]
  plain name hname := (h.plain name hname).trans
    (lastOf_flatten (hparts.imp fun _ _ hp => hp.plain name hname))
  noParents := h.noParents
  options := h.options
  optionNames := by
    rw [h.optionNames, eraseDups_flatten (hparts.imp fun _ _ hp => hp.optionNames)]
  option := h.option
  fieldNames option := by
    rw [h.fieldNames, eraseDups_flatten (hparts.imp fun _ _ hp => hp.fieldNames option)]
  field option name := (h.field option name).trans
    (lastOf_flatten (hparts.imp fun _ _ hp => hp.field option name))
  list name hname := by
    rw [h.list name hname, flatMap_flatten (hparts.imp fun _ _ hp => hp.list name hname)]
  distinct := h.distinct

theorem combinesFlat : CombinesFlat rules fun _ => Flat := by
  intro id own parts ancestors hown hparts
  have hancestors : ∀ a ∈ ancestors, ∃ part, Flat part a := by
    intro a ha
    obtain ⟨part, _, hflat⟩ := exists_part hparts a ha
    exact ⟨part, hflat⟩
  have hdistinct : ∀ s ∈ ancestors ++ [Fields.erase own "extends"],
      (Json.object s).distinct = true := by
    rw [List.forall_mem_append, List.forall_mem_singleton]
    exact ⟨fun a ha => (hancestors a ha).choose_spec.distinct, Json.distinct_filter hown _⟩
  have hparents : ∀ s ∈ ancestors ++ [Fields.erase own "extends"],
      Fields.get? s "extends" = none := by
    rw [List.forall_mem_append, List.forall_mem_singleton]
    exact ⟨fun a ha => (hancestors a ha).choose_spec.noParents, Fields.get?_erase_self own _⟩
  have hnormal : ∀ a ∈ ancestors, normalizeOwn a = a :=
    fun a ha => normalizeOwn_of_flat (hancestors a ha).choose_spec
  have hflat : Flat (ancestors ++ [Fields.erase own "extends"])
      (combine ancestors (Fields.erase own "extends")) := by
    rw [combine_eq_gathered hnormal hparents]
    exact flat_gathered hdistinct
  have hstands : List.Forall₂ StandsFor (parts ++ [[own]])
      (ancestors ++ [Fields.erase own "extends"]) := by
    refine List.rel_append (hparts.imp ?_) (.cons (standsFor_own own) .nil)
    rintro part a ⟨parent, ha⟩
    exact standsFor_of_flat ha
  have hflatten : (parts ++ [[own]]).flatten = parts.flatten ++ [own] := by simp
  rw [← hflatten]
  exact hflat.flatten hstands

open Session in
/-- Whatever was asked before, a view that resolves is what its sources come to in one go, ancestors
counted as often as they are reached, and so is one that is resolved from outside the pool. -/
theorem view_inheritance_is_flat_fold (moves : List Move) {pool : Pool}
    (hpool : pool ∈ (start.after rules moves).pools)
    (hdistinct : (Json.object pool.declarations).distinct = true) :
    let r := (start.after rules moves).resolver
    (∀ name e, (r.resolve rules pool name).1 = .ok e →
      (∃ sources, Sources pool.declarations [name] sources) ∧
        ∀ sources, Sources pool.declarations [name] sources → Flat sources e) ∧
    ∀ id declaration e, declaration.distinct = true →
      (r.resolveDetached rules pool id declaration).1 = .ok e →
        (∃ sources, SourcesOf pool.declarations declaration sources) ∧
          ∀ sources, SourcesOf pool.declarations declaration sources → Flat sources e :=
  flat_of_resolve combinesFlat moves hpool hdistinct

def remoteView : Entity :=
  [("template", .string "./pair/remote.html"),
    ("options", .object [("title", .object [("required", .bool true)]),
      ("svg", .object [("required", .bool true)]), ("next", .bool true)]),
    ("prepend", .string "<a>")]

def switchView : Entity :=
  [("extends", .string "remote"),
    ("options", .object [("svg", .object [("default", .string "./images/light.svg")]),
      ("next", .bool false)]),
    ("prepend", .null)]

def dimmerView : Entity :=
  [("extends", .ofStrings ["remote", "switch"]), ("prepend", .ofStrings ["<b>"]),
    ("options", .string "none")]

def viewSample : Fields Json :=
  [("remote", .object remoteView), ("switch", .object switchView), ("dimmer", .object dimmerView)]

def viewPool : Pool := (Pool.empty 0).extend viewSample 1

open Session in
/-- An inherited option stays required with its new default, and what is inherited twice stands
twice in a list. -/
theorem dimmer_is_flat_fold :
    viewPool ∈ (start.after rules [.create, .extend 0 viewSample]).pools ∧
    (∃ e, ((start.after rules [.create, .extend 0 viewSample]).resolver.resolve rules viewPool
        "dimmer").1 = .ok e ∧
      Fields.names e = ["template", "options", "prepend", "append"] ∧
      Fields.get? (fieldsOf "svg" e) "required" = some (.bool true) ∧
      Fields.get? (fieldsOf "svg" e) "default" = some (.string "./images/light.svg") ∧
      Fields.get? (fieldsOf "next" e) "default" = some (.bool false) ∧
      Fields.get? e "prepend" = some (.ofStrings ["<a>", "<a>", "<b>"])) ∧
    ∃ e, ((start.after rules [.create, .extend 0 viewSample]).resolver.resolveDetached rules
        viewPool "spare" (.object switchView)).1 = .ok e ∧ Flat [remoteView, switchView] e := by
  have hpool : viewPool ∈ (start.after rules [.create, .extend 0 viewSample]).pools :=
    List.mem_singleton_self _
  obtain ⟨hview, hdetached⟩ := view_inheritance_is_flat_fold [.create, .extend 0 viewSample] hpool
    (by decide +kernel)
  have hremote : Sources viewPool.declarations ["remote"] [remoteView] :=
    sources_of_declared rfl ⟨remoteView, [], [], rfl, .absent, .nil, rfl⟩
  have hspare : SourcesOf viewPool.declarations (.object switchView) [remoteView, switchView] :=
    ⟨switchView, ["remote"], [remoteView], rfl, .one "remote", hremote, rfl⟩
  have hdimmer : Sources viewPool.declarations ["dimmer"]
      [remoteView, remoteView, switchView, dimmerView] :=
    sources_of_declared rfl ⟨dimmerView, ["remote", "switch"], _, rfl, .many _,
      hremote.append_first (sources_of_declared rfl hspare), rfl⟩
  refine ⟨hpool, ?_, ?_⟩
  · obtain ⟨e, he⟩ : ∃ e, ((start.after rules [.create, .extend 0 viewSample]).resolver.resolve
        rules viewPool "dimmer").1 = .ok e := ⟨_, by cbv⟩
    have hflat := (hview "dimmer" e he).2 _ hdimmer
    have hnames := hflat.names_eq
    have hnamed :
        (([remoteView, remoteView, switchView, dimmerView].flatMap plainNames).eraseDups ++
        mergedNames) = ["template", "options", "prepend", "append"] := by decide +kernel
    rw [hnamed] at hnames
    exact ⟨e, he, hnames, hflat.field "svg" "required", hflat.field "svg" "default",
      hflat.field "next" "default", hflat.list "prepend" (by decide)⟩
  · obtain ⟨e, he⟩ : ∃ e, ((start.after rules
        [.create, .extend 0 viewSample]).resolver.resolveDetached rules viewPool "spare"
          (.object switchView)).1 = .ok e := ⟨_, by cbv⟩
    exact ⟨e, he, (hdetached "spare" (.object switchView) e (by decide +kernel) he).2 _ hspare⟩

end View

end RadioDriver
