import RadioDriver.Proofs.Inherit.Descriptors
import RadioDriver.Proofs.Inherit.Texts

namespace RadioDriver

namespace DeviceClass

open RadioDriver.Lineage RadioDriver.Locale

/-- The paths to values that a later source replaces. -/
inductive Overriding : List String → Prop
  | field {name : String} (plain : name ∉ ["extends", "images", "pair", "id"]) : Overriding [name]
  | image (key : String) : Overriding ["images", key]
  | pairing {key : String} (plain : key ≠ "viewOptions") : Overriding ["pair", key]
  | option (view : String) {field : String} (plain : field ∉ listNames) :
      Overriding ["pair", "viewOptions", view, field]

/-- There is an object at a path. -/
def HasObject (path : List String) (e : Entity) : Prop :=
  ∃ fields, valueAt e path = some (.object fields)

/-- The view options name a view. -/
def NamesView (view : String) (e : Entity) : Prop :=
  (valueAt e ["pair", "viewOptions", view]).isSome = true

/-- The items that the options of a view have in a list. -/
def listItems (view name : String) (e : Entity) : List Json :=
  Json.asList (valueAt e ["pair", "viewOptions", view, name])

/-- What the sources of a device class come to in one go. -/
structure Flat (id : String) (sources : List Entity) (e : Entity) : Prop where
  /-- The last source that has a value there decides. -/
  overriding : ∀ path, Overriding path → valueAt e path = lastOf (valueAt · path) sources
  object : ∀ name ∈ mergedNames, (∃ s ∈ sources, HasObject [name] s) → HasObject [name] e
  noObject : ∀ name ∈ mergedNames, (¬ ∃ s ∈ sources, HasObject [name] s) → valueAt e [name] = none
  viewOptions : HasObject ["pair"] e → HasObject ["pair", "viewOptions"] e
  view : ∀ view, (∃ s ∈ sources, NamesView view s) → HasObject ["pair", "viewOptions", view] e
  noView : ∀ view, (¬ ∃ s ∈ sources, NamesView view s) →
    valueAt e ["pair", "viewOptions", view] = none
  /-- Lists are concatenated in the order of the sources. -/
  list : ∀ view, ∀ name ∈ listNames, (∃ s ∈ sources, NamesView view s) →
    valueAt e ["pair", "viewOptions", view, name] =
      some (.array (sources.flatMap (listItems view name)))
  ownId : valueAt e ["id"] = some (.string id)
  noParents : valueAt e ["extends"] = none
  /-- No object in it names a field twice. -/
  distinct : (Json.object e).distinct = true

variable {id name view : String} {ancestors sources : List Entity} {own e : Entity}
  {parts : List (List Entity)}

theorem mem_objectsUnder {fields : Fields Json} :
    fields ∈ objectsUnder name sources ↔
      ∃ s ∈ sources, Fields.get? s name = some (.object fields) := by
  have hfields : ∀ s : Entity, (Fields.get? s name).bind Json.fields? = some fields ↔
      Fields.get? s name = some (.object fields) := by
    intro s
    cases Fields.get? s name with
    | none => simp
    | some v => cases v <;> simp [Json.fields?]
  simp only [objectsUnder, List.mem_filterMap, hfields]

theorem objectsUnder_eq_nil :
    objectsUnder name sources = [] ↔ ¬ ∃ s ∈ sources, HasObject [name] s := by
  rw [List.eq_nil_iff_forall_not_mem]
  simp only [mem_objectsUnder, HasObject, valueAt]
  constructor
  · rintro h ⟨s, hs, fields, hfields⟩
    exact h fields ⟨s, hs, hfields⟩
  · rintro h fields ⟨s, hs, hfields⟩
    exact h ⟨s, hs, fields, hfields⟩

theorem distinct_objectsUnder (h : ∀ s ∈ sources, (Json.object s).distinct = true) :
    ∀ o ∈ objectsUnder name sources, (Json.object o).distinct = true := by
  intro o ho
  obtain ⟨s, hs, hobject⟩ := mem_objectsUnder.mp ho
  exact Json.distinct_of_get? (h s hs) hobject

theorem nodup_objectsUnder (h : ∀ s ∈ sources, (Json.object s).distinct = true) (name : String) :
    ∀ o ∈ objectsUnder name sources, (Fields.names o).Nodup :=
  fun o ho => (Json.distinct_object.mp (distinct_objectsUnder h o ho)).1

theorem lastOf_objectsUnder (name next : String) (rest : List String) (sources : List Entity) :
    lastOf (valueAt · (next :: rest)) (objectsUnder name sources) =
      lastOf (valueAt · (name :: next :: rest)) sources := by
  simp only [objectsUnder, lastOf_filterMap, valueAt_below_object]

theorem exists_objectsUnder (name next : String) (rest : List String) :
    (∃ o ∈ objectsUnder name sources, (valueAt o (next :: rest)).isSome = true) ↔
      ∃ s ∈ sources, (valueAt s (name :: next :: rest)).isSome = true := by
  simp only [valueAt_below_object, objectsUnder, List.mem_filterMap, Option.isSome_bind,
    Option.any_eq_true]
  constructor
  · rintro ⟨o, ⟨s, hs, ho⟩, hsome⟩
    exact ⟨s, hs, o, ho, hsome⟩
  · rintro ⟨s, hs, o, ho, hsome⟩
    exact ⟨o, ⟨s, hs, ho⟩, hsome⟩

theorem flatMap_objectsUnder (name next : String) (rest : List String) (sources : List Entity) :
    ((objectsUnder name sources).flatMap fun o => Json.asList (valueAt o (next :: rest))) =
      sources.flatMap fun s => Json.asList (valueAt s (name :: next :: rest)) := by
  induction sources with
  | nil => rfl
  | cons s sources ih =>
    rw [List.flatMap_cons, ← ih, valueAt_below_object, objectsUnder, List.filterMap_cons]
    cases (Fields.get? s name).bind Json.fields? <;> rfl

def viewTable (sources : List Entity) : Fields (Fields Json) :=
  (objectsUnder "pair" sources).foldl mergeViewOptions []

theorem tabled_viewTable (h : ∀ s ∈ sources, (Json.object s).distinct = true) :
    Tabled (objectsUnder "pair" sources) (viewTable sources) :=
  tabled_mergeViewOptions (distinct_objectsUnder h)

theorem isSome_viewTable (h : ∀ s ∈ sources, (Json.object s).distinct = true) (view : String) :
    (Fields.get? (viewTable sources) view).isSome = true ↔ ∃ s ∈ sources, NamesView view s :=
  ((tabled_viewTable h).named view).trans (exists_objectsUnder "pair" "viewOptions" [view])

theorem get?_mergedField_self (name : String) (merge : List (Fields Json) → Fields Json)
    (objects : List (Fields Json)) :
    Fields.get? (mergedField name merge objects) name =
      if objects = [] then none else some (.object (merge objects)) := by
  cases objects with
  | nil => rfl
  | cons o rest => simp [mergedField, Fields.get?]

theorem get?_mergedField_of_ne {other : String} (h : other ≠ name)
    (merge : List (Fields Json) → Fields Json) (objects : List (Fields Json)) :
    Fields.get? (mergedField name merge objects) other = none := by
  rw [Fields.get?_eq_none_iff]
  exact fun hmem => h (mem_names_mergedField hmem)

/-- What a path leads to below merged objects, when nothing would be there without any. -/
theorem valueAt_mergedField {merge : List (Fields Json) → Fields Json}
    {objects : List (Fields Json)} {next : String} {rest : List String}
    (h : Fields.get? e name = if objects = [] then none else some (.object (merge objects)))
    (hnil : valueAt (merge []) (next :: rest) = none) :
    valueAt e (name :: next :: rest) = valueAt (merge objects) (next :: rest) := by
  rw [valueAt_below_object, h]
  split
  · next hempty => rw [hempty, hnil]; rfl
  · rfl

theorem get?_combine_id (id : String) (ancestors : List Entity) (own : Entity) :
    Fields.get? (combine id ancestors own) "id" = some (.string id) :=
  Fields.get?_set_self _ _ _

section
variable (id ancestors own)

theorem get?_combine (h : ∀ s ∈ ancestors ++ [own], (Fields.names s).Nodup) (hid : name ≠ "id")
    (hname : name ∉ mergedNames) :
    Fields.get? (combine id ancestors own) name =
      lastOf (Fields.get? · name) (ancestors ++ [own]) := by
  have himages : name ≠ "images" := fun heq => hname (heq ▸ by decide)
  have hpair : name ≠ "pair" := fun heq => hname (heq ▸ by decide)
  have hplain := Fields.get?_foldl_override_filter h (fun n => n ∉ mergedNames) name
  rw [if_pos (decide_eq_true hname)] at hplain
  rw [combine, Fields.get?_set_of_ne _ _ hid, Fields.get?_append, Fields.get?_append,
    get?_mergedField_of_ne himages, get?_mergedField_of_ne hpair, Option.or_none, Option.or_none]
  exact hplain

theorem get?_mergePlain_none (hname : name ∈ mergedNames) :
    Fields.get? (sources.foldl mergePlain []) name = none := by
  rw [Fields.get?_eq_none_iff]
  exact fun hmem => (plain_names sources).2 name hmem hname

theorem get?_combine_images :
    Fields.get? (combine id ancestors own) "images" =
      if objectsUnder "images" (ancestors ++ [own]) = [] then none
      else
        some (.object ((objectsUnder "images" (ancestors ++ [own])).foldl Fields.override [])) := by
  rw [combine, Fields.get?_set_of_ne _ _ (by decide), Fields.get?_append, Fields.get?_append,
    get?_mergePlain_none (by decide),
    get?_mergedField_of_ne (by decide : "images" ≠ "pair"), Option.or_none, Option.none_or]
  exact get?_mergedField_self "images" _ _

theorem get?_combine_pair :
    Fields.get? (combine id ancestors own) "pair" =
      if objectsUnder "pair" (ancestors ++ [own]) = [] then none
      else some (.object (mergePairs (objectsUnder "pair" (ancestors ++ [own])))) := by
  rw [combine, Fields.get?_set_of_ne _ _ (by decide), Fields.get?_append, Fields.get?_append,
    get?_mergePlain_none (by decide),
    get?_mergedField_of_ne (by decide : "pair" ≠ "images"), Option.none_or, Option.none_or]
  exact get?_mergedField_self "pair" _ _

end

theorem distinct_append_mergedField {merge : List (Fields Json) → Fields Json}
    {objects : List (Fields Json)} {fields : Fields Json}
    (h : (Json.object fields).distinct = true) (hname : name ∉ Fields.names fields)
    (hmerged : (Json.object (merge objects)).distinct = true) :
    (Json.object (fields ++ mergedField name merge objects)).distinct = true := by
  cases objects with
  | nil => rwa [mergedField, List.append_nil]
  | cons o rest =>
    rw [mergedField, ← Fields.set_eq_append hname]
    · exact Json.distinct_set h hmerged
    · exact fun hnil => nomatch hnil

theorem distinct_combine (id : String)
    (h : ∀ s ∈ ancestors ++ [own], (Json.object s).distinct = true) :
    (Json.object (combine id ancestors own)).distinct = true := by
  unfold combine
  generalize ancestors ++ [own] = sources at h
  have hplain : (Json.object (sources.foldl mergePlain [])).distinct = true :=
    Json.distinct_foldl_override h _
  have himages : (Json.object ((objectsUnder "images" sources).foldl Fields.override [])).distinct =
      true :=
    List.foldlRecOn _ Fields.override (motive := fun fields =>
      (Json.object fields).distinct = true) rfl fun fields hfields o ho =>
        Json.distinct_override hfields (Json.distinct_object.mp (distinct_objectsUnder h o ho)).2
  have hnames : ∀ name ∈ mergedNames, name ∉ Fields.names (sources.foldl mergePlain []) :=
    fun name hname hmem => (plain_names sources).2 name hmem hname
  refine Json.distinct_set ?_ rfl
  refine distinct_append_mergedField ?_ ?_ (distinct_mergePairs (distinct_objectsUnder h))
  · exact distinct_append_mergedField hplain (hnames "images" (by decide)) himages
  · intro hmem
    rw [Fields.names, List.map_append, List.mem_append] at hmem
    rcases hmem with hplainName | himageName
    · exact hnames "pair" (by decide) hplainName
    · exact absurd (mem_names_mergedField himageName) (by decide)

section
variable (id ancestors own)

theorem overriding_combine (h : ∀ s ∈ ancestors ++ [own], (Json.object s).distinct = true)
    {path : List String} (hpath : Overriding path) :
    valueAt (combine id ancestors own) path = lastOf (valueAt · path) (ancestors ++ [own]) := by
  have hnodup : ∀ s ∈ ancestors ++ [own], (Fields.names s).Nodup :=
    fun s hs => (Json.distinct_object.mp (h s hs)).1
  have hobjects := nodup_objectsUnder h
  cases hpath with
  | @field name plain =>
    have hname : name ≠ "id" ∧ name ∉ mergedNames := by
      simp only [List.mem_cons, List.not_mem_nil, or_false, not_or] at plain
      simp [mergedNames, plain]
    exact get?_combine id ancestors own hnodup hname.1 hname.2
  | image key =>
    rw [valueAt_mergedField (get?_combine_images id ancestors own) rfl, ← lastOf_objectsUnder]
    have hfold := Fields.get?_foldl_override (hobjects "images") [] key
    rwa [Fields.get?, Option.or_none] at hfold
  | @pairing key plain =>
    have hnil : valueAt (mergePairs []) [key] = none := by
      simp [mergePairs, valueAt, Fields.get?, Ne.symm plain]
    rw [valueAt_mergedField (get?_combine_pair id ancestors own) hnil, ← lastOf_objectsUnder]
    exact get?_mergePairs (hobjects "pair") plain
  | @option view field plain =>
    rw [valueAt_mergedField (get?_combine_pair id ancestors own) rfl, ← lastOf_objectsUnder,
      valueAt_mergePairs_option (hobjects "pair"), ← get?_optionsIn _ view plain]
    exact (tabled_viewTable h).option view field plain

theorem get?_combine_merged (hname : name ∈ mergedNames) :
    ∃ merged, Fields.get? (combine id ancestors own) name =
      if objectsUnder name (ancestors ++ [own]) = [] then none else some (.object merged) := by
  have hcases : name = "images" ∨ name = "pair" := by simpa [mergedNames] using hname
  rcases hcases with rfl | rfl
  · exact ⟨_, get?_combine_images id ancestors own⟩
  · exact ⟨_, get?_combine_pair id ancestors own⟩

theorem viewOptions_combine (h : ∀ s ∈ ancestors ++ [own], (Json.object s).distinct = true)
    (hpair : HasObject ["pair"] (combine id ancestors own)) :
    HasObject ["pair", "viewOptions"] (combine id ancestors own) := by
  obtain ⟨fields, hfields⟩ := hpair
  have hget : Fields.get? (combine id ancestors own) "pair" = some (.object fields) := hfields
  rw [get?_combine_pair] at hget
  split at hget
  · cases hget
  · next hobjects =>
    refine ⟨Fields.mapValues .object (viewTable (ancestors ++ [own])), ?_⟩
    rw [valueAt_below_object, get?_combine_pair, if_neg hobjects]
    exact get?_mergePairs_viewOptions _ (nodup_objectsUnder h "pair")

theorem valueAt_combine_view (h : ∀ s ∈ ancestors ++ [own], (Json.object s).distinct = true)
    (view : String) :
    valueAt (combine id ancestors own) ["pair", "viewOptions", view] =
      (Fields.get? (viewTable (ancestors ++ [own])) view).map Json.object := by
  rw [valueAt_mergedField (get?_combine_pair id ancestors own) rfl,
    valueAt_mergePairs_view (nodup_objectsUnder h "pair"), viewTable]

theorem list_combine (h : ∀ s ∈ ancestors ++ [own], (Json.object s).distinct = true)
    (hname : name ∈ listNames) (hnamed : ∃ s ∈ ancestors ++ [own], NamesView view s) :
    valueAt (combine id ancestors own) ["pair", "viewOptions", view, name] =
      some (.array ((ancestors ++ [own]).flatMap (listItems view name))) := by
  obtain ⟨options, hoptions⟩ := Option.isSome_iff_exists.mp ((isSome_viewTable h view).mpr hnamed)
  have hlist := (tabled_viewTable h).list view name hname
  rw [optionsIn, hoptions, flatMap_objectsUnder] at hlist
  rw [viewTable] at hoptions
  rw [valueAt_mergedField (get?_combine_pair id ancestors own) rfl,
    valueAt_mergePairs_option (nodup_objectsUnder h "pair"), hoptions]
  exact hlist

theorem flat_combine (h : ∀ s ∈ ancestors ++ [own], (Json.object s).distinct = true)
    (hparents : ∀ s ∈ ancestors ++ [own], Fields.get? s "extends" = none) :
    Flat id (ancestors ++ [own]) (combine id ancestors own) where
  overriding _ := overriding_combine id ancestors own h
  object name hname hsome := by
    obtain ⟨merged, hmerged⟩ := get?_combine_merged id ancestors own hname
    rw [if_neg (mt objectsUnder_eq_nil.mp (not_not.mpr hsome))] at hmerged
    exact ⟨merged, hmerged⟩
  noObject name hname hnone := by
    obtain ⟨merged, hmerged⟩ := get?_combine_merged id ancestors own hname
    rwa [if_pos (objectsUnder_eq_nil.mpr hnone)] at hmerged
  viewOptions := viewOptions_combine id ancestors own h
  view view hsome := by
    obtain ⟨options, hoptions⟩ := Option.isSome_iff_exists.mp ((isSome_viewTable h view).mpr hsome)
    refine ⟨options, ?_⟩
    rw [valueAt_combine_view id ancestors own h, hoptions]
    rfl
  noView view hnone := by
    have hnotIn := Option.not_isSome_iff_eq_none.mp (mt (isSome_viewTable h view).mp hnone)
    rw [valueAt_combine_view id ancestors own h, hnotIn]
    rfl
  list _ _ hname hsome := list_combine id ancestors own h hname hsome
  ownId := get?_combine_id id ancestors own
  noParents := by
    have hnodup : ∀ s ∈ ancestors ++ [own], (Fields.names s).Nodup :=
      fun s hs => (Json.distinct_object.mp (h s hs)).1
    have hlast := get?_combine id ancestors own hnodup (by decide : "extends" ≠ "id") (by decide)
    exact hlast.trans (lastOf_eq_none hparents)
  distinct := distinct_combine id h

end

/-- An entity that can take the place of a part of the sources. -/
structure StandsFor (part : List Entity) (e : Entity) : Prop where
  overriding : ∀ path, Overriding path → valueAt e path = lastOf (valueAt · path) part
  object : ∀ name ∈ mergedNames, (HasObject [name] e ↔ ∃ s ∈ part, HasObject [name] s)
  view : ∀ view, (NamesView view e ↔ ∃ s ∈ part, NamesView view s)
  list : ∀ view, ∀ name ∈ listNames, listItems view name e = part.flatMap (listItems view name)

theorem listItems_of_unnamed (h : ¬ NamesView view e) : listItems view name e = [] := by
  have hview : valueAt e ["pair", "viewOptions", view] = none := Option.not_isSome_iff_eq_none.mp h
  have hoption : valueAt e (["pair", "viewOptions", view] ++ [name]) = none := by
    rw [valueAt_append (List.cons_ne_nil _ _) (List.cons_ne_nil _ _), hview]
  exact congrArg Json.asList hoption

theorem standsFor_of_flat (h : Flat id sources e) : StandsFor sources e where
  overriding := h.overriding
  object name hname := by
    refine ⟨?_, h.object name hname⟩
    rintro ⟨fields, hfields⟩
    by_contra hnone
    rw [h.noObject name hname hnone] at hfields
    cases hfields
  view view := by
    constructor
    · intro hnames
      by_contra hnone
      rw [NamesView, h.noView view hnone] at hnames
      cases hnames
    · intro hsome
      obtain ⟨options, hoptions⟩ := h.view view hsome
      rw [NamesView, hoptions]
      rfl
  list view name hname := by
    by_cases hsome : ∃ s ∈ sources, NamesView view s
    · rw [listItems, h.list view name hname hsome]
      rfl
    · have hnone : ∀ s ∈ sources, listItems view name s = [] := by
        intro s hs
        exact listItems_of_unnamed fun hnames => hsome ⟨s, hs, hnames⟩
      rw [List.flatMap_eq_nil_iff.mpr hnone]
      refine listItems_of_unnamed fun hnames => ?_
      rw [NamesView, h.noView view hsome] at hnames
      cases hnames

theorem valueAt_erase (own : Entity) {first : String} (h : first ≠ "extends") (rest : List String) :
    valueAt (Fields.erase own "extends") (first :: rest) = valueAt own (first :: rest) := by
  cases rest with
  | nil => exact Fields.get?_erase_of_ne own h
  | cons next rest =>
    rw [valueAt_below_object, valueAt_below_object, Fields.get?_erase_of_ne own h]

theorem standsFor_own (own : Entity) : StandsFor [own] (Fields.erase own "extends") where
  overriding path hpath := by
    rw [lastOf_singleton]
    cases hpath with
    | @field name plain => exact valueAt_erase own (fun heq => plain (heq ▸ List.mem_cons_self)) []
    | image key => exact valueAt_erase own (by decide) _
    | pairing plain => exact valueAt_erase own (by decide) _
    | option view plain => exact valueAt_erase own (by decide) _
  object name hname := by
    have hne : name ≠ "extends" := fun heq => absurd (heq ▸ hname) (by decide)
    simp [HasObject, valueAt_erase own hne]
  view view := by simp [NamesView, valueAt_erase own (by decide : "pair" ≠ "extends")]
  list view name _ := by simp [listItems, valueAt_erase own (by decide : "pair" ≠ "extends")]

theorem Flat.flatten (h : Flat id sources e) (hparts : List.Forall₂ StandsFor parts sources) :
    Flat id parts.flatten e := by
  have hobject : ∀ name ∈ mergedNames, (∃ s ∈ sources, HasObject [name] s) ↔
      ∃ s ∈ parts.flatten, HasObject [name] s :=
    fun name hname => exists_flatten (hparts.imp fun _ _ hp => hp.object name hname)
  have hview : ∀ view, (∃ s ∈ sources, NamesView view s) ↔
      ∃ s ∈ parts.flatten, NamesView view s :=
    fun view => exists_flatten (hparts.imp fun _ _ hp => hp.view view)
  -- each clause asks for the last value, for all of them or for any, which parts answer alike
  exact {
    overriding := fun path hpath => (h.overriding path hpath).trans
      (lastOf_flatten (hparts.imp fun _ _ hp => hp.overriding path hpath))
    object := fun name hname hsome => h.object name hname ((hobject name hname).mpr hsome)
    noObject := fun name hname hnone => h.noObject name hname (mt (hobject name hname).mp hnone)
    viewOptions := h.viewOptions
    view := fun view hsome => h.view view ((hview view).mpr hsome)
    noView := fun view hnone => h.noView view (mt (hview view).mp hnone)
    list := fun view name hname hsome => by
      rw [h.list view name hname ((hview view).mpr hsome),
        flatMap_flatten (hparts.imp fun _ _ hp => hp.list view name hname)]
    ownId := h.ownId
    noParents := h.noParents
    distinct := h.distinct }

theorem combinesFlat : CombinesFlat rules Flat := by
  intro id own parts ancestors hown hparts
  have hflat : Flat id (ancestors ++ [Fields.erase own "extends"])
      (combine id ancestors (Fields.erase own "extends")) := by
    apply flat_combine
    · rw [List.forall_mem_append, List.forall_mem_singleton]
      refine ⟨fun a ha => ?_, Json.distinct_filter hown _⟩
      obtain ⟨part, parent, ha⟩ := exists_part hparts a ha
      exact ha.distinct
    · rw [List.forall_mem_append, List.forall_mem_singleton]
      refine ⟨fun a ha => ?_, Fields.get?_erase_self own "extends"⟩
      obtain ⟨part, parent, ha⟩ := exists_part hparts a ha
      exact ha.noParents
  have hstands : List.Forall₂ StandsFor (parts ++ [[own]])
      (ancestors ++ [Fields.erase own "extends"]) := by
    refine List.rel_append (hparts.imp ?_) (.cons (standsFor_own own) .nil)
    rintro part a ⟨parent, ha⟩
    exact standsFor_of_flat ha
  have hflatten : (parts ++ [[own]]).flatten = parts.flatten ++ [own] := by simp
  rw [← hflatten]
  exact hflat.flatten hstands

open Session in
/-- Whatever was asked before, a device class that resolves is what its sources come to in one go,
ancestors counted as often as they are reached, and so is a device that is resolved from outside the
pool. -/
theorem inheritance_is_flat_fold (moves : List Move) {pool : Pool}
    (hpool : pool ∈ (start.after rules moves).pools)
    (hdistinct : (Json.object pool.declarations).distinct = true) :
    let r := (start.after rules moves).resolver
    (∀ name e, (r.resolve rules pool name).1 = .ok e →
      (∃ sources, Sources pool.declarations [name] sources) ∧
        ∀ sources, Sources pool.declarations [name] sources → Flat name sources e) ∧
    ∀ id declaration e, declaration.distinct = true →
      (r.resolveDetached rules pool id declaration).1 = .ok e →
        (∃ sources, SourcesOf pool.declarations declaration sources) ∧
          ∀ sources, SourcesOf pool.declarations declaration sources → Flat id sources e :=
  flat_of_resolve combinesFlat moves hpool hdistinct

def switchClass : Entity :=
  [("class", .string "light"),
    ("pair", .object [("viewOptions", .object
      [("choice", .object [("title", .string "pair.begin"), ("prepend", .string "<a>")])])])]

def lampClass : Entity := [("extends", .string "switch"), ("images", .null)]

/-- A class that inherits twice from the first one and adds to its options. -/
def socketClass : Entity :=
  [("extends", .ofStrings ["switch", "lamp"]),
    ("pair", .object [("viewOptions", .object
      [("choice", .object [("prepend", .ofStrings ["<b>"])])])])]

def classSample : Fields Json :=
  [("switch", .object switchClass), ("lamp", .object lampClass), ("socket", .object socketClass)]

def classPool : Pool := (Pool.empty 0).extend classSample 1

open Session in
/-- The content of the class that is inherited twice stands twice. -/
theorem socket_is_flat_fold :
    classPool ∈ (start.after rules [.create, .extend 0 classSample]).pools ∧
    (∃ e, ((start.after rules [.create, .extend 0 classSample]).resolver.resolve rules classPool
        "socket").1 = .ok e ∧
      valueAt e ["pair", "viewOptions", "choice", "prepend"] =
        some (.ofStrings ["<a>", "<a>", "<b>"])) ∧
    ∃ e, ((start.after rules [.create, .extend 0 classSample]).resolver.resolveDetached rules
        classPool "plug" (.object lampClass)).1 = .ok e ∧
      Flat "plug" [switchClass, lampClass] e := by
  have hpool : classPool ∈ (start.after rules [.create, .extend 0 classSample]).pools :=
    List.mem_singleton_self _
  obtain ⟨hclass, hdevice⟩ := inheritance_is_flat_fold [.create, .extend 0 classSample] hpool
    (by decide +kernel)
  have hswitch : Sources classPool.declarations ["switch"] [switchClass] :=
    sources_of_declared rfl ⟨switchClass, [], [], rfl, .absent, .nil, rfl⟩
  have hplug : SourcesOf classPool.declarations (.object lampClass) [switchClass, lampClass] :=
    ⟨lampClass, ["switch"], [switchClass], rfl, .one "switch", hswitch, rfl⟩
  have hsocket : Sources classPool.declarations ["socket"]
      [switchClass, switchClass, lampClass, socketClass] :=
    sources_of_declared rfl ⟨socketClass, ["switch", "lamp"], _, rfl, .many _,
      hswitch.append_first (sources_of_declared rfl hplug), rfl⟩
  refine ⟨hpool, ?_, ?_⟩
  · obtain ⟨e, he⟩ : ∃ e, ((start.after rules [.create, .extend 0 classSample]).resolver.resolve
        rules classPool "socket").1 = .ok e := ⟨_, by cbv⟩
    have hflat := (hclass "socket" e he).2 _ hsocket
    have hnamed : ∃ s ∈ [switchClass, switchClass, lampClass, socketClass],
        NamesView "choice" s := ⟨switchClass, List.mem_cons_self, rfl⟩
    exact ⟨e, he, hflat.list "choice" "prepend" (by decide) hnamed⟩
  · obtain ⟨e, he⟩ : ∃ e, ((start.after rules
        [.create, .extend 0 classSample]).resolver.resolveDetached rules classPool "plug"
          (.object lampClass)).1 = .ok e := ⟨_, by cbv⟩
    exact ⟨e, he, (hdevice "plug" (.object lampClass) e (by decide +kernel) he).2 _ hplug⟩

end DeviceClass

end RadioDriver
