import RadioDriver.Inherit.DeviceClass
import RadioDriver.Inherit.View
import RadioDriver.Proofs.Inherit.Resolvable
import RadioDriver.Proofs.Json.Texts

namespace RadioDriver

open Json

variable {p : String → Bool}

namespace Lineage

variable {rules : Rules} {declared : Fields Json} {chain : List String} {id name : String}
  {declaration : Json} {e : Entity} {P : Entity → Prop}

theorem ancestors_of_combined {lookUp : String → Except ResolveError Entity}
    (h : combined rules lookUp id declaration = .ok e) :
    ∃ own ancestors, declaration = .object own ∧
      (∀ a ∈ ancestors, ∃ parent, lookUp parent = .ok a) ∧
      e = rules.combine id ancestors (Fields.erase own "extends") := by
  obtain ⟨own, parents, rfl, hp, -⟩ := parents_of_combined h
  rw [combined_of_parents hp] at h
  obtain ⟨ancestors, hancestors, rfl⟩ := except_map_eq_ok.mp h
  exact ⟨own, ancestors, rfl, exists_part (mapM_eq_ok_iff.mp hancestors), rfl⟩

/-- What holds of a combined entity once it holds of the ancestors holds of every entity that can be
resolved. -/
theorem entity_of_combine {P : String → Entity → Prop}
    (hcombine : ∀ id own ancestors, Fields.get? declared id = some (.object own) →
      (∀ a ∈ ancestors, ∃ parent, P parent a) →
      P id (rules.combine id ancestors (Fields.erase own "extends")))
    (h : entity rules declared chain name = .ok e) : P name e := by
  induction chain, name using entity.induct declared generalizing e with
  | case1 chain name hc =>
    rw [entity_of_mem hc] at h
    cases h
  | case2 chain name hc hd =>
    rw [entity_of_undeclared hc hd] at h
    cases h
  | case3 chain name hc declaration hd _ ih =>
    rw [entity_of_declared hc hd] at h
    obtain ⟨own, ancestors, rfl, hancestors, rfl⟩ := ancestors_of_combined h
    apply hcombine name own ancestors hd
    intro a ha
    obtain ⟨parent, hparent⟩ := hancestors a ha
    exact ⟨parent, ih parent hparent⟩

theorem entity_keeps
    (hcombine : ∀ id ancestors own, (∀ a ∈ ancestors, P a) → allFieldTexts p own = true →
      P (rules.combine id ancestors own))
    (hdeclared : allFieldTexts p declared = true)
    (h : entity rules declared chain name = .ok e) : P e := by
  refine entity_of_combine (P := fun _ => P) ?_ h
  intro id own ancestors hd hancestors
  have hown : allFieldTexts p own = true := allTexts_of_get? hdeclared hd
  apply hcombine
  · intro a ha
    obtain ⟨-, hkept⟩ := hancestors a ha
    exact hkept
  · exact allFieldTexts_filter hown _

theorem entities_keep {all : Fields Entity}
    (hcombine : ∀ id ancestors own, (∀ a ∈ ancestors, P a) → allFieldTexts p own = true →
      P (rules.combine id ancestors own))
    (hdeclared : allFieldTexts p declared = true) (h : entities rules declared = .ok all) :
    ∀ entry ∈ all, P entry.2 := by
  intro entry hentry
  exact entity_keeps hcombine hdeclared (entity_of_mem_entities h hentry)

end Lineage

/-- A table whose entries have only texts that satisfy a test. -/
def AllEntryTexts (p : String → Bool) (table : Fields (Fields Json)) : Prop :=
  ∀ t ∈ table, allFieldTexts p t.2 = true

section
variable {table : Fields (Fields Json)} {fields : Fields Json} {name : String}

theorem AllEntryTexts.nil : AllEntryTexts p [] := fun _ h => nomatch h

theorem AllEntryTexts.set (h : AllEntryTexts p table) (hfields : allFieldTexts p fields = true) :
    AllEntryTexts p (Fields.set table name fields) := by
  intro t ht
  rcases Fields.mem_of_mem_set ht with hold | rfl
  · exact h t hold
  · exact hfields

theorem AllEntryTexts.getD (h : AllEntryTexts p table) (name : String) {fresh : Fields Json}
    (hfresh : allFieldTexts p fresh = true) :
    allFieldTexts p ((Fields.get? table name).getD fresh) = true := by
  cases hfields : Fields.get? table name with
  | none => exact hfresh
  | some fields => exact h _ (Fields.mem_of_get? hfields)

end

namespace View

variable {ancestors sources : List Entity} {own : Entity}

theorem allTexts_normalizeOptions {v : Json} (h : v.allTexts p = true) :
    (normalizeOptions v).allTexts p = true := by
  cases v with
  | object options =>
    rw [normalizeOptions, allTexts_object, allFieldTexts_iff]
    intro f hf
    obtain ⟨option, hoption, rfl⟩ := List.mem_map.mp hf
    have hvalue : option.2.allTexts p = true := allFieldTexts_iff.mp h option hoption
    unfold normalizeOption
    split
    · exact hvalue
    · rw [allTexts_object, allFieldTexts_iff]
      simpa using hvalue
  | _ => exact h

theorem allFieldTexts_normalizeOwn (h : allFieldTexts p own = true) :
    allFieldTexts p (normalizeOwn own) = true := by
  unfold normalizeOwn
  split
  · next hoptions =>
    exact allFieldTexts_set h (allTexts_normalizeOptions (allTexts_of_get? h hoptions))
  · exact h

theorem allEntryTexts_mergeOptions {table : OptionTable} {source : Entity}
    (h : AllEntryTexts p table) (hsource : allFieldTexts p source = true) :
    AllEntryTexts p (mergeOptions table source) := by
  unfold mergeOptions
  split
  · next options hoptions =>
    have hvalues : allFieldTexts p options = true := allTexts_of_get? hsource hoptions
    refine List.foldlRecOn options mergeOption h ?_
    intro table htable option hoption
    have hvalue := allFieldTexts_iff.mp hvalues option hoption
    unfold mergeOption
    split
    · next fields hfields =>
      rw [hfields] at hvalue
      exact htable.set (allFieldTexts_override (htable.getD _ rfl) hvalue)
    · exact htable
  · exact h

theorem allTexts_concatenated (h : ∀ s ∈ sources, allFieldTexts p s = true) (name : String) :
    (Json.array (concatenated name sources)).allTexts p = true := by
  rw [allTexts_array]
  intro v hv
  obtain ⟨s, hs, hv⟩ := List.mem_flatMap.mp hv
  exact allTexts_of_mem_asList (fun w hw => allTexts_of_get? (h s hs) hw) v hv

theorem allFieldTexts_combine (hancestors : ∀ a ∈ ancestors, allFieldTexts p a = true)
    (hown : allFieldTexts p own = true) : allFieldTexts p (combine ancestors own) = true := by
  have hsources : ∀ s ∈ ancestors ++ [normalizeOwn own], allFieldTexts p s = true := by
    rw [List.forall_mem_append, List.forall_mem_singleton]
    exact ⟨hancestors, allFieldTexts_normalizeOwn hown⟩
  unfold combine
  generalize ancestors ++ [normalizeOwn own] = sources at hsources
  have hplain : allFieldTexts p (sources.foldl mergePlain []) = true :=
    List.foldlRecOn sources mergePlain (motive := fun fields => allFieldTexts p fields = true) rfl
      fun fields hfields s hs =>
        allFieldTexts_override hfields (allFieldTexts_filter (hsources s hs) _)
  have htable : AllEntryTexts p (sources.foldl mergeOptions []) :=
    List.foldlRecOn sources mergeOptions .nil fun table htable s hs =>
      allEntryTexts_mergeOptions htable (hsources s hs)
  rw [allFieldTexts_append]
  refine ⟨hplain, ?_⟩
  rw [allFieldTexts_iff, List.forall_mem_cons, List.forall_mem_cons, List.forall_mem_singleton]
  exact ⟨allTexts_objects htable, allTexts_concatenated hsources _,
    allTexts_concatenated hsources _⟩

end View

namespace DeviceClass

variable {id name : String} {ancestors sources : List Entity} {own e : Entity}
  {pairs : List (Fields Json)}

/-- Every text but the id satisfies a test. -/
def AllButId (p : String → Bool) (e : Entity) : Prop := ∀ f ∈ e, f.1 ≠ "id" → f.2.allTexts p = true

theorem AllButId.get? (h : AllButId p e) {v : Json} (hname : name ≠ "id")
    (hv : Fields.get? e name = some v) : v.allTexts p = true :=
  h _ (Fields.mem_of_get? hv) hname

theorem allButId_of_allFieldTexts (h : allFieldTexts p e = true) : AllButId p e :=
  fun f hf _ => allFieldTexts_iff.mp h f hf

theorem AllButId.set (h : AllButId p e) {v : Json} (hv : name = "id" ∨ v.allTexts p = true) :
    AllButId p (Fields.set e name v) := by
  intro f hf hne
  rcases Fields.mem_of_mem_set hf with hold | rfl
  · exact h f hold hne
  · exact hv.resolve_left hne

theorem AllButId.mergePlain {fields source : Entity} (h : AllButId p fields)
    (hsource : AllButId p source) : AllButId p (mergePlain fields source) := by
  intro f hf hne
  rcases Fields.mem_of_mem_override hf with hold | hnew
  · exact h f hold hne
  · exact hsource f (List.mem_of_mem_filter hnew) hne

theorem allFieldTexts_objectsUnder (h : ∀ s ∈ sources, AllButId p s) (hname : name ≠ "id") :
    ∀ o ∈ objectsUnder name sources, allFieldTexts p o = true := by
  intro o ho
  obtain ⟨s, hs, ho⟩ := List.mem_filterMap.mp ho
  obtain ⟨v, hv, ho⟩ := Option.bind_eq_some_iff.mp ho
  exact allFieldTexts_of_fields? ((h s hs).get? hname hv) ho

theorem allFieldTexts_mergeViewField {options : Fields Json} {field : String × Json}
    (h : allFieldTexts p options = true) (hfield : field.2.allTexts p = true) :
    allFieldTexts p (mergeViewField options field) = true := by
  unfold mergeViewField
  split
  · apply allFieldTexts_set h
    rw [allTexts_array, List.forall_mem_append]
    constructor
    · exact allTexts_of_mem_asList fun w hw => allTexts_of_get? h hw
    · apply allTexts_of_mem_asList
      intro w hw
      cases hw
      exact hfield
  · exact allFieldTexts_set h hfield

theorem allEntryTexts_mergeView {table : Fields (Fields Json)} {view : String × Json}
    (h : AllEntryTexts p table) (hview : view.2.allTexts p = true) :
    AllEntryTexts p (mergeView table view) := by
  have hoptions : allFieldTexts p ((Fields.get? table view.1).getD freshOptions) = true :=
    h.getD _ rfl
  unfold mergeView
  dsimp only
  split
  · next fields hfields =>
    rw [hfields] at hview
    apply h.set
    refine List.foldlRecOn fields mergeViewField (motive := fun options =>
      allFieldTexts p options = true) hoptions ?_
    intro options hoptions field hfield
    exact allFieldTexts_mergeViewField hoptions (allFieldTexts_iff.mp hview field hfield)
  · exact h.set hoptions

theorem allEntryTexts_mergeViewOptions {table : Fields (Fields Json)} {pair : Fields Json}
    (h : AllEntryTexts p table) (hpair : allFieldTexts p pair = true) :
    AllEntryTexts p (mergeViewOptions table pair) := by
  unfold mergeViewOptions
  split
  · next views hviews =>
    have hvalues : allFieldTexts p views = true := allTexts_of_get? hpair hviews
    exact List.foldlRecOn views mergeView h fun table htable view hview =>
      allEntryTexts_mergeView htable (allFieldTexts_iff.mp hvalues view hview)
  · exact h

theorem allFieldTexts_mergePairs (h : ∀ o ∈ pairs, allFieldTexts p o = true) :
    allFieldTexts p (mergePairs pairs) = true := by
  have hplain : allFieldTexts p (pairs.foldl
      (fun acc o => Fields.override acc (o.filter fun f => f.1 ≠ "viewOptions")) []) = true :=
    List.foldlRecOn pairs _ (motive := fun fields => allFieldTexts p fields = true) rfl
      fun acc hacc o ho => allFieldTexts_override hacc (allFieldTexts_filter (h o ho) _)
  have htable : AllEntryTexts p (pairs.foldl mergeViewOptions []) :=
    List.foldlRecOn pairs mergeViewOptions .nil fun table htable o ho =>
      allEntryTexts_mergeViewOptions htable (h o ho)
  rw [mergePairs, allFieldTexts_append]
  refine ⟨hplain, ?_⟩
  rw [allFieldTexts_iff, List.forall_mem_singleton]
  exact allTexts_objects htable

theorem allFieldTexts_mergeImages {images : List (Fields Json)}
    (h : ∀ o ∈ images, allFieldTexts p o = true) :
    allFieldTexts p (images.foldl Fields.override []) = true :=
  List.foldlRecOn images Fields.override (motive := fun fields => allFieldTexts p fields = true) rfl
    fun _ hacc o ho => allFieldTexts_override hacc (h o ho)

theorem allFieldTexts_mergedField {merge : List (Fields Json) → Fields Json}
    {objects : List (Fields Json)} (h : allFieldTexts p (merge objects) = true) :
    allFieldTexts p (mergedField name merge objects) = true := by
  cases objects with
  | nil => rfl
  | cons o rest =>
    have hone : mergedField name merge (o :: rest) = [(name, .object (merge (o :: rest)))] := rfl
    rw [hone, allFieldTexts_iff, List.forall_mem_singleton]
    exact h

theorem allButId_combine (hancestors : ∀ a ∈ ancestors, AllButId p a)
    (hown : allFieldTexts p own = true) : AllButId p (combine id ancestors own) := by
  have hsources : ∀ s ∈ ancestors ++ [own], AllButId p s := by
    rw [List.forall_mem_append, List.forall_mem_singleton]
    exact ⟨hancestors, allButId_of_allFieldTexts hown⟩
  unfold combine
  generalize ancestors ++ [own] = sources at hsources
  have hplain : AllButId p (sources.foldl DeviceClass.mergePlain []) :=
    List.foldlRecOn sources _ (fun f hf => nomatch hf) fun fields hfields s hs =>
      hfields.mergePlain (hsources s hs)
  have himages := allFieldTexts_mergeImages
    (allFieldTexts_objectsUnder hsources (by decide : "images" ≠ "id"))
  have hpair := allFieldTexts_mergePairs
    (allFieldTexts_objectsUnder hsources (by decide : "pair" ≠ "id"))
  refine AllButId.set ?_ (.inl rfl)
  rw [AllButId, List.forall_mem_append, List.forall_mem_append]
  exact ⟨⟨hplain, allButId_of_allFieldTexts (allFieldTexts_mergedField himages)⟩,
    allButId_of_allFieldTexts (allFieldTexts_mergedField hpair)⟩

theorem mem_names_mergedField {merge : List (Fields Json) → Fields Json}
    {objects : List (Fields Json)} {other : String}
    (h : other ∈ Fields.names (mergedField name merge objects)) : other = name := by
  cases objects with
  | nil => cases h
  | cons o rest => exact List.mem_singleton.mp h

theorem nodup_mergedField (merge : List (Fields Json) → Fields Json)
    (objects : List (Fields Json)) : (Fields.names (mergedField name merge objects)).Nodup := by
  cases objects with
  | nil => exact List.nodup_nil
  | cons o rest => exact List.nodup_singleton name

theorem plain_names (sources : List Entity) :
    (Fields.names (sources.foldl mergePlain [])).Nodup ∧
      ∀ name ∈ Fields.names (sources.foldl mergePlain []), name ∉ mergedNames := by
  refine ⟨Fields.nodup_foldl_override _ sources, ?_⟩
  intro name hname
  obtain ⟨f, hf, rfl⟩ := List.mem_map.mp hname
  exact of_decide_eq_true (Fields.mem_of_mem_foldl_override hf).1

theorem nodup_combine (id : String) (ancestors : List Entity) (own : Entity) :
    (Fields.names (combine id ancestors own)).Nodup := by
  unfold combine
  obtain ⟨hnodup, hnames⟩ := plain_names (ancestors ++ [own])
  apply Fields.nodup_set
  simp only [Fields.names, List.map_append, List.nodup_append, List.mem_append]
  refine ⟨⟨hnodup, nodup_mergedField _ _, ?_⟩, nodup_mergedField _ _, ?_⟩
  · rintro name hname other hother rfl
    exact hnames name hname (mem_names_mergedField hother ▸ by decide)
  · rintro name (hname | hname) other hother rfl
    · exact hnames name hname (mem_names_mergedField hother ▸ by decide)
    · rw [mem_names_mergedField hname] at hother
      exact absurd (mem_names_mergedField hother) (by decide)

theorem id_of_mem_combine {f : String × Json} (h : f ∈ combine id ancestors own)
    (hid : f.1 = "id") : f = ("id", .string id) := by
  have hset : Fields.get? (combine id ancestors own) "id" = some (.string id) :=
    Fields.get?_set_self _ _ _
  obtain ⟨name, v⟩ := f
  dsimp only at hid
  subst hid
  rw [Fields.get?_of_mem (nodup_combine id ancestors own) h] at hset
  rw [Option.some.inj hset]

/-- What all texts of the declarations satisfy is satisfied by all texts of a device but its id. -/
theorem field_of_detached {classes : Fields Json} {declaration : Json}
    (hclasses : allFieldTexts p classes = true) (hdeclaration : declaration.allTexts p = true)
    (h : Lineage.detached rules classes id declaration = .ok e) :
    ∀ f ∈ e, f.2.allTexts p = true ∨ f = ("id", .string id) := by
  obtain ⟨own, ancestors, rfl, hancestors, rfl⟩ := Lineage.ancestors_of_combined h
  have hkept : AllButId p (combine id ancestors (Fields.erase own "extends")) := by
    refine allButId_combine ?_ (allFieldTexts_filter hdeclaration _)
    intro a ha
    obtain ⟨parent, hparent⟩ := hancestors a ha
    exact Lineage.entity_keeps (fun _ _ _ => allButId_combine) hclasses hparent
  intro f hf
  by_cases hid : f.1 = "id"
  · exact .inr (id_of_mem_combine hf hid)
  · exact .inl (hkept f hf hid)

end DeviceClass

end RadioDriver
