import RadioDriver.Proofs.Inherit.FlatFold
import RadioDriver.Proofs.Inherit.ViewFold

namespace RadioDriver

/-- The same fields with the same values, in the same order but for the place of one name. -/
structure Fields.SameButPlace {α : Type} (name : String) (fields others : Fields α) : Prop where
  perm : fields.Perm others
  value : ∀ other, get? fields other = get? others other
  order : erase fields name = erase others name

namespace View

variable {ancestors : List Entity} {own e : Entity} {table : OptionTable} {name : String}

/-- Options that are named apart, each with fields that are. -/
structure Tidy (table : OptionTable) : Prop where
  nodup : (Fields.names table).Nodup
  fields : ∀ option ∈ table, (Fields.names option.2).Nodup

theorem Tidy.getD (h : Tidy table) (name : String) :
    (Fields.names ((Fields.get? table name).getD [])).Nodup := by
  cases hfields : Fields.get? table name with
  | none => exact List.nodup_nil
  | some fields => exact h.fields _ (Fields.mem_of_get? hfields)

theorem Tidy.mergeOption (h : Tidy table) (option : String × Json) :
    Tidy (mergeOption table option) := by
  unfold View.mergeOption
  split
  · refine ⟨Fields.nodup_set h.nodup, fun o ho => ?_⟩
    rcases Fields.mem_of_mem_set ho with hold | rfl
    · exact h.fields o hold
    · exact Fields.nodup_override (h.getD option.1) _
  · exact h

theorem tidy_mergeOptions (sources : List Entity) : Tidy (sources.foldl mergeOptions []) := by
  refine List.foldlRecOn sources mergeOptions ⟨List.nodup_nil, fun _ h => nomatch h⟩ ?_
  intro table htable source _
  unfold mergeOptions
  split
  · exact List.foldlRecOn _ mergeOption htable fun _ h option _ => h.mergeOption option
  · exact htable

theorem foldl_mergeOption_objects (h : Tidy table) :
    (Fields.mapValues Json.object table).foldl mergeOption [] = table := by
  rw [Fields.mapValues, List.foldl_map]
  refine Fields.foldl_eq_append ?_ h.nodup
  -- an option that is met for the first time is laid over none
  intro others option hoption hnew
  have hfields : Fields.override [] option.2 = option.2 :=
    Fields.ofPairs_of_nodup (h.fields option hoption)
  show Fields.set others option.1
    (Fields.override ((Fields.get? others option.1).getD []) option.2) = others ++ [option]
  rw [Fields.get?_eq_none_iff.mpr hnew, Option.getD_none, hfields, Fields.set_eq_append hnew]

/-- A view laid out as combining does it: the plain fields, the options as objects, the two
lists. -/
def laidOut (plain : Fields Json) (table : OptionTable) (prepended appended : List Json) : Entity :=
  plain ++ [("options", .object (Fields.mapValues .object table)), ("prepend", .array prepended),
    ("append", .array appended)]

/-- The plain fields of a settled view are plain and named apart, and its options are tidy. -/
inductive Settled : Entity → Prop
  | intro {plain : Fields Json} {table : OptionTable} {prepended appended : List Json}
      (nodup : (Fields.names plain).Nodup) (isPlain : ∀ f ∈ plain, f.1 ∉ mergedNames)
      (options : Tidy table) : Settled (laidOut plain table prepended appended)

theorem settled_combine (ancestors : List Entity) (own : Entity) :
    Settled (combine ancestors own) := by
  apply Settled.intro
  · exact Fields.nodup_foldl_override _ _
  · intro f hf
    exact of_decide_eq_true (Fields.mem_of_mem_foldl_override hf).1
  · exact tidy_mergeOptions _

section
variable {plain : Fields Json} {prepended appended : List Json}

theorem get?_laidOut (h : ∀ f ∈ plain, f.1 ∉ mergedNames) (hname : name ∈ mergedNames) :
    Fields.get? (laidOut plain table prepended appended) name =
      Fields.get? (laidOut [] table prepended appended) name := by
  have hplain : Fields.get? plain name = none := by
    rw [Fields.get?_eq_none_iff_forall]
    rintro f hf rfl
    exact h f hf hname
  rw [laidOut, Fields.get?_append, hplain, Option.none_or]
  rfl

theorem normalizeOwn_laidOut (h : ∀ f ∈ plain, f.1 ∉ mergedNames) :
    normalizeOwn (laidOut plain table prepended appended) =
      laidOut plain table prepended appended := by
  have hget : Fields.get? (laidOut plain table prepended appended) "options" =
      some (.object (Fields.mapValues .object table)) := get?_laidOut h (by decide)
  have hobjects : normalizeOptions (.object (Fields.mapValues .object table)) =
      .object (Fields.mapValues .object table) := by
    simp [normalizeOptions, Fields.mapValues, normalizeOption, Json.isObject]
  unfold normalizeOwn
  rw [hget]
  dsimp only
  rw [hobjects]
  exact Fields.set_of_get? hget

theorem mergePlain_laidOut (hnodup : (Fields.names plain).Nodup)
    (h : ∀ f ∈ plain, f.1 ∉ mergedNames) :
    mergePlain [] (laidOut plain table prepended appended) = plain := by
  have hkept : (laidOut plain table prepended appended).filter (fun f => f.1 ∉ mergedNames) =
      plain := by
    rw [laidOut, List.filter_append, List.filter_eq_self.mpr fun f hf => decide_eq_true (h f hf)]
    exact List.append_nil plain
  rw [mergePlain, hkept]
  exact Fields.ofPairs_of_nodup hnodup

theorem mergeOptions_laidOut (h : ∀ f ∈ plain, f.1 ∉ mergedNames) (hoptions : Tidy table) :
    mergeOptions [] (laidOut plain table prepended appended) = table := by
  unfold mergeOptions
  rw [get?_laidOut h (by decide)]
  exact foldl_mergeOption_objects hoptions

theorem combine_of_settled (h : Settled e) : combine [] e = e := by
  cases h with
  | intro nodup isPlain options =>
    unfold combine
    dsimp only
    rw [normalizeOwn_laidOut isPlain, List.nil_append, List.foldl_cons, List.foldl_nil,
      mergePlain_laidOut nodup isPlain, List.foldl_cons, List.foldl_nil,
      mergeOptions_laidOut isPlain options, concatenated, concatenated, List.flatMap_singleton,
      List.flatMap_singleton, get?_laidOut isPlain (by decide), get?_laidOut isPlain (by decide)]
    rfl

end

theorem noParents_combine (h : ∀ s ∈ ancestors ++ [own], Fields.get? s "extends" = none) :
    Fields.get? (combine ancestors own) "extends" = none := by
  have hsources : ∀ s ∈ ancestors ++ [normalizeOwn own], Fields.get? s "extends" = none := by
    rw [List.forall_mem_append, List.forall_mem_singleton] at h ⊢
    refine ⟨h.1, ?_⟩
    unfold normalizeOwn
    split
    · rw [Fields.get?_set_of_ne _ _ (by decide), h.2]
    · exact h.2
  have hplain :
      Fields.get? ((ancestors ++ [normalizeOwn own]).foldl mergePlain []) "extends" = none :=
    Fields.get?_foldl_override_none hsources _
  rw [combine, Fields.get?_append, hplain]
  rfl

end View

namespace DeviceClass

variable {id name : String} {ancestors : List Entity} {own e : Entity} {options : Fields Json}
  {table : Fields (Fields Json)} {pairs objects : List (Fields Json)}

/-- The two lists of a view come first, then its other options, which are named apart. -/
inductive SettledOptions : Fields Json → Prop
  | intro {prepended appended : List Json} {rest : Fields Json} (nodup : (Fields.names rest).Nodup)
      (isPlain : ∀ f ∈ rest, f.1 ∉ listNames) :
      SettledOptions (("prepend", .array prepended) :: ("append", .array appended) :: rest)

theorem settled_freshOptions : SettledOptions freshOptions :=
  .intro List.nodup_nil fun _ h => nomatch h

theorem SettledOptions.mergeViewField (h : SettledOptions options) (field : String × Json) :
    SettledOptions (mergeViewField options field) := by
  obtain ⟨name, v⟩ := field
  cases h with
  | @intro prepended appended rest nodup isPlain =>
    unfold DeviceClass.mergeViewField
    dsimp only
    split
    · next hlist =>
      rcases hlist with rfl | rfl
      · exact .intro nodup isPlain
      · exact .intro nodup isPlain
    · next hplain =>
      obtain ⟨hprepend, happend⟩ := not_or.mp hplain
      rw [Fields.set, if_neg (Ne.symm hprepend), Fields.set, if_neg (Ne.symm happend)]
      refine .intro (Fields.nodup_set nodup) fun f hf => ?_
      rcases Fields.mem_of_mem_set hf with hold | rfl
      · exact isPlain f hold
      · exact mt mem_listNames.mp hplain

theorem foldl_mergeViewField_fresh (h : SettledOptions options) :
    options.foldl mergeViewField freshOptions = options := by
  cases h with
  | @intro prepended appended rest nodup isPlain =>
    show rest.foldl mergeViewField [("prepend", .array prepended), ("append", .array appended)] =
      [("prepend", .array prepended), ("append", .array appended)] ++ rest
    apply Fields.foldl_eq_append
    · intro old f hf hnew
      rw [mergeViewField, if_neg (mt mem_listNames.mpr (isPlain f hf)), Fields.set_eq_append hnew]
    · rw [Fields.names_append]
      refine List.nodup_append.mpr ⟨show listNames.Nodup by decide, nodup, ?_⟩
      rintro name hname _ hrest rfl
      obtain ⟨f, hf, rfl⟩ := List.mem_map.mp hrest
      exact isPlain f hf hname

/-- Views that are named apart, each with settled options. -/
structure SettledTable (table : Fields (Fields Json)) : Prop where
  nodup : (Fields.names table).Nodup
  options : ∀ view ∈ table, SettledOptions view.2

theorem SettledTable.mergeView (h : SettledTable table) (view : String × Json) :
    SettledTable (mergeView table view) := by
  rw [mergeView_eq]
  refine ⟨Fields.nodup_set h.nodup, fun v hv => ?_⟩
  rcases Fields.mem_of_mem_set hv with hold | rfl
  · exact h.options v hold
  · have hstart : SettledOptions (optionsIn table view.1) := by
      unfold optionsIn
      cases hoptions : Fields.get? table view.1 with
      | none => exact settled_freshOptions
      | some options => exact h.options _ (Fields.mem_of_get? hoptions)
    exact List.foldlRecOn _ DeviceClass.mergeViewField hstart
      fun _ h field _ => h.mergeViewField field

theorem settled_mergeViewOptions (pairs : List (Fields Json)) :
    SettledTable (pairs.foldl mergeViewOptions []) := by
  refine List.foldlRecOn pairs mergeViewOptions ⟨List.nodup_nil, fun _ h => nomatch h⟩ ?_
  intro table htable pair _
  rw [mergeViewOptions_eq]
  exact List.foldlRecOn _ DeviceClass.mergeView htable fun _ h view _ => h.mergeView view

theorem foldl_mergeView_objects (h : SettledTable table) :
    (Fields.mapValues Json.object table).foldl mergeView [] = table := by
  rw [Fields.mapValues, List.foldl_map]
  refine Fields.foldl_eq_append ?_ h.nodup
  intro others view hview hnew
  have hfresh : optionsIn others view.1 = freshOptions := by
    rw [optionsIn, Fields.get?_eq_none_iff.mpr hnew, Option.getD_none]
  rw [mergeView_eq]
  show Fields.set others view.1 (view.2.foldl mergeViewField (optionsIn others view.1)) =
    others ++ [view]
  rw [hfresh, foldl_mergeViewField_fresh (h.options view hview), Fields.set_eq_append hnew]

theorem mergePairs_again (pairs : List (Fields Json)) :
    mergePairs [mergePairs pairs] = mergePairs pairs := by
  have hnodup := Fields.nodup_foldl_override (fun f => f.1 ≠ "viewOptions") pairs
  have hkept : ∀ f ∈ pairs.foldl
      (fun acc p => Fields.override acc (p.filter fun f => f.1 ≠ "viewOptions")) [],
      f.1 ≠ "viewOptions" :=
    fun f hf => of_decide_eq_true (Fields.mem_of_mem_foldl_override hf).1
  unfold mergePairs
  dsimp only
  -- the view options stand behind the plain fields, which have none among them
  generalize pairs.foldl
    (fun acc p => Fields.override acc (p.filter fun f => f.1 ≠ "viewOptions")) [] = plain
      at hnodup hkept ⊢
  have hplain : (plain ++ [("viewOptions", Json.object (Fields.mapValues .object
      (pairs.foldl mergeViewOptions [])))]).filter (fun f => f.1 ≠ "viewOptions") = plain := by
    rw [List.filter_append, List.filter_eq_self.mpr fun f hf => decide_eq_true (hkept f hf)]
    exact List.append_nil plain
  have habsent : Fields.get? plain "viewOptions" = none :=
    Fields.get?_eq_none_iff_forall.mpr hkept
  have htable : mergeViewOptions [] (plain ++ [("viewOptions", Json.object (Fields.mapValues .object
      (pairs.foldl mergeViewOptions [])))]) = pairs.foldl mergeViewOptions [] := by
    unfold mergeViewOptions
    rw [Fields.get?_append, habsent]
    exact foldl_mergeView_objects (settled_mergeViewOptions pairs)
  rw [List.foldl_cons, List.foldl_nil, hplain, List.foldl_cons, List.foldl_nil, htable]
  congr 1
  exact Fields.ofPairs_of_nodup hnodup

theorem mergeImages_again (objects : List (Fields Json)) :
    [objects.foldl Fields.override []].foldl Fields.override [] =
      objects.foldl Fields.override [] := by
  have hnodup : (Fields.names (objects.foldl Fields.override [])).Nodup :=
    List.foldlRecOn objects Fields.override (motive := fun fields : Fields Json =>
      (Fields.names fields).Nodup) List.nodup_nil
        fun _ hfields o _ => Fields.nodup_override hfields o
  exact Fields.ofPairs_of_nodup hnodup

/-- A field of merged objects is merged to itself again, and stays absent if there were none. -/
theorem mergedField_again {merge : List (Fields Json) → Fields Json}
    (hmerge : ∀ objects, merge [merge objects] = merge objects)
    (h : Fields.get? e name = if objects = [] then none else some (.object (merge objects))) :
    mergedField name merge (objectsUnder name [e]) = mergedField name merge objects := by
  cases objects with
  | nil =>
    have hnone : objectsUnder name [e] = [] := by
      simp [objectsUnder, h]
    rw [hnone]
  | cons o rest =>
    have hone : objectsUnder name [e] = [merge (o :: rest)] := by
      simp [objectsUnder, h, Json.fields?]
    rw [hone]
    show [(name, Json.object (merge [merge (o :: rest)]))] = [(name, .object (merge (o :: rest)))]
    rw [hmerge]

/-- The merged fields of a device class, the last ones but for the id. -/
def mergedFields (sources : List Entity) : Fields Json :=
  mergedField "images" (·.foldl Fields.override []) (objectsUnder "images" sources) ++
    mergedField "pair" mergePairs (objectsUnder "pair" sources)

theorem mem_mergedFields {sources : List Entity} {f : String × Json}
    (h : f ∈ mergedFields sources) :
    f.1 ∈ mergedNames := by
  have hname : ∀ {name merge objects}, f ∈ mergedField name merge objects → f.1 = name :=
    fun hf => mem_names_mergedField (List.mem_map_of_mem hf)
  rcases List.mem_append.mp h with himages | hpair
  · rw [hname himages]
    decide
  · rw [hname hpair]
    decide

theorem get?_mergedFields (sources : List Entity) (h : name ∉ mergedNames) :
    Fields.get? (mergedFields sources) name = none := by
  rw [Fields.get?_eq_none_iff_forall]
  rintro f hf rfl
  exact h (mem_mergedFields hf)

theorem erase_mergedFields (sources : List Entity) (h : name ∉ mergedNames) :
    Fields.erase (mergedFields sources) name = mergedFields sources :=
  Fields.erase_of_get?_none (get?_mergedFields sources h)

theorem combine_eq (id : String) (ancestors : List Entity) (own : Entity) :
    combine id ancestors own = Fields.set ((ancestors ++ [own]).foldl mergePlain [] ++
      mergedFields (ancestors ++ [own])) "id" (.string id) := by
  rw [combine, mergedFields, List.append_assoc]

/-- A device class has its id, names its fields apart, has what its own objects are merged to, and
has it behind all other fields but the id. -/
structure Settled (id : String) (e : Entity) : Prop where
  nodup : (Fields.names e).Nodup
  ownId : Fields.get? e "id" = some (.string id)
  merged : e.filter (fun f => f.1 ∈ mergedNames) = mergedFields [e]
  last : Fields.erase e "id" =
    (Fields.erase e "id").filter (fun f => f.1 ∉ mergedNames) ++ mergedFields [e]

/-- Tests that leave the id out see the fields in the order in which they were put together. -/
theorem filter_combine (p : String → Bool) (hp : p "id" = false) (id : String)
    (ancestors : List Entity) (own : Entity) :
    (combine id ancestors own).filter (fun f => p f.1) =
      ((ancestors ++ [own]).foldl mergePlain []).filter (fun f => p f.1) ++
        (mergedFields (ancestors ++ [own])).filter fun f => p f.1 := by
  rw [combine_eq, Fields.filter_set p hp, List.filter_append]

theorem settled_combine (id : String) (ancestors : List Entity) (own : Entity) :
    Settled id (combine id ancestors own) := by
  have hagain : mergedFields [combine id ancestors own] = mergedFields (ancestors ++ [own]) := by
    unfold mergedFields
    rw [mergedField_again mergeImages_again (get?_combine_images id ancestors own),
      mergedField_again mergePairs_again (get?_combine_pair id ancestors own)]
  have hplain : ∀ f ∈ (ancestors ++ [own]).foldl mergePlain [], f.1 ∉ mergedNames :=
    fun f hf => of_decide_eq_true (Fields.mem_of_mem_foldl_override hf).1
  have hmerged : ∀ f ∈ mergedFields (ancestors ++ [own]), f.1 ∈ mergedNames :=
    fun f hf => mem_mergedFields hf
  -- no merged field is the id, so taking it out leaves them as they are
  have herase : Fields.erase (combine id ancestors own) "id" =
      Fields.erase ((ancestors ++ [own]).foldl mergePlain []) "id" ++
        mergedFields (ancestors ++ [own]) := by
    rw [← erase_mergedFields _ (by decide : "id" ∉ mergedNames)]
    exact filter_combine (· ≠ "id") (by decide) id ancestors own
  refine ⟨nodup_combine id ancestors own, get?_combine_id id ancestors own, ?_, ?_⟩
  · rw [hagain, filter_combine (· ∈ mergedNames) (by decide),
      List.filter_eq_nil_iff.mpr fun f hf => by simpa using hplain f hf, List.nil_append]
    exact List.filter_eq_self.mpr fun f hf => decide_eq_true (hmerged f hf)
  · rw [hagain, herase, List.filter_append,
      List.filter_eq_nil_iff.mpr fun f (hf : f ∈ mergedFields _) => by simpa using hmerged f hf,
      List.append_nil]
    congr 1
    refine (List.filter_eq_self.mpr fun f hf => ?_).symm
    exact decide_eq_true (hplain f (List.mem_of_mem_filter hf))

/-- A settled device class that is combined with no ancestors has its plain fields before its merged
ones. -/
theorem combine_of_settled (h : Settled id e) :
    combine id [] e = e.filter (fun f => f.1 ∉ mergedNames) ++ mergedFields [e] := by
  have hplain : [e].foldl mergePlain [] = e.filter fun f => f.1 ∉ mergedNames :=
    Fields.ofPairs_of_nodup (h.nodup.sublist (List.filter_sublist.map Prod.fst))
  have hid : Fields.get? (e.filter (fun f => f.1 ∉ mergedNames) ++ mergedFields [e]) "id" =
      some (.string id) := by
    have hfilter := Fields.get?_filter (fun n => n ∉ mergedNames) e "id"
    rw [if_pos (by decide), h.ownId] at hfilter
    rw [Fields.get?_append, hfilter, Option.some_or]
  rw [combine_eq, List.nil_append, hplain]
  exact Fields.set_of_get? hid

/-- What was combined keeps its fields, and their order but for the place of its id, when it is
combined with no ancestors. -/
theorem combine_again (id : String) (ancestors : List Entity) (own : Entity) :
    Fields.SameButPlace "id" (combine id ancestors own)
      (combine id [] (combine id ancestors own)) := by
  have hsettled := settled_combine id ancestors own
  rw [combine_of_settled hsettled]
  generalize combine id ancestors own = e at hsettled
  have hperm : e.Perm (e.filter (fun f => f.1 ∉ mergedNames) ++ mergedFields [e]) := by
    have hsplit := List.filter_append_perm (fun f => decide (f.1 ∉ mergedNames)) e
    have hother : (fun f : String × Json => !decide (f.1 ∉ mergedNames)) =
        fun f => decide (f.1 ∈ mergedNames) := by
      funext f
      simp
    rw [hother, hsettled.merged] at hsplit
    exact hsplit.symm
  refine ⟨hperm, Fields.get?_of_perm hperm hsettled.nodup, ?_⟩
  calc Fields.erase e "id"
      = (Fields.erase e "id").filter (fun f => f.1 ∉ mergedNames) ++ mergedFields [e] :=
        hsettled.last
    _ = Fields.erase (e.filter fun f => f.1 ∉ mergedNames) "id" ++
        Fields.erase (mergedFields [e]) "id" := by
        rw [erase_mergedFields _ (by decide), Fields.erase, Fields.erase, List.filter_comm]
    _ = Fields.erase (e.filter (fun f => f.1 ∉ mergedNames) ++ mergedFields [e]) "id" :=
        (List.filter_append _ _).symm

/-- The id of a class without one stands after its merged fields at first, and before them
afterwards. -/
example :
    let e := combine "switch" [] switchClass
    Fields.names e = ["class", "pair", "id"] ∧
      Fields.names (combine "switch" [] e) = ["class", "id", "pair"] := by
  decide +kernel

theorem noParents_combine (h : ∀ s ∈ ancestors ++ [own], Fields.get? s "extends" = none) :
    Fields.get? (combine id ancestors own) "extends" = none := by
  have hplain : Fields.get? ((ancestors ++ [own]).foldl mergePlain []) "extends" = none :=
    Fields.get?_foldl_override_none h _
  rw [combine_eq, Fields.get?_set_of_ne _ _ (by decide), Fields.get?_append, hplain,
    get?_mergedFields _ (by decide)]
  rfl

end DeviceClass

end RadioDriver
