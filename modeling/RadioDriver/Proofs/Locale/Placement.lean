import RadioDriver.Locale.Table

namespace RadioDriver.Locale

/-- What a node holds as an object. Absent and `null` nodes hold nothing yet, and other values are
no objects. -/
def container? : Option Json → Option (Fields Json)
  | none => some []
  | some .null => some []
  | some (.object inner) => some inner
  | some _ => none

/-- A value that nothing can stand below. -/
def IsLeaf (v : Json) : Prop := v.isNull = false ∧ v.isObject = false

/-- An object stands at the path, or a leaf on the way. -/
def Obstructed (fields : Fields Json) (path : List String) : Prop :=
  (∃ children, valueAt fields path = some (.object children)) ∨
    ∃ above v, above <+: path ∧ above ≠ path ∧ valueAt fields above = some v ∧ IsLeaf v

/-- Neither path leads on from the other. -/
def Apart (path other : List String) : Prop := ¬ path <+: other ∧ ¬ other <+: path

variable {fields fields' : Fields Json} {segment next whole : String}
  {path rest other walked : List String} {value : Json}

theorem Apart.symm (h : Apart path other) : Apart other path := ⟨h.2, h.1⟩

theorem valueAt_cons (fields : Fields Json) (segment next : String) (rest : List String) :
    valueAt fields (segment :: next :: rest) =
      (container? (Fields.get? fields segment)).bind (valueAt · (next :: rest)) := by
  have hnone : valueAt [] (next :: rest) = none := by cases rest <;> rfl
  rw [valueAt]
  · cases Fields.get? fields segment with
    | none => exact hnone.symm
    | some v =>
      cases v with
      | null => exact hnone.symm
      | _ => rfl
  · exact List.cons_ne_nil next rest

theorem valueAt_below_object (fields : Fields Json) (name next : String) (rest : List String) :
    valueAt fields (name :: next :: rest) =
      ((Fields.get? fields name).bind Json.fields?).bind (valueAt · (next :: rest)) := by
  rw [valueAt]
  · cases Fields.get? fields name with
    | none => rfl
    | some v => cases v <;> rfl
  · exact List.cons_ne_nil next rest

theorem container?_eq_none {v : Option Json} :
    container? v = none ↔ ∃ leaf, v = some leaf ∧ IsLeaf leaf := by
  rcases v with - | v
  · simp [container?]
  · cases v <;> simp [container?, IsLeaf, Json.isNull, Json.isObject]

theorem valueAt_append (hp : path ≠ []) (ho : other ≠ []) :
    valueAt fields (path ++ other) =
      match valueAt fields path with
      | some (.object inner) => valueAt inner other
      | _ => none := by
  obtain ⟨next, rest, rfl⟩ := List.exists_cons_of_ne_nil ho
  induction path generalizing fields with
  | nil => exact absurd rfl hp
  | cons segment path ih =>
    cases path with
    | nil =>
      rw [List.singleton_append, valueAt]
      rfl
    | cons following path =>
      rw [List.cons_append, List.cons_append, valueAt_cons, valueAt_cons]
      cases container? (Fields.get? fields segment) with
      | none => rfl
      | some inner => exact ih (List.cons_ne_nil following path)

theorem valueAt_below (h : path <+: other) (hne : path ≠ other) (hp : path ≠ [])
    (hv : ∀ children, valueAt fields path ≠ some (.object children)) :
    valueAt fields other = none := by
  obtain ⟨below, rfl⟩ := h
  have hbelow : below ≠ [] := by
    rintro rfl
    exact hne (List.append_nil path).symm
  rw [valueAt_append hp hbelow]
  split
  · next inner heq => exact absurd heq (hv inner)
  · rfl

theorem obstructed_singleton :
    Obstructed fields [segment] ↔
      ∃ children, Fields.get? fields segment = some (.object children) := by
  constructor
  · rintro (h | ⟨above, v, hpre, hne, hv, -⟩)
    · exact h
    · rcases List.prefix_cons_iff.mp hpre with rfl | ⟨t, rfl, ht⟩
      · cases hv
      · rw [List.prefix_nil.mp ht] at hne
        exact absurd rfl hne
  · exact .inl

theorem obstructed_cons :
    Obstructed fields (segment :: next :: rest) ↔
      ∀ inner, container? (Fields.get? fields segment) = some inner →
        Obstructed inner (next :: rest) := by
  constructor
  · rintro h inner hinner
    -- a leaf on the way is the first node, which then contains nothing, or lies inside it
    rcases h with ⟨children, hc⟩ | ⟨above, v, hpre, hne, hv, hleaf⟩
    · rw [valueAt_cons, hinner] at hc
      exact .inl ⟨children, hc⟩
    · rcases List.prefix_cons_iff.mp hpre with rfl | ⟨above, rfl, htail⟩
      · cases hv
      · cases above with
        | nil =>
          have hget : Fields.get? fields segment = some v := hv
          rw [container?_eq_none.mpr ⟨v, hget, hleaf⟩] at hinner
          cases hinner
        | cons a above =>
          rw [valueAt_cons, hinner] at hv
          exact .inr ⟨a :: above, v, htail, fun h => hne (by rw [h]), hv, hleaf⟩
  · intro h
    cases hinner : container? (Fields.get? fields segment) with
    | none =>
      obtain ⟨leaf, hget, hleaf⟩ := container?_eq_none.mp hinner
      exact .inr ⟨[segment], leaf, List.prefix_append _ _, by simp, hget, hleaf⟩
    | some inner =>
      rcases h inner hinner with ⟨children, hc⟩ | ⟨above, v, hpre, hne, hv, hleaf⟩
      · exact .inl ⟨children, by rw [valueAt_cons, hinner]; exact hc⟩
      · cases above with
        | nil => cases hv
        | cons a above =>
          refine .inr ⟨segment :: a :: above, v, ?_, ?_, ?_, hleaf⟩
          · exact List.cons_prefix_cons.mpr ⟨rfl, hpre⟩
          · intro heq
            exact hne (List.cons.inj heq).2
          · rw [valueAt_cons, hinner]
            exact hv

theorem not_text_above (h : ¬ Obstructed fields path) (hpre : other <+: path) (hne : other ≠ path) :
    (valueAt fields other).bind Json.string? = none := by
  cases hv : valueAt fields other with
  | none => rfl
  | some v =>
    cases v with
    | string s => exact absurd (.inr ⟨other, .string s, hpre, hne, hv, rfl, rfl⟩) h
    | _ => rfl

theorem setAt_cons :
    setAt walked whole value fields (segment :: next :: rest) =
      match container? (Fields.get? fields segment) with
      | none => .error (collisionAt (walked ++ [segment]) whole)
      | some inner =>
        (setAt (walked ++ [segment]) whole value inner (next :: rest)).map fun inner =>
          Fields.set fields segment (.object inner) := by
  rw [setAt]
  · cases Fields.get? fields segment with
    | none => cases setAt (walked ++ [segment]) whole value [] (next :: rest) <;> rfl
    | some v =>
      cases v with
      | null => cases setAt (walked ++ [segment]) whole value [] (next :: rest) <;> rfl
      | object inner => cases setAt (walked ++ [segment]) whole value inner (next :: rest) <;> rfl
      | _ => rfl
  · exact List.cons_ne_nil next rest

theorem exists_setAt (h : ¬ Obstructed fields path) :
    ∃ fields', setAt walked whole value fields path = .ok fields' := by
  induction path generalizing fields walked with
  | nil => exact ⟨fields, rfl⟩
  | cons segment rest ih =>
    cases rest with
    | nil =>
      rw [obstructed_singleton] at h
      refine ⟨Fields.set fields segment value, ?_⟩
      rw [setAt]
      split
      · next children heq => exact absurd ⟨children, heq⟩ h
      · rfl
    | cons next rest =>
      rw [obstructed_cons] at h
      -- something at the first node can contain the rest, and the rest is free in it
      obtain ⟨inner, h⟩ := Classical.not_forall.mp h
      obtain ⟨hinner, h⟩ := Classical.not_imp.mp h
      have hset : ∃ inner',
          setAt (walked ++ [segment]) whole value inner (next :: rest) = .ok inner' := ih h
      obtain ⟨inner', hset⟩ := hset
      refine ⟨Fields.set fields segment (.object inner'), ?_⟩
      rw [setAt_cons, hinner]
      simp only [hset]
      rfl

theorem setAt_of_obstructed (h : Obstructed fields path) :
    ∃ leaf place, setAt walked whole value fields path = .error (.collision leaf place) := by
  induction path generalizing fields walked with
  | nil =>
    rcases h with ⟨children, hc⟩ | ⟨above, v, hpre, hne, -⟩
    · cases fields <;> cases hc
    · exact absurd (List.prefix_nil.mp hpre) hne
  | cons segment rest ih =>
    cases rest with
    | nil =>
      obtain ⟨children, hc⟩ := obstructed_singleton.mp h
      rw [setAt, hc]
      exact ⟨_, _, rfl⟩
    | cons next rest =>
      rw [setAt_cons]
      cases hinner : container? (Fields.get? fields segment) with
      | none => exact ⟨_, _, rfl⟩
      | some inner =>
        have hset : ∃ leaf place, setAt (walked ++ [segment]) whole value inner (next :: rest) =
            .error (.collision leaf place) := ih (obstructed_cons.mp h inner hinner)
        obtain ⟨leaf, place, hset⟩ := hset
        refine ⟨leaf, place, ?_⟩
        simp only [hset]
        rfl

theorem not_obstructed_of_setAt (h : setAt walked whole value fields path = .ok fields') :
    ¬ Obstructed fields path := by
  intro ho
  obtain ⟨leaf, place, he⟩ := setAt_of_obstructed ho
  rw [he] at h
  cases h

theorem setAt_cons_ok
    (h : setAt walked whole value fields (segment :: next :: rest) = .ok fields') :
    ∃ inner inner', container? (Fields.get? fields segment) = some inner ∧
      setAt (walked ++ [segment]) whole value inner (next :: rest) = .ok inner' ∧
      fields' = Fields.set fields segment (.object inner') := by
  rw [setAt_cons] at h
  cases hinner : container? (Fields.get? fields segment) with
  | none => rw [hinner] at h; cases h
  | some inner =>
    cases hset : setAt (walked ++ [segment]) whole value inner (next :: rest) with
    | error e => simp only [hinner, hset] at h; cases h
    | ok inner' =>
      simp only [hinner, hset] at h
      cases h
      exact ⟨inner, inner', rfl, hset, rfl⟩

theorem setAt_singleton_ok (h : setAt walked whole value fields [segment] = .ok fields') :
    fields' = Fields.set fields segment value := by
  rw [setAt] at h
  split at h
  · cases h
  · cases h
    rfl

theorem valueAt_setAt_self (h : setAt walked whole value fields path = .ok fields')
    (hp : path ≠ []) : valueAt fields' path = some value := by
  induction path generalizing fields fields' walked with
  | nil => exact absurd rfl hp
  | cons segment rest ih =>
    cases rest with
    | nil =>
      rw [setAt_singleton_ok h]
      exact Fields.get?_set_self fields segment value
    | cons next rest =>
      obtain ⟨inner, inner', -, hset, rfl⟩ := setAt_cons_ok h
      rw [valueAt_cons, Fields.get?_set_self]
      exact ih hset (List.cons_ne_nil next rest)

theorem valueAt_setAt_above (h : setAt walked whole value fields path = .ok fields')
    (hpre : other <+: path) (hne : other ≠ path) (ho : other ≠ []) :
    ∃ inner, valueAt fields' other = some (.object inner) := by
  induction path generalizing fields fields' walked other with
  | nil => exact absurd (List.prefix_nil.mp hpre) hne
  | cons segment rest ih =>
    rcases List.prefix_cons_iff.mp hpre with rfl | ⟨above, rfl, htail⟩
    · exact absurd rfl ho
    · cases rest with
      | nil =>
        rw [List.prefix_nil.mp htail] at hne
        exact absurd rfl hne
      | cons next rest =>
        obtain ⟨inner, inner', -, hset, rfl⟩ := setAt_cons_ok h
        cases above with
        | nil => exact ⟨inner', Fields.get?_set_self fields segment _⟩
        | cons a above =>
          rw [valueAt_cons, Fields.get?_set_self]
          exact ih hset htail (fun h => hne (by rw [h])) (List.cons_ne_nil a above)

theorem valueAt_congr (h : Fields.get? fields' segment = Fields.get? fields segment)
    (rest : List String) :
    valueAt fields' (segment :: rest) = valueAt fields (segment :: rest) := by
  cases rest with
  | nil => exact h
  | cons next rest => rw [valueAt_cons, valueAt_cons, h]

theorem valueAt_setAt_apart (h : setAt walked whole value fields path = .ok fields')
    (ha : Apart path other) : valueAt fields' other = valueAt fields other := by
  induction path generalizing fields fields' walked other with
  | nil => exact absurd List.nil_prefix ha.1
  | cons segment rest ih =>
    cases other with
    | nil => exact absurd List.nil_prefix ha.2
    | cons first others =>
      -- among the fields themselves only the first segment is set
      have hset : ∃ v, fields' = Fields.set fields segment v := by
        cases rest with
        | nil => exact ⟨value, setAt_singleton_ok h⟩
        | cons next rest =>
          obtain ⟨inner, inner', -, -, rfl⟩ := setAt_cons_ok h
          exact ⟨_, rfl⟩
      by_cases heq : first = segment
      · subst heq
        cases rest with
        | nil => exact absurd (List.prefix_append [first] others) ha.1
        | cons next rest =>
          cases others with
          | nil => exact absurd (List.prefix_append [first] (next :: rest)) ha.2
          | cons n others =>
            obtain ⟨inner, inner', hinner, hset', rfl⟩ := setAt_cons_ok h
            rw [valueAt_cons, valueAt_cons, Fields.get?_set_self, hinner]
            apply ih hset'
            exact ⟨fun hpre => ha.1 (List.cons_prefix_cons.mpr ⟨rfl, hpre⟩),
              fun hpre => ha.2 (List.cons_prefix_cons.mpr ⟨rfl, hpre⟩)⟩
      · obtain ⟨v, rfl⟩ := hset
        exact valueAt_congr (Fields.get?_set_of_ne fields v heq) others

theorem obstructed_setAt_apart (h : setAt walked whole value fields path = .ok fields')
    (ha : Apart path other) : Obstructed fields' other ↔ Obstructed fields other := by
  have hfree := not_obstructed_of_setAt h
  have hleaf : ∀ above v, above <+: other → IsLeaf v →
      (valueAt fields' above = some v ↔ valueAt fields above = some v) := by
    intro above v hpre hv
    by_cases hap : Apart path above
    · rw [valueAt_setAt_apart h hap]
    · -- on the common way there are no leaves, before or after
      have hnot : ¬ path <+: above := fun hp => ha.1 (hp.trans hpre)
      have hon : above <+: path := Classical.byContradiction fun hno => hap ⟨hnot, hno⟩
      have hne : above ≠ path := by
        rintro rfl
        exact hnot List.prefix_rfl
      constructor
      · intro hval
        by_cases hnil : above = []
        · subst hnil
          cases fields' <;> cases hval
        · obtain ⟨inner, hinner⟩ := valueAt_setAt_above h hon hne hnil
          rw [hinner] at hval
          cases hval
          cases hv.2
      · intro hval
        exact absurd (.inr ⟨above, v, hon, hne, hval, hv⟩) hfree
  unfold Obstructed
  rw [valueAt_setAt_apart h ha]
  constructor
  · rintro (hobj | ⟨above, v, hpre, hne, hval, hv⟩)
    · exact .inl hobj
    · exact .inr ⟨above, v, hpre, hne, (hleaf above v hpre hv).mp hval, hv⟩
  · rintro (hobj | ⟨above, v, hpre, hne, hval, hv⟩)
    · exact .inl hobj
    · exact .inr ⟨above, v, hpre, hne, (hleaf above v hpre hv).mpr hval, hv⟩

theorem textAt_setAt (h : setAt walked whole value fields path = .ok fields')
    (hv : value.isObject = false) (hp : path ≠ []) (hne : other ≠ path) :
    (valueAt fields' other).bind Json.string? = (valueAt fields other).bind Json.string? := by
  have hfree := not_obstructed_of_setAt h
  -- above the leaf there is no text before or after, and below it there is nothing
  by_cases hpre : other <+: path
  · rw [not_text_above hfree hpre hne]
    by_cases hnil : other = []
    · subst hnil
      cases fields' <;> rfl
    · obtain ⟨inner, hinner⟩ := valueAt_setAt_above h hpre hne hnil
      rw [hinner]
      rfl
  · by_cases hbelow : path <+: other
    · have hbefore : valueAt fields other = none := by
        apply valueAt_below hbelow hne.symm hp
        intro children hc
        exact hfree (.inl ⟨children, hc⟩)
      have hafter : valueAt fields' other = none := by
        apply valueAt_below hbelow hne.symm hp
        intro children hc
        rw [valueAt_setAt_self h hp] at hc
        cases hc
        cases hv
      rw [hbefore, hafter]
    · rw [valueAt_setAt_apart h ⟨hbelow, hpre⟩]

end RadioDriver.Locale
