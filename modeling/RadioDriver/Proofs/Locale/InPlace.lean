import RadioDriver.Proofs.Locale.Marks

namespace RadioDriver

theorem Fields.set_set {α : Type} (fields : Fields α) (name : String) (value last : α) :
    set (set fields name value) name last = set fields name last := by
  induction fields with
  | nil => simp [set]
  | cons f rest ih => by_cases h : f.1 = name <;> simp [set, h, ih]

namespace Locale

variable {fields fields' : Fields Json} {segment next whole : String}
  {path rest walked : List String} {value : Json} {e : LocaleError}

theorem get?_opened (fields : Fields Json) (segment : String) :
    (Fields.get? (opened fields segment) segment).bind Json.fields? =
      container? (Fields.get? fields segment) := by
  unfold opened
  cases hv : Fields.get? fields segment with
  | none => simp [Fields.get?_set_self, Json.fields?, container?]
  | some v => cases v <;> simp [hv, Fields.get?_set_self, Json.fields?, container?]

theorem set_opened (fields : Fields Json) (segment : String) (v : Json) :
    Fields.set (opened fields segment) segment v = Fields.set fields segment v := by
  unfold opened
  split
  · rw [Fields.set_set]
  · rw [Fields.set_set]
  · rfl

theorem opened_of_container (h : container? (Fields.get? fields segment) = none) :
    opened fields segment = fields := by
  unfold opened
  split
  · simp_all [container?]
  · simp_all [container?]
  · rfl

theorem putAt_cons :
    putAt walked whole value fields (segment :: next :: rest) =
      match container? (Fields.get? fields segment) with
      | none => (.error (collisionAt (walked ++ [segment]) whole), fields)
      | some inner =>
        let below := putAt (walked ++ [segment]) whole value inner (next :: rest)
        (below.1, Fields.set fields segment (.object below.2)) := by
  have hopened := get?_opened fields segment
  rw [putAt]
  · dsimp only
    split
    · next inner hobject =>
      rw [hobject] at hopened
      rw [← hopened]
      dsimp only [Option.bind_some, Json.fields?]
      rw [set_opened]
    · next hno =>
      cases hcontainer : container? (Fields.get? fields segment) with
      | none => rw [opened_of_container hcontainer]
      | some inner =>
        rw [hcontainer] at hopened
        obtain ⟨v, hv, hinner⟩ := Option.bind_eq_some_iff.mp hopened
        cases v with
        | object fields => exact absurd hv (hno fields)
        | _ => cases hinner
  · exact List.cons_ne_nil next rest

theorem putAt_singleton :
    putAt walked whole value fields [segment] =
      match setAt walked whole value fields [segment] with
      | .ok fields' => (.ok (), fields')
      | .error e => (.error e, fields) := by
  rw [putAt, setAt]
  split <;> rfl

theorem setAt_empty (walked : List String) (whole : String) (value : Json) (path : List String) :
    ∃ fields, setAt walked whole value [] path = .ok fields := by
  apply exists_setAt
  rintro (⟨children, hc⟩ | ⟨above, v, -, -, hv, -⟩)
  · rw [valueAt_empty] at hc
    cases hc
  · rw [valueAt_empty] at hv
    cases hv

theorem object_of_container {node : Option Json} {inner : Fields Json}
    (h : container? node = some inner) : node = some (.object inner) ∨ inner = [] := by
  rcases node with - | v
  · exact .inr (Option.some.inj h).symm
  · cases v with
    | null => exact .inr (Option.some.inj h).symm
    | object fields =>
      cases h
      exact .inl rfl
    | _ => cases h

/-- Setting in place ends as setting does, and when it fails it has made nothing: what it makes on
the way down is empty, and nothing stands in the way of an empty object. -/
theorem putAt_eq (walked : List String) (whole : String) (value : Json) (fields : Fields Json)
    (path : List String) :
    putAt walked whole value fields path =
      match setAt walked whole value fields path with
      | .ok fields' => (.ok (), fields')
      | .error e => (.error e, fields) := by
  induction path generalizing fields walked with
  | nil => cases fields <;> rfl
  | cons segment rest ih =>
    cases rest with
    | nil => exact putAt_singleton
    | cons next rest =>
      rw [putAt_cons, setAt_cons]
      cases hcontainer : container? (Fields.get? fields segment) with
      | none => rfl
      | some inner =>
        dsimp only
        rw [ih]
        cases hset : setAt (walked ++ [segment]) whole value inner (next :: rest) with
        | ok inner' => rfl
        | error e =>
          -- where something stands in the way, the object was there before
          rcases object_of_container hcontainer with hobject | rfl
          · dsimp only [Except.map]
            rw [Fields.set_of_get? hobject]
          · obtain ⟨made, hmade⟩ := setAt_empty (walked ++ [segment]) whole value (next :: rest)
            rw [hmade] at hset
            cases hset

/-- What a fault says: an object stands at the path, and the other key is its first, or a value
other than `null` and an object stands above it. -/
inductive CollidesAt (whole : String) (walked : List String) (fields : Fields Json)
    (path : List String) : LocaleError → Prop
  | object {children : Fields Json} (there : valueAt fields path = some (.object children)) :
    CollidesAt whole walked fields path
      (.collision whole (below whole ((Fields.names children).headD "")))
  | leaf {above : List String} {v : Json} (onWay : above <+: path) (short : above ≠ path)
    (there : valueAt fields above = some v) (leaf : IsLeaf v) :
    CollidesAt whole walked fields path (collisionAt (walked ++ above) whole)

theorem CollidesAt.below {inner : Fields Json}
    (hinner : container? (Fields.get? fields segment) = some inner)
    (h : CollidesAt whole (walked ++ [segment]) inner (next :: rest) e) :
    CollidesAt whole walked fields (segment :: next :: rest) e := by
  cases h with
  | object there =>
    refine .object ?_
    rw [valueAt_cons, hinner]
    exact there
  | leaf onWay short there leaf =>
    rename_i above v
    cases above with
    | nil =>
      rw [valueAt_nil] at there
      cases there
    | cons first above =>
      rw [List.append_assoc, List.singleton_append]
      refine .leaf (List.cons_prefix_cons.mpr ⟨rfl, onWay⟩) ?_ ?_ leaf
      · exact fun heq => short (List.cons.inj heq).2
      · rw [valueAt_cons, hinner]
        exact there

theorem collidesAt_of_setAt (h : setAt walked whole value fields path = .error e) :
    CollidesAt whole walked fields path e := by
  induction path generalizing fields walked with
  | nil => cases fields <;> cases h
  | cons segment rest ih =>
    cases rest with
    | nil =>
      rw [setAt] at h
      split at h
      · next children hobject =>
        cases h
        exact .object hobject
      · cases h
    | cons next rest =>
      rw [setAt_cons] at h
      cases hcontainer : container? (Fields.get? fields segment) with
      | none =>
        obtain ⟨leaf, hget, hleaf⟩ := container?_eq_none.mp hcontainer
        rw [hcontainer] at h
        cases h
        exact .leaf (List.prefix_append [segment] (next :: rest)) (by simp) hget hleaf
      | some inner =>
        simp only [hcontainer] at h
        cases hset : setAt (walked ++ [segment]) whole value inner (next :: rest) with
        | ok inner' =>
          rw [hset] at h
          cases h
        | error fault =>
          rw [hset] at h
          cases h
          exact (ih hset).below hcontainer

end Locale

namespace LocaleTable

variable {t t' : LocaleTable} {path other : String} {value : Json} {provenance : Provenance}

/-- A table that is set in place is the table that setting gives, and stays as it was where setting
fails. -/
theorem put_eq (t : LocaleTable) (path : String) (value : Json) (provenance : Provenance) :
    t.put path value provenance =
      match t.set path value provenance with
      | .ok t' => (.ok (), t')
      | .error e => (.error e, t) := by
  unfold put set
  rw [Locale.putAt_eq]
  cases Locale.setAt [] path value t.tree (segments path) with
  | ok tree => cases provenance <;> rfl
  | error e => rfl

/-- What a collision says: an object stands at the path, and the other key is its first, or a value
other than `null` and an object stands at the beginning of the path that it names. -/
inductive Collides (t : LocaleTable) (path : String) : LocaleError → Prop
  | object {children : Fields Json} (there : t.get? path = some (.object children)) :
    Collides t path (.collision path (Locale.below path ((Fields.names children).headD "")))
  | leaf {above : String} {v : Json} (onWay : segments above <+: segments path)
    (short : above ≠ path) (there : t.get? above = some v) (leaf : Locale.IsLeaf v) :
    Collides t path (.collision above path)

theorem segments_join {names : List String} (hne : names ≠ [])
    (h : names <+: segments path) : segments (Text.join "." names) = names := by
  apply Text.split_join_names hne
  exact fun name hname => Text.not_mem_of_mem_split (h.mem hname)

theorem collides_of_set {e : LocaleError} (h : t.set path value provenance = .error e) :
    Collides t path e := by
  have hset : Locale.setAt [] path value t.tree (segments path) = .error e := by
    unfold set at h
    cases hset : Locale.setAt [] path value t.tree (segments path) with
    | ok tree =>
      rw [hset] at h
      cases h
    | error fault =>
      rw [hset] at h
      cases h
      rfl
  cases Locale.collidesAt_of_setAt hset with
  | object there => exact .object there
  | leaf onWay short there leaf =>
    rename_i above v
    have hne : above ≠ [] := by
      rintro rfl
      rw [Locale.valueAt_nil] at there
      cases there
    have hsegments : segments (Text.join "." ([] ++ above)) = above := segments_join hne onWay
    refine .leaf (hsegments.symm ▸ onWay) ?_ ?_ leaf
    · rintro rfl
      exact short hsegments.symm
    · rw [get?, hsegments]
      exact there

/-- A table in which a leaf was set: the leaf is there, objects lead to it, everything apart from
its path is as it was, and so is every other text. -/
structure Placed (t : LocaleTable) (path : String) (value : Json) (provenance : Provenance)
    (t' : LocaleTable) : Prop where
  there : t'.get? path = some value
  marked : ∀ text, value = .string text → t'.provenance? path = some provenance
  above : ∀ other, segments other <+: segments path → other ≠ path →
    ∃ inner, t'.get? other = some (.object inner)
  apart : ∀ other, Apart path other →
    t'.get? other = t.get? other ∧ t'.provenance? other = t.provenance? other
  texts : ∀ other, other ≠ path →
    t'.text? other = t.text? other ∧ t'.provenance? other = t.provenance? other

theorem provenance?_set_of_ne (h : t.set path value provenance = .ok t')
    (hv : value.isObject = false) (hne : other ≠ path) :
    t'.provenance? other = t.provenance? other := by
  rw [provenance?, provenance?, text?_set_of_ne h hv hne, isFallback_set h, if_neg hne]

theorem placed_of_set (h : t.set path value provenance = .ok t') (hv : value.isObject = false) :
    Placed t path value provenance t' where
  there := get?_set_self h
  marked := by
    rintro text rfl
    rw [provenance?, text?, get?_set_self h, isFallback_set h, if_pos rfl]
    cases provenance <;> rfl
  above other hpre hne :=
    Locale.valueAt_setAt_above (setAt_of_set h) hpre (fun heq => hne (segments_injective heq))
      (segments_ne_nil other)
  apart other hapart := by
    have hne : other ≠ path := by
      rintro rfl
      exact hapart.1 List.prefix_rfl
    exact ⟨get?_set_apart h hapart, provenance?_set_of_ne h hv hne⟩
  texts other hne := ⟨text?_set_of_ne h hv hne, provenance?_set_of_ne h hv hne⟩

/-- Setting a leaf in place fails just when something stands in its way, says what that is, and then
leaves the table as it was. Otherwise the leaf is placed, and nothing apart from it changes. -/
theorem put_exact_and_atomic (t : LocaleTable) (path : String) {value : Json}
    (hv : value.isObject = false) (provenance : Provenance) :
    ((t.put path value provenance).1.isOk = false ↔ t.Obstructed path) ∧
    (∀ e, (t.put path value provenance).1 = .error e →
      (t.put path value provenance).2 = t ∧ Collides t path e) ∧
    ((t.put path value provenance).1 = .ok () →
      Placed t path value provenance (t.put path value provenance).2) ∧
    t.set path value provenance =
      (t.put path value provenance).1.map fun _ => (t.put path value provenance).2 := by
  rw [put_eq]
  cases hset : t.set path value provenance with
  | ok t' =>
    have hfree := not_obstructed_of_set hset
    exact ⟨iff_of_false Bool.noConfusion hfree, nofun, fun _ => placed_of_set hset hv, rfl⟩
  | error e =>
    have hobstructed : t.Obstructed path := by
      by_contra hfree
      obtain ⟨t', hok⟩ := exists_set hfree value provenance
      rw [hset] at hok
      cases hok
    refine ⟨iff_of_true rfl hobstructed, ?_, nofun, rfl⟩
    rintro fault hfault
    cases hfault
    exact ⟨rfl, collides_of_set hset⟩

def pairTable : LocaleTable where
  tree := [("pair", .object [("done", .null), ("steps", .array [.ofNat 1])]),
    ("title", .string "Pair")]
  fallback := ["title"]

/-- A text can be placed below the empty leaf, and none below the array. -/
theorem pairTable_put_atomic :
    (Json.string "Done").isObject = false ∧
      (pairTable.put "pair.done.text" (.string "Done") .fallback).1 = .ok () ∧
      Placed pairTable "pair.done.text" (.string "Done") .fallback
        (pairTable.put "pair.done.text" (.string "Done") .fallback).2 ∧
      (pairTable.put "pair.steps.first" (.string "Done") .authored).2 = pairTable ∧
      Collides pairTable "pair.steps.first" (.collision "pair.steps" "pair.steps.first") := by
  have hv : (Json.string "Done").isObject = false := rfl
  obtain ⟨-, -, hplaced, -⟩ := put_exact_and_atomic pairTable "pair.done.text" hv .fallback
  obtain ⟨-, hfault, -, -⟩ := put_exact_and_atomic pairTable "pair.steps.first" hv .authored
  obtain ⟨hsame, hcollides⟩ := hfault (.collision "pair.steps" "pair.steps.first") rfl
  exact ⟨hv, rfl, hplaced rfl, hsame, hcollides⟩

end LocaleTable

end RadioDriver
