import RadioDriver.Proofs.Locale.Placement
import RadioDriver.Proofs.Text.Pieces

namespace RadioDriver.LocaleTable

/-- An object stands at the path, or a value other than `null` and an object on the way. -/
def Obstructed (t : LocaleTable) (path : String) : Prop := Locale.Obstructed t.tree (segments path)

/-- The segments of one path do not begin those of the other. -/
def Apart (path other : String) : Prop := Locale.Apart (segments path) (segments other)

variable {t t' : LocaleTable} {path other : String} {value : Json} {provenance : Provenance}

theorem segments_ne_nil (path : String) : segments path ≠ [] := Text.split_ne_nil '.' path

theorem segments_injective (h : segments path = segments other) : path = other :=
  Text.split_injective h

theorem not_obstructed_of_text? (h : (t.text? path).isSome) : ¬ t.Obstructed path := by
  obtain ⟨text, htext⟩ := Option.isSome_iff_exists.mp h
  obtain ⟨v, hv, hs⟩ := Option.bind_eq_some_iff.mp htext
  rintro (⟨children, hc⟩ | ⟨above, leaf, hpre, hne, habove, hleaf⟩)
  · have hsame := hv.symm.trans hc
    cases hsame
    cases hs
  · have hnil : above ≠ [] := by
      rintro rfl
      cases ht : t.tree with
      | nil => rw [ht] at habove; cases habove
      | cons f rest => rw [ht] at habove; cases habove
    -- a leaf on the way has nothing below it, and so no text at the path
    have hnone := Locale.valueAt_below hpre hne hnil (by
      intro children hc
      rw [habove] at hc
      cases hc
      cases hleaf.2)
    rw [get?, hnone] at hv
    cases hv

theorem not_prefix_of_text? (h : (t.text? path).isSome) (ho : (t.text? other).isSome)
    (hne : path ≠ other) : ¬ segments path <+: segments other := by
  intro hpre
  obtain ⟨text, htext⟩ := Option.isSome_iff_exists.mp h
  obtain ⟨v, hv, hs⟩ := Option.bind_eq_some_iff.mp htext
  have hbelow : t.get? other = none := by
    apply Locale.valueAt_below hpre (fun heq => hne (segments_injective heq)) (segments_ne_nil path)
    intro children hc
    rw [get?, hc] at hv
    cases hv
    cases hs
  rw [text?, hbelow] at ho
  cases ho

theorem setAt_of_set (h : t.set path value provenance = .ok t') :
    Locale.setAt [] path value t.tree (segments path) = .ok t'.tree := by
  unfold set at h
  cases hset : Locale.setAt [] path value t.tree (segments path) with
  | error e => rw [hset] at h; cases h
  | ok tree =>
    rw [hset] at h
    cases h
    rfl

theorem isFallback_set (h : t.set path value provenance = .ok t') (other : String) :
    t'.isFallback other =
      if other = path then provenance == .fallback else t.isFallback other := by
  unfold set at h
  cases hset : Locale.setAt [] path value t.tree (segments path) with
  | error e => rw [hset] at h; cases h
  | ok tree =>
    rw [hset] at h
    cases h
    unfold isFallback
    rw [Bool.eq_iff_iff]
    by_cases hne : other = path
    · cases provenance with
      | authored => simp [hne]
      | fallback => simp [hne, Text.mem_insertSorted]
    · cases provenance with
      | authored => simp [hne]
      | fallback => simp [hne, Text.mem_insertSorted]

theorem exists_set (h : ¬ t.Obstructed path) (value : Json) (provenance : Provenance) :
    ∃ t', t.set path value provenance = .ok t' := by
  have hset : ∃ tree, Locale.setAt [] path value t.tree (segments path) = .ok tree :=
    Locale.exists_setAt h
  obtain ⟨tree, hset⟩ := hset
  unfold set
  rw [hset]
  exact ⟨_, rfl⟩

theorem set_of_obstructed (h : t.Obstructed path) (value : Json) (provenance : Provenance) :
    ∃ leaf place, t.set path value provenance = .error (.collision leaf place) := by
  have hset : ∃ leaf place, Locale.setAt [] path value t.tree (segments path) =
      .error (.collision leaf place) := Locale.setAt_of_obstructed h
  obtain ⟨leaf, place, hset⟩ := hset
  refine ⟨leaf, place, ?_⟩
  unfold set
  rw [hset]
  rfl

theorem not_obstructed_of_set (h : t.set path value provenance = .ok t') : ¬ t.Obstructed path :=
  Locale.not_obstructed_of_setAt (setAt_of_set h)

theorem get?_set_self (h : t.set path value provenance = .ok t') : t'.get? path = some value :=
  Locale.valueAt_setAt_self (setAt_of_set h) (segments_ne_nil path)

theorem get?_set_apart (h : t.set path value provenance = .ok t') (ha : Apart path other) :
    t'.get? other = t.get? other :=
  Locale.valueAt_setAt_apart (setAt_of_set h) ha

theorem obstructed_set_apart (h : t.set path value provenance = .ok t') (ha : Apart path other) :
    t'.Obstructed other ↔ t.Obstructed other :=
  Locale.obstructed_setAt_apart (setAt_of_set h) ha

theorem text?_set_of_ne (h : t.set path value provenance = .ok t') (hv : value.isObject = false)
    (hne : other ≠ path) : t'.text? other = t.text? other :=
  Locale.textAt_setAt (setAt_of_set h) hv (segments_ne_nil path) fun heq =>
    hne (segments_injective heq)

end RadioDriver.LocaleTable
