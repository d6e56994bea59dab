import Mathlib.Data.List.Sort
import RadioDriver.Proofs.Locale.Marks

namespace RadioDriver

namespace LocaleTable

variable {t t' : LocaleTable} {path language text : String} {paths paths' : List String}

theorem text?_eq_textAt (t : LocaleTable) (path : String) :
    t.text? path = Locale.textAt t.tree (segments path) := rfl

theorem mem_insertAll : path ∈ insertAll paths paths' ↔ path ∈ paths ∨ path ∈ paths' := by
  induction paths generalizing paths' with
  | nil => simp [insertAll]
  | cons p rest ih =>
    have hstep : insertAll (p :: rest) paths' = insertAll rest (Text.insertSorted p paths') := rfl
    rw [hstep, ih, Text.mem_insertSorted, List.mem_cons]
    exact or_left_comm.trans or_assoc.symm

theorem sorted_insertAll (paths : List String) (h : paths'.Pairwise (· < ·)) :
    (insertAll paths paths').Pairwise (· < ·) := by
  induction paths generalizing paths' with
  | nil => exact h
  | cons p rest ih => exact ih (Text.sorted_insertSorted p h)

theorem insertAll_eq (hsorted : paths'.Pairwise (· < ·))
    (h : ∀ path, path ∈ paths ↔ path ∈ paths') : insertAll paths [] = paths' := by
  apply (sorted_insertAll paths List.Pairwise.nil).eq_of_mem_iff hsorted
  intro path
  rw [mem_insertAll, h]
  simp

/-- What every table of a project is like. -/
structure Clean (t : LocaleTable) : Prop where
  /-- Objects name their fields apart and without dots. Arrays are leaves; no path leads into
  them. -/
  plain : Locale.plainFields t.tree = true
  unmarked : ∀ leaf ∈ t.leaves, Locale.isMarked leaf.2 = false
  texts : ∀ path ∈ t.fallback, (t.text? path).isSome
  sorted : t.fallback.Pairwise (· < ·)

theorem mem_leaves (h : Locale.plainFields t.tree = true) :
    (path, text) ∈ t.leaves ↔ t.text? path = some text := Locale.mem_leavesOf h

theorem Clean.unmarked_text (h : t.Clean) (ht : t.text? path = some text) :
    Locale.isMarked text = false := h.unmarked _ ((mem_leaves h.plain).mpr ht)

theorem Clean.fallback_nodup (h : t.Clean) : t.fallback.Nodup :=
  h.sorted.imp String.ne_of_lt

theorem clean_ofTree {fields : Fields Json} (h : Locale.plainFields fields = true) :
    ∃ table, ofTree language (.object fields) = .ok table ∧ table.Clean := by
  refine ⟨_, rfl, ?_, ?_, ?_, sorted_insertAll _ .nil⟩
  · exact (Locale.plainFields_cleanedFields fields).trans h
  · rintro ⟨path, text⟩ hleaf
    have hplain : Locale.plainFields (Locale.cleanedFields fields) = true :=
      (Locale.plainFields_cleanedFields fields).trans h
    have htext := (Locale.mem_leavesOf hplain).mp hleaf
    rw [Locale.textAt_cleanedFields] at htext
    obtain ⟨marked, -, rfl⟩ := Option.map_eq_some_iff.mp htext
    exact Locale.isMarked_trimEnd marked
  · intro path hpath
    have hmarked := (mem_insertAll.mp hpath).resolve_right List.not_mem_nil
    obtain ⟨text, htext, -⟩ := (Locale.mem_markedLeaves h).mp hmarked
    rw [text?_eq_textAt, Locale.textAt_cleanedFields, htext]
    rfl

theorem Clean.markFallback (h : t.Clean) (paths : List String) : (t.markFallback paths).Clean := by
  refine ⟨h.plain, h.unmarked, ?_, sorted_insertAll _ h.sorted⟩
  intro path hpath
  rcases mem_insertAll.mp hpath with hnew | hold
  · exact (List.mem_filter.mp hnew).2
  · exact h.texts path hold

/-- Setting a leaf keeps a table clean, unless a marked text is set or what is no text is said to be
filled in. -/
theorem Clean.set {value : Json} {provenance : Provenance} (h : t.Clean)
    (hset : t.set path value provenance = .ok t') (hv : value.isObject = false)
    (hmark : ∀ text, value.string? = some text → Locale.isMarked text = false)
    (hfilled : provenance = .fallback → value.string?.isSome) : t'.Clean := by
  have hplain : Locale.plain value = true := by
    cases value with
    | object fields => cases hv
    | _ => rfl
  have hplain' : Locale.plainFields t'.tree = true :=
    Locale.plainFields_setAt (setAt_of_set hset) h.plain hplain fun _ hname =>
      Locale.dot_not_mem_of_mem_segments hname
  have hself : t'.text? path = value.string? := by
    rw [text?, get?_set_self hset]
    rfl
  refine ⟨hplain', ?_, ?_, ?_⟩
  · rintro ⟨other, text⟩ hleaf
    have htext := (mem_leaves hplain').mp hleaf
    by_cases heq : other = path
    · rw [heq, hself] at htext
      exact hmark text htext
    · rw [text?_set_of_ne hset hv heq] at htext
      exact h.unmarked_text htext
  · intro other hother
    have hfallback := isFallback_set hset other
    rw [isFallback, List.contains_iff_mem.mpr hother] at hfallback
    by_cases heq : other = path
    · rw [if_pos heq] at hfallback
      rw [heq, hself]
      exact hfilled (eq_of_beq hfallback.symm)
    · rw [if_neg heq] at hfallback
      rw [text?_set_of_ne hset hv heq]
      exact h.texts other (List.contains_iff_mem.mp hfallback.symm)
  · unfold LocaleTable.set at hset
    cases htree : Locale.setAt [] path value t.tree (segments path) with
    | error e =>
      rw [htree] at hset
      cases hset
    | ok tree =>
      rw [htree] at hset
      cases hset
      cases provenance with
      | fallback => exact Text.sorted_insertSorted path h.sorted
      | authored => exact h.sorted.filter _

theorem render_keep (t : LocaleTable) :
    t.render .keep = .object (Locale.markAll t.tree t.fallback) := rfl

theorem Clean.cleanedFields_tree (h : t.Clean) : Locale.cleanedFields t.tree = t.tree :=
  Locale.cleanedFields_eq_self h.unmarked

theorem Clean.mem_markedLeaves (h : t.Clean) :
    path ∈ markedLeaves (Locale.markAll t.tree t.fallback) ↔ path ∈ t.fallback := by
  rw [Locale.mem_markedLeaves (Locale.plainFields_markAll h.plain),
    Locale.textAt_markAll h.fallback_nodup h.texts, ← text?_eq_textAt]
  constructor
  · rintro ⟨text, htext, hmark⟩
    obtain ⟨plain, hplain, rfl⟩ := Option.map_eq_some_iff.mp htext
    by_contra hnot
    rw [if_neg hnot, h.unmarked_text hplain] at hmark
    cases hmark
  · intro hpath
    obtain ⟨text, htext⟩ := Option.isSome_iff_exists.mp (h.texts path hpath)
    rw [htext, Option.map_some, if_pos hpath]
    exact ⟨_, rfl, Locale.isMarked_push text⟩

theorem Clean.ofTree_keep (h : t.Clean) (language : String) :
    ofTree language (t.render .keep) = .ok t := by
  rw [render_keep, ofTree, Locale.cleanedFields_markAll, h.cleanedFields_tree,
    insertAll_eq h.sorted fun _ => h.mem_markedLeaves]

theorem Clean.ofTree_strip (h : t.Clean) (language : String) :
    ofTree language (t.render .strip) = .ok ⟨t.tree, []⟩ := by
  -- nothing in the tree is marked, so nothing is taken for filled in
  have hnone : markedLeaves t.tree = [] := by
    rw [Locale.markedLeaves_eq]
    have hempty : (leavesOf t.tree).filter (fun leaf => Locale.isMarked leaf.2) = [] := by
      refine List.filter_eq_nil_iff.mpr fun leaf hleaf => ?_
      rw [h.unmarked leaf hleaf]
      exact Bool.false_ne_true
    rw [hempty]
    rfl
  rw [render, ofTree, h.cleanedFields_tree, hnone]
  rfl

theorem Clean.markFallback_strip (h : t.Clean) :
    (⟨t.tree, []⟩ : LocaleTable).markFallback t.fallback = t := by
  have hall : t.fallback.filter (fun p => ((⟨t.tree, []⟩ : LocaleTable).text? p).isSome) =
      t.fallback := List.filter_eq_self.mpr h.texts
  rw [LocaleTable.markFallback, hall, insertAll_eq h.sorted fun _ => Iff.rfl]

end LocaleTable

end RadioDriver
