import RadioDriver.Disk.Basic
import RadioDriver.Locale.Store
import RadioDriver.Proofs.Json.Texts
import RadioDriver.Proofs.Locale.Refilling

namespace RadioDriver

namespace Locale

variable {s t : String} {fields fields' : Fields Json} {name path : String} {value : Json}

/-- Whether a text does not end in the mark. -/
def isUnmarked (s : String) : Bool := !isMarked s

theorem isUnmarked_iff : isUnmarked s = true ↔ isMarked s = false := by simp [isUnmarked]

theorem isUnmarked_of_not_mem (h : fillMark ∉ s.toList) : isUnmarked s = true := by
  rw [isUnmarked_iff, isMarked, beq_eq_false_iff_ne]
  exact fun hlast => h (List.mem_of_getLast? hlast)

theorem isUnmarked_spelled {cs : List Char} (hs : s = String.ofList cs)
    (h : cs.getLast? ≠ some fillMark) : isUnmarked s = true := by
  subst hs
  simpa [isUnmarked, isMarked] using h

theorem isUnmarked_append (ht : t ≠ "") : isUnmarked (s ++ t) = isUnmarked t := by
  have hne : t.toList ≠ [] := fun h => ht (String.toList_eq_nil_iff.mp h)
  rw [isUnmarked, isUnmarked, isMarked, isMarked, String.toList_append,
    List.getLast?_append_of_ne_nil _ hne]

theorem trimEnd_trimEnd (s : String) :
    Text.trimEnd fillMark (Text.trimEnd fillMark s) = Text.trimEnd fillMark s :=
  trimEnd_of_not_marked (isMarked_trimEnd s)

mutual

theorem cleaned_cleaned : ∀ v : Json, cleaned (cleaned v) = cleaned v
  | .object fields => congrArg Json.object (cleanedFields_cleanedFields fields)
  | .string s => congrArg Json.string (trimEnd_trimEnd s)
  | .null => rfl
  | .bool _ => rfl
  | .number _ => rfl
  | .array _ => rfl

theorem cleanedFields_cleanedFields : ∀ fields : List (String × Json),
    cleanedFields (cleanedFields fields) = cleanedFields fields
  | [] => rfl
  | (k, v) :: rest => by
    rw [cleanedFields, cleanedFields, cleaned_cleaned v, cleanedFields_cleanedFields rest]

end

mutual

theorem leavesAt_cleaned : ∀ (v : Json) (path : String), leavesAt path (cleaned v) =
    (leavesAt path v).map fun leaf => (leaf.1, Text.trimEnd fillMark leaf.2)
  | .object fields, path => leavesBelow_cleanedFields fields path
  | .string _, _ => rfl
  | .null, _ => rfl
  | .bool _, _ => rfl
  | .number _, _ => rfl
  | .array _, _ => rfl

theorem leavesBelow_cleanedFields : ∀ (fields : List (String × Json)) (path : String),
    leavesBelow path (cleanedFields fields) =
      (leavesBelow path fields).map fun leaf => (leaf.1, Text.trimEnd fillMark leaf.2)
  | [], _ => rfl
  | (k, v) :: rest, path => by
    rw [cleanedFields, leavesBelow, leavesBelow, List.map_append, leavesAt_cleaned v,
      leavesBelow_cleanedFields rest]

end

mutual

theorem cleaned_of_allTexts : ∀ v : Json, v.allTexts isUnmarked = true → cleaned v = v
  | .object fields, h => congrArg Json.object (cleanedFields_of_allFieldTexts fields h)
  | .string _, h => congrArg Json.string (trimEnd_of_not_marked (isUnmarked_iff.mp h))
  | .null, _ => rfl
  | .bool _, _ => rfl
  | .number _, _ => rfl
  | .array _, _ => rfl

theorem cleanedFields_of_allFieldTexts : ∀ fields : List (String × Json),
    Json.allFieldTexts isUnmarked fields = true → cleanedFields fields = fields
  | [], _ => rfl
  | (k, v) :: rest, h => by
    simp only [Json.allFieldTexts, Bool.and_eq_true] at h
    rw [cleanedFields, cleaned_of_allTexts v h.1, cleanedFields_of_allFieldTexts rest h.2]

end

theorem leavesOf_cleanedFields (fields : Fields Json) :
    LocaleTable.leavesOf (cleanedFields fields) =
      (LocaleTable.leavesOf fields).map fun leaf => (leaf.1, Text.trimEnd fillMark leaf.2) := by
  induction fields with
  | nil => rfl
  | cons f rest ih =>
    obtain ⟨k, v⟩ := f
    rw [cleanedFields, LocaleTable.leavesOf, LocaleTable.leavesOf, List.map_append,
      leavesAt_cleaned,
      ih]

theorem container?_cleaned (v : Option Json) :
    container? (v.map cleaned) = (container? v).map cleanedFields := by
  rcases v with - | v
  · rfl
  · cases v <;> rfl

theorem setAt_cleanedFields {walked segments : List String} {whole : String}
    (h : setAt walked whole value fields segments = .ok fields') :
    setAt walked whole (cleaned value) (cleanedFields fields) segments =
      .ok (cleanedFields fields') := by
  induction segments generalizing fields fields' walked with
  | nil =>
    cases fields <;> cases h <;> rfl
  | cons name rest ih =>
    cases rest with
    | nil =>
      have hfree := not_obstructed_of_setAt h
      rw [obstructed_singleton] at hfree
      rw [setAt_singleton_ok h, cleanedFields_set, setAt, get?_cleanedFields]
      split
      · next children hchildren =>
        obtain ⟨v, hv, hobject⟩ := Option.map_eq_some_iff.mp hchildren
        cases v with
        | object inner => exact absurd ⟨inner, hv⟩ hfree
        | _ => cases hobject
      · rfl
    | cons next rest =>
      obtain ⟨inner, inner', hinner, hset, rfl⟩ := setAt_cons_ok h
      rw [setAt_cons, get?_cleanedFields, container?_cleaned, hinner, cleanedFields_set]
      simp only [Option.map_some, ih hset]
      rfl

theorem cleanedFields_setAt {walked segments : List String} {whole : String}
    (h : cleanedFields fields = fields) (hvalue : cleaned value = value)
    (hset : setAt walked whole value fields segments = .ok fields') :
    cleanedFields fields' = fields' := by
  have hclean := setAt_cleanedFields hset
  rw [h, hvalue, hset] at hclean
  exact (Except.ok.inj hclean).symm

end Locale

namespace LocaleTable

variable {t t' : LocaleTable} {path language : String}

/-- Cleaning leaves the table as it is. -/
def Unmarked (t : LocaleTable) : Prop := Locale.cleanedFields t.tree = t.tree

theorem unmarked_empty : Unmarked {} := rfl

theorem Unmarked.text (h : t.Unmarked) {s : String} (htext : t.text? path = some s) :
    Locale.isMarked s = false := by
  rw [text?_eq_textAt, ← h, Locale.textAt_cleanedFields] at htext
  obtain ⟨marked, -, rfl⟩ := Option.map_eq_some_iff.mp htext
  exact Locale.isMarked_trimEnd marked

theorem Unmarked.leaf (h : t.Unmarked) {leaf : String × String} (hleaf : leaf ∈ t.leaves) :
    Locale.isMarked leaf.2 = false := by
  rw [leaves, ← h, Locale.leavesOf_cleanedFields] at hleaf
  obtain ⟨marked, -, rfl⟩ := List.mem_map.mp hleaf
  exact Locale.isMarked_trimEnd marked.2

theorem unmarked_ofTree {tree : Json} (h : ofTree language tree = .ok t) : t.Unmarked := by
  cases tree with
  | object fields =>
    cases h
    exact Locale.cleanedFields_cleanedFields fields
  | _ => cases h

theorem Unmarked.markFallback (h : t.Unmarked) (paths : List String) :
    (t.markFallback paths).Unmarked := h

end LocaleTable

theorem Backfill.keptBySetting_unmarked : KeptBySetting LocaleTable.Unmarked := by
  intro t t' path value provenance h hset hobject htext _
  have hvalue : Locale.cleaned value = value := by
    cases value with
    | string s => rw [Locale.cleaned, Locale.trimEnd_of_not_marked (htext s rfl)]
    | object fields => cases hobject
    | _ => rfl
  exact Locale.cleanedFields_setAt h hvalue (LocaleTable.setAt_of_set hset)

namespace Catalog

variable {c builtin filled : Catalog} {language : String} {table : LocaleTable} {tree : Json}
  {space : Option String} {missing : List MissingText}

/-- Every table of the catalog is without marks. -/
def Unmarked (c : Catalog) : Prop := ∀ t ∈ c.tables, t.2.Unmarked

theorem unmarked_empty : empty.Unmarked := by
  intro t ht
  rw [List.mem_singleton.mp ht]
  exact LocaleTable.unmarked_empty

theorem Unmarked.insert (h : c.Unmarked) (ht : table.Unmarked) :
    (c.insert language table).Unmarked := by
  intro t hmem
  rcases mem_insertTable hmem with rfl | hmem
  · exact ht
  · exact h t hmem

theorem Unmarked.backfill (h : c.Unmarked) (hbuiltin : builtin.Clean)
    (hkeys : ∀ path ∈ KeyPath.keyPaths tree, Locale.isMarked path = false)
    (hfill : c.backfill builtin tree space = .ok (filled, missing)) : filled.Unmarked :=
  Backfill.keptBySetting_unmarked.fillPaths hbuiltin
    (Backfill.pathsUnmarked_pathsOf hbuiltin hkeys space) h (backfill_eq_ok_iff.mp hfill)

theorem Unmarked.localized (h : c.Unmarked) {path : String}
    (hpath : Locale.isUnmarked path = true) :
    (c.localized path).allTexts Locale.isUnmarked = true := by
  rw [Catalog.localized, Json.allTexts_object, Json.allFieldTexts_iff]
  intro f hf
  obtain ⟨t, ht, hlocalized⟩ := List.mem_filterMap.mp hf
  unfold localizedIn at hlocalized
  split at hlocalized
  · next s hs =>
    cases hlocalized
    exact Locale.isUnmarked_iff.mpr ((h t ht).text hs)
  · split at hlocalized
    · cases hlocalized
      exact hpath
    · cases hlocalized

theorem clean_empty : empty.Clean := by
  intro t ht
  rw [List.mem_singleton.mp ht]
  exact ⟨rfl, by decide, by decide, .nil⟩

theorem Clean.insert (h : c.Clean) (ht : table.Clean) : (c.insert language table).Clean := by
  intro t hmem
  rcases mem_insertTable hmem with rfl | hmem
  · exact ht
  · exact h t hmem

theorem clean_addAuthored {source : LocaleTable} (hsource : source.Unmarked) {table : LocaleTable}
    (h : table.Clean) : (addAuthored source source.leaves table).2.Clean := by
  have hleaves : ∀ leaf ∈ source.leaves, Locale.isMarked leaf.2 = false := fun _ => hsource.leaf
  generalize source.leaves = leaves at hleaves
  induction leaves generalizing table with
  | nil => exact h
  | cons leaf rest ih =>
    obtain ⟨hleaf, hrest⟩ := List.forall_mem_cons.mp hleaves
    rw [addAuthored]
    split
    · split
      · next hset => exact ih (Backfill.keptBySetting_clean.text h hset hleaf) hrest
      · exact h
    · exact ih h hrest

theorem Clean.extendAuthored (h : c.Clean) (value : Json) : (c.extendAuthored value).2.Clean := by
  unfold Catalog.extendAuthored
  split
  case h_2 => exact h
  next languages =>
  induction languages generalizing c with
  | nil => exact h
  | cons entry rest ih =>
    obtain ⟨language, tree⟩ := entry
    rw [extendLanguages]
    split
    · exact h
    · next source hsource =>
      have hstart : ((c.get? language).getD {}).Clean := by
        cases ht : c.get? language with
        | none => exact clean_empty _ (List.mem_singleton_self _)
        | some table => exact h _ (Fields.mem_of_get? ht)
      have hadded := clean_addAuthored (LocaleTable.unmarked_ofTree hsource) hstart
      split
      · next table hadd =>
        rw [hadd] at hadded
        exact ih (h.insert hadded)
      · next e table hadd =>
        rw [hadd] at hadded
        exact h.insert hadded

end Catalog

namespace LocaleStore

/-- Whatever the disk holds, the answer satisfies `P`. -/
def Yields {α : Type} (x : StateM Disk α) (P : α → Prop) : Prop := ∀ d, P (x.run d).1

variable {α β : Type} {x : StateM Disk α} {f : α → StateM Disk β} {P : β → Prop} {Q : α → Prop}

theorem Yields.bind (hx : Yields x Q) (hf : ∀ a, Q a → Yields (f a) P) : Yields (x >>= f) P :=
  fun d => hf _ (hx d) _

theorem yields_bind (hf : ∀ a, Yields (f a) P) : Yields (x >>= f) P := fun _ => hf _ _

theorem yields_pure {b : β} (h : P b) : Yields (pure b) P := fun _ => h

/-- The file of a language and its side file give a table without marks, whatever they hold. -/
theorem loadTable_unmarked (s : LocaleStore) (language : String) :
    Yields (s.loadTable language) fun answer => ∀ table, answer = .ok table → table.Unmarked := by
  refine yields_bind ?_
  rintro (e | tree)
  · exact yields_pure fun table h => nomatch h
  · dsimp only
    split
    · exact yields_pure fun table h => nomatch h
    · next table htable =>
      have hunmarked : table.Unmarked := LocaleTable.unmarked_ofTree htable
      refine yields_bind fun isFile => ?_
      split
      · refine yields_bind ?_
        rintro (e | v)
        · exact yields_pure fun table h => nomatch h
        · apply yields_pure
          intro table' h
          obtain ⟨paths, -, rfl⟩ := except_map_eq_ok.mp h
          exact hunmarked.markFallback paths
      · apply yields_pure
        intro table' h
        cases h
        exact hunmarked

theorem loadTables_unmarked (s : LocaleStore) (languages : List String) {c : Catalog}
    (h : c.Unmarked) :
    Yields (s.loadTables languages c)
      fun answer => ∀ loaded, answer = .ok loaded → loaded.Unmarked := by
  induction languages generalizing c with
  | nil =>
    apply yields_pure
    intro loaded heq
    cases heq
    exact h
  | cons language rest ih =>
    refine (s.loadTable_unmarked language).bind ?_
    rintro (e | table) htable
    · exact yields_pure fun loaded h => nomatch h
    · exact ih (h.insert (htable table rfl))

/-- No text of a project that is read from files is marked: a table that is read is cleaned, and no
leaf is set to a marked text afterwards. -/
theorem load_unmarked (s : LocaleStore) {d : Disk} {project : Catalog}
    (h : ((s.load : StateM Disk _).run d).1 = .ok project) : project.Unmarked := by
  have hload : Yields s.load fun answer : Except LocaleError Catalog =>
      ∀ loaded, answer = .ok loaded → loaded.Unmarked := by
    refine yields_bind fun isDir => ?_
    split
    · exact yields_bind fun languages => s.loadTables_unmarked languages Catalog.unmarked_empty
    · apply yields_pure
      intro loaded heq
      cases heq
      exact Catalog.unmarked_empty
  exact hload d project h

end LocaleStore

end RadioDriver
