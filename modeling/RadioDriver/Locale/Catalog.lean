import RadioDriver.Locale.Table

namespace RadioDriver

/-- The language whose missing texts are replaced by their paths. -/
def defaultLanguage : String := "en"

/-- The tables by language, in the order of the language names. The default language is always among
them. -/
structure Catalog where
  tables : Fields LocaleTable
  sorted : (Fields.names tables).Pairwise (· < ·)
  default_mem : defaultLanguage ∈ Fields.names tables

namespace Catalog

def insertTable (language : String) (table : LocaleTable) : Fields LocaleTable → Fields LocaleTable
  | [] => [(language, table)]
  | (k, t) :: rest =>
    if language < k then (language, table) :: (k, t) :: rest
    else if language = k then (k, table) :: rest
    else (k, t) :: insertTable language table rest

theorem mem_names_insertTable {language name : String} {table : LocaleTable}
    {tables : Fields LocaleTable} : name ∈ Fields.names (insertTable language table tables) ↔
      name = language ∨ name ∈ Fields.names tables := by
  induction tables with
  | nil => simp [insertTable, Fields.names]
  | cons t rest ih =>
    obtain ⟨k, t⟩ := t
    unfold insertTable
    split
    · simp [Fields.names]
    · split
      · next heq =>
        subst heq
        simp [Fields.names]
      · have hcons : ∀ tables : Fields LocaleTable,
            Fields.names ((k, t) :: tables) = k :: Fields.names tables := fun _ => rfl
        rw [hcons, hcons, List.mem_cons, List.mem_cons, ih]
        exact or_left_comm

theorem sorted_insertTable {language : String} (table : LocaleTable) {tables : Fields LocaleTable}
    (h : (Fields.names tables).Pairwise (· < ·)) :
    (Fields.names (insertTable language table tables)).Pairwise (· < ·) := by
  induction tables with
  | nil => exact List.pairwise_singleton _ language
  | cons t rest ih =>
    obtain ⟨k, t⟩ := t
    obtain ⟨hk, hrest⟩ := List.pairwise_cons.mp h
    unfold insertTable
    split
    · next hlt =>
      refine List.pairwise_cons.mpr ⟨?_, h⟩
      intro name hname
      rcases List.mem_cons.mp hname with rfl | hname
      · exact hlt
      · exact String.lt_trans hlt (hk name hname)
    · next hnot =>
      split
      · exact List.pairwise_cons.mpr ⟨hk, hrest⟩
      · next hne =>
        refine List.pairwise_cons.mpr ⟨?_, ih hrest⟩
        intro name hname
        rcases mem_names_insertTable.mp hname with rfl | hname
        · apply String.not_le.mp
          intro hle
          exact hne (String.le_antisymm hle (String.not_lt.mp hnot))
        · exact hk name hname

def empty : Catalog where
  tables := [(defaultLanguage, {})]
  sorted := List.pairwise_singleton _ _
  default_mem := List.mem_singleton_self _

def insert (c : Catalog) (language : String) (table : LocaleTable) : Catalog where
  tables := insertTable language table c.tables
  sorted := sorted_insertTable table c.sorted
  default_mem := mem_names_insertTable.mpr (.inr c.default_mem)

def get? (c : Catalog) (language : String) : Option LocaleTable := Fields.get? c.tables language

def languages (c : Catalog) : List String := Fields.names c.tables

theorem languages_nodup (c : Catalog) : (Fields.names c.tables).Nodup := by
  refine c.sorted.imp ?_
  rintro language other hlt rfl
  exact String.lt_irrefl language hlt

/-- Sets the leaves that their source does not mark as filled in, up to the first collision. -/
def addAuthored (source : LocaleTable) :
    List (String × String) → LocaleTable → Except LocaleError Unit × LocaleTable
  | [], table => (.ok (), table)
  | (path, text) :: rest, table =>
    if source.provenance? path = some .authored then
      match table.set path (.string text) .authored with
      | .ok table => addAuthored source rest table
      | .error e => (.error e, table)
    else addAuthored source rest table

/-- Merges the trees of languages in order, up to the first fault. -/
def extendLanguages : Fields Json → Catalog → Except LocaleError Unit × Catalog
  | [], c => (.ok (), c)
  | (language, tree) :: rest, c =>
    match LocaleTable.ofTree language tree with
    | .error e => (.error e, c)
    | .ok source =>
      match addAuthored source source.leaves ((c.get? language).getD {}) with
      | (.ok (), table) => extendLanguages rest (c.insert language table)
      | (.error e, table) => (.error e, c.insert language table)

/-- Merges trees by language as authored text. Marked leaves are left out, so what one file had
filled in never becomes text of another. A value that is no object merges nothing. The catalog
keeps what was merged before a fault. -/
def extendAuthored (c : Catalog) (value : Json) : Except LocaleError Unit × Catalog :=
  match value with
  | .object languages => extendLanguages languages c
  | _ => (.ok (), c)

def ofJson (value : Json) : Except LocaleError Catalog :=
  match empty.extendAuthored value with
  | (.ok (), c) => .ok c
  | (.error e, _) => .error e

/-- What one language says at a path; the default language falls back to the path. -/
def localizedIn (path : String) (table : String × LocaleTable) : Option (String × Json) :=
  match table.2.text? path with
  | some s => some (table.1, .string s)
  | none => if table.1 = defaultLanguage then some (table.1, .string path) else none

def localized (c : Catalog) (path : String) : Json :=
  .object (c.tables.filterMap (localizedIn path))

end Catalog

end RadioDriver
