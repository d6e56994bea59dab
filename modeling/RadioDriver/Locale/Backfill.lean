import RadioDriver.Locale.Catalog
import RadioDriver.Locale.KeyPath

namespace RadioDriver

/-- A key path without a text in a language. -/
structure MissingText where
  language : String
  path : String
deriving DecidableEq, Repr

def MissingText.message (m : MissingText) : String :=
  s!"No '{m.language}' translation for '{m.path}'"

namespace Backfill

/-- The built-in paths under a namespace that are not known yet. -/
def runtimePaths (builtin : Catalog) (space : String) (known : List String) : List String :=
  match builtin.get? defaultLanguage with
  | none => []
  | some table =>
    (table.leaves.map (·.1)).filter fun p =>
      Text.startsWith p (space ++ ".") && !known.contains p

/-- The paths to fill: those of the tree, then the built-in ones under the namespace. -/
def pathsOf (tree : Json) (builtin : Catalog) (space : Option String) : List String :=
  let known := KeyPath.keyPaths tree
  match space with
  | none => known
  | some space => known ++ runtimePaths builtin space known

def builtinText? (builtin : Catalog) (language path : String) : Option String :=
  (builtin.get? language).bind (·.usable? path)

/-- One language's table with a leaf at the path, and whether its text is missing. -/
def fillTable (builtin : Catalog) (path language : String) (table : LocaleTable) :
    Except LocaleError (LocaleTable × Bool) :=
  if (table.authored? path).isSome then .ok (table, false)
  else
    match builtinText? builtin language path with
    | some text => (table.set path (.string text) .fallback).map (·, false)
    | none =>
      if language = defaultLanguage then
        (table.set path (.string path) .authored).map (·, false)
      else (table.set path .null .authored).map (·, true)

/-- Every table with a leaf at the path, and the languages whose text is missing. -/
def fillPath (builtin : Catalog) (path : String) :
    Fields LocaleTable → Except LocaleError (Fields LocaleTable × List MissingText)
  | [] => .ok ([], [])
  | (language, table) :: rest => do
    let (table, missing) ← fillTable builtin path language table
    let (rest, more) ← fillPath builtin path rest
    return ((language, table) :: rest, if missing then ⟨language, path⟩ :: more else more)

def fillPaths (builtin : Catalog) :
    List String → Fields LocaleTable → Except LocaleError (Fields LocaleTable × List MissingText)
  | [], tables => .ok (tables, [])
  | path :: rest, tables => do
    let (tables, missing) ← fillPath builtin path tables
    let (tables, more) ← fillPaths builtin rest tables
    return (tables, missing ++ more)

theorem fillPath_names {builtin : Catalog} {path : String} {tables tables' : Fields LocaleTable}
    {missing : List MissingText} (h : fillPath builtin path tables = .ok (tables', missing)) :
    Fields.names tables' = Fields.names tables := by
  induction tables generalizing tables' missing with
  | nil =>
    cases h
    rfl
  | cons t rest ih =>
    obtain ⟨language, table⟩ := t
    simp only [fillPath, bind, Except.bind] at h
    cases hhere : fillTable builtin path language table with
    | error e => rw [hhere] at h; cases h
    | ok here =>
      cases hrest : fillPath builtin path rest with
      | error e => simp only [hhere, hrest] at h; cases h
      | ok others =>
        simp only [hhere, hrest] at h
        cases h
        exact congrArg (language :: ·) (ih hrest)

theorem fillPaths_names {builtin : Catalog} {paths : List String}
    {tables tables' : Fields LocaleTable} {missing : List MissingText}
    (h : fillPaths builtin paths tables = .ok (tables', missing)) :
    Fields.names tables' = Fields.names tables := by
  induction paths generalizing tables missing with
  | nil =>
    cases h
    rfl
  | cons path rest ih =>
    simp only [fillPaths, bind, Except.bind] at h
    cases hhere : fillPath builtin path tables with
    | error e => rw [hhere] at h; cases h
    | ok here =>
      cases hrest : fillPaths builtin rest here.1 with
      | error e => simp only [hhere, hrest] at h; cases h
      | ok others =>
        simp only [hhere, hrest] at h
        cases h
        exact (ih hrest).trans (fillPath_names hhere)

end Backfill

/-- The project's texts with a leaf in every language for every key path, and the texts that are
missing. Authored text stays. Otherwise the built-in text is filled in; without one the default
language gets the path itself, and any other language gets `null` and a warning. -/
def Catalog.backfill (project builtin : Catalog) (tree : Json) (space : Option String) :
    Except LocaleError (Catalog × List MissingText) :=
  match h : Backfill.fillPaths builtin (Backfill.pathsOf tree builtin space) project.tables with
  | .error e => .error e
  | .ok (tables, missing) =>
    have hnames := Backfill.fillPaths_names h
    .ok (⟨tables, hnames ▸ project.sorted, hnames ▸ project.default_mem⟩, missing)

end RadioDriver
