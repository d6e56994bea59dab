import RadioDriver.Inherit.Resolver

namespace RadioDriver.View

abbrev OptionTable := Fields (Fields Json)

/-- An option given by a plain value is an option with that default. -/
def normalizeOption (v : Json) : Json :=
  if v.isObject then v else .object [("default", v)]

def normalizeOptions : Json → Json
  | .object options => .object (Fields.mapValues normalizeOption options)
  | other => other

def normalizeOwn (own : Entity) : Entity :=
  match Fields.get? own "options" with
  | some options => Fields.set own "options" (normalizeOptions options)
  | none => own

def mergedNames : List String := ["options", "prepend", "append"]

def mergeOption (table : OptionTable) (option : String × Json) : OptionTable :=
  match option.2 with
  | .object fields =>
    Fields.set table option.1 (Fields.override ((Fields.get? table option.1).getD []) fields)
  | _ => table

def mergeOptions (table : OptionTable) (source : Entity) : OptionTable :=
  match Fields.get? source "options" with
  | some (.object options) => options.foldl mergeOption table
  | _ => table

def mergePlain (fields : Fields Json) (source : Entity) : Fields Json :=
  Fields.override fields (source.filter fun f => f.1 ∉ mergedNames)

def concatenated (name : String) (sources : List Entity) : List Json :=
  sources.flatMap fun s => Json.asList (Fields.get? s name)

/-- A view from its ancestors and its own fields. Options merge by name and field, so a view can
override the default of an option and keep that it is required. `prepend` and `append` content is
concatenated, the ancestors' first. Every other field is the last one given. -/
def combine (ancestors : List Entity) (own : Entity) : Entity :=
  let sources := ancestors ++ [normalizeOwn own]
  sources.foldl mergePlain [] ++
    [("options", .object (Fields.mapValues .object (sources.foldl mergeOptions []))),
      ("prepend", .array (concatenated "prepend" sources)),
      ("append", .array (concatenated "append" sources))]

def rules : Rules := ⟨.view, fun _ => combine⟩

end RadioDriver.View
