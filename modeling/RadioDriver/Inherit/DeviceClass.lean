import RadioDriver.Inherit.Resolver

namespace RadioDriver.DeviceClass

def mergedNames : List String := ["images", "pair"]

def mergePlain (fields : Fields Json) (source : Entity) : Fields Json :=
  Fields.override fields (source.filter fun f => f.1 ∉ mergedNames)

def objectsUnder (name : String) (sources : List Entity) : List (Fields Json) :=
  sources.filterMap fun s => (Fields.get? s name).bind Json.fields?

def freshOptions : Fields Json := [("prepend", .array []), ("append", .array [])]

def mergeViewField (options : Fields Json) (field : String × Json) : Fields Json :=
  if field.1 = "prepend" ∨ field.1 = "append" then
    Fields.set options field.1
      (.array (Json.asList (Fields.get? options field.1) ++ Json.asList (some field.2)))
  else Fields.set options field.1 field.2

/-- The options that one source gives a view; other values than objects give none, but name the
view. -/
def mergeView (table : Fields (Fields Json)) (view : String × Json) : Fields (Fields Json) :=
  let options := (Fields.get? table view.1).getD freshOptions
  match view.2 with
  | .object fields => Fields.set table view.1 (fields.foldl mergeViewField options)
  | _ => Fields.set table view.1 options

/-- The view options of one pairing descriptor laid over a table. -/
def mergeViewOptions (table : Fields (Fields Json)) (pair : Fields Json) : Fields (Fields Json) :=
  match Fields.get? pair "viewOptions" with
  | some (.object views) => views.foldl mergeView table
  | _ => table

/-- Pairing descriptors merged in order, the view options last. -/
def mergePairs (pairs : List (Fields Json)) : Fields Json :=
  let plain := pairs.foldl
    (fun acc p => Fields.override acc (p.filter fun f => f.1 ≠ "viewOptions")) []
  plain ++ [("viewOptions", .object (Fields.mapValues .object (pairs.foldl mergeViewOptions [])))]

/-- A field for merged objects, absent when there are none to merge. -/
def mergedField (name : String) (merge : List (Fields Json) → Fields Json) :
    List (Fields Json) → Fields Json
  | [] => []
  | objects => [(name, .object (merge objects))]

/-- A device class from its ancestors and its own fields. A field is the last one given. `images`
merge by key. In `pair` the options of a view merge by field, where `prepend` and `append`
concatenate; everything else there, the view order included, is taken whole from the last source.
`images` and `pair` appear only if some source has an object there. -/
def combine (id : String) (ancestors : List Entity) (own : Entity) : Entity :=
  let sources := ancestors ++ [own]
  let merged := sources.foldl mergePlain [] ++
    mergedField "images" (·.foldl Fields.override []) (objectsUnder "images" sources) ++
    mergedField "pair" mergePairs (objectsUnder "pair" sources)
  Fields.set merged "id" (.string id)

def rules : Rules := ⟨.deviceClass, combine⟩

end RadioDriver.DeviceClass
