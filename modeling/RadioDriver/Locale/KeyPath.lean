import RadioDriver.Json.Basic
import RadioDriver.Text.Pieces

namespace RadioDriver.KeyPath

def textFields : List String := ["label", "title", "placeholder"]

/-- Whether a text is a key path in the field `name`; `path` leads to it and ends in `name`. Labels,
titles and placeholders always are, names unless they are of arguments, and in options every text
that points at device classes or views. A key path is never empty and holds no blank. -/
def isKeyPath (name text : String) (path : List String) : Bool :=
  text ≠ "" && !text.toList.contains ' ' &&
    (textFields.contains name ||
      (name == "name" && !path.contains "args") ||
      ((Text.contains text "deviceClasses." || Text.contains text "views.") &&
        (path.contains "options" || path.contains "viewOptions")))

mutual

/-- The key paths in a value, repeats included. `name` is the field it stands in, if any. -/
def keysAt (path : List String) (name : Option String) : Json → List String
  | .string s =>
    match name with
    | some name => if isKeyPath name s path then [s] else []
    | none => []
  | .array items => keysInItems path 0 items
  | .object fields => keysInFields path fields
  | .null => []
  | .bool _ => []
  | .number _ => []

def keysInItems (path : List String) (index : Nat) : List Json → List String
  | [] => []
  | v :: rest => keysAt (path ++ [toString index]) none v ++ keysInItems path (index + 1) rest

def keysInFields (path : List String) : List (String × Json) → List String
  | [] => []
  | (k, v) :: rest => keysAt (path ++ [k]) (some k) v ++ keysInFields path rest

end

/-- The key paths of a tree, each once, in the order they are met. -/
def keyPaths (tree : Json) : List String := (keysAt [] none tree).eraseDups

end RadioDriver.KeyPath
