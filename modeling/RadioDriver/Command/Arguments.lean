import RadioDriver.Text.Pieces

namespace RadioDriver.Command

/-- What an option sets. -/
inductive Setting
  | root
  | config
  | configType
  | out
  | sentinel
deriving DecidableEq, Repr

namespace Setting

def long : Setting → String
  | .root => "root"
  | .config => "config"
  | .configType => "config-type"
  | .out => "out"
  | .sentinel => "sentinel"

def short? : Setting → Option Char
  | .root => some 'r'
  | .config => some 'c'
  | .configType => none
  | .out => some 'o'
  | .sentinel => none

/-- Whether the value is a path; paths are not empty. -/
def isPath : Setting → Bool
  | .root => true
  | .config => true
  | .configType => false
  | .out => true
  | .sentinel => false

end Setting

/-- What a program run does. -/
inductive Action
  | compile
  | resolve
deriving DecidableEq, Repr

def Action.settings : Action → List Setting
  | .compile => [.root, .config, .configType, .out, .sentinel]
  | .resolve => [.root, .config, .configType]

abbrev Given := List (Setting × String)

def Given.get? (given : Given) (s : Setting) : Option String :=
  (given.find? fun g => g.1 == s).map (·.2)

/-- What the arguments ask for. -/
inductive Request
  | run (action : Action) (given : Given)
  | version
  | help
deriving Repr

/-- Adds a value, unless the setting has one or the value is an empty path. -/
def Given.add? (given : Given) (s : Setting) (value : String) : Option Given :=
  if (given.get? s).isSome || (s.isPath && value == "") then none else some (given ++ [(s, value)])

/-- Whether an argument can be the value of the option before it. -/
def isValue (arg : String) : Bool := !Text.startsWith arg "-" || arg == "-"

def cutAtEquals (cs : List Char) : String × Option String :=
  let name := String.ofList (cs.takeWhile (· ≠ '='))
  match cs.dropWhile (· ≠ '=') with
  | _ :: value => (name, some (String.ofList value))
  | [] => (name, none)

/-- The value behind the letter of a short option, if it is in the same argument. -/
def attached? : List Char → Option String
  | [] => none
  | '=' :: value => some (String.ofList value)
  | value => some (String.ofList value)

/-- What one argument says. -/
inductive Argument
  | help
  /-- Nothing but positions follow. -/
  | rest
  | position
  /-- An option by its setting, with the value if that is in the same argument. -/
  | option (s : Setting) (value : Option String)
  | unknown

def Argument.read (action : Action) (arg : String) : Argument :=
  match arg.toList with
  | ['-', '-'] => .rest
  | '-' :: '-' :: cs =>
    let (name, value) := cutAtEquals cs
    if name = "help" then (if value.isNone then .help else .unknown)
    else match action.settings.find? fun s => s.long == name with
      | some s => .option s value
      | none => .unknown
  | '-' :: 'h' :: _ => .help
  | '-' :: c :: cs =>
    match action.settings.find? fun s => s.short? == some c with
    | some s => .option s (attached? cs)
    | none => .unknown
  | _ => .position

/-- The options of an action; `none` if the arguments cannot be understood. Options have a long form
(`--root app`, `--root=app`), some also a short one (`-r app`, `-rapp`, `-r=app`). An option is
given at most once, and only a value after `=` or in a short form may begin with a dash. -/
def parseOptions (action : Action) : List String → Given → Option Request
  | [], given => some (.run action given)
  | arg :: rest, given =>
    match Argument.read action arg with
    | .help => some .help
    | .rest => if rest.isEmpty then some (.run action given) else none
    | .position => none
    | .unknown => none
    | .option s (some value) =>
      match given.add? s value with
      | some given => parseOptions action rest given
      | none => none
    | .option s none =>
      match rest with
      | [] => none
      | value :: rest =>
        if isValue value then
          match given.add? s value with
          | some given => parseOptions action rest given
          | none => none
        else none

def topics : List String := ["compile", "resolve", "help"]

/-- What a list of arguments asks for; `none` if they cannot be understood. -/
def Request.ofArguments : List String → Option Request
  | "compile" :: rest => parseOptions .compile rest []
  | "resolve" :: rest => parseOptions .resolve rest []
  | ["help"] => some .help
  | ["help", topic] => if topics.contains topic then some .help else none
  | "--version" :: _ => some .version
  | "--help" :: _ => some .help
  | arg :: _ =>
    match arg.toList with
    | '-' :: 'V' :: _ => some .version
    | '-' :: 'h' :: _ => some .help
    | _ => none
  | [] => none

end RadioDriver.Command
