/-!
# Arguments

The program has two commands. Options may stand anywhere behind the name of the command; an argument
`--` ends them. No option may be given twice, and each command takes exactly one path.
-/

namespace ServiceAnnotator.CommandLine

/-- How changes are reported. -/
inductive Format where
  | text
  | json
  deriving DecidableEq, Repr

namespace Format

/-- The format of a name. -/
def ofName? (name : String) : Option Format :=
  if name = "text" then some text else if name = "json" then some json else none

end Format

/-- What the program is asked to do. -/
inductive Request where
  /-- Show the diagnostics of a package. -/
  | check (path : String)
  /-- Annotate a package, or only report what would change. -/
  | modify (path : String) (dryRun : Bool) (format : Format)
  | help
  | version
  /-- The arguments make no sense. -/
  | misuse
  deriving DecidableEq, Repr

/-- What kind of argument an argument is by its look. -/
inductive Argument where
  | plain
  /-- The end of the options. -/
  | endOfOptions
  /-- An option with a name and perhaps a value. -/
  | long (name : String) (value? : Option String)
  /-- Options of one letter each, by the first letter. -/
  | short (letter : Char)
  deriving DecidableEq, Repr

namespace Argument

/-- The kind of an argument. A single hyphen counts as a path. -/
def of (argument : String) : Argument :=
  match argument.toList with
  | ['-', '-'] => endOfOptions
  | '-' :: '-' :: cs =>
    let (name, rest) := cs.span (· ≠ '=')
    long (String.ofList name) (if rest.isEmpty then none else some (String.ofList rest.tail))
  | '-' :: c :: _ => short c
  | _ => plain

end Argument

/-- What the next argument may be. -/
inductive Expected where
  | anything
  | formatName
  | path
  deriving DecidableEq, Repr

/-- What the arguments of a command give. -/
structure Given where
  path? : Option String
  dryRun : Bool
  format? : Option Format
  expected : Expected
  deriving DecidableEq, Repr

/-- Why reading of arguments stops before their end. -/
inductive Stop where
  | help
  | misuse
  deriving DecidableEq, Repr

namespace Given

/-- Nothing is given yet. -/
def nothing : Given := ⟨none, false, none, .anything⟩

/-- What is given with a path, if there was none. -/
def addPath (given : Given) (path : String) : Except Stop Given :=
  if given.path?.isSome then .error .misuse else .ok { given with path? := some path }

/-- What is given with a format, if there was none and the format exists. -/
def addFormat (given : Given) (name : String) : Except Stop Given :=
  match given.format?, Format.ofName? name with
  | none, some format => .ok { given with format? := some format, expected := .anything }
  | _, _ => .error .misuse

/-- What is given with an option of a command that has options or none. -/
def addOption (hasOptions : Bool) (given : Given) (name : String) (value? : Option String) :
    Except Stop Given :=
  if name = "help" ∧ value? = none then .error .help
  else if hasOptions ∧ name = "dry-run" ∧ value? = none ∧ !given.dryRun then
    .ok { given with dryRun := true }
  else if hasOptions ∧ name = "format" then
    match value? with
    | some value => given.addFormat value
    | none => .ok { given with expected := .formatName }
  else .error .misuse

/-- What is given with one more argument. -/
def add (hasOptions : Bool) (given : Given) (argument : String) : Except Stop Given :=
  match given.expected with
  | .formatName => given.addFormat argument
  | .path => given.addPath argument
  | .anything =>
    match Argument.of argument with
    | .plain => given.addPath argument
    | .endOfOptions => .ok { given with expected := .path }
    | .short letter => .error (if letter = 'h' then .help else .misuse)
    | .long name value? => given.addOption hasOptions name value?

/-- What the arguments behind the name of a command give. -/
def ofArguments (hasOptions : Bool) (arguments : List String) : Except Stop Given :=
  arguments.foldlM (add hasOptions) nothing

end Given

namespace Request

/-- The request of a command whose arguments have been read. -/
def ofGiven (command : String → Given → Request) : Except Stop Given → Request
  | .error .help => help
  | .error .misuse => misuse
  | .ok given =>
    match given.path?, given.expected with
    | some _, .formatName => misuse
    | some path, _ => command path given
    | none, _ => misuse

/-- Whether a name is that of a command. -/
def isCommand (name : String) : Bool := name = "check" || name = "modify" || name = "help"

/-- The request of all arguments of the program. -/
def ofArguments : List String → Request
  | [] => misuse
  | argument :: arguments =>
    match Argument.of argument with
    | .plain =>
      if argument = "check" then
        ofGiven (fun path _ => check path) (Given.ofArguments false arguments)
      else if argument = "modify" then
        ofGiven (fun path given => modify path given.dryRun (given.format?.getD .text))
          (Given.ofArguments true arguments)
      else if argument = "help" ∧ arguments.length ≤ 1 ∧ arguments.all isCommand then help
      else misuse
    | .endOfOptions => misuse
    | .short letter => if letter = 'h' then help else if letter = 'V' then version else misuse
    | .long name value? =>
      if value? ≠ none then misuse
      else if name = "help" then help
      else if name = "version" then version
      else misuse

end Request

end ServiceAnnotator.CommandLine
