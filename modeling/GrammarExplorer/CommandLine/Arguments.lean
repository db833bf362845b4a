/-
The arguments of the program. A command is named by the first argument that
is no option; the options that every command takes may stand before its
name or behind it.
-/
namespace GrammarExplorer.CommandLine

/-- A command and its own arguments. -/
inductive Command
  | tree (path : String) (language format category : Option String)
  | alternatives (path category : String) (language : Option String)
  | languages (path : String)
  | view (path : String) (language : Option String)
  | listFormats
  deriving Repr, DecidableEq

/-- A command with what can be said for every command. -/
structure Invocation where
  config : Option String
  verbose : Bool
  command : Command
  deriving Repr, DecidableEq

/-- Why there is no command to run. -/
inductive Stop
  | misuse
  | help
  | version
  deriving Repr, DecidableEq

inductive Flag
  | config
  | verbose
  | language
  | format
  | category
  | help
  | version
  deriving Repr, DecidableEq

namespace Flag

/-- The name after two hyphens. -/
def long : Flag → String
  | config => "config"
  | verbose => "verbose"
  | language => "language"
  | format => "format"
  | category => "category"
  | help => "help"
  | version => "version"

/-- The letter after one hyphen. -/
def short? : Flag → Option Char
  | config => some 'c'
  | verbose => some 'v'
  | language => some 'l'
  | format => some 'f'
  | category => none
  | help => some 'h'
  | version => some 'V'

def takesValue : Flag → Bool
  | config => true
  | language => true
  | format => true
  | category => true
  | _ => false

end Flag

/-- The commands by name. -/
inductive CommandName
  | tree
  | alternatives
  | languages
  | view
  | listFormats
  deriving Repr, DecidableEq

namespace CommandName

def ofText? : String → Option CommandName
  | "show" => some tree
  | "alternatives" => some alternatives
  | "languages" => some languages
  | "view" => some view
  | "list-formats" => some listFormats
  | _ => none

/-- The flags of a command's own. -/
def ownFlags : CommandName → List Flag
  | tree => [.language, .format, .category]
  | alternatives => [.language]
  | languages => []
  | view => [.language]
  | listFormats => []

/-- How many arguments that are no options the command has. -/
def arity : CommandName → Nat
  | alternatives => 2
  | listFormats => 0
  | _ => 1

/-- All flags that may stand behind the name of the command. -/
def flags (name : CommandName) : List Flag := name.ownFlags ++ [.config, .verbose, .help]

end CommandName

/-- The flags that may stand before the name of a command. -/
def leadingFlags : List Flag := [.config, .verbose, .help, .version]

/-- The flags found so far, with their values; those without one have an
empty value. -/
abbrev Values := List (Flag × String)

namespace Values

def has (values : Values) (flag : Flag) : Bool := values.any (·.1 == flag)

def value? (values : Values) (flag : Flag) : Option String :=
  (values.find? (·.1 == flag)).map (·.2)

/-- Takes up a flag, which may be given once. -/
def add (values : Values) (flag : Flag) (value : String) : Except Stop Values :=
  if values.has flag then .error .misuse else .ok (values ++ [(flag, value)])

/-- Takes up a flag without a value. -/
def raise (values : Values) : Flag → Except Stop Values
  | .help => .error .help
  | .version => .error .version
  | flag => values.add flag ""

end Values

/-- Whether an argument is one or more flags. -/
def isFlags (argument : String) : Bool := argument.startsWith "-" && argument != "-"

/-- The flags of an argument with two hyphens: the flags with it, and the
flag that waits for its value. -/
def readLong (allowed : List Flag) (values : Values) (text : List Char) :
    Except Stop (Values × Option Flag) :=
  let name := text.takeWhile (· != '=')
  match allowed.find? (·.long.toList == name), text.dropWhile (· != '=') with
  | none, _ => .error .misuse
  | some flag, '=' :: value =>
    if flag.takesValue then (values.add flag (String.ofList value)).map (·, none)
    else .error .misuse
  | some flag, _ =>
    if flag.takesValue then .ok (values, some flag) else (values.raise flag).map (·, none)

/-- The flags of an argument with one hyphen. Behind a flag that takes a
value stands the value, perhaps after an equals sign. -/
def readShort (allowed : List Flag) (values : Values) :
    List Char → Except Stop (Values × Option Flag)
  | [] => .ok (values, none)
  | c :: rest =>
    match allowed.find? (·.short? == some c) with
    | none => .error .misuse
    | some flag =>
      if flag.takesValue then
        match rest with
        | [] => .ok (values, some flag)
        | '=' :: value => (values.add flag (String.ofList value)).map (·, none)
        | value => (values.add flag (String.ofList value)).map (·, none)
      else
        match values.raise flag with
        | .ok values => readShort allowed values rest
        | .error stop => .error stop

/-- The flags of an argument. -/
def readFlags (allowed : List Flag) (values : Values) (argument : String) :
    Except Stop (Values × Option Flag) :=
  match argument.toList with
  | '-' :: '-' :: text => readLong allowed values text
  | text => readShort allowed values (text.drop 1)

/-- The flags and the other arguments of a command, of which there may be
so many. A flag that waits for its value comes with it. Behind two hyphens
stand no more flags. -/
def readArguments (allowed : List Flag) (arity : Nat) (values : Values) (others : List String)
    (waiting : Option Flag) : List String → Except Stop (Values × List String)
  | [] => if waiting.isSome then .error .misuse else .ok (values, others)
  | argument :: rest =>
    match waiting with
    | some flag =>
      if isFlags argument then .error .misuse
      else
        match values.add flag argument with
        | .ok values => readArguments allowed arity values others none rest
        | .error stop => .error stop
    | none =>
      if argument == "--" then
        if others.length + rest.length ≤ arity then .ok (values, others ++ rest) else .error .misuse
      else if isFlags argument then
        match readFlags allowed values argument with
        | .ok (values, waiting) => readArguments allowed arity values others waiting rest
        | .error stop => .error stop
      else if others.length < arity then
        readArguments allowed arity values (others ++ [argument]) none rest
      else .error .misuse

/-- The command with its arguments. -/
def commandOf (name : CommandName) (values : Values) (others : List String) :
    Except Stop Command :=
  let language := values.value? .language
  match name, others with
  | .tree, [path] =>
    .ok (.tree path language (values.value? .format) (values.value? .category))
  | .alternatives, [path, category] => .ok (.alternatives path category language)
  | .languages, [path] => .ok (.languages path)
  | .view, [path] => .ok (.view path language)
  | .listFormats, [] => .ok .listFormats
  | _, _ => .error .misuse

/-- Reads what follows the name of a command. A flag behind the name goes
before the same flag in front of it. -/
def readCommand (leading : Values) (name : CommandName) (arguments : List String) :
    Except Stop Invocation := do
  let (values, others) ← readArguments name.flags name.arity [] [] none arguments
  return {
    config := (values.value? .config).orElse fun _ => leading.value? .config
    verbose := values.has .verbose || leading.has .verbose
    command := ← commandOf name values others }

/-- Whether there is help on the named command, or help at all if none is
named. -/
def readHelp : List String → Stop
  | [] => .help
  | name :: _ => if (CommandName.ofText? name).isSome || name == "help" then .help else .misuse

/-- Reads arguments up to the name of a command, and then those of the
command. -/
def readFrom (values : Values) (waiting : Option Flag) : List String → Except Stop Invocation
  | [] => .error .misuse
  | argument :: rest =>
    match waiting with
    | some flag =>
      if isFlags argument then .error .misuse
      else
        match values.add flag argument with
        | .ok values => readFrom values none rest
        | .error stop => .error stop
    | none =>
      if argument == "--" then .error .misuse
      else if isFlags argument then
        match readFlags leadingFlags values argument with
        | .ok (values, waiting) => readFrom values waiting rest
        | .error stop => .error stop
      else if argument == "help" then .error (readHelp rest)
      else
        match CommandName.ofText? argument with
        | some name => readCommand values name rest
        | none => .error .misuse

/-- Reads all arguments of the program. -/
def read (arguments : List String) : Except Stop Invocation := readFrom [] none arguments

end GrammarExplorer.CommandLine
