/-
What the commands do, as a function of the files. A command answers with
what it writes, or with why it failed; whatever it has to say on the way goes
to the log.
-/
import GrammarExplorer.CommandLine.Arguments
import GrammarExplorer.Format.Builtin
import GrammarExplorer.Grammar.Source
import GrammarExplorer.Settings.Layer
import GrammarExplorer.Viewer.Screen

namespace GrammarExplorer.CommandLine

/-- Why a command failed. -/
inductive Failure
  | settings (cause : SettingsError)
  | grammar (cause : GrammarError)
  | select (cause : SelectError)
  | format (cause : FormatError)

def Failure.message : Failure → String
  | settings cause => cause.message
  | grammar cause => cause.message
  | select cause => cause.message
  | format cause => cause.message

/-- What a command writes or why it failed, and its log. -/
structure Report where
  log : List Log.Record
  result : Except Failure String

/-! ## Settings -/

/-- The file with the settings of a directory. -/
def settingsFile : String := "treevis.toml"

/-- A setting that is given on the command line, if it is. -/
def flagLayer (key : String) : Option String → List Settings.Layer
  | some value => [.set key (.text value)]
  | none => []

/-- What a command itself says of the settings. -/
def commandLayers : Command → List Settings.Layer
  | .tree _ language format category =>
    flagLayer "display.language" language ++ flagLayer "output.format" format
      ++ flagLayer "display.start_category" category
  | .alternatives _ _ language => flagLayer "display.language" language
  | .view _ language => flagLayer "display.language" language
  | .languages _ => []
  | .listFormats => []

/-- The layers of an invocation: the file of the directory if there is one,
the file it names, and its own flags. -/
def layers (i : Invocation) : List Settings.Layer :=
  [.optionalFile settingsFile] ++ (i.config.map Settings.Layer.file).toList
    ++ commandLayers i.command

def settings (files : Files) (i : Invocation) : Except SettingsError Settings :=
  Settings.load files (layers i)

/-! ## Sessions -/

/-- The category at the root: the one of the settings, or else that of the
grammar. -/
def startCategory (s : Settings) (g : Grammar) : String :=
  s.display.startCategory?.getD g.startCategory

/-- A session on a grammar before its language is set. -/
def freshSession (s : Settings) (g : Grammar) : Session :=
  (Session.ofCategory g (startCategory s g)).setSeparator s.display.linearizationSeparator

/-- The diagnostics of a session as log records. -/
def diagnosticsLog (s : Session) : List Log.Record :=
  s.diagnostics.map fun d => ⟨.debug, Log.commandTarget, d.message⟩

/-- Opens a session on a grammar file and goes on with it. -/
def withSession (files : Files) (s : Settings) (path : String)
    (go : Session → Except Failure String) : Report :=
  let source := Source.file path
  let loading := source.log files
  match source.grammar files with
  | .error cause => ⟨loading, .error (.grammar cause)⟩
  | .ok g =>
    let fresh := freshSession s g
    let opening := loading ++ Session.openingLog g (startCategory s g)
      ++ fresh.setLanguageLog s.display.language?
    match fresh.setLanguage s.display.language? with
    | .error cause => ⟨opening, .error (.select cause)⟩
    | .ok session => ⟨opening ++ diagnosticsLog session, go session⟩

/-! ## The commands -/

/-- Each line with its end. -/
def unlines (lines : List String) : String := String.join (lines.map (· ++ "\n"))

/-- The tree of a session in the format of the settings. -/
def treeText (s : Settings) (session : Session) : Except Failure String :=
  (FormatRegistry.builtin.serialize session.snapshot s.output.format).mapError .format

/-- The functions for a category, in the language of the settings. -/
def listAlternatives (s : Settings) (g : Grammar) (category : String) : Report :=
  match s.display.language? with
  | none => ⟨[], .ok (unlines (g.abstractGrammar.functionsFor category))⟩
  | some language =>
    match g.named? language with
    | some c => ⟨c.functionsForLog category, .ok (unlines (c.functionsFor category))⟩
    | none => ⟨[], .error (.select (.noConcreteGrammar language))⟩

/-- The concrete grammars with their languages. -/
def languageLines (g : Grammar) : List String :=
  if g.concretes.isEmpty then ["(abstract only)"]
  else g.concretes.map fun c => c.id ++ "\t" ++ c.languageTag

/-- Loads a grammar file and goes on with the grammar. -/
def withGrammar (files : Files) (path : String) (go : Grammar → Report) : Report :=
  let source := Source.file path
  match source.grammar files with
  | .error cause => ⟨source.log files, .error (.grammar cause)⟩
  | .ok g => let report := go g; ⟨source.log files ++ report.log, report.result⟩

/-- The text with blanks behind it, up to a width. -/
def padded (width : Nat) (s : String) : String :=
  s ++ String.ofList (List.replicate (width - s.length) ' ')

/-- The formats with their descriptions. -/
def formatLines (r : FormatRegistry) : List String :=
  ["Available output formats:", ""]
    ++ r.formatters.map fun f => "  " ++ padded 10 f.name ++ " " ++ f.description

/-- The last step of a path. -/
def fileNameOf (path : String) : String :=
  match (Files.steps path).getLast? with
  | some name => if name == ".." then "unknown" else name
  | none => "unknown"

/-- The first screen of the viewer, in a terminal of the usual size. -/
def firstScreen (s : Settings) (path : String) (session : Session) : Except Failure String :=
  .ok <| unlines <|
    ((Viewer.ofSession session).screen s.viewer (fileNameOf path) 80 24).map Canvas.rowText

/-- Runs a command. -/
def run (files : Files) (i : Invocation) : Report :=
  let withSettings (go : Settings → Report) : Report :=
    match settings files i with
    | .error cause => ⟨[], .error (.settings cause)⟩
    | .ok s => go s
  match i.command with
  | .tree path _ _ _ => withSettings fun s => withSession files s path (treeText s)
  | .alternatives path category _ =>
    withSettings fun s => withGrammar files path fun g => listAlternatives s g category
  | .languages path => withGrammar files path fun g => ⟨[], .ok (unlines (languageLines g))⟩
  | .view path _ => withSettings fun s => withSession files s path (firstScreen s path)
  | .listFormats => ⟨[], .ok (unlines (formatLines .builtin))⟩

/-! ## Output -/

/-- How the program ends: its code, and what it writes to its two
outputs. -/
structure Ending where
  code : Nat
  output : String
  errors : String
  deriving Repr, DecidableEq

/-- Whether a record is written out. -/
def isWritten (verbose : Bool) (r : Log.Record) : Bool := verbose || r.level == .warn

/-- The log as far as it is written out. -/
def logText (verbose : Bool) (log : List Log.Record) : String :=
  String.join ((log.filter (isWritten verbose)).map (·.line))

def Report.ending (r : Report) (verbose : Bool) : Ending :=
  match r.result with
  | .ok text => ⟨0, text, logText verbose r.log⟩
  | .error failure => ⟨1, "", logText verbose r.log ++ "Error: " ++ failure.message ++ "\n"⟩

def versionText : String := "treevis 0.1.0\n"

def usage : String := unlines [
  "Explore derivation trees of abstract and concrete grammars",
  "",
  "Usage: treevis [--config FILE] [--verbose] COMMAND",
  "",
  "Commands:",
  "  show PATH [--language L] [--format F] [--category C]  Print the initial derivation tree",
  "  alternatives PATH CATEGORY [--language L]             List the functions for a category",
  "  languages PATH                                        List the concrete grammars",
  "  view PATH [--language L]                              Show the viewer's screen",
  "  list-formats                                          List available output formats"]

/-- What the program answers to its arguments. -/
def respond (files : Files) (arguments : List String) : Ending :=
  match read arguments with
  | .error .misuse => ⟨2, "", usage⟩
  | .error .help => ⟨0, usage, ""⟩
  | .error .version => ⟨0, versionText, ""⟩
  | .ok i => (run files i).ending i.verbose

/-- The paths at which a command looks for files. -/
def consulted (i : Invocation) : List String :=
  let path := match i.command with
    | .tree path _ _ _ => [path]
    | .alternatives path _ _ => [path]
    | .languages path => [path]
    | .view path _ => [path]
    | .listFormats => []
  path ++ (settingsFile :: i.config.toList).flatMap Settings.candidates

end GrammarExplorer.CommandLine
