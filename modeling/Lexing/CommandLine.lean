import Lexing.Language.Go
import Lexing.Language.Json
import Lexing.Token.Document
import Lexing.Token.Table
import Lexing.TokenStream

/-!
# The command line

The program scans one file, or the standard input, and prints its tokens as a table or as a JSON
array. This module says what the arguments mean and what is printed for a byte source; opening files
and printing is left to the caller.

## Main definitions

* `Command.parse?` : the meaning of the arguments, or nothing if they are not understood.
* `Options.report` : what is printed for a byte source.
* `Options.openFailure` : what is printed if there is no byte source.
-/

namespace Lexing.CommandLine

/-- The languages with a lexicon. -/
inductive Language where
  | go
  | json
  deriving DecidableEq, Repr

namespace Language

/-- The language with the given name. -/
def ofName? : String → Option Language
  | "go" => some go
  | "json" => some json
  | _ => none

/-- The lexicon of a language. -/
def lexicon : Language → Lexicon
  | go => Lexing.Language.Go.lexicon
  | json => Lexing.Language.Json.lexicon

end Language

/-- What to scan and how to print it. -/
structure Options where
  /-- The path of the file; a single hyphen stands for the standard input. -/
  path : String
  /-- The language of the text. -/
  language : Language := .go
  /-- Whether the tokens are printed as a JSON array. -/
  json : Bool := false
  /-- Whether comments are returned as tokens. -/
  keepComments : Bool := false
  /-- Whether colours are avoided on a terminal. -/
  noColour : Bool := false
  deriving DecidableEq, Repr

/-- What the program is asked to do. -/
inductive Command where
  /-- Print the version. -/
  | version
  /-- Scan a text. -/
  | scan (options : Options)
  deriving DecidableEq, Repr

/-! ### Arguments -/

/-- The arguments read so far. Each may be given once. -/
structure Given where
  path : Option String := none
  language : Option Language := none
  json : Bool := false
  keepComments : Bool := false
  noColour : Bool := false
  deriving DecidableEq, Repr

namespace Given

/-- The path is required. -/
def command? (g : Given) : Option Command :=
  g.path.map fun path => .scan {
    path
    language := g.language.getD .go
    json := g.json
    keepComments := g.keepComments
    noColour := g.noColour }

/-- Adds a path. -/
def addPath? (g : Given) (path : String) : Option Given :=
  if g.path.isSome then none else some { g with path := some path }

/-- Adds a language by its name. -/
def addLanguage? (g : Given) (name : String) : Option Given :=
  if g.language.isSome then none
  else (Language.ofName? name).map fun language => { g with language := some language }

/-- Adds an option without value. -/
def addSwitch? (g : Given) : String → Option Given
  | "--json" => if g.json then none else some { g with json := true }
  | "--keep-comments" => if g.keepComments then none else some { g with keepComments := true }
  | "--no-color" => if g.noColour then none else some { g with noColour := true }
  | _ => none

/-- Whether an argument asks for the version. -/
def asksVersion (arg : String) : Bool :=
  arg == "--version" || arg.startsWith "-V"

/-- Whether an argument is an option. A single hyphen is a path. -/
def isOption (arg : String) : Bool :=
  arg.startsWith "-" && arg != "-"

/-- Reads paths after the end of the options. -/
def readPaths? : Given → List String → Option Command
  | g, [] => g.command?
  | g, arg :: args => do readPaths? (← g.addPath? arg) args

/-- Reads arguments from left to right. The first that is not understood, or that asks for the
version, decides. -/
def read? : Given → List String → Option Command
  | g, [] => g.command?
  | g, arg :: args =>
    if arg = "--" then g.readPaths? args
    else if asksVersion arg then some .version
    else if arg = "--lang" then
      match args with
      | [] => none
      | name :: args => do read? (← g.addLanguage? name) args
    else if arg.startsWith "--lang=" then do
      read? (← g.addLanguage? (String.ofList (arg.toList.drop "--lang=".length))) args
    else if isOption arg then do read? (← g.addSwitch? arg) args
    else do read? (← g.addPath? arg) args

end Given

/-- The meaning of the arguments, or nothing if they are not understood. -/
def Command.parse? (args : List String) : Option Command :=
  Given.read? {} args

/-! ### Output -/

/-- What the program prints and the code that it ends with. -/
structure Report where
  code : Nat
  output : String := ""
  errors : String := ""
  deriving DecidableEq, Repr

/-- What is printed for the version. -/
def versionReport : Report :=
  { code := 0, output := "scan 0.0.0\n" }

/-- What is printed if the arguments are not understood. -/
def usageReport : Report :=
  { code := 2
    errors := "usage: scan [--lang go|json] [--json] [--keep-comments] [--no-color] PATH\n" }

/-- What is printed if a fault occurs. -/
def faultReport (fault : Fault) : Report :=
  { code := 101, errors := fault.message ++ "\n" }

namespace Options

/-- Whether the standard input is scanned. -/
def readsInput (o : Options) : Bool :=
  o.path == "-"

/-- The name of the text in positions. -/
def name (o : Options) : String :=
  if o.readsInput then "stdin" else o.path

/-- The flags of the scan. -/
def flags (o : Options) : Flags :=
  Flags.off.set Lexing.Language.Go.keepComments o.keepComments

/-- Whether output is coloured, given whether it goes to a terminal. -/
def coloured (o : Options) (terminal : Bool) : Bool :=
  terminal && !o.noColour

/-- The tokens as they are printed. -/
def render (o : Options) (terminal : Bool) (tokens : List Token) : Except Fault String :=
  if o.json then .ok ((Token.wireAll tokens).pretty ++ "\n")
  else Table.render (o.coloured terminal) tokens

/-- What is printed for a byte source. The code is 1 if a problem was found. -/
def report? (o : Options) (terminal : Bool) (source : ByteSource) : Except Fault Report := do
  let tokens ← o.language.lexicon.tokens o.flags (.ofSource o.name source)
  return {
    code := if tokens.any Token.isIllegal then 1 else 0
    output := ← o.render terminal tokens }

/-- What is printed for a byte source. A fault leaves nothing to print but itself. -/
def report (o : Options) (terminal : Bool) (source : ByteSource) : Report :=
  match o.report? terminal source with
  | .ok r => r
  | .error fault => faultReport fault

/-- What is printed if the file cannot be opened. -/
def openFailure (o : Options) (terminal : Bool) (reason : String) : Report :=
  { code := 1
    errors := Colour.inRed (o.coloured terminal) (o.path ++ ": error: " ++ reason) ++ "\n" }

end Options

end Lexing.CommandLine
