import CodeGraph.Command.Options

/-!
# The command line

The command line names a command, with options before it and behind it.  `CommandLine.ofArguments`
reads it; arguments that cannot be understood are a misuse, and asking for help or for the version
ends the reading.
-/

namespace CodeGraph.Command

/-! ## Commands -/

/-- How much is said. -/
structure Loudness where
  verbose : Bool
  quiet : Bool
  deriving DecidableEq

/-- What to analyze, and how. -/
structure AnalyzeRequest where
  path : String
  /-- The file that the report is written to. -/
  output : Option String
  /-- How many files are read at once. -/
  workers : Option Int
  /-- Files with syntax errors count as failures. -/
  strict : Bool
  /-- Only the files are listed. -/
  dryRun : Bool
  deriving DecidableEq

/-- Which languages to list. -/
structure LanguagesRequest where
  path : String
  /-- Every grammar is loaded. -/
  check : Bool
  deriving DecidableEq

/-- A command. -/
inductive Request where
  | analyze (r : AnalyzeRequest)
  | languages (r : LanguagesRequest)
  deriving DecidableEq

/-- What a command line asks for. -/
inductive CommandLine where
  | run (loudness : Loudness) (request : Request)
  | help
  | version
  | misuse
  deriving DecidableEq

/-- What an option stands for. -/
inductive Key where
  | help
  | version
  | verbose
  | quiet
  | output
  | workers
  | strict
  | dryRun
  | check
  deriving DecidableEq

/-- A switch. -/
def switch (key : Key) (names : List String) : CommandOption Key :=
  ⟨names.map String.toList, key, false⟩

/-- An option with a value. -/
def valued (key : Key) (names : List String) : CommandOption Key :=
  ⟨names.map String.toList, key, true⟩

/-- The option for help. -/
def helpOption : CommandOption Key := switch .help ["-h", "--help"]

/-- The options for loudness. -/
def loudnessOptions : List (CommandOption Key) :=
  [switch .verbose ["-v", "--verbose"], switch .quiet ["-q", "--quiet"]]

/-- The options before the command. -/
def mainOptions : List (CommandOption Key) :=
  helpOption :: switch .version ["--version"] :: loudnessOptions

/-- The options of the analysis. -/
def analyzeOptions : List (CommandOption Key) :=
  helpOption :: loudnessOptions ++
    [valued .output ["--output", "-o"], valued .workers ["--workers", "-j"],
      switch .strict ["--strict"], switch .dryRun ["--dry-run"]]

/-- The options of the list of languages. -/
def languagesOptions : List (CommandOption Key) :=
  helpOption :: loudnessOptions ++ [switch .check ["--check"]]

/-! ## Operands -/

/-- Arguments that there is no place for. -/
def extras (arguments : List (String × Token Key)) : List (Event Key) :=
  arguments.map fun (text, _) => .extra text

/-- What the arguments of a command with at most one operand say.  Two dashes next to the operand
belong to it. -/
def eventsOf (table : List (CommandOption Key)) (taken : Bool)
    (arguments : List (String × Token Key)) : List (Event Key) :=
  match arguments with
  | [] => []
  | (text, .separator) :: rest =>
    if taken then .extra text :: extras rest
    else
      match rest with
      | [] => []
      | (operand, _) :: rest => .operand operand :: extras rest
  | (text, .operand) :: rest =>
    if taken then .extra text :: eventsOf table true rest
    else
      match rest with
      | (_, .separator) :: rest => .operand text :: extras rest
      | rest => .operand text :: eventsOf table true rest
  | (text, .unknown) :: rest => .extra text :: eventsOf table taken rest
  | (_, .option spelling) :: rest =>
    match spelling.uses table (valueIn rest) with
    | none => [.misuse]
    | some (events, false) => events ++ eventsOf table taken rest
    | some (events, true) => events ++ eventsOf table taken (rest.drop 1)
termination_by arguments.length

/-! ## Reading -/

/-- What has been read of the arguments. -/
structure Arguments where
  path : Option String
  output : Option String
  workers : Option Int
  /-- The switches that are on. -/
  switches : List Key
  /-- There was an argument that there is no place for. -/
  surplus : Bool

/-- How the reading of some arguments ends. -/
inductive Reading where
  | done (arguments : Arguments)
  | help
  | version
  | misuse

namespace Arguments

/-- No argument read. -/
def empty : Arguments := ⟨none, none, none, [], false⟩

/-- A switch is on. -/
def has (a : Arguments) (key : Key) : Bool := a.switches.contains key

/-- Sets a switch; being verbose and being quiet exclude one another. -/
def turnOn? (a : Arguments) (key : Key) : Option Arguments :=
  if (key = .verbose ∧ a.has .quiet) ∨ (key = .quiet ∧ a.has .verbose) then none
  else some { a with switches := key :: a.switches }

/-- The arguments after an option. -/
def use? (a : Arguments) (key : Key) (value : String) : Option Arguments :=
  match key with
  | .output => some { a with output := some value }
  | .workers => (Text.wholeNumber? value.toList).map fun n => { a with workers := some n }
  | key => a.turnOn? key

/-- The loudness that is asked for. -/
def loudness (a : Arguments) : Loudness := ⟨a.has .verbose, a.has .quiet⟩

/-- The path that is named; the current folder if none is. -/
def pathText (a : Arguments) : String := a.path.getD "."

/-- Reads what further arguments say. -/
def read (a : Arguments) : List (Event Key) → Reading
  | [] => .done a
  | .misuse :: _ => .misuse
  | .extra _ :: rest => read { a with surplus := true } rest
  | .operand text :: rest => read { a with path := some text } rest
  | .option .help _ :: _ => .help
  | .option .version _ :: _ => .version
  | .option key value :: rest =>
    match a.use? key value with
    | none => .misuse
    | some a => a.read rest

end Arguments

/-- The command of a name: its options, and what its arguments ask for. -/
def commandOf? (name : String) : Option (List (CommandOption Key) × (Arguments → Request)) :=
  match name with
  | "analyze" => some (analyzeOptions, fun a =>
      .analyze ⟨a.pathText, a.output, a.workers, a.has .strict, a.has .dryRun⟩)
  | "languages" => some (languagesOptions, fun a => .languages ⟨a.pathText, a.has .check⟩)
  | _ => none

/-- Reads a command with its arguments; `surplus` says that there was an argument without a place
before it. -/
def readCommand (surplus : Bool) (name : String) (arguments : List String) : CommandLine :=
  match commandOf? name with
  | none => .misuse
  | some (table, request) =>
    match tokens table arguments with
    | none => .misuse
    | some tokens =>
      match Arguments.empty.read (eventsOf table false tokens) with
      | .done a => if surplus || a.surplus then .misuse else .run a.loudness (request a)
      | .help => .help
      | .version => .version
      | .misuse => .misuse

/-- Reads the options before the command, then the command.  Their loudness does not count, but
asking for both kinds of it is a misuse. -/
def readMain (a : Arguments) : List (String × Token Key) → CommandLine
  | [] => .misuse
  | (_, .separator) :: _ => .misuse
  | (name, .operand) :: rest => readCommand a.surplus name (rest.map Prod.fst)
  | (_, .unknown) :: rest => readMain { a with surplus := true } rest
  | (_, .option spelling) :: rest =>
    match spelling.uses mainOptions (valueIn rest) with
    | none => .misuse
    | some (events, _) =>
      match a.read events with
      | .done a => readMain a rest
      | .help => .help
      | .version => .version
      | .misuse => .misuse

/-- Reads a command line. -/
def CommandLine.ofArguments (arguments : List String) : CommandLine :=
  match tokens mainOptions arguments with
  | none => .misuse
  | some tokens => readMain .empty tokens

end CodeGraph.Command
