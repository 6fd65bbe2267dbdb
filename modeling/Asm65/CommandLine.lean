import Asm65.Assembly
import Asm65.Table.Builtin
import Asm65.Table.Reader

/-!
# The command line

The arguments of the program, and what it prints and returns for them. Files
come as a function from paths to contents, so a run is a value.

## Implementation notes

All arguments are read before any file, and the table before the source. The
listing is printed even when some statements of the source are rejected.
-/

namespace Asm65.CommandLine

/-- The arguments of the program. -/
structure Arguments where
  config : Config
  /-- The table to use instead of the built-in one. -/
  table? : Option String
  input : String
deriving DecidableEq

/-- Why arguments are refused. -/
inductive ArgumentError
  | unknownOption (text : String)
  | missingValue (name : String)
  | repeated (name : String)
  | unknownFeature (unknown : FeatureSet.Unknown)
  | unknownPolicy (unknown : DelimiterPolicy.Unknown)
  | surplusInput (text : String)
  | missingInput
deriving DecidableEq

/-- The wording for refused arguments. -/
def ArgumentError.message : ArgumentError → String
  | unknownOption text => "unexpected argument '" ++ text ++ "'"
  | missingValue name => "a value is required for '--" ++ name ++ "'"
  | repeated name => "the argument '--" ++ name ++ "' cannot be used multiple times"
  | unknownFeature unknown => unknown.message
  | unknownPolicy unknown => unknown.message
  | surplusInput text => "unexpected argument '" ++ text ++ "'"
  | missingInput => "the input file is missing"

/-- The arguments read so far. -/
structure Given where
  cpu? : Option FeatureSet := none
  features : FeatureSet := ∅
  policy? : Option DelimiterPolicy := none
  table? : Option String := none
  input? : Option String := none
deriving DecidableEq

namespace Given

/-- Takes the value of an option with a name. -/
def setOption (given : Given) (name value : String) : Except ArgumentError Given :=
  match name with
  | "cpu" =>
    match given.cpu?, FeatureSet.parse value with
    | some _, _ => .error (.repeated name)
    | none, .error unknown => .error (.unknownFeature unknown)
    | none, .ok features => .ok { given with cpu? := some features }
  | "feature" =>
    match FeatureSet.parse value with
    | .error unknown => .error (.unknownFeature unknown)
    | .ok features => .ok { given with features := given.features ∪ features }
  | "delimiter-policy" =>
    match given.policy?, DelimiterPolicy.parse value with
    | some _, _ => .error (.repeated name)
    | none, .error unknown => .error (.unknownPolicy unknown)
    | none, .ok policy => .ok { given with policy? := some policy }
  | "table" =>
    match given.table? with
    | some _ => .error (.repeated name)
    | none => .ok { given with table? := some value }
  | _ => .error (.unknownOption name)

/-- Takes the path of the source. -/
def setInput (given : Given) (path : String) : Except ArgumentError Given :=
  match given.input? with
  | some _ => .error (.surplusInput path)
  | none =>
    if path.toList.head? = some '-' then .error (.unknownOption path)
    else .ok { given with input? := some path }

/-- The arguments, with the defaults for those that were not given. -/
def finish (given : Given) : Except ArgumentError Arguments :=
  match given.input? with
  | none => .error .missingInput
  | some input =>
    .ok {
      config := {
        features := given.cpu?.getD {.mos6502} ∪ given.features
        policy := given.policy?.getD .fatal }
      table? := given.table?
      input := input }

/-- The name of an option and its value, if it is written in the same argument. -/
def option? (argument : String) : Option (String × Option String) :=
  match argument.toList with
  | '-' :: '-' :: text =>
    let name := String.ofList (text.takeWhile (· ≠ '='))
    match text.dropWhile (· ≠ '=') with
    | _ :: value => some (name, some (String.ofList value))
    | [] => some (name, none)
  | _ => none

/-- Whether an argument asks for more messages, which no listing depends on. -/
def isVerbose (argument : String) : Bool :=
  match argument.toList with
  | '-' :: 'v' :: more => more.all (· = 'v')
  | _ => argument = "--verbose"

/-- Takes arguments one by one. The value of an option may be the next argument. -/
def takeAll (given : Given) : List String → Except ArgumentError Given
  | [] => .ok given
  | argument :: rest =>
    if isVerbose argument then takeAll given rest
    else
      match option? argument with
      | none => do takeAll (← given.setInput argument) rest
      | some (name, some value) => do takeAll (← given.setOption name value) rest
      | some (name, none) =>
        match rest with
        | value :: rest => do takeAll (← given.setOption name value) rest
        | [] => .error (.missingValue name)

end Given

/-- Reads the arguments of the program. -/
def Arguments.ofList (arguments : List String) : Except ArgumentError Arguments := do
  Given.finish (← Given.takeAll {} arguments)

/-- Why a run fails. -/
inductive Failure
  | badArguments (error : ArgumentError)
  | unreadableTable (path : String)
  | badTable (error : TableError)
  | unreadableSource (path : String)
  | rejected (diagnostics : List Diagnostic)
deriving DecidableEq

namespace Failure

/-- The exit status of a failed run. -/
def status : Failure → Nat
  | badArguments _ => 2
  | _ => 1

/-- The wording of a diagnostic, with the place it points to. -/
def diagnosticMessage (diagnostic : Diagnostic) : String :=
  diagnostic.cause.code ++ ": " ++ diagnostic.cause.message ++ " at byte " ++
    Text.decimal diagnostic.span.offset

/-- The wording of a failure. -/
def message : Failure → String
  | badArguments error => error.message
  | unreadableTable path => "unable to read template table '" ++ path ++ "'"
  | badTable error => error.message
  | unreadableSource path => "unable to read source file '" ++ path ++ "'"
  | rejected diagnostics =>
    String.join (diagnostics.map fun diagnostic => diagnosticMessage diagnostic ++ "\n") ++
      Text.decimal diagnostics.length ++ " statement(s) failed"

end Failure

/-- What a run prints, and why it fails if it does. -/
structure Report where
  output : String
  failure? : Option Failure
deriving DecidableEq

namespace Report

/-- The exit status of a run. -/
def status (report : Report) : Nat :=
  match report.failure? with
  | none => 0
  | some failure => failure.status

/-- A run that prints nothing. -/
def ofFailure (failure : Failure) : Report :=
  ⟨"", some failure⟩

/-- The report on an assembled source. -/
def ofAssembly (assembly : Assembly) : Report where
  output := assembly.listing
  failure? := if assembly.diagnostics = [] then none else some (.rejected assembly.diagnostics)

end Report

/-- The table that the arguments ask for. -/
def loadTable (files : String → Option String) : Option String → Except Failure Table
  | none => .ok .builtin
  | some path =>
    match files path with
    | none => .error (.unreadableTable path)
    | some text =>
      match Table.read text with
      | .ok table => .ok table
      | .error error => .error (.badTable error)

/-- A run with some arguments. -/
def runWith (files : String → Option String) (arguments : Arguments) : Report :=
  match loadTable files arguments.table? with
  | .error failure => .ofFailure failure
  | .ok table =>
    match files arguments.input with
    | none => .ofFailure (.unreadableSource arguments.input)
    | some source => .ofAssembly (Assembly.ofSource table arguments.config source)

/-- A run of the program. -/
def run (files : String → Option String) (arguments : List String) : Report :=
  match Arguments.ofList arguments with
  | .error error => .ofFailure (.badArguments error)
  | .ok arguments => runWith files arguments

/-- The files that a run may read. -/
def paths (arguments : List String) : List String :=
  match Arguments.ofList arguments with
  | .error _ => []
  | .ok arguments => arguments.table?.toList ++ [arguments.input]

end Asm65.CommandLine
