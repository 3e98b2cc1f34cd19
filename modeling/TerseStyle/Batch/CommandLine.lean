/-
The command line of a batch: an option with the path of a configuration file, a flag for a dry run, and patterns. Options
and patterns mix freely up to two dashes. An option is settled when the next known argument or the end is met.
-/
import TerseStyle.Batch.Run

namespace TerseStyle.Batch.CommandLine

/-- why a command line is no request -/
inductive Refusal where
  | missingPattern
  /-- an option without a value, or with an empty one -/
  | invalidValue
  | unknownArgument
  /-- an option or a flag that is repeated -/
  | repeated
  /-- a flag with a value -/
  | tooManyValues
  | helpAsked
  | versionAsked
  deriving DecidableEq, Repr

namespace Refusal

/-- the wording of a refusal -/
def message : Refusal → Text
  | missingPattern => "a pattern is required".toList
  | invalidValue => "an option needs a value".toList
  | unknownArgument => "unexpected argument".toList
  | repeated => "an argument cannot be used multiple times".toList
  | tooManyValues => "a flag takes no value".toList
  | helpAsked => "Usage: terse-style [--config FILE] [--dry-run] PATTERN...".toList
  | versionAsked => "terse-style".toList

/-- whether the command line asks for text only -/
def isQuestion (r : Refusal) : Bool := r = helpAsked || r = versionAsked

end Refusal

/-- what was read so far -/
structure State where
  request : Request := {}
  /-- the values of a configuration option that is not settled yet -/
  pending : Option (List Text) := none
  /-- whether that option waits for a value -/
  waiting : Bool := false
  deriving DecidableEq, Repr

/-- settles a configuration option -/
def setConfig (r : Request) (values : List Text) : Except Refusal Request :=
  match values with
  | [] => .error .invalidValue
  | path :: _ =>
    if r.config.isSome then .error .repeated
    else if path.isEmpty then .error .invalidValue
    else .ok { r with config := some path }

/-- settles a configuration option that is open -/
def settle (s : State) : Except Refusal State :=
  match s.pending with
  | none => .ok { s with waiting := false }
  | some values => do return { request := ← setConfig s.request values }

/-- a pattern -/
def addPattern (s : State) (pattern : Text) : Except Refusal State := do
  let s ← settle s
  return { s with request := { s.request with patterns := s.request.patterns ++ [pattern] } }

/-- opens a configuration option -/
def openConfig (s : State) : Except Refusal State := do
  return { ← settle s with pending := some [], waiting := true }

/-- a configuration option with its value -/
def addConfig (s : State) (path : Text) : Except Refusal State := do
  let s ← settle s
  return { s with request := ← setConfig s.request [path] }

/-- a flag that ends the reading -/
def stop (s : State) (refusal : Refusal) : Except Refusal State := do
  let _ ← settle s
  throw refusal

/-- the flag for a dry run -/
def addDryRun (s : State) : Except Refusal State := do
  let s ← settle s
  if s.request.dryRun then throw .repeated
  return { s with request := { s.request with dryRun := true } }

/-- the name of a long option and its value -/
def splitLong (t : Text) : Text × Option Text :=
  let name := t.takeWhile (· ≠ '=')
  (name, if name.length < t.length then some (t.drop (name.length + 1)) else none)

/-- a flag, which takes no value -/
def flag (value : Option Text) (action : Except Refusal State) : Except Refusal State :=
  if value.isSome then .error .tooManyValues else action

/-- an argument behind two dashes -/
def readLong (s : State) (t : Text) : Except Refusal State :=
  let (name, value) := splitLong t
  if name = "config".toList then
    match value with
    | some path => addConfig s path
    | none => openConfig s
  else if name = "dry-run".toList then flag value (addDryRun s)
  else if name = "help".toList then flag value (stop s .helpAsked)
  else if name = "version".toList then flag value (stop s .versionAsked)
  else .error .unknownArgument

/-- an argument behind one dash -/
def readShort (s : State) (t : Text) : Except Refusal State :=
  match t with
  | 'c' :: [] => openConfig s
  | 'c' :: '=' :: path => addConfig s path
  | 'c' :: path => addConfig s path
  | 'h' :: _ => stop s .helpAsked
  | 'V' :: _ => stop s .versionAsked
  | _ => .error .unknownArgument

/-- an argument that may be an option -/
def readArgument (s : State) (t : Text) : Except Refusal State :=
  match t with
  | '-' :: '-' :: long => readLong s long
  | '-' :: c :: short => readShort s (c :: short)
  | _ => if s.waiting then .ok { s with pending := some [t], waiting := false } else addPattern s t

/-- all arguments in order; two dashes alone end the options -/
def readArguments (s : State) : List Text → Except Refusal State
  | [] => settle s
  | t :: rest =>
    if t = "--".toList then do settle (← rest.foldlM addPattern s)
    else do readArguments (← readArgument s t) rest

/-- reads the arguments behind the name of the program -/
def parse (arguments : List Text) : Except Refusal Request := do
  let s ← readArguments {} arguments
  if s.request.patterns.isEmpty then throw .missingPattern
  return s.request

end TerseStyle.Batch.CommandLine
