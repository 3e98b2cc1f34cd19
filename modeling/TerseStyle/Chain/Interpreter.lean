/-
Running a chain. Names add class candidates or switch a mode; a call gates the last candidate, or, after `$style`, adds
a literal style object, or, after `preload`, runs the chain in its argument and takes over its candidates and styles.

The arguments are shared: a preloaded chain appends its own behind those already there, and they stay when it fails.
A step answers with the new state and, if it failed, the fault, so that a run can be continued after a failed step.
-/
import TerseStyle.Chain.Skeleton
import TerseStyle.Chain.Link

namespace TerseStyle.Chain

/-! ## What a chain produces -/

/-- when a class is present -/
inductive Gate where
  | always
  /-- when the argument with this index is truthy -/
  | argument (index : Nat)
  deriving DecidableEq, Repr

/-- a class asked for by a chain, before it is looked up; the key has hyphens where the chain had underscores -/
structure Candidate where
  key : Text
  responsive : Bool
  gate : Gate
  deriving DecidableEq, Repr

/-- an entry of the inline style -/
inductive Declaration where
  | property (name value : Text)
  /-- an expression whose properties are all taken over -/
  | spread (expression : Text)
  deriving DecidableEq, Repr

/-- the candidates and styles of a chain, in order -/
structure Outcome where
  candidates : List Candidate
  declarations : List Declaration
  deriving DecidableEq, Repr

/-- the class that every finished chain starts with -/
def implicitKey : Text := "flex".toList

/-- puts the implicit class in front -/
def Outcome.finish (o : Outcome) : Outcome :=
  { o with candidates := ⟨implicitKey, false, .always⟩ :: o.candidates }

/-! ## State -/

/-- the name that makes all later candidates responsive -/
def responsiveName : Text := "$s".toList

/-- the name that makes the next call a literal style object -/
def styleName : Text := "$style".toList

/-- the name that makes the next call a preloaded chain -/
def preloadName : Text := "preload".toList

/-- the state of a running chain; `arguments` is shared with the chains that it preloads -/
structure Interpreter where
  arguments : List Argument
  candidates : List Candidate := []
  declarations : List Declaration := []
  responsive : Bool := false
  stylePending : Bool := false
  preloadPending : Bool := false
  finished : Bool := false
  deriving DecidableEq, Repr

namespace Interpreter

/-- what was accumulated so far -/
def outcome (s : Interpreter) : Outcome := ⟨s.candidates, s.declarations⟩

/-- the candidate key of a name -/
def keyOf (name : Text) : Text := name.map fun c => if c = '_' then '-' else c

/-- a name -/
def access (s : Interpreter) (name : Text) : Interpreter × Option Fault :=
  if s.finished then (s, some (.nameAfterFinish name))
  else if name = finishName then ({ s with finished := true }, none)
  else if name = responsiveName then ({ s with responsive := true }, none)
  else if name = styleName then ({ s with stylePending := true }, none)
  else if name = preloadName then ({ s with preloadPending := true }, none)
  else ({ s with candidates := s.candidates ++ [⟨keyOf name, s.responsive, .always⟩] }, none)

/-- gates the last candidate by an argument -/
def gateLast (index : Nat) : List Candidate → List Candidate
  | [] => []
  | [c] => [{ c with gate := .argument index }]
  | c :: rest => c :: gateLast index rest

/-- what a chain that is run inside a call answers: the arguments then, and its outcome or fault -/
abbrev Nested := List Argument × Except Fault Outcome

/-- a call on the argument with this index; `nested` runs a preloaded chain text on the given arguments -/
def callWith (nested : Text → List Argument → Nested) (root : Text) (s : Interpreter) (index : Nat) :
    Interpreter × Option Fault :=
  if s.finished then (s, some .callAfterFinish)
  else
    match s.arguments[index]? with
    | none => (s, some (.noArgument index))
    | some argument =>
      if s.stylePending then
        let s := { s with stylePending := false }
        if argument.isEmpty then (s, none)
        else ({ s with declarations := s.declarations ++ [.spread argument.raw] }, none)
      else if s.preloadPending then
        let s := { s with preloadPending := false }
        if argument.isEmpty then (s, none)
        else
          match nested argument.raw s.arguments with
          | (arguments, .error fault) => ({ s with arguments := arguments }, some fault)
          | (arguments, .ok o) =>
            ({ s with
                arguments := arguments
                candidates := s.candidates ++ o.candidates
                declarations := s.declarations ++ o.declarations }, none)
      else if s.candidates.isEmpty then (s, some (.callWithoutName root))
      else if argument.isEmpty then (s, none)
      else ({ s with candidates := gateLast index s.candidates }, none)

/-- one link -/
def stepWith (nested : Text → List Argument → Nested) (root : Text) (s : Interpreter) :
    Link → Interpreter × Option Fault
  | .access name => s.access name
  | .call index => callWith nested root s index

/-- all links in order, up to the first fault -/
def runWith (nested : Text → List Argument → Nested) (root : Text) (s : Interpreter) :
    List Link → Interpreter × Option Fault
  | [] => (s, none)
  | link :: rest =>
    match stepWith nested root s link with
    | (s, none) => runWith nested root s rest
    | (s, some fault) => (s, some fault)

/-- runs the chain in a text, appending its arguments to those given. Every call inside it is on an argument shorter
than the text, so `depth` is enough when it exceeds the length of the text. -/
def runText (root : Text) : (depth : Nat) → Text → List Argument → Nested
  | 0, _, arguments => (arguments, .ok ⟨[], []⟩)
  | depth + 1, t, arguments =>
    let lifted := lift (Text.trim t) arguments.length
    let arguments := arguments ++ lifted.arguments
    match parse lifted.skeleton root with
    | .error fault => (arguments, .error fault)
    | .ok links =>
      match runWith (runText root depth) root { arguments } links with
      | (s, some fault) => (s.arguments, .error fault)
      | (s, none) => (s.arguments, .ok s.outcome)

/-- runs a preloaded chain -/
def preload (root t : Text) (arguments : List Argument) : Nested := runText root (t.length + 1) t arguments

/-- one link of a chain with this root -/
def step (root : Text) (s : Interpreter) (link : Link) : Interpreter × Option Fault :=
  stepWith (preload root) root s link

/-- all links of a chain with this root, up to the first fault -/
def run (root : Text) (s : Interpreter) (links : List Link) : Interpreter × Option Fault :=
  runWith (preload root) root s links

end Interpreter

end TerseStyle.Chain
