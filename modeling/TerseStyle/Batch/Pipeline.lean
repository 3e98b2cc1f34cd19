/-
Running a batch: load the settings, find the files, and rewrite one after another. The first failure ends the batch; what
was written before stays. The languages of scripts, the decoders of configuration files and what finds the files of a
pattern are taken from outside.
-/
import TerseStyle.Batch.Event

namespace TerseStyle.Batch

open Rewrite (Rewriter)

/-- the files, and what was reported so far -/
structure World extends Files.Disk where
  events : List Event := []

/-- a part of a batch; the world is known even after a failure -/
abbrev Action := ExceptT Failure (StateM World)

/-- what a batch did -/
structure Summary where
  processed : Nat := 0
  changed : Nat := 0
  deriving DecidableEq, Repr

/-- reports events -/
def report (events : List Event) : Action Unit := modify fun w => { w with events := w.events ++ events }

/-! ## Finding files -/

/-- inserts a path among paths in ascending order, unless it is there in some spelling -/
def insertPath (path : Text) : List Text → List Text
  | [] => [path]
  | other :: rest =>
    if Files.samePath path other then other :: rest
    else if Files.pathBefore path other then path :: other :: rest
    else other :: insertPath path rest

/-- the paths that match a pattern, unless one of them cannot be read -/
def pathsOf (matcher : Files.Matcher) (disk : Files.Disk) (pattern : Text) : Except Failure (List Text) :=
  match matcher disk pattern with
  | .error wording => .error (.pattern pattern wording)
  | .ok entries => (entries.mapM id).mapError .entry

/-- adds the files of patterns to those found before -/
def expandOnto (matcher : Files.Matcher) (found : List Text) : List Text → Action (List Text)
  | [] => return found
  | pattern :: rest => do
    let disk := (← get).toDisk
    let paths ← pathsOf matcher disk pattern
    let files := paths.filter disk.isFile
    if files.isEmpty then report [.noMatch pattern]
    expandOnto matcher (files.foldl (fun found path => insertPath path found) found) rest

/-- the files of patterns in ascending order, each spelling of a path once -/
def expandWith (matcher : Files.Matcher) (patterns : List Text) : Action (List Text) := expandOnto matcher [] patterns

/-! ## Rewriting files -/

/-- the events of a rewrite -/
def rewriteEvents (r : Rewrite.Report) : List Event :=
  r.notices.map .notice ++
    match r.result with
    | .error e => if e.isOnElement then [.fault e] else []
    | .ok _ => []

/-- writes a file in place -/
def writeFile (path output : Text) : Action Unit := do
  let w ← get
  match w.toDisk.write path output with
  | .error fault => throw (.write path fault)
  | .ok disk => set { w with toDisk := disk }

/-- leaves a file with the output of its rewrite; also whether it changed -/
def leaveFile (dryRun : Bool) (path source output : Text) : Action Bool := do
  if output = source then return false
  unless dryRun do writeFile path output
  report [.rewrote path dryRun]
  return true

/-- rewrites the file at a path; also whether it changed -/
def rewriteFileWith (rewriter : Rewriter) (dryRun : Bool) (path : Text) : Action Bool := do
  match (← get).toDisk.read path with
  | .error fault => throw (.read path fault)
  | .ok source =>
    let r := rewriter.rewrite path source
    report (rewriteEvents r)
    match r.result with
    | .error e => throw (.rewrite path e)
    | .ok output => leaveFile dryRun path source output

/-- rewrites the files at some paths in order -/
def rewriteAll (rewriter : Rewriter) (dryRun : Bool) (s : Summary) : List Text → Action Summary
  | [] => return s
  | path :: rest => do
    let changed ← rewriteFileWith rewriter dryRun path
    rewriteAll rewriter dryRun ⟨s.processed + 1, s.changed + if changed then 1 else 0⟩ rest

/-- rewrites the files at some paths and reports the end -/
def runBatchWith (rewriter : Rewriter) (dryRun : Bool) (paths : List Text) : Action Summary := do
  let s ← rewriteAll rewriter dryRun {} paths
  report [.finished s.processed s.changed dryRun]
  return s

/-! ## The whole run -/

/-- what a run is asked to do -/
structure Request where
  config : Option Text := none
  dryRun : Bool := false
  patterns : List Text := []
  deriving DecidableEq, Repr

/-- what a run takes from outside -/
structure Tools where
  languages : Script.Dialect → Script.Language
  decoders : Config.Decoders
  matcher : Files.Matcher

/-- the settings of a run -/
def loadSettings (decoders : Config.Decoders) (config : Option Text) : Action Settings := do
  match config with
  | none => return .standard
  | some path =>
    match decoders.load (← get).toDisk path with
    | .ok settings => return settings
    | .error e => throw (.config path e)

/-- runs a request -/
def runWith (tools : Tools) (r : Request) : Action Summary := do
  let settings ← loadSettings tools.decoders r.config
  let paths ← expandWith tools.matcher r.patterns
  runBatchWith ⟨settings, tools.languages⟩ r.dryRun paths

end TerseStyle.Batch
