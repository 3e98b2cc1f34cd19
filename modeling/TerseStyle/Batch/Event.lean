/-
What a batch reports while it runs, and why it stops.
-/
import TerseStyle.Config.File
import TerseStyle.Files.Tree
import TerseStyle.Rewrite.Script

namespace TerseStyle.Batch

/-- the weight of an event -/
inductive Level where
  | error
  | warning
  | info
  deriving DecidableEq, Repr

/-- the name of a level -/
def Level.name : Level → Text
  | error => "ERROR".toList
  | warning => "WARN".toList
  | info => "INFO".toList

/-- something that is reported -/
inductive Event where
  /-- a key that is not in the vocabulary -/
  | notice (n : Chain.Notice)
  /-- an element that cannot be rewritten -/
  | fault (e : Rewrite.RewriteError)
  /-- a pattern without files -/
  | noMatch (pattern : Text)
  /-- a file that was changed, or would be -/
  | rewrote (path : Text) (dryRun : Bool)
  /-- the end of a batch -/
  | finished (processed changed : Nat) (dryRun : Bool)
  deriving DecidableEq, Repr

namespace Event

/-- the level of an event -/
def level : Event → Level
  | notice _ => .warning
  | fault _ => .error
  | noMatch _ => .warning
  | rewrote _ _ => .info
  | finished _ _ _ => .info

/-- the wording of an event -/
def message : Event → Text
  | notice n => n.message
  | fault e => "rewrite: ".toList ++ e.message
  | noMatch pattern => "No files match '".toList ++ pattern ++ ['\'']
  | rewrote path dryRun => (if dryRun then "Would rewrite ".toList else "Rewrote ".toList) ++ path
  | finished processed changed dryRun =>
    "Processed ".toList ++ Text.ofNat processed ++ " file(s), ".toList ++ Text.ofNat changed ++
      if dryRun then " would change".toList else " changed".toList

/-- the level and the wording of an event -/
def line (e : Event) : Text := e.level.name ++ ' ' :: e.message

end Event

/-- why a batch stops -/
inductive Failure where
  | config (path : Text) (cause : Config.LoadError)
  | pattern (text cause : Text)
  /-- a path that matches a pattern cannot be read; there is nothing to say but that -/
  | entry (wording : Text)
  | read (path : Text) (cause : Files.Fault)
  | rewrite (path : Text) (cause : Rewrite.RewriteError)
  | write (path : Text) (cause : Files.Fault)
  deriving DecidableEq, Repr

namespace Failure

/-- what the batch was doing -/
def context : Failure → Text
  | config path _ => "Failed to load config ".toList ++ path
  | pattern text _ => "Invalid pattern '".toList ++ text ++ ['\'']
  | entry wording => wording
  | read path _ => "Failed to read ".toList ++ path
  | rewrite path _ => "Failed to rewrite ".toList ++ path
  | write path _ => "Failed to write ".toList ++ path

/-- the wording of the cause, if there is one -/
def cause : Failure → Text
  | config _ e => e.message
  | pattern _ wording => wording
  | entry _ => []
  | read _ e => e.message
  | rewrite _ e => e.message
  | write _ e => e.message

end Failure

end TerseStyle.Batch
