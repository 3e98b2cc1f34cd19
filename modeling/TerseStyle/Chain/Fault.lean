/-
Why a style chain is rejected. Every cause carries what its message names; `CompileError.message` is the only place
where the wording stands.
-/
import TerseStyle.Text.Basic

namespace TerseStyle.Chain

/-- why a text is not a chain, or why a chain cannot be run -/
inductive Fault where
  /-- the skeleton starts with another name than the root -/
  | wrongRoot (root found skeleton : Text)
  /-- a dot without a name after it -/
  | missingName (skeleton : Text)
  /-- a call without a placeholder inside -/
  | missingPlaceholder (skeleton : Text)
  /-- a call without its closing parenthesis -/
  | unclosedCall (skeleton : Text)
  /-- a character that starts neither a name nor a call -/
  | unexpected (c : Char) (skeleton : Text)
  /-- a name after the chain was finished -/
  | nameAfterFinish (name : Text)
  /-- a call after the chain was finished -/
  | callAfterFinish
  /-- a call on an argument that does not exist -/
  | noArgument (index : Nat)
  /-- a call before any name that it could apply to -/
  | callWithoutName (root : Text)
  deriving DecidableEq, Repr

/-- why a chain text does not compile -/
inductive CompileError where
  /-- an arbitrary value under a variable has no responsive form -/
  | responsiveVariable (key : Text)
  /-- the gate of a candidate refers to no argument -/
  | danglingGate (key : Text) (index : Nat)
  /-- the text is no runnable chain -/
  | chain (fault : Fault)
  deriving DecidableEq, Repr

/-- the name that finishes a chain -/
def finishName : Text := "$$$PROCESS".toList

namespace Fault

/-- the wording of a fault -/
def message : Fault → Text
  | wrongRoot root found skeleton =>
    "chain must start with `".toList ++ root ++ "`, found `".toList ++ found ++ "` in \"".toList ++ skeleton ++ ['"']
  | missingName skeleton => "expected a property name after `.` in \"".toList ++ skeleton ++ ['"']
  | missingPlaceholder skeleton => "expected a call placeholder in \"".toList ++ skeleton ++ ['"']
  | unclosedCall skeleton => "unterminated call in \"".toList ++ skeleton ++ ['"']
  | unexpected c skeleton => "unexpected `".toList ++ c :: "` in \"".toList ++ skeleton ++ ['"']
  | nameAfterFinish name => "`.".toList ++ name ++ "` accessed after `".toList ++ finishName ++ "`".toList
  | callAfterFinish => "call after `".toList ++ finishName ++ "`".toList
  | noArgument index => "call argument #".toList ++ Text.ofNat index ++ " does not exist".toList
  | callWithoutName root => "`".toList ++ root ++ "` called before any property access".toList

end Fault

namespace CompileError

/-- the wording of a compile error -/
def message : CompileError → Text
  | responsiveVariable key =>
    "Responsive arbitrary-value style '".toList ++ key ++ "' is not supported".toList
  | danglingGate key index =>
    "Invalid condition for '".toList ++ key ++ "': placeholder #".toList ++ Text.ofNat index
  | chain fault => "Invalid DSL expression: ".toList ++ fault.message

end CompileError

end TerseStyle.Chain
