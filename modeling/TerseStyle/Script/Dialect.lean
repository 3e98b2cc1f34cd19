/-
Dialects of scripts, and which of them a script is written in, by the extension of its file.
-/
import TerseStyle.Files.Path

namespace TerseStyle.Script

/-- the syntax that a script is written in -/
inductive Dialect where
  /-- type annotations, no markup -/
  | typed
  /-- type annotations and markup -/
  | typedMarkup
  /-- markup, no type annotations -/
  | markup
  deriving DecidableEq, Repr

namespace Dialect

/-- whether types are read -/
def hasTypes : Dialect → Bool
  | markup => false
  | _ => true

/-- whether markup is read -/
def hasMarkup : Dialect → Bool
  | typed => false
  | _ => true

end Dialect

/-! ## Files -/

/-- extensions of scripts with types and without markup -/
def typedExtensions : List Text := ["ts", "mts", "cts"].map String.toList

/-- extensions of scripts without types -/
def untypedExtensions : List Text := ["js", "jsx", "mjs", "cjs"].map String.toList

/-- the dialect of a file; any other file may have both types and markup -/
def Dialect.ofFile (path : Text) : Dialect :=
  match Files.extension? path with
  | some extension =>
    if typedExtensions.contains extension then typed
    else if untypedExtensions.contains extension then markup
    else typedMarkup
  | none => typedMarkup

end TerseStyle.Script
