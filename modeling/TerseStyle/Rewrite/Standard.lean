/-
The rewriter of the command line.
-/
import TerseStyle.Rewrite.Script
import TerseStyle.Script.Standard

namespace TerseStyle.Rewrite

/-- the rewriter with some settings -/
def Rewriter.standard (settings : Settings) : Rewriter := ⟨settings, Script.Dialect.language⟩

/-- rewrites the script of a file -/
def rewriteScript (settings : Settings) (file source : Text) : Report :=
  (Rewriter.standard settings).rewrite file source

end TerseStyle.Rewrite
