/-
The runs of the command line, with the readers and the printer of this project.
-/
import TerseStyle.Batch.Pipeline
import TerseStyle.Files.Glob
import TerseStyle.Rewrite.Standard

namespace TerseStyle.Batch

/-- the readers, the printer and the matcher of this project -/
def Tools.standard : Tools := ⟨Script.Dialect.language, .standard, Files.Glob.matcher⟩

/-- the files of patterns in ascending order -/
def expand (patterns : List Text) : Action (List Text) := expandWith Tools.standard.matcher patterns

/-- rewrites the file at a path; also whether it changed -/
def rewriteFile (settings : Settings) (dryRun : Bool) (path : Text) : Action Bool :=
  rewriteFileWith (.standard settings) dryRun path

/-- rewrites the files at some paths and reports the end -/
def runBatch (settings : Settings) (dryRun : Bool) (paths : List Text) : Action Summary :=
  runBatchWith (.standard settings) dryRun paths

/-- runs a request -/
def run (r : Request) : Action Summary := runWith .standard r

end TerseStyle.Batch
