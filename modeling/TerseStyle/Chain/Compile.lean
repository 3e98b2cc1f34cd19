/-
Compiling the text of a chain: take the icon markers out, run the chain, put the implicit class in front, and resolve
the candidates.
-/
import TerseStyle.Settings
import TerseStyle.Chain.Utility

namespace TerseStyle.Chain

/-- takes the markers of icon escapes out of a text, one escape after the other; also the expressions of those found -/
def takeIcons : List IconEscape → Text → Text × List Text
  | [], t => (t, [])
  | escape :: rest, t =>
    if Text.occursIn escape.marker t then
      let (t, icons) := takeIcons rest (Text.removeAll escape.marker t)
      (t, escape.expression :: icons)
    else takeIcons rest t

/-- compiles the text of a chain -/
def compile (settings : Settings) (t : Text) : Compilation :=
  let (t, icons) := takeIcons settings.iconEscapes t
  match Interpreter.preload settings.root t [] with
  | (_, .error fault) => ⟨[], .error (.chain fault)⟩
  | (arguments, .ok o) => resolve settings.vocabulary arguments o.finish icons

end TerseStyle.Chain
