import Intake.Yaml.Lexer
import Intake.Yaml.Assembly

/-!
# Reading YAML

`Yaml.read?` reads a text with a single YAML document.
-/

namespace Intake.Yaml

/-- The document that a YAML text holds, if it can be read. -/
def read? (s : String) : Option Node := do
  assemble? (← tokens? (← glyphs? s.toList))

end Intake.Yaml
