import ViewWiring.CommandLine.Run
import ViewWiring.Config.Schema
import ViewWiring.Diagnostic.Terminal
import ViewWiring.Manifest.Schema

namespace ViewWiring.Frontend

def usageFailure : Outcome :=
  ⟨2, "", "error: one manifest is needed, and options that are known and complete\n"⟩

/-- Options as on a shell, documents in TOML, and colours on the terminal. -/
def standard : Frontend where
  options args :=
    match Options.ofArgs? args with
    | some options => .ok options
    | none => .error usageFailure
  config := Config.ofToml
  manifest := Manifest.ofToml
  terminal d := some (d.display .ansi).toUTF8.toList

end ViewWiring.Frontend
