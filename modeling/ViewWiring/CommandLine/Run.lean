import ViewWiring.Artifact.Store
import ViewWiring.Batch
import ViewWiring.CommandLine
import ViewWiring.Diagnostic.Record
import ViewWiring.Files.Output
import ViewWiring.Loading
import ViewWiring.Manifest
import ViewWiring.Text.Utf8

namespace ViewWiring

/-- How a run ended, and what it printed. -/
structure Outcome where
  code : Nat
  stdout : String
  stderr : String
  deriving DecidableEq

/-- The file operations that a run needs. -/
structure FileAccess (m : Type → Type) where
  isPresent : String → m Bool
  read : String → m (Except FileError ByteArray)
  write : String → Writer m

/-- The operations on a tree of files. -/
def Entry.access : FileAccess (StateM Entry) where
  isPresent path := do
    let top ← get
    pure (top.follow (Path.places path)).toOption.isSome
  read path := do
    let top ← get
    pure (top.read (Path.places path))
  write := Output.writer

/-- How a run understands its arguments and the form of its documents, and what diagnostics look
like on a terminal. Arguments that ask for nothing to be run end the run at once. -/
structure Frontend where
  options : List String → Except Outcome Options
  config : String → Except String Config
  manifest : String → Except String Manifest
  terminal : Diagnostic → Option (List UInt8)

/-- A diagnostic for the terminal, in one line if it cannot be laid out. -/
def Frontend.render (frontend : Frontend) (d : Diagnostic) : String :=
  match frontend.terminal d with
  | some bytes => Utf8.decodeLossy bytes
  | none => d.summary ++ "\n"

namespace CommandLine

def defaultConfigPath : String := "Processor.toml"

variable {m : Type → Type} [Monad m] (files : FileAccess m) (frontend : Frontend)

/-- Loads the document at a path. -/
def load {ε δ α : Type} (read : String → Except String δ) (check : δ → Except ε α)
    (path : String) : m (Except (LoadError ε) α) := do
  let content ← files.read path
  pure do
    let text ← (content.bind decodeText).mapError (LoadError.unreadable path)
    readDocument read check text

/-- The configuration asked for, or the one in the working directory, or else the standard one. -/
def configPath (options : Options) : m (Option String) :=
  match options.config with
  | some path => pure (some path)
  | none => do
    if ← files.isPresent defaultConfigPath then pure (some defaultConfigPath) else pure none

def loadConfig (options : Options) : m (Except (String × LoadError Config.Error) Config) := do
  match ← configPath files options with
  | none => pure (.ok .standard)
  | some path =>
    pure ((← load files frontend.config Config.check path).mapError fun e => (path, e))

def loadFailure (what path message : String) : Outcome :=
  ⟨2, "", "error: Failed to load " ++ what ++ ": " ++ path ++ ": " ++ message ++ "\n"⟩

def countLine (r : Report) : String :=
  toString r.generated.length ++ " generated, " ++ toString r.failed.length ++ " failed, " ++
    toString r.count ++ " diagnostic(s)\n"

/-- What is printed of a batch; the run succeeds if nothing was reported. -/
def outcome (format : Format) (r : Report) : Outcome :=
  let code := if r.isClean then 0 else 1
  match format with
  | .human => ⟨code, "", String.join (r.diagnostics.map frontend.render) ++ countLine r⟩
  | .json => ⟨code, String.join (r.diagnostics.map fun d => d.record ++ "\n"), ""⟩

/-- A check keeps the generated classes to itself. -/
def process (options : Options) (config : Config) (source : Source) : m Report :=
  if options.check then pure (source.process config Store.writer Store.empty).1
  else source.process config (files.write options.out)

def runOptions (options : Options) : m Outcome := do
  match ← loadConfig files frontend options with
  | .error (path, e) => pure (loadFailure "config" path (e.fullMessage "config" Config.Error.message))
  | .ok config =>
    match ← load files frontend.manifest Manifest.declarations options.manifest with
    | .error e =>
      pure (loadFailure "manifest" options.manifest
        (e.fullMessage "manifest" Manifest.Error.message))
    | .ok declarations =>
      pure (outcome frontend options.format
        (← process files options config declarations.toSource))

def run (args : List String) : m Outcome :=
  match frontend.options args with
  | .error o => pure o
  | .ok options => runOptions files frontend options

end CommandLine

end ViewWiring
