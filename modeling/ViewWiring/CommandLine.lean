namespace ViewWiring

/-- Where diagnostics go: to the terminal as text, or to the output as records. -/
inductive Format
  | human
  | json
  deriving DecidableEq

def Format.ofWord? : String → Option Format
  | "human" => some .human
  | "json" => some .json
  | _ => none

/-- What the program was asked to do. -/
structure Options where
  manifest : String
  config : Option String
  out : String
  format : Format
  check : Bool
  deriving DecidableEq

namespace CommandLine

inductive Setting
  | config
  | out
  | format
  deriving DecidableEq

def Setting.ofName? : String → Option Setting
  | "config" => some .config
  | "out" => some .out
  | "format" => some .format
  | _ => none

def Setting.ofLetter? : Char → Option Setting
  | 'c' => some .config
  | 'o' => some .out
  | 'f' => some .format
  | _ => none

/-- One argument by its form: a word, the mark after which there are only words, or an option with
or without its value. -/
inductive Argument
  | word (text : String)
  | endOfOptions
  | check
  | setting (s : Setting) (value : Option String)
  | unknown
  deriving DecidableEq

/-- The value of an option behind an equals sign. -/
def attached? (rest : List Char) : Option String :=
  match rest with
  | '=' :: value => some (String.ofList value)
  | _ => none

def Argument.ofLong (body : List Char) : Argument :=
  let name := String.ofList (body.takeWhile (· != '='))
  let value := attached? (body.dropWhile (· != '='))
  if name = "check" ∧ value = none then .check
  else
    match Setting.ofName? name with
    | some s => .setting s value
    | none => .unknown

/-- The value of a one-letter option may follow the letter at once. -/
def Argument.ofShort (letter : Char) (rest : List Char) : Argument :=
  match Setting.ofLetter? letter with
  | none => .unknown
  | some s =>
    if rest.isEmpty then .setting s none
    else .setting s (some ((attached? rest).getD (String.ofList rest)))

def Argument.ofText (text : String) : Argument :=
  match text.toList with
  | ['-', '-'] => .endOfOptions
  | '-' :: '-' :: body => ofLong body
  | '-' :: letter :: rest => ofShort letter rest
  | _ => .word text

/-- What was given so far. -/
structure Given where
  manifest : Option String
  config : Option String
  out : Option String
  format : Option Format
  check : Bool
  deriving DecidableEq

namespace Given

def nothing : Given := ⟨none, none, none, none, false⟩

/-- A path is not empty and is given once. -/
def setPath (old : Option String) (path : String) : Option (Option String) :=
  if old.isSome || path.isEmpty then none else some (some path)

def addWord (g : Given) (word : String) : Option Given :=
  (setPath g.manifest word).map fun manifest => { g with manifest }

def addCheck (g : Given) : Option Given := if g.check then none else some { g with check := true }

def addSetting (g : Given) (value : String) : Setting → Option Given
  | .config => (setPath g.config value).map fun config => { g with config }
  | .out => (setPath g.out value).map fun out => { g with out }
  | .format =>
    if g.format.isSome then none
    else (Format.ofWord? value).map fun format => { g with format := some format }

/-- Takes the arguments one by one; an option without a value takes the next word as its value. -/
def addAll (g : Given) : List String → Option Given
  | [] => some g
  | text :: rest =>
    match Argument.ofText text with
    | .endOfOptions => rest.foldlM addWord g
    | .word word => (g.addWord word).bind fun g => g.addAll rest
    | .check => g.addCheck.bind fun g => g.addAll rest
    | .setting s (some value) => (g.addSetting value s).bind fun g => g.addAll rest
    | .setting s none =>
      match rest with
      | [] => none
      | next :: rest =>
        match Argument.ofText next with
        | .word value => (g.addSetting value s).bind fun g => g.addAll rest
        | _ => none
    | .unknown => none

end Given

end CommandLine

/-- Reads the arguments of the program; only the manifest has to be given. -/
def Options.ofArgs? (args : List String) : Option Options := do
  let given ← CommandLine.Given.nothing.addAll args
  let manifest ← given.manifest
  some ⟨manifest, given.config, given.out.getD "generated", given.format.getD .human, given.check⟩

end ViewWiring
