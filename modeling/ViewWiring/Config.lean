import ViewWiring.TypeName
import ViewWiring.Text.Quoted

namespace ViewWiring

/-- The platform types that generated code is written against. -/
structure PlatformTypes where
  activity : TypeName
  view : TypeName
  bundle : TypeName
  deriving DecidableEq

/-- A view that was looked up is stored in the bound field or in a new local variable. -/
inductive ViewStyle
  | assignField
  | declareLocal
  deriving DecidableEq

/-- Whether hooks and handlers with a faulty signature are left out or called all the same. -/
inductive SignaturePolicy
  | strict
  | permissive
  deriving DecidableEq

structure Config where
  platform : PlatformTypes
  suffix : String
  viewStyle : ViewStyle
  indent : String
  signatures : SignaturePolicy
  maxDepth : Nat
  deriving DecidableEq

inductive Config.Error
  | suffix (text : String)
  | indent (text : String)
  | platformType (key : String) (name : TypeName)
  deriving DecidableEq

def Config.Error.message : Config.Error → String
  | suffix text =>
    "codegen.suffix '" ++ text ++ "' must be non-empty and keep class names valid identifiers"
  | indent text => "codegen.indent " ++ Quoted.encode text ++ " must be non-empty spaces or tabs"
  | platformType key name =>
    "platform." ++ key ++ " '" ++ name.text ++ "' is not a qualified type name"

namespace Config

def defaultIndent : String := "    "

def standard : Config where
  platform := ⟨⟨"android.app.Activity"⟩, ⟨"android.view.View"⟩, ⟨"android.os.Bundle"⟩⟩
  suffix := "_"
  viewStyle := .assignField
  indent := defaultIndent
  signatures := .strict
  maxDepth := 64

def isBlank (c : Char) : Bool := c == ' ' || c == '\t'

def isLegalSuffix (suffix : String) : Bool := !suffix.isEmpty && isIdentifier ("A" ++ suffix)

def isLegalIndent (indent : String) : Bool := !indent.isEmpty && indent.toList.all isBlank

/-- The first fault of a configuration: an ill-spelt suffix would make class names illegal and an
empty one would name a generated class after the one it extends. -/
def firstError (config : Config) : Option Error :=
  if !isLegalSuffix config.suffix then some (.suffix config.suffix)
  else if !isLegalIndent config.indent then some (.indent config.indent)
  else
    [("activity", config.platform.activity), ("view", config.platform.view),
      ("bundle", config.platform.bundle)].findSome? fun (key, name) =>
        if isQualifiedName name.text then none else some (.platformType key name)

def check (config : Config) : Except Error Config :=
  match config.firstError with
  | some e => .error e
  | none => .ok config

end Config

end ViewWiring
