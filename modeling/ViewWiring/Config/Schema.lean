import ViewWiring.Config
import ViewWiring.Toml.Document
import ViewWiring.Toml.Record

namespace ViewWiring

open Toml (Value)

def ViewStyle.ofWord? : String → Option ViewStyle
  | "field" => some .assignField
  | "local" => some .declareLocal
  | _ => none

def SignaturePolicy.ofWord? : String → Option SignaturePolicy
  | "strict" => some .strict
  | "permissive" => some .permissive
  | _ => none

def PlatformTypes.ofValue? (standard : PlatformTypes) (v : Value) : Option PlatformTypes := do
  let slot ← v.record? ["activity", "view", "bundle"]
  let name (v : Value) := v.string?.map TypeName.mk
  some {
    activity := ← (slot "activity").withDefault name standard.activity
    view := ← (slot "view").withDefault name standard.view
    bundle := ← (slot "bundle").withDefault name standard.bundle }

namespace Config

def withCodegen (c : Config) (v : Value) : Option Config := do
  let slot ← v.record? ["suffix", "view_style", "indent"]
  some { c with
    suffix := ← (slot "suffix").withDefault Value.string? c.suffix
    viewStyle := ← (slot "view_style").withDefault (fun v => v.word?.bind ViewStyle.ofWord?)
      c.viewStyle
    indent := ← (slot "indent").withDefault Value.string? c.indent }

def withValidate (c : Config) (v : Value) : Option Config := do
  let slot ← v.record? ["signatures", "max_hierarchy_depth"]
  some { c with
    signatures := ← (slot "signatures").withDefault
      (fun v => v.word?.bind SignaturePolicy.ofWord?) c.signatures
    maxDepth := ← (slot "max_hierarchy_depth").withDefault Value.count? c.maxDepth }

/-- What a document does not say is as in the standard configuration. -/
def ofValue? (v : Value) : Option Config := do
  let slot ← v.record? ["platform", "codegen", "validate"]
  let platform ← (slot "platform").withDefault
    (PlatformTypes.ofValue? standard.platform) standard.platform
  let c := { standard with platform }
  let c ← (slot "codegen").withDefault c.withCodegen c
  (slot "validate").withDefault c.withValidate c

def ofToml : String → Except String Config := Toml.read ofValue?

end Config

end ViewWiring
