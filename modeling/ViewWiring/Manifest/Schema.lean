import ViewWiring.Manifest
import ViewWiring.Toml.Document
import ViewWiring.Toml.Record

namespace ViewWiring

open Toml (Value)

def DeclarationKind.ofWord? : String → Option DeclarationKind
  | "class" => some .«class»
  | "interface" => some .interface
  | "enum" => some .enum
  | "annotation" => some .annotationType
  | "record" => some .record
  | _ => none

def Modifier.ofWord? : String → Option Modifier
  | "public" => some .«public»
  | "protected" => some .«protected»
  | "private" => some .«private»
  | "static" => some .«static»
  | "final" => some .«final»
  | "abstract" => some .«abstract»
  | _ => none

def MemberEntry.Kind.ofWord? : String → Option MemberEntry.Kind
  | "field" => some .field
  | "method" => some .method
  | _ => none

def MemberEntry.ofValue? (v : Value) : Option MemberEntry := do
  let slot ← v.record?
    ["name", "kind", "type", "params", "returns", "modifiers", "view", "after_views", "click"]
  some {
    name := ← (slot "name").required Value.string?
    kind := ← (slot "kind").required fun v => v.word?.bind MemberEntry.Kind.ofWord?
    type := ← (slot "type").optional Value.string?
    params := ← (slot "params").optional (Value.list? Value.string?)
    returns := ← (slot "returns").optional Value.string?
    modifiers := ← (slot "modifiers").withDefault
      (Value.list? fun v => v.word?.bind Modifier.ofWord?) []
    view := ← (slot "view").optional Value.id?
    afterViews := ← (slot "after_views").withDefault Value.boolean? false
    click := ← (slot "click").optional (Value.list? Value.id?) }

def ComponentEntry.ofValue? (v : Value) : Option ComponentEntry := do
  let slot ← v.record? ["name", "kind", "package", "extends", "layout", "member"]
  some {
    name := ← (slot "name").required Value.string?
    kind := ← (slot "kind").withDefault
      (fun v => v.word?.bind DeclarationKind.ofWord?) .«class»
    package := ← (slot "package").optional Value.string?
    base := ← (slot "extends").optional Value.string?
    layout := ← (slot "layout").optional Value.id?
    members := ← (slot "member").withDefault (Value.list? MemberEntry.ofValue?) [] }

def TypeEntry.ofValue? (v : Value) : Option TypeEntry := do
  let slot ← v.record? ["name", "extends", "member"]
  some {
    name := ← (slot "name").required Value.string?
    base := ← (slot "extends").required Value.string?
    members := ← (slot "member").withDefault (Value.list? MemberEntry.ofValue?) [] }

namespace Manifest

def ofValue? (v : Value) : Option Manifest := do
  let slot ← v.record? ["component", "type"]
  some {
    components := ← (slot "component").withDefault (Value.list? ComponentEntry.ofValue?) []
    types := ← (slot "type").withDefault (Value.list? TypeEntry.ofValue?) [] }

def ofToml : String → Except String Manifest := Toml.read ofValue?

end Manifest

end ViewWiring
