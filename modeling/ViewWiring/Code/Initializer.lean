import ViewWiring.Binding
import ViewWiring.Config
import ViewWiring.Diagnostic
import ViewWiring.Code.SourceFile

namespace ViewWiring

open Code

namespace Code

def onCreateName : String := "onCreate"

def savedStateName : String := "savedInstanceState"

def onClickName : String := "onClick"

def clickedViewName : String := "view"

def overrideRef : ClassRef := ⟨"java.lang", "Override"⟩

def findView (id : Int) : Expr := .call none "findViewById" [.int id]

end Code

namespace ComponentBinding

def className (config : Config) (b : ComponentBinding) : String := b.simpleName ++ config.suffix

/-- Looks a view up and stores it, cast to the type of its field. -/
def viewLookup (config : Config) (v : ViewBinding) : Statement :=
  let type := ClassRef.ofType v.type
  let value := Expr.cast type (findView v.id)
  match config.viewStyle with
  | .assignField => .assign v.member value
  | .declareLocal => .declare type v.member value

def hookCall (hook : String) : Statement := .expr (.call none hook [])

/-- The clicked view as the handler wants it: cast unless it takes any view. -/
def clickArgument (config : Config) (c : ClickBinding) : Expr :=
  match c.param with
  | some type =>
    if type = config.platform.view then .ident clickedViewName
    else .cast (ClassRef.ofType type) (.ident clickedViewName)
  | none => .ident clickedViewName

def onClick (config : Config) (c : ClickBinding) : Method where
  name := onClickName
  annotations := [overrideRef]
  modifiers := [.«public»]
  returns := .void
  params := [⟨ClassRef.ofType config.platform.view, clickedViewName⟩]
  sections := [[.expr (.call none c.handler [clickArgument config c])]]

/-- Sets a listener on one view that passes the click on to the handler. -/
def clickListener (config : Config) (c : ClickBinding) (id : Int) : Statement :=
  .expr (.call (some (findView id)) "setOnClickListener"
    [.new ((ClassRef.ofType config.platform.view).nested "OnClickListener") [onClick config c]])

def clickListeners (config : Config) (c : ClickBinding) : List Statement :=
  c.ids.map (clickListener config c)

/-- The method that sets the layout up and then wires views, hooks and handlers, in this order. -/
def onCreate (config : Config) (layout : Int) (b : ComponentBinding) : Method where
  name := onCreateName
  annotations := [overrideRef]
  modifiers := [.«protected»]
  returns := .void
  params := [⟨ClassRef.ofType config.platform.bundle, savedStateName⟩]
  sections :=
    [[.expr (.call (some .super) onCreateName [.ident savedStateName]),
        .expr (.call none "setContentView" [.int layout])],
      b.views.map (viewLookup config),
      b.hooks.map hookCall,
      b.clicks.flatMap (clickListeners config)]

def missingLayout (b : ComponentBinding) : Diagnostic :=
  .anchored .missingLayoutDirective ("'" ++ b.relativeName ++ "' has no layout directive")
    ⟨b.component, none⟩

/-- The file with the generated subclass; without a layout there is nothing to generate. -/
def sourceFile (config : Config) (b : ComponentBinding) : Except Diagnostic SourceFile :=
  match b.layout with
  | none => .error b.missingLayout
  | some layout => .ok
      { package := b.package
        className := b.className config
        modifiers := [.«public»]
        superclass := some ⟨b.package, b.relativeName⟩
        methods := [b.onCreate config layout] }

end ComponentBinding

end ViewWiring
