import ViewWiring.TypeName

namespace ViewWiring.Platform

/-- The platform's own types, each with its direct base type: first screens, then views, then
other types that declarations mention. -/
def baseTypes : List (String × String) :=
  [("android.app.Activity", "android.view.ContextThemeWrapper"),
    ("android.view.ContextThemeWrapper", "android.content.ContextWrapper"),
    ("android.content.ContextWrapper", "android.content.Context"),
    ("android.content.Context", "java.lang.Object"),
    ("android.app.ListActivity", "android.app.Activity"),
    ("androidx.core.app.ComponentActivity", "android.app.Activity"),
    ("androidx.activity.ComponentActivity", "androidx.core.app.ComponentActivity"),
    ("androidx.fragment.app.FragmentActivity", "androidx.activity.ComponentActivity"),
    ("androidx.appcompat.app.AppCompatActivity", "androidx.fragment.app.FragmentActivity"),
    ("android.view.View", "java.lang.Object"),
    ("android.view.ViewGroup", "android.view.View"),
    ("android.widget.TextView", "android.view.View"),
    ("android.widget.Button", "android.widget.TextView"),
    ("android.widget.EditText", "android.widget.TextView"),
    ("android.widget.CompoundButton", "android.widget.Button"),
    ("android.widget.CheckBox", "android.widget.CompoundButton"),
    ("android.widget.RadioButton", "android.widget.CompoundButton"),
    ("android.widget.Switch", "android.widget.CompoundButton"),
    ("android.widget.ImageView", "android.view.View"),
    ("android.widget.ImageButton", "android.widget.ImageView"),
    ("android.widget.ProgressBar", "android.view.View"),
    ("android.widget.LinearLayout", "android.view.ViewGroup"),
    ("android.widget.FrameLayout", "android.view.ViewGroup"),
    ("android.widget.RelativeLayout", "android.view.ViewGroup"),
    ("android.widget.ScrollView", "android.widget.FrameLayout"),
    ("android.widget.AdapterView", "android.view.ViewGroup"),
    ("android.widget.AbsListView", "android.widget.AdapterView"),
    ("android.widget.ListView", "android.widget.AbsListView"),
    ("android.widget.GridView", "android.widget.AbsListView"),
    ("android.os.Bundle", "android.os.BaseBundle"),
    ("android.os.BaseBundle", "java.lang.Object"),
    ("java.lang.String", "java.lang.Object")]

def superType (name : TypeName) : Option TypeName :=
  (baseTypes.lookup name.text).map TypeName.mk

end ViewWiring.Platform
