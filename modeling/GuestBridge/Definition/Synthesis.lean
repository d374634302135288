import GuestBridge.Definition.Header
import GuestBridge.Text.Margin

/-!
# Complete definitions from guest code

Guest code that is a complete definition stays as it is; statements are wrapped in a
function with the requested name and parameters. Beside every function stands a helper that
applies it to all argument tuples of a list.
-/

namespace GuestBridge

/-- A complete definition of a guest function. -/
structure Definition where
  /-- The name it defines. -/
  name : String
  source : String
  /-- Whether the author supplied it complete. -/
  complete : Bool
  deriving DecidableEq, Repr, Inhabited

namespace Definition

/-- The margin of a wrapped body. -/
def bodyMargin : String := "    "

/-- Statements wrapped in a function. -/
def wrap (name : String) (params : List String) (source : String) : String :=
  "function " ++ name ++ "(" ++ ", ".intercalate params ++ ")\n" ++
    Text.indent bodyMargin source ++ "\nend"

/-- A complete definition from guest code. One that is complete keeps the name it defines,
if its header reveals one. -/
def build (name : String) (params : List String) (source : String) : Definition :=
  match definedName? source with
  | some defined => ⟨defined.getD name, source, true⟩
  | none => ⟨name, wrap name params source, false⟩

/-- The name of the helper for a function. -/
def mapName (target : String) : String :=
  target ++ "__map"

/-- The helper that applies a function to all argument tuples of a list. -/
def buildMap (target : String) : Definition :=
  ⟨mapName target,
    mapName target ++ "(args_list) = [Base.invokelatest(" ++ target ++
      ", a...) for a in args_list]",
    false⟩

end Definition

end GuestBridge
