import GuestBridge.Wire.Literal

/-!
# Requests

Everything the bridge asks of an interpreter, the guest code that asks it, and the frame in
which the code is sent: a header line with the length of the code in bytes and the ids that
the guest may forget, and then the code itself.
-/

namespace GuestBridge

/-- A request to an interpreter. -/
inductive Request where
  /-- Evaluate guest code. -/
  | eval (code : String)
  /-- Call an object with arguments. -/
  | call (callee : Handle) (args : List Value)
  /-- Look up a property of an object. -/
  | getAttr (target : Handle) (name : String)
  /-- Convert a value to the guest type that an expression names. -/
  | convert (type : String) (value : Value)
  /-- Create a fresh module. -/
  | newModule (name : String)
  deriving Repr, Inhabited

namespace Wire

/-- A call as guest code. -/
def callText (callee : Handle) (args : List Value) : String :=
  handleRef callee ++ "(" ++ ", ".intercalate (literals args) ++ ")"

/-- The look-up of a property as guest code. -/
def getAttrText (target : Handle) (name : String) : String :=
  "getproperty(" ++ handleRef target ++ ", Symbol(" ++ textLiteral name ++ "))"

/-- A conversion as guest code; the type is guest code itself. -/
def convertText (type : String) (value : Value) : String :=
  "convert(" ++ type ++ ", " ++ literal value ++ ")"

/-- The creation of a module as guest code. -/
def newModuleText (name : String) : String :=
  "Module(Symbol(" ++ textLiteral name ++ "))"

/-- The guest code of a request. -/
def code : Request → String
  | .eval code => code
  | .call callee args => callText callee args
  | .getAttr target name => getAttrText target name
  | .convert type value => convertText type value
  | .newModule name => newModuleText name

/-- The header of a request: the length of its code in bytes and the released ids. -/
def header (length : Nat) (released : List Nat) : String :=
  " ".intercalate ((length :: released).map toString)

/-- The text that is sent for some code: header line and code. -/
def frame (code : String) (released : List Nat) : String :=
  header code.utf8ByteSize released ++ "\n" ++ code

end Wire

end GuestBridge
