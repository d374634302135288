import GuestBridge.Text.Blank

/-!
# Options of a bridge

The program that runs the guest, its arguments, and the sizes of the bridge's caches. The
program and its arguments can come from the environment, where blank settings do not count.
-/

namespace GuestBridge

/-- The options of a bridge. -/
structure Options where
  /-- The guest's program. -/
  program : String
  /-- The project that the guest activates. -/
  project : Option String
  extraArgs : List String
  /-- The greatest number of remembered expressions. -/
  expressionCapacity : Nat
  /-- The greatest number of remembered functions. -/
  functionCapacity : Nat
  deriving DecidableEq, Repr, Inhabited

namespace Options

/-- The options without any settings. -/
def standard : Options where
  program := "julia"
  project := none
  extraArgs := []
  expressionCapacity := 512
  functionCapacity := 256

/-- A setting that is not blank. -/
def nonBlank (setting : Option String) : Option String :=
  setting.filter fun s ↦ !Text.isBlankLine s.toList

/-- The options from the settings of the environment: the program, the project and further
arguments between blanks. -/
def ofSettings (program project args : Option String) : Options :=
  { standard with
    program := (nonBlank program).getD standard.program
    project := nonBlank project
    extraArgs := (Text.words (args.getD "").toList).map String.ofList }

/-- The arguments of the guest's program in front of its script. -/
def arguments (o : Options) : List String :=
  ["--startup-file=no", "--history-file=no"] ++
    (o.project.map fun p ↦ "--project=" ++ p).toList ++ o.extraArgs

end Options

end GuestBridge
