import GuestBridge.Host.Extraction
import GuestBridge.Value.HostType
import GuestBridge.Wire.Json

/-!
# Failures

Everything that can go wrong between the host and the guest, by cause, and the wording of
each failure.
-/

namespace GuestBridge

/-- What can go wrong when reading, writing or running a program. -/
inductive IoFault where
  | brokenPipe
  /-- The text read is not encoded as it should be. -/
  | invalidText
  | missing
  | denied
  /-- A program's name or argument has a null character in it. -/
  | nullCharacter
  /-- Any other fault, with its wording. -/
  | other (message : String)
  deriving DecidableEq, Repr

/-- The wording of a fault. -/
def IoFault.message : IoFault → String
  | .brokenPipe => "Broken pipe (os error 32)"
  | .invalidText => "stream did not contain valid UTF-8"
  | .missing => "No such file or directory (os error 2)"
  | .denied => "Permission denied (os error 13)"
  | .nullCharacter => "nul byte found in provided data"
  | .other message => message

/-- Why an interpreter did not start. -/
inductive StartFault where
  /-- Whoever starts the interpreter refused, with a message. -/
  | refused (message : String)
  /-- The program cannot be run. -/
  | cannotRun (path : String) (cause : IoFault)
  /-- The greeting cannot be read. -/
  | unreadable (cause : IoFault)
  /-- The program ended without a greeting. -/
  | exited
  /-- The greeting is not the expected one. -/
  | greeting (line : String)
  deriving DecidableEq, Repr

/-- The wording of a fault. -/
def StartFault.message : StartFault → String
  | .refused message => message
  | .cannotRun path cause => s!"cannot run `{path}`: {cause.message}"
  | .unreadable cause => s!"cannot read from Julia: {cause.message}"
  | .exited => "Julia exited before it was ready"
  | .greeting line => s!"unexpected greeting from Julia: {Text.quote line}"

/-- What is wrong with a reply. -/
inductive ProtocolFault where
  /-- The line is no reply. -/
  | malformed
  /-- A special floating-point number with an unknown name. -/
  | unknownFloat (name : String)
  /-- An object that stands for no value. -/
  | unrecognized (object : Wire.Json)
  /-- There is no reply because the output has ended. -/
  | closed
  deriving Repr

/-- The wording of a fault. -/
def ProtocolFault.message : ProtocolFault → String
  | .malformed => "malformed reply"
  | .unknownFloat name => s!"unknown float `{name}`"
  | .unrecognized object => s!"unrecognized value {object.compact}"
  | .closed => "Julia closed its output"

/-- Everything that can go wrong. -/
inductive Failure where
  /-- The host function carries no guest code. -/
  | extraction (cause : Host.ExtractionError)
  /-- The interpreter did not start. -/
  | start (cause : StartFault)
  /-- The guest raised an exception of the given type. -/
  | raised (kind message : String)
  /-- A member of a module with a reserved name. -/
  | noMember (module name : String)
  /-- A name that is no path of a module. -/
  | moduleName (name : String)
  /-- A value that cannot be called. -/
  | notCallable (value : Value)
  /-- A value that does not read as the host type asked for. -/
  | conversion (expected found : String)
  /-- A reply that cannot be understood. -/
  | protocol (cause : ProtocolFault)
  /-- Reading or writing failed. -/
  | io (cause : IoFault)
  /-- There is a global bridge already. -/
  | globalInstalled
  deriving Repr

/-- The values that a failure holds copies of: the one that cannot be called. -/
def Failure.values : Failure → List Value
  | .notCallable value => [value]
  | _ => []

/-- The handles that come with a result, or with a failure. -/
def Failure.shownBy {α : Type} (shown : α → List Handle) : Except Failure α → List Handle
  | .ok x => shown x
  | .error e => Value.handlesAll e.values

/-- The handles of a value that cannot be called come with the failure. -/
@[simp] theorem Failure.shownBy_notCallable {α : Type} (shown : α → List Handle) (v : Value) :
    shownBy shown (.error (.notCallable v)) = v.handles :=
  Value.handlesAll_singleton v

/-- A mismatch as a failure. -/
def Mismatch.failure (m : Mismatch) : Failure :=
  .conversion m.expected m.found

/-- The wording of a failure. -/
def Failure.message : Failure → String
  | .extraction cause => cause.message
  | .start cause => s!"failed to start Julia runtime: {cause.message}"
  | .raised kind message => s!"{kind}: {message}"
  | .noMember module name => s!"module `{module}` has no attribute `{name}`"
  | .moduleName name => s!"invalid Julia module name `{name}`"
  | .notCallable value => s!"value is not callable: {value.display}"
  | .conversion expected found => s!"expected {expected}, found {found}"
  | .protocol cause => s!"protocol error: {cause.message}"
  | .io cause => s!"I/O error talking to Julia: {cause.message}"
  | .globalInstalled => "the global runtime is already installed"

end GuestBridge
