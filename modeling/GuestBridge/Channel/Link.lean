import GuestBridge.Bridge.Interpreter
import GuestBridge.Channel.ServerScript
import GuestBridge.Options
import GuestBridge.Wire.Reply

/-!
# The channel to a child program

A guest that runs in a child program is reached over the child's input and output. Each
request is one frame, and each reply one line. Ids of dropped handles go out with the next
frame; if a frame cannot be sent, its ids wait for the next one again.
-/

namespace GuestBridge

/-- How a child program is reached. -/
structure Link (τ : Type) where
  /-- Run a program with arguments. -/
  run : (program : String) → (args : List String) → τ → Except IoFault Unit × τ
  /-- Write a text to the child's input. -/
  write : String → τ → Except IoFault Unit × τ
  /-- Read the bytes of a line, with its end, from the child's output; none at its end. -/
  readLine : τ → Except IoFault (List UInt8) × τ

namespace Channel

variable {τ : Type}

/-- The line that the child writes once it accepts requests. -/
def readyLine : String := "jlext ready"

/-- The arguments of the child program. -/
def arguments (o : Options) : List String :=
  o.arguments ++ ["-e", serverScript]

/-- The text that bytes encode. -/
def text? (bytes : List UInt8) : Option String :=
  String.fromUTF8? ⟨bytes.toArray⟩

/-- Check the first line that the child writes. -/
def checkGreeting (bytes : List UInt8) : Except StartFault Unit :=
  if bytes.isEmpty then .error .exited
  else
    match text? bytes with
    | none => .error (.unreadable .invalidText)
    | some line =>
      let line := String.ofList (Text.trimEnd line.toList)
      if line = readyLine then .ok () else .error (.greeting line)

/-- Run the child program and wait for its greeting. -/
def start (o : Options) (l : Link τ) (t : τ) : Except Failure Unit × τ :=
  match l.run o.program (arguments o) t with
  | (.error fault, t) => (.error (.start (.cannotRun o.program fault)), t)
  | (.ok _, t) =>
    match l.readLine t with
    | (.error fault, t) => (.error (.start (.unreadable fault)), t)
    | (.ok bytes, t) => ((checkGreeting bytes).mapError .start, t)

/-- The text of a reply line. -/
def replyLine (bytes : List UInt8) : Except Failure String :=
  if bytes.isEmpty then .error (.protocol .closed)
  else
    match text? bytes with
    | none => .error (.io .invalidText)
    | some line => .ok line

/-- Send a frame with the ids that wait for release. If that fails, they wait again. -/
def send (l : Link τ) (code : String) (w : World τ) : Except Failure Unit × World τ :=
  let (released, ledger) := w.ledger.take
  match l.write (Wire.frame code released) w.guest with
  | (.ok _, guest) => (.ok (), ⟨guest, ledger⟩)
  | (.error fault, guest) => (.error (.io fault), ⟨guest, ledger.restore released⟩)

/-- Read a reply line and decode it. -/
def receive (l : Link τ) (w : World τ) : Except Failure Value × World τ :=
  match l.readLine w.guest with
  | (.error fault, guest) => (.error (.io fault), ⟨guest, w.ledger⟩)
  | (.ok bytes, guest) =>
    match replyLine bytes with
    | .error e => (.error e, ⟨guest, w.ledger⟩)
    | .ok line =>
      let (result, ledger) := Wire.decodeReply line w.ledger
      (result, ⟨guest, ledger⟩)

/-- Send guest code and wait for the reply. -/
def request (l : Link τ) (code : String) (w : World τ) : Except Failure Value × World τ :=
  match send l code w with
  | (.ok _, w) => receive l w
  | (.error e, w) => (.error e, w)

/-- The guest behind a channel as an interpreter: each request is sent as guest code. -/
def interpreter (o : Options) (l : Link τ) : Interpreter τ where
  start := start o l
  answer r w := request l (Wire.code r) w

end Channel

end GuestBridge
