import GuestBridge.Channel.Link
import GuestBridge.Text.Pieces

/-!
# Puppets

A puppet is a child program that reads requests and answers each with the next one of a list
of actions, whatever the request is; after the last action it echoes. It can also close its
input or its output.
-/

namespace GuestBridge.Channel

/-- What a puppet writes. -/
inductive Speech where
  /-- These bytes. -/
  | bytes (bytes : List UInt8)
  /-- A reply with the header line and the code of the request. -/
  | echo
  /-- A reply with the program's arguments, the last one replaced by its length in bytes. -/
  | arguments
  deriving Repr, Inhabited

/-- What a puppet does. -/
structure Action where
  speech : Speech
  /-- Close the input before writing. -/
  closesInput : Bool
  /-- Close the output after writing. -/
  closesOutput : Bool
  deriving Repr, Inhabited

/-- A puppet. -/
structure Puppet where
  /-- Whether the program exists, under whatever name. -/
  installed : Bool
  greeting : Action
  /-- The actions for requests. -/
  replies : List Action
  /-- The arguments that the running puppet was given. -/
  arguments : List String
  /-- The actions still to come. -/
  remaining : List Action
  /-- What was written and not read yet. -/
  unread : List UInt8
  inputOpen : Bool
  outputOpen : Bool
  deriving Repr, Inhabited

namespace Puppet

/-- A puppet that does not run yet. -/
def ofActions (installed : Bool) (greeting : Action) (replies : List Action) : Puppet where
  installed := installed
  greeting := greeting
  replies := replies
  arguments := []
  remaining := []
  unread := []
  inputOpen := false
  outputOpen := false

/-- The bytes of a text. -/
def bytesOf (s : String) : List UInt8 :=
  s.toUTF8.toList

/-- A reply line with the given JSON values. -/
def replyOf (items : List Wire.Json) : List UInt8 :=
  bytesOf ("\x7b\"ok\":" ++ (Wire.Json.array items).compact ++ "\x7d\n")

/-- The arguments as a reply shows them. -/
def shownArguments : List String → List Wire.Json
  | [] => []
  | [script] => [.number (.natural (UInt64.ofNat script.utf8ByteSize))]
  | arg :: args => .str arg :: shownArguments args

/-- The bytes of a speech, for the header line and the code of a request. -/
def spoken (p : Puppet) (header code : String) : Speech → List UInt8
  | .bytes bytes => bytes
  | .echo => replyOf [.str header, .str code]
  | .arguments => replyOf (shownArguments p.arguments)

/-- Do what an action says. -/
def perform (p : Puppet) (header code : String) (a : Action) : Puppet :=
  { p with
    inputOpen := p.inputOpen && !a.closesInput
    unread := if p.outputOpen then p.unread ++ p.spoken header code a.speech else p.unread
    outputOpen := p.outputOpen && !a.closesOutput }

/-- A path that leads to a directory, whatever there is besides. -/
def isDirectory (path : String) : Bool :=
  !path.isEmpty &&
    (Text.pieces (· = '/') path.toList).all fun piece ↦
      piece.isEmpty || piece = ['.'] || piece = ['.', '.']

/-- Why a program that is not installed cannot be run. -/
def runFault (program : String) : IoFault :=
  if isDirectory program then .denied else .missing

/-- Run the puppet from the beginning. -/
def run (program : String) (args : List String) (p : Puppet) : Except IoFault Unit × Puppet :=
  if (program :: args).any fun s ↦ s.toList.contains (Char.ofNat 0) then (.error .nullCharacter, p)
  else if !p.installed then (.error (runFault program), p)
  else
    (.ok (),
      { p with
        arguments := args
        remaining := p.replies
        unread := []
        inputOpen := true
        outputOpen := true }.perform "" "" p.greeting)

/-- What the puppet does next when it has no more actions. -/
def echoing : Action :=
  ⟨.echo, false, false⟩

/-- Take a frame and answer it. -/
def write (frame : String) (p : Puppet) : Except IoFault Unit × Puppet :=
  if p.inputOpen then
    let cs := frame.toList
    let header := String.ofList (cs.takeWhile (· ≠ '\n'))
    let code := String.ofList ((cs.dropWhile (· ≠ '\n')).drop 1)
    (.ok (),
      { p with remaining := p.remaining.drop 1 }.perform header code
        (p.remaining.head?.getD echoing))
  else (.error .brokenPipe, p)

/-- The bytes up to the end of the first line, and the rest. -/
def splitLine : List UInt8 → List UInt8 × List UInt8
  | [] => ([], [])
  | b :: bs =>
    if b = 10 then ([b], bs)
    else
      let (line, rest) := splitLine bs
      (b :: line, rest)

/-- Give a line of what was written. -/
def readLine (p : Puppet) : Except IoFault (List UInt8) × Puppet :=
  let (line, rest) := splitLine p.unread
  (.ok line, { p with unread := rest })

/-- How a puppet is reached. -/
def link : Link Puppet :=
  ⟨run, write, readLine⟩

end Puppet

end GuestBridge.Channel
