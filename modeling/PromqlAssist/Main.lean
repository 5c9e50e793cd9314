import PromqlAssist.Command.Run
import PromqlAssist.Server.Stream

/-!
# The program

The command line, whose questions the system answers, and the language server on the standard
streams. This program opens no socket: listening is always refused.
-/

namespace PromqlAssist

/-- The system's words for an error, with its number. -/
def systemMessage (details : String) (code : UInt32) : Text :=
  (details ++ " (os error " ++ toString code.toNat ++ ")").toList

/-- What reading a file comes to when it fails. -/
def FileContent.ofFailure : IO.Error → FileContent
  | .noFileOrDirectory _ code details => .absent (systemMessage details code)
  | .permissionDenied _ code details => .unreadable (systemMessage details code)
  | .inappropriateType _ code details =>
    -- The number 20 says that a part of the path is no directory.
    if code = 20 then .absent (systemMessage details code)
    else .unreadable (systemMessage details code)
  | e => .unreadable (toString e).toList

def FileContent.ofBytes (bytes : ByteArray) : FileContent :=
  match Utf8.decode? bytes.toList with
  | some t => .text t
  | none => .unreadable "stream did not contain valid UTF-8".toList

namespace Program

def readFile (path : Text) : IO FileContent := do
  try return .ofBytes (← IO.FS.readBinFile (String.ofList path))
  catch e => return .ofFailure e

/-- How many bytes are asked for at once. -/
def chunkSize : USize :=
  65536

partial def readAll (stream : IO.FS.Stream) (done : ByteArray) : IO ByteArray := do
  let chunk ← stream.read chunkSize
  if chunk.isEmpty then return done else readAll stream (done ++ chunk)

def readInput : IO FileContent := do
  try return .ofBytes (← readAll (← IO.getStdin) .empty)
  catch e => return .ofFailure e

/-- Answers the questions of an inquiry. -/
def answer {α : Type} : Inquiry α → IO α
  | .done a => return a
  | .lookup name next => do
    let value? ← IO.getEnv (String.ofList name)
    answer (next (value?.map String.toList))
  | .read path next => do answer (next (← readFile path))
  | .input next => do answer (next (← readInput))

def send (out : List Outgoing) : IO Unit := do
  unless out.isEmpty do
    let stream ← IO.getStdout
    stream.write (ServerStream.encode out).toByteArray
    stream.flush

/-- How long the server sleeps between two looks at its input, in milliseconds. -/
def pause : UInt32 :=
  2

/-- Serves messages until the input ends or the connection stops reading. Meanwhile a task waits for
the next bytes. -/
partial def serve (s : ServerStream) (last : Nat) (next : Task (Except IO.Error ByteArray)) :
    IO Unit := do
  let now ← IO.monoMsNow
  let (out, s) := s.advance last now
  send out
  if ← IO.hasFinished next then
    match next.get with
    | .error _ => return
    | .ok bytes =>
      if bytes.isEmpty then return
      let (out, s) := s.receive now bytes.toList
      send out
      if s.isReading then
        let stdin ← IO.getStdin
        serve s now (← IO.asTask (stdin.read chunkSize))
  else
    IO.sleep pause
    serve s now next

/-- Brings a command to its end. Returns the status of the program. -/
def finish : CommandOutcome → IO UInt32
  | .finished status output errors => do
    IO.print (String.ofList output)
    IO.eprint (String.ofList errors)
    return status.toUInt32
  | .serve vocabulary options => do
    let stdin ← IO.getStdin
    serve (.start vocabulary options) (← IO.monoMsNow) (← IO.asTask (stdin.read chunkSize))
    return 0
  | .listen _ _ _ => do
    IO.eprintln (String.ofList (CommandOutcome.listenErrors
      "Operation not supported (os error 95)".toList))
    return CommandOutcome.failureStatus.toUInt32

end Program

end PromqlAssist

def main (args : List String) : IO UInt32 := do
  PromqlAssist.Program.finish
    (← PromqlAssist.Program.answer (PromqlAssist.Invocation.run (args.map String.toList)))
