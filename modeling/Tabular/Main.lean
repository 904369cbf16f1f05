import Tabular.CommandLine.Program

/-!
The program on the files of the machine it runs on. There is no connection to a server here, so
every attempt at one fails.
-/
namespace Tabular.Main

open CommandLine

/-- The system's number and words for an error. Some numbers come negated. -/
def systemError? : IO.Error → Option (Nat × String)
  | .alreadyExists _ n s | .otherError n s | .resourceBusy n s | .resourceVanished n s
  | .unsupportedOperation n s | .hardwareFault n s | .unsatisfiedConstraints n s
  | .illegalOperation n s | .protocolError n s | .timeExpired n s | .interrupted _ n s
  | .noFileOrDirectory _ n s | .invalidArgument _ n s | .permissionDenied _ n s
  | .resourceExhausted _ n s | .inappropriateType _ n s | .noSuchThing _ n s =>
    some (if n < 0x80000000 then n.toNat else (0 - n).toNat, s)
  | .unexpectedEof | .userError _ => none

def fileError (e : IO.Error) : FileError :=
  match systemError? e with
  | some (2, _) => .notFound
  | some (17, _) => .alreadyPresent
  | some (20, _) => .notDirectory
  | some (21, _) => .isDirectory
  | some (36, _) => .nameTooLong
  | some (n, s) => .other s!"{s} (os error {n})"
  | none => .other (toString e)

def hasNul (path : String) : Bool := path.toList.contains '\x00'

/-- Runs a step on a path that a system can have. -/
def attempt {α : Type} (path : String) (step : IO α) : IO (Except FileError α) := do
  if hasNul path then return .error .invalidName
  else if path.isEmpty then return .error .notFound
  else
    try return .ok (← step)
    catch e => return .error (fileError e)

def isFile (path : String) : IO Bool := do
  let found ← attempt path do return (← ((← IO.currentDir) / path).metadata).type
  return found.toOption == some .file

def readText (path : String) : IO (Except FileError String) := do
  match ← attempt path (IO.FS.readBinFile path) with
  | .error e => return .error e
  | .ok bytes =>
    match String.fromUTF8? bytes with
    | some text => return .ok text
    | none => return .error .notText

/-- The time at which a file was made just now. -/
def currentTime : IO Timestamp := do
  let time ← IO.FS.withTempFile fun _ file => do return (← file.metadata).modified
  return Timestamp.ofMoment (Moment.ofSeconds time.sec time.nsec.toNat)

def fileReply : (q : FileQuery) → IO q.Reply
  | .isFile path => isFile path
  | .create path => attempt path do let _ ← IO.FS.Handle.mk path .writeNew
  | .read path => readText path
  | .write path text => attempt path (IO.FS.writeFile path text)
  | .rename path target => attempt path (IO.FS.rename path target)
  | .remove path => attempt path (IO.FS.removeFile path)
  | .now => currentTime

/-- What a server that cannot be reached was to be reached for. -/
def unreachable (t : Target) (catalog : Option String) : Fault :=
  let host := t.location.getD "localhost"
  let database := catalog.getD "master"
  .resource "no connection to a server can be made" s!"connecting to {host}:{t.port} ({database})"

def serverReply (t : Target) : (q : ServerQuery) → IO q.Reply
  | .connect catalog => return .error (unreachable t catalog)
  | .execute c _ => return .error (unreachable t c.catalog)
  | .close c => return .error (unreachable t c.catalog)

def hostReply : (q : HostQuery) → IO q.Reply
  | .file q => fileReply q
  | .server t q => serverReply t q

end Tabular.Main

def main (arguments : List String) : IO UInt32 := do
  let o ← (Tabular.CommandLine.run arguments).answer Tabular.Main.hostReply
  IO.print o.output
  IO.eprint o.errors
  return UInt32.ofNat o.status
