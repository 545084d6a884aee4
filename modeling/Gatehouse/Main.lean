/-
**The program.**

Reads the configuration and the documents of its store, and answers the requests that come over
standard input, one after another.
-/

import Gatehouse.Documents.Directory
import Gatehouse.Node.Configuration
import Gatehouse.Node.FrontDoor
import Gatehouse.Node.Options
import Std.Time.DateTime.Timestamp

namespace Gatehouse.Program

open Text (Bytes)

/-- Why a file cannot be read, in words. -/
def reasonOf : IO.Error → String
  | .noFileOrDirectory _ _ _ => "No such file or directory (os error 2)"
  | .permissionDenied _ _ _ => "Permission denied (os error 13)"
  | .inappropriateType _ _ _ => "Is a directory (os error 21)"
  | error => toString error

/-- What stands at the path of a store. -/
def readRoot (path : String) : IO FileRoot := do
  let root := (← IO.currentDir) / path
  if !(← root.pathExists) then return .missing
  if !(← root.isDir) then return .file
  match ← root.readDir.toBaseIO with
  -- nothing is read from a store that is not healthy, so that the children do not matter
  | .error _ => return .unlisted .empty
  | .ok listed =>
    let children ← listed.toList.filterMapM fun child => do
      -- a link to a file that is not there counts as none
      if !(← child.path.pathExists) then return none
      if ← child.path.isDir then return some (child.fileName, FileEntry.directory)
      match ← (IO.FS.readBinFile child.path).toBaseIO with
      | .ok content => return some (child.fileName, .file content.data.toList)
      | .error error => return some (child.fileName, .unreadable (reasonOf error))
    return .directory (Table.ofList children)

/-- The configuration at a path. -/
def readConfiguration (path : String) : IO (Except ConfigurationError Configuration) := do
  match ← (IO.FS.readBinFile path).toBaseIO with
  | .error error => return .error (.unreadable (reasonOf error))
  | .ok content =>
    let names := Text.variableNames ((Text.decode? content.data.toList).getD "")
    let values ← names.mapM fun name => return (name, ← IO.getEnv name)
    let environment (name : String) : Option String := (values.lookup name).bind id
    return Configuration.ofBytes environment content.data.toList

/-- The surroundings of a step. -/
def readMoment : IO Moment := do
  let now ← Std.Time.Timestamp.now
  let random ← IO.getRandomBytes 16
  return ⟨now.toSecondsSinceUnixEpoch.val.toNat, .ofRandom random.data.toList⟩

/-- The peer of requests over standard input. -/
def localPeer : SocketAddress := ⟨.v4 127 0 0 1, 0, 0⟩

/-- The bytes of a line that begins with the given ones in reverse; none at the end of the input. -/
partial def readLine (input : IO.FS.Stream) (read : Bytes) : IO (Option Bytes) := do
  match (← input.read 1).data.toList with
  | [] => return if read.isEmpty then none else some read.reverse
  | byte :: _ =>
    if byte = 0x0A then
      return some (if read.head? == some 0x0D then read.tail.reverse else read.reverse)
    else readLine input (byte :: read)

/-- The lines up to a blank one. -/
partial def readHead (input : IO.FS.Stream) (lines : List Bytes) : IO (List Bytes) := do
  match ← readLine input [] with
  | none | some [] => return lines.reverse
  | some line => readHead input (line :: lines)

/-- Answer requests until the input ends. -/
partial def serve (metrics : Bool) (node : Node DirectoryStore MemorySessions) : IO Unit := do
  let lines ← readHead (← IO.getStdin) []
  if lines.isEmpty then return
  let moment ← readMoment
  let (response, node) := match Http.Request.ofLines? lines with
    | none => (Http.Response.ofText 400 "text/plain" "", node)
    | some request => FrontDoor.respond metrics moment localPeer request node
  let output ← IO.getStdout
  output.write ⟨response.toBytes.toArray⟩
  output.flush
  serve metrics node

/-- Run with a configuration. -/
def run (configuration : Configuration) : IO Unit := do
  let root ← readRoot configuration.storePath
  let sessions := if configuration.sessions then
      some (MemorySessions.withLifetime configuration.sessionLifetime)
    else none
  let store : DirectoryStore := ⟨configuration.storePath, root⟩
  serve configuration.metrics (Node.ofStore store (.builtin DirectoryStore) sessions).start

end Gatehouse.Program

open Gatehouse in
/-- The program with its arguments. -/
def main (arguments : List String) : IO UInt32 := do
  match Options.ofArguments .standard arguments with
  | .error fault => IO.eprintln ("error: " ++ fault.message); return 2
  | .ok options =>
    match ← Program.readConfiguration options.config with
    | .error error => IO.eprintln ("Error: " ++ error.message); return 1
    | .ok configuration => Program.run configuration; return 0
