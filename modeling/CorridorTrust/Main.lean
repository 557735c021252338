import CorridorTrust.Command.Sources
import Std.Time.DateTime.Timestamp

namespace CorridorTrust.Shell

open Command (Context Outcome Invocation ServerInvocation)
open Rpc (World)
open Time (Instant)

def clock : IO Instant := do
  let now ← Std.Time.Timestamp.now
  let nanos := now.toNanosecondsSinceUnixEpoch.val
  return ⟨nanos / 1000000000, (nanos % 1000000000).toNat⟩

def environment : IO Environment := do
  let values ← Settings.variableNames.mapM fun name => do return (name, ← IO.getEnv name)
  return fun name => (values.lookup name).join

def lookInside (t : FileTree) (path : String) : IO FileTree := do
  try
    return t.write path (← IO.FS.readBinFile path).toList
  catch _ =>
    return t.makeDirectory path

def look (t : FileTree) (path : String) : IO FileTree := do
  try
    let _ ← IO.FS.realPath path
    lookInside t path
  catch _ =>
    return t

def gather (sources : FileTree → List String) : IO FileTree := do
  let again (t : FileTree) := (sources t).foldlM (fun t path => (Path.stages path).foldlM look t) t
  again (← again (← again FileTree.empty))

def context (input : Bytes) (sources : Context → List String) : IO Context := do
  let vars ← environment
  let now ← clock
  let seed := (← IO.getRandomBytes 32).toList
  let files ← gather fun t => sources ⟨⟨t, now⟩, vars, input, seed⟩
  return ⟨⟨files, now⟩, vars, input, seed⟩

def finish (o : Outcome) : IO UInt32 := do
  o.written.forM fun f => IO.FS.writeBinFile f.1 ⟨f.2.toArray⟩
  o.output.forM fun line => IO.println line
  if o.error ≠ "" then IO.eprintln o.error
  return o.exit.toUInt32

partial def readAll (input : IO.FS.Stream) : IO Bytes := do
  let bs ← input.read 65536
  if bs.isEmpty then return [] else return bs.toList ++ (← readAll input)

def runProgram (args : List String) : IO UInt32 := do
  match Invocation.read args with
  | .error halt => finish (.halted "rtgf" halt)
  | .ok i =>
    let input ← if i.action.readsInput then readAll (← IO.getStdin) else pure []
    let c ← context input fun c => Command.sources c i
    finish (Command.report c i).outcome

partial def readLine (input : IO.FS.Stream) : IO Bytes := do
  match (← input.read 1).toList with
  | [] => return []
  | [10] => return [10]
  | bs => return bs ++ (← readLine input)

/-- Answers line by line; every line sees the files and the clock as they are then. -/
partial def serve (input output : IO.FS.Stream) (s : Service) : IO UInt32 := do
  let line ← readLine input
  if line = [] then return 0
  let w : World := ⟨← gather fun t => Command.serviceSources t s.settings, ← clock⟩
  match Session.step w s line with
  | .silent => serve input output s
  | .failed => finish Outcome.unreadable
  | .reply text next =>
    output.putStrLn text
    output.flush
    serve input output next

def runServer (args : List String) : IO UInt32 := do
  match ServerInvocation.read args with
  | .error halt => finish (.halted "rtgf-registryd" halt)
  | .ok i =>
    let c ← context [] fun c => Command.serverSources c i
    match Command.startServer c i with
    | .error message => finish (.unstarted message)
    | .ok s => serve (← IO.getStdin) (← IO.getStdout) s

end CorridorTrust.Shell

def main (args : List String) : IO UInt32 := do
  if (← IO.appPath).fileStem == some "rtgf-registryd" then CorridorTrust.Shell.runServer args
  else CorridorTrust.Shell.runProgram args
