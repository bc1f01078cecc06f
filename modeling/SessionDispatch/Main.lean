import SessionDispatch.CommandLine.Service
import SessionDispatch.Text.Hex

/-!
# The program

Does what the command line asks for. A daemon serves the records that standard input holds, one a
line with the address of its peer and its payload in hexadecimal digits, and prints what it sends in
the same form.
-/

namespace SessionDispatch.Main

/-- The file that a path leads to, if there is one. -/
def readFile (path : String) : IO Files := do
  let entry : Option FileEntry ←
    try
      let bytes ← IO.FS.readBinFile path
      pure (some ((String.fromUTF8? bytes).elim .binary .text))
    catch
      | .noFileOrDirectory .. => pure none
      | _ => pure (some .directory)
  return entry.elim [] (Files.ofPath path)

/-- How many processors there are; at least one, wherever the system tells of none. -/
def countProcessors : IO UInt64 := do
  let lines ← try IO.FS.lines "/proc/cpuinfo" catch _ => pure #[]
  return (max (lines.filter (·.startsWith "processor")).size 1).toUInt64

def readEnvironment : IO Environment := do
  let entries ← Environment.variableNames.filterMapM fun name => do
    return (← IO.getEnv name).map (name, ·)
  return { entries, processors := ← countProcessors }

def parseRecord? (line : String) : Option Packet :=
  match line.trimAscii.toString.splitOn " " with
  | [peer, payload] => (SocketAddress.parse? peer.toList).map (⟨·, Hex.decode payload.toList⟩)
  | _ => none

def showRecord (p : Packet) : String := s!"{p.peer} {String.ofList (Hex.encode p.payload)}"

/-- Serves one record after the other until the input ends. -/
partial def serve (d : Daemon) : IO Daemon := do
  let line ← (← IO.getStdin).getLine
  if line.isEmpty then return d
  let d := d.advance .echo .unlimited ((← IO.monoNanosNow) - d.now)
  match parseRecord? line with
  | none => serve d
  | some p =>
    let (replies, d) := d.exchange .echo .unlimited p
    replies.forM fun r => IO.println (showRecord r)
    serve d

def run (args : List String) : IO UInt32 := do
  let files ← match CommandLine.parse args with
    | .ok flags => readFile flags.config
    | .error _ => pure []
  match CommandLine.Invocation.ofArguments files (← readEnvironment) args with
  | .ended exit stdout stderr =>
    IO.print stdout
    unless stderr.isEmpty do IO.eprintln stderr
    return exit.toUInt32
  | .serve c =>
    match Daemon.start .echo .unlimited c (← IO.monoNanosNow) with
    | .error (e, _) =>
      IO.eprintln s!"Error: {e.message}"
      return 1
    | .ok d =>
      let d := (← serve d).shutdown .echo .unlimited
      match d.phase with
      | .down report => report.failed.forM fun (t, f) => IO.eprintln s!"{t.name}: {f.message}"
      | _ => pure ()
      return 0

end SessionDispatch.Main

def main (args : List String) : IO UInt32 := SessionDispatch.Main.run args
