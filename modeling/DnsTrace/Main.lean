import DnsTrace.Directory
import DnsTrace.Program

/-!
# The command line of `dnsdump`

Reads the standard input or the named files and prints what `Dump.run` makes of them.
-/

namespace DnsTrace

/-- Read a stream to its end, behind what was read before. -/
partial def readStream (stream : IO.FS.Stream) (before : ByteArray) : IO ByteArray := do
  let chunk ← stream.read 65536
  if chunk.isEmpty then return before
  readStream stream (before ++ chunk)

/-- The content of a file, if it can be read. -/
def readFile? (path : String) : IO (Option Octets) := do
  try
    let content ← IO.FS.readBinFile path
    return some content.toList
  catch _ => return none

/-- The content of the files in front of the first that cannot be read. -/
def loadFiles : List String → IO Directory
  | [] => return []
  | path :: paths => do
      match ← readFile? path with
      | none => return []
      | some content => return (path, content) :: (← loadFiles paths)

/-- The named files, or the standard input if there are none. -/
def loadSources (arguments : List String) : IO (Directory × Octets) := do
  match Dump.grammar.read arguments with
  | .ok (.run choices) =>
      match choices.operands with
      | [] => return ([], (← readStream (← IO.getStdin) .empty).toList)
      | paths => return (← loadFiles paths, [])
  | _ => return ([], [])

end DnsTrace

/-- Run `dnsdump`. -/
def main (arguments : List String) : IO UInt32 := do
  let (files, input) ← DnsTrace.loadSources arguments
  let report := DnsTrace.Dump.run (fun path => files.lookup path) input arguments
  IO.print report.output
  match report.failure with
  | some failure => IO.eprintln failure
  | none => pure ()
  return UInt32.ofNat report.status
