import Permits.Command.Run

set_option autoImplicit false

namespace Permits

def entryAt (path : String) : IO (Option DiskEntry) := do
  if path = "" then return none
  let full := (← IO.currentDir) / path
  if ← full.isDir then return some .directory
  if ← full.pathExists then return some (.file (← IO.FS.readFile full))
  return none

end Permits

def main (words : List String) : IO UInt32 := do
  let entries ← (Permits.Command.pathsOf words).mapM fun path =>
    return (path, ← Permits.entryAt path)
  let outcome := Permits.Command.run (fun _ => none) (fun path => (entries.lookup path).join) words
  IO.print outcome.output
  IO.eprint outcome.errors
  if outcome.breakdown.isSome then IO.eprintln "permtree: the call broke off"
  return outcome.exitCode.toUInt32
