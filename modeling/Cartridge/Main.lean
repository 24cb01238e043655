import Cartridge.CommandLine

/-!
# The program

Reads the files that a request may need, runs it, and prints and writes its outcome.
-/
namespace Cartridge.CommandLine

def load? (path : String) : IO (Option Bytes) := do
  try
    return some (← IO.FS.readBinFile path).toList
  catch _ => return none

/-- The files at these paths that can be read. -/
def loadAll : List String → IO (List (String × Bytes))
  | [] => return []
  | path :: rest => do
    let loaded ← loadAll rest
    match ← load? path with
    | some bytes => return (path, bytes) :: loaded
    | none => return loaded

/-- Prints and writes an outcome, and gives its exit code. -/
def Outcome.carryOut (outcome : Outcome) : IO UInt32 := do
  for (path, bytes) in outcome.written do
    IO.FS.writeBinFile path ⟨bytes.toArray⟩
  IO.print outcome.stdout
  IO.eprint outcome.stderr
  return UInt32.ofNat outcome.code

end Cartridge.CommandLine

def main (arguments : List String) : IO UInt32 := do
  let request := Cartridge.CommandLine.Request.ofArguments arguments
  let files ← Cartridge.CommandLine.loadAll request.paths
  (Cartridge.CommandLine.run (fun path => files.lookup path) arguments).carryOut
