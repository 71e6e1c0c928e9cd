import ShaderGraph.CommandLine
/-! The program: runs the command line, writes the files it answers with, and prints what came of
it. Whether a directory can be made is left to the disk it is made on. -/
open ShaderGraph

/-- Makes a directory after those on the way to it. A dotted path makes only those: what it
names stands already, or nothing can be written there. -/
def makeDirectory (directory : String) : IO Unit := do
  let path := Path.parse directory
  IO.FS.createDirAll (if path.dotted then path.parent.text else directory)

def endsWell (act : IO Unit) : IO Bool := do
  try
    act
    return true
  catch _ => return false

def carryOut (response : CommandLine.Response) : IO CommandLine.Response := do
  match response.directory with
  | none => return response
  | some directory =>
    let path (file : OutputFile) := Path.join directory file.name
    let made ← endsWell (makeDirectory directory)
    let refused ← if made then
        response.files.findM? fun file => return !(← endsWell (IO.FS.writeFile (path file) file.source))
      else pure none
    return response.onDisk (fun _ => made) fun written => refused.all fun file => path file != written

def main (args : List String) : IO UInt32 := do
  let response ← carryOut (CommandLine.run args)
  IO.print response.stdout
  IO.eprint response.stderr
  return response.exit.toUInt32
