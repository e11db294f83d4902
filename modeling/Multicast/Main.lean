import Multicast.CommandLine

/-! The simulator as a program. -/
namespace Multicast.CommandLine

def write (o : Simulation.Output) : IO Unit := do
  match o with
  | .print text => (← IO.getStdout).putStr text
  | .log line => (← IO.getStderr).putStrLn line.text

def readContents (path : Option String) : IO (Option String) := do
  match path with
  | none => return none
  | some path =>
    try
      return some (← IO.FS.readFile path)
    catch _ => return none

def run (args : List String) : IO Result := do
  match ofArgs args with
  | .error stop => return stop.result
  | .ok c => return c.execute (← readContents c.config)

end Multicast.CommandLine

def main (args : List String) : IO UInt32 := do
  let result ← Multicast.CommandLine.run args
  result.output.forM Multicast.CommandLine.write
  return UInt32.ofNat result.exitCode
