import RegexPattern.CommandLine.Help
import RegexPattern.CommandLine.Run

/-!
The program: arguments, standard input, and the two output streams.
-/

open RegexPattern CommandLine

def readInput (stream : IO.FS.Stream) : IO ByteArray := do
  let mut input := ByteArray.empty
  repeat
    let chunk ← stream.read 65536
    if chunk.isEmpty then break
    input := input ++ chunk
  return input

def main (arguments : List String) : IO UInt32 := do
  let arguments := arguments.map String.toList
  match Invocation.ofArguments arguments with
  | .error usage =>
    let message := usage.message arguments
    if usage.code = 0 then IO.print message
    else IO.eprintln ("error: " ++ message ++ "\n\nFor more information, try '--help'.")
    return usage.code.toUInt32
  | .ok invocation =>
    let input ←
      if invocation.readsInput then readInput (← IO.getStdin) else pure ByteArray.empty
    let outcome := invocation.run (← (← IO.getStderr).isTty) input
    IO.eprint (String.ofList outcome.stderr)
    IO.print (String.ofList outcome.stdout)
    return outcome.code.toUInt32
