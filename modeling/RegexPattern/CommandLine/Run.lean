import RegexPattern.CommandLine.Usage

/-!
Carrying out a command line. Patterns come from the arguments or, if there are none, from
standard input, one a line.
-/

namespace RegexPattern.CommandLine

def inputPatterns (input : Text) : List Text := (Text.lines input).filter (· ≠ [])

/-- The settings of a command line; `terminal` tells that diagnostics go to a terminal. -/
def Invocation.settings (invocation : Invocation) (terminal : Bool) : Settings :=
  { format := invocation.format
    check := invocation.check
    limit := invocation.maxDepth
    coloured := match invocation.color with
      | .always => true
      | .never => false
      | .auto => terminal
    debug := invocation.debug }

def undecodableInput : Outcome :=
  { code := 3
    stdout := []
    stderr := "error: reading patterns from stdin: stream did not contain valid UTF-8\n".toList }

def Invocation.readsInput (invocation : Invocation) : Bool := invocation.patterns.isEmpty

def Invocation.run (invocation : Invocation) (terminal : Bool) (input : ByteArray) : Outcome :=
  let settings := invocation.settings terminal
  if invocation.readsInput then
    match String.fromUTF8? input with
    | none => undecodableInput
    | some text => report settings (inputPatterns text.toList)
  else report settings invocation.patterns

end RegexPattern.CommandLine
