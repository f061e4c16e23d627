import RegexPattern.Report

/-!
What a command line asks for. Arguments are read from left to right, and the first one that is
wrong decides the error. An option with a value takes it from the same argument or, if there is
none, from the next one that is no option; such a value is looked at only when the next argument
has been recognised, so that an unknown option is reported before a wrong value in front of it.
-/

namespace RegexPattern.CommandLine

inductive ColorWhen where
  | always
  | never
  /-- Only if they go to a terminal. -/
  | auto
deriving DecidableEq

inductive UsageError where
  | unknownArgument
  | invalidValue
  | valueValidation
  | tooManyValues
  | argumentConflict
  | displayHelp
  | displayVersion
deriving DecidableEq

def UsageError.code : UsageError → Nat
  | displayHelp | displayVersion => 0
  | _ => 2

structure Invocation where
  patterns : List Text
  format : Format
  check : Bool
  maxDepth : Nat
  color : ColorWhen
  debug : Bool
deriving DecidableEq

inductive ValueOption where
  | format
  | maxDepth
  | color
deriving DecidableEq

inductive Flag where
  | check
  | debug
  | help
  | version
deriving DecidableEq

/-- What an argument means where options may stand. -/
inductive Argument where
  /-- All arguments after this one are patterns. -/
  | endOfOptions
  /-- An option and the value that stands in the same argument, if any. -/
  | valued (option : ValueOption) (value : Option Text)
  | flag (flag : Flag)
  /-- A pattern, or the value of the option in front of it. -/
  | plain (text : Text)

def attachedValue : Text → Option Text
  | '=' :: value => some value
  | _ => none

def longOption (name : Text) : Option (ValueOption ⊕ Flag) :=
  [("format", .inl .format), ("max-depth", .inl .maxDepth), ("color", .inl .color),
    ("check", .inr .check), ("debug", .inr .debug), ("help", .inr .help),
    ("version", .inr .version)].lookup (String.ofList name)

/-- The meaning of an argument. A lone dash is plain. A flag takes no value; one-letter options
may be followed by their value, with or without an equals sign. -/
def Argument.ofText (text : Text) : Except UsageError Argument :=
  match text with
  | ['-', '-'] => .ok .endOfOptions
  | '-' :: '-' :: long =>
    let value := attachedValue (long.dropWhile (· ≠ '='))
    match longOption (long.takeWhile (· ≠ '=')) with
    | none => .error .unknownArgument
    | some (.inl option) => .ok (.valued option value)
    | some (.inr bare) => if value.isSome then .error .tooManyValues else .ok (.flag bare)
  | '-' :: 'f' :: value =>
    .ok (.valued .format (if value = [] then none else some ((attachedValue value).getD value)))
  | '-' :: 'h' :: _ => .ok (.flag .help)
  | '-' :: 'V' :: _ => .ok (.flag .version)
  | '-' :: _ :: _ => .error .unknownArgument
  | _ => .ok (.plain text)

def formatNamed? (name : Text) : Option Format :=
  [("dot", .dot), ("canonical", .canonical), ("ast", .ast)].lookup (String.ofList name)

def colorNamed? (name : Text) : Option ColorWhen :=
  [("always", .always), ("never", .never), ("auto", .auto)].lookup (String.ofList name)

def unsigned : Text → Text
  | '+' :: digits => digits
  | digits => digits

/-- The depth that a text writes: decimal digits with a value below 2^64. -/
def depthNamed? (text : Text) : Option Nat :=
  let digits := unsigned text
  let value := Nat.ofDigitChars 10 digits 0
  if digits ≠ [] ∧ digits.all Char.isDigit ∧ value < UInt64.size then some value else none

/-- What has been read of a command line. -/
structure Draft where
  patterns : List Text := []
  format : Option Format := none
  maxDepth : Option Nat := none
  color : Option ColorWhen := none
  check : Bool := false
  debug : Bool := false
  /-- An option whose value is still to be looked at, and the value if it was met. -/
  pending : Option (ValueOption × Option Text) := none

namespace Draft

def given (draft : Draft) : ValueOption → Bool
  | .format => draft.format.isSome
  | .maxDepth => draft.maxDepth.isSome
  | .color => draft.color.isSome

/-- Gives an option its value: there has to be one, it has to be the first, and it has to be one
that the option knows. -/
def assign (draft : Draft) (option : ValueOption) (value : Option Text) :
    Except UsageError Draft :=
  match value with
  | none => .error .invalidValue
  | some value =>
    if draft.given option then .error .argumentConflict
    else
      match option with
      | .format =>
        match formatNamed? value with
        | none => .error .invalidValue
        | some format => .ok { draft with format := some format }
      | .maxDepth =>
        match depthNamed? value with
        | none => .error .valueValidation
        | some depth => .ok { draft with maxDepth := some depth }
      | .color =>
        match colorNamed? value with
        | none => .error .invalidValue
        | some color => .ok { draft with color := some color }

def settle (draft : Draft) : Except UsageError Draft :=
  match draft.pending with
  | none => .ok draft
  | some (option, value) => { draft with pending := none }.assign option value

def raise (draft : Draft) : Flag → Except UsageError Draft
  | .check =>
    if draft.check then .error .argumentConflict else .ok { draft with check := true }
  | .debug =>
    if draft.debug then .error .argumentConflict else .ok { draft with debug := true }
  | .help => .error .displayHelp
  | .version => .error .displayVersion

def addPatterns (draft : Draft) (patterns : List Text) : Draft :=
  { draft with patterns := draft.patterns ++ patterns }

def readArguments (draft : Draft) : List Text → Except UsageError Draft
  | [] => draft.settle
  | text :: rest => do
    match ← Argument.ofText text with
    | .endOfOptions => return (← draft.settle).addPatterns rest
    | .valued option none =>
      readArguments { ← draft.settle with pending := some (option, none) } rest
    | .valued option (some value) =>
      readArguments (← (← draft.settle).assign option (some value)) rest
    | .flag flag => readArguments (← (← draft.settle).raise flag) rest
    | .plain text =>
      match draft.pending with
      | some (option, none) =>
        readArguments { draft with pending := some (option, some text) } rest
      | _ => readArguments ((← draft.settle).addPatterns [text]) rest

end Draft

def Invocation.ofArguments (arguments : List Text) : Except UsageError Invocation := do
  let draft ← Draft.readArguments {} arguments
  return { patterns := draft.patterns
           format := draft.format.getD .dot
           check := draft.check
           maxDepth := draft.maxDepth.getD defaultLimit
           color := draft.color.getD .never
           debug := draft.debug }

end RegexPattern.CommandLine
