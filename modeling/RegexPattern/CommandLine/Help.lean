import RegexPattern.CommandLine.Usage

/-!
What the program tells about its own use. The long option asks for the help in full, with a
paragraph on each option and with what each format is; the short one asks for a line on each.
-/

namespace RegexPattern.CommandLine

structure HelpEntry where
  heading : String
  purpose : String
  /-- The value that is taken when none is given. -/
  preset : Option String := none
  /-- The values to choose from, with what they mean where the help in full tells it. -/
  choices : List (String × Option String) := []

def pad (width : Nat) (text : String) : String := text.pushn ' ' (width - text.length)

def widest (texts : List String) : Nat := (texts.map String.length).foldl max 0

namespace HelpEntry

def presetNote (entry : HelpEntry) : List String :=
  entry.preset.toList.map fun value => "[default: " ++ value ++ "]"

def choicesNote (entry : HelpEntry) : List String :=
  if entry.choices.isEmpty then []
  else ["[possible values: " ++ ", ".intercalate (entry.choices.map Prod.fst) ++ "]"]

/-- The entry on one line, with its purpose in the column of the others. -/
def summary (column : Nat) (entry : HelpEntry) : String :=
  "  " ++ pad column entry.heading ++ "  " ++
    " ".intercalate (entry.purpose :: (entry.presetNote ++ entry.choicesNote)) ++ "\n"

def explained (entry : HelpEntry) : Bool := entry.choices.any fun choice => choice.2.isSome

def explanation (entry : HelpEntry) : List String :=
  let column := widest (entry.choices.map Prod.fst) + 1
  "Possible values:" :: entry.choices.map fun (name, meaning) =>
    "- " ++ meaning.elim name fun meaning => pad column (name ++ ":") ++ " " ++ meaning

/-- The entry in a paragraph. Choices with a meaning are listed at its end instead of in a note. -/
def paragraph (entry : HelpEntry) : String :=
  let margin := pad 10 ""
  let notes := entry.presetNote ++ if entry.explained then [] else entry.choicesNote
  let noted := if notes.isEmpty then [] else "" :: notes
  let body := (entry.purpose :: noted).map (margin ++ ·)
  let listed := if entry.explained then "" :: entry.explanation.map (margin ++ ·) else []
  "\n".intercalate (("  " ++ entry.heading) :: (body ++ listed)) ++ "\n"

end HelpEntry

def patternsHelp : HelpEntry where
  heading := "[PATTERNS]..."
  purpose := "Patterns to parse; read one per line from stdin when omitted"

/-- The options in the order in which they are shown. Either form of the help names the other. -/
def optionsHelp (full : Bool) : List HelpEntry :=
  [{ heading := "-f, --format <FORMAT>"
     purpose := "Output format"
     preset := some "dot"
     choices :=
       [("dot", some "Graphviz digraph, one cluster per pattern"),
        ("canonical", some "Canonical pattern text, one per line"),
        ("ast", some "Debug dump of the syntax tree")] },
   { heading := "    --check"
     purpose := "Exit with status 1 when a pattern does not survive the round trip" },
   { heading := "    --max-depth <N>"
     purpose := "Maximum group nesting depth"
     preset := some (toString defaultLimit) },
   { heading := "    --color <COLOR>"
     purpose := "Colour diagnostics on stderr"
     preset := some "never"
     choices := [("always", none), ("never", none), ("auto", none)] },
   { heading := "    --debug"
     purpose := "Enable debug output" },
   { heading := "-h, --help"
     purpose :=
       if full then "Print help (see a summary with '-h')"
       else "Print help (see more with '--help')" },
   { heading := "-V, --version"
     purpose := "Print version" }]

def helpText (full : Bool) : String :=
  let column := fun entries => widest (entries.map HelpEntry.heading)
  let rendered := fun entries =>
    if full then "\n".intercalate (entries.map HelpEntry.paragraph)
    else String.join (entries.map (HelpEntry.summary (column entries)))
  "Parse regex patterns into syntax trees\n\n" ++
  "Usage: regex-tree [OPTIONS] [PATTERNS]...\n\n" ++
  "Arguments:\n" ++ rendered [patternsHelp] ++ "\n" ++
  "Options:\n" ++ rendered (optionsHelp full)

def versionText : String := "regex-tree 0.1.0\n"

def asksForHelp (argument : Text) : Bool :=
  match Argument.ofText argument with
  | .ok (.flag .help) => true
  | _ => false

/-- The first argument that asks for help says in which form. -/
def asksInFull (arguments : List Text) : Bool :=
  arguments.find? asksForHelp = some "--help".toList

def UsageError.message (arguments : List Text) : UsageError → String
  | unknownArgument => "unexpected argument found"
  | invalidValue => "one of the values isn't valid for an argument"
  | valueValidation => "invalid value for one of the arguments"
  | tooManyValues => "unexpected value for an argument found"
  | argumentConflict =>
    "an argument cannot be used with one or more of the other specified arguments"
  | displayHelp => helpText (asksInFull arguments)
  | displayVersion => versionText

end RegexPattern.CommandLine
