import TypedConfig.CommandLine.Settings
import TypedConfig.Emission.Emitter
import TypedConfig.Options.Watch

namespace TypedConfig.CommandLine

def programName : String := "confgen"

structure GenerateArguments where
  input : Option String
  output : Option String
  package : Option String
  overrides : Bool
  maxFileSize : Option String
  mode : Option String
  formats : Bool
  deriving DecidableEq, Repr

inductive ReportFormat where
  | text | json
  deriving DecidableEq, Repr

inductive Command where
  | generate (arguments : GenerateArguments)
  | watch (arguments : GenerateArguments) (debounce : Option Int)
  | diff (first second : Option String) (keysOnly : Bool) (format : ReportFormat)
  | version
  deriving DecidableEq, Repr

structure Invocation where
  logLevel : Option (Option String)
  command : Command
  deriving DecidableEq, Repr

def option (names : List String) (setting : String) (kind : ValueKind) : NamedOption :=
  ⟨names, setting, .value kind, false⟩

def switch (name setting : String) : NamedOption :=
  ⟨[name], setting, .switch, false⟩

def helpOption : NamedOption := ⟨["-h", "--help"], "help", .help, false⟩

def generateOptions : List NamedOption :=
  [helpOption,
    option ["--in", "-i"] "input_file" .anything,
    { option ["--out", "-o"] "output_file" .anything with isRequired := true },
    option ["--pkg", "-p"] "package_name" .anything,
    switch "--no-env" "no_env",
    option ["--max-file-size"] "max_file_size" .anything,
    option ["--mode"] "mode" (.oneOf [Mode.static.name, Mode.getter.name]),
    switch "--gofmt" "gofmt"]

def generateGrammar : Grammar :=
  ⟨programName ++ " generate", generateOptions, []⟩

def watchGrammar : Grammar :=
  ⟨programName ++ " watch", generateOptions ++ [option ["--debounce"] "debounce" .integer], []⟩

def diffGrammar : Grammar where
  program := programName ++ " diff"
  options :=
    [helpOption,
      switch "--keys-only" "keys_only",
      option ["--format"] "format" (.oneOf ["text", "json"])]
  operands := [.single "file1", .single "file2"]

def versionGrammar : Grammar :=
  ⟨programName ++ " version", [helpOption], []⟩

def commandGrammars : List (String × Grammar) :=
  [("generate", generateGrammar), ("watch", watchGrammar), ("diff", diffGrammar),
    ("version", versionGrammar)]

def grammar : Grammar where
  program := programName
  options := [helpOption, option ["--log-level"] "log_level" .anything]
  operands := [.command "command" (commandGrammars.map (·.1))]

def GenerateArguments.ofSettings (s : Settings) : GenerateArguments where
  input := (s.value? "input_file").getD (some "config.toml")
  output := (s.value? "output_file").getD none
  package := (s.value? "package_name").getD (some "")
  overrides := !s.switches.contains "no_env"
  maxFileSize := (s.value? "max_file_size").getD (some "1MB")
  mode := (s.value? "mode").getD (some Mode.static.name)
  formats := s.switches.contains "gofmt"

def Command.ofSettings (name : String) (s : Settings) : Command :=
  match name with
  | "generate" => .generate (.ofSettings s)
  | "watch" =>
    .watch (.ofSettings s)
      (match s.value? "debounce" with
      | some text => text.bind integerOfText?
      | none => some WatchOptions.standard.debounce)
  | "diff" =>
    .diff (s.value? "file1").join (s.value? "file2").join (s.switches.contains "keys_only")
      (if (s.value? "format").join = some "json" then .json else .text)
  | _ => .version

/-- What the arguments ask for. Arguments that nothing takes are refused once all others are
known to be right. -/
def Invocation.ofArguments (arguments : List String) : Except Refusal Invocation := do
  let outer ← settings grammar arguments
  let (name, rest) := outer.command.getD ("", [])
  let inner ← settings ((commandGrammars.lookup name).getD versionGrammar) rest
  match outer.leftOver ++ inner.leftOver with
  | [] => return ⟨outer.value? "log_level", .ofSettings name inner⟩
  | leftOver =>
    throw (.misuse grammar ("unrecognized arguments: " ++ " ".intercalate leftOver))

end TypedConfig.CommandLine
