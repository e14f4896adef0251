import Splice.Command.Grammar

/-! # The commands

What each command knows, and the texts that describe it.
-/

namespace Splice.Command

/-- A command: its name, what it knows, and its texts. -/
structure Description where
  program : String
  grammar : Grammar
  usage : String
  details : String

def Description.help (d : Description) : String := d.usage ++ "\n" ++ d.details

def Description.error (d : Description) (message : String) : String :=
  d.usage ++ d.program ++ ": error: " ++ message ++ "\n"

def helpOption : CommandOption := ⟨["-h", "--help"], .help, false⟩

def valueOption (name : String) (required : Bool) : CommandOption := ⟨[name], .value, required⟩

def commandNames : List String := ["render", "probe", "enqueue", "worker"]

def mainDescription : Description where
  program := "hookcut"
  grammar := ⟨[helpOption], none⟩
  usage := "usage: hookcut [-h] \x7brender,probe,enqueue,worker\x7d ...\n"
  details := "Config-driven hook + demo short-form video compositor.

positional arguments:
  \x7brender,probe,enqueue,worker\x7d
    render              Compile an edit config and render one video
    probe               Print duration and audio presence of media files
    enqueue             Add a pending job to the job database
    worker              Poll the job database and render pending jobs

options:
  -h, --help            show this help message and exit
"

def probeDescription : Description where
  program := "hookcut probe"
  grammar := ⟨[helpOption], some "paths"⟩
  usage := "usage: hookcut probe [-h] paths [paths ...]\n"
  details := "Print duration and audio presence of media files.

positional arguments:
  paths       Media files to probe

options:
  -h, --help  show this help message and exit
"

def renderDescription : Description where
  program := "hookcut render"
  grammar := ⟨[helpOption, valueOption "--hook" true, valueOption "--demo" true,
    valueOption "--output" true, valueOption "--config" false, valueOption "--text" false,
    valueOption "--settings" false, ⟨["--dry-run"], .flag, false⟩], none⟩
  usage := "usage: hookcut render [-h] --hook HOOK --demo DEMO --output OUTPUT
                      [--config CONFIG] [--text TEXT] [--settings SETTINGS]
                      [--dry-run]
"
  details := "Render a hook + demo short-form video from an edit config.

options:
  -h, --help           show this help message and exit
  --hook HOOK          Path to the hook (lead-in) clip
  --demo DEMO          Path to the demo (main) clip
  --output OUTPUT      Output mp4 path
  --config CONFIG      Edit config YAML/JSON file
  --text TEXT          Overlay text drawn on the hook
  --settings SETTINGS  Settings YAML file
  --dry-run            Print the compiled ffmpeg command instead of running it
"

def enqueueDescription : Description where
  program := "hookcut enqueue"
  grammar := ⟨[helpOption, valueOption "--user" true, valueOption "--hook" true,
    valueOption "--demo" true, valueOption "--text" false, valueOption "--config" false,
    valueOption "--settings" false], none⟩
  usage := "usage: hookcut enqueue [-h] --user USER --hook HOOK --demo DEMO [--text TEXT]
                       [--config CONFIG] [--settings SETTINGS]
"
  details := "Add a pending render job to the job database.

options:
  -h, --help           show this help message and exit
  --user USER          Owner user id
  --hook HOOK          Hook clip URL or path
  --demo DEMO          Demo clip URL or path
  --text TEXT          Overlay text for the hook
  --config CONFIG      Edit config YAML/JSON file
  --settings SETTINGS  Settings YAML file
"

def workerDescription : Description where
  program := "hookcut worker"
  grammar := ⟨[helpOption, valueOption "--settings" false, ⟨["--once"], .flag, false⟩], none⟩
  usage := "usage: hookcut worker [-h] [--settings SETTINGS] [--once]\n"
  details := "Poll the job database and render pending jobs.

options:
  -h, --help           show this help message and exit
  --settings SETTINGS  Settings YAML file
  --once               Process at most one pending job, then exit
"

/-- Which command is meant, with the arguments that are handed on to it; none if no command is
named. -/
def dispatchTokens : List Token → List String → Except Stop (Option (String × List String))
  | [], _ => .ok none
  | .plain name :: rest, extras =>
    if commandNames.contains name then .ok (some (name, extras ++ rest.map Token.text))
    else .error (unknownCommand name)
  | .separator :: rest, extras =>
    if rest.isEmpty then dispatchTokens rest extras else .error (unknownCommand "--")
  | .unknown s :: rest, extras => dispatchTokens rest (extras ++ [s])
  | .known o _ attached :: rest, extras =>
    match takeSwitch mainDescription.grammar o attached {} with
    | .ok _ => dispatchTokens rest extras
    | .error e => .error e
where
  unknownCommand (name : String) : Stop :=
    argumentError "command" ("invalid choice: " ++ Text.quoted name ++ " (choose from " ++
      ", ".intercalate (commandNames.map Text.quoted) ++ ")")

/-- Split arguments into those before the command and the rest. -/
def headTokens : List String → Except String (List Token)
  | [] => .ok []
  | s :: rest =>
    if s = "--" then .ok (.separator :: rest.map .plain)
    else
      match mainDescription.grammar.classify s with
      | .error e => .error e
      | .ok (.plain name) => .ok (.plain name :: rest.map .plain)
      | .ok t => (headTokens rest).map (t :: ·)

/-- Which command is meant, with its arguments. -/
def dispatch (arguments : List String) : Except Stop (Option (String × List String)) :=
  match headTokens arguments with
  | .ok tokens => dispatchTokens tokens []
  | .error e => .error (.wrong e)

end Splice.Command
