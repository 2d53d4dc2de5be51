import LogGuard.Command.Arguments

/-!
# Help texts

What the program tells about itself and its commands.
-/

namespace LogGuard.Command

/-- Lines as a text. -/
def lines (ls : List String) : String :=
  String.join (ls.map (· ++ "\n"))

/-- The help for a topic. -/
def Topic.text : Topic → String
  | .program => lines [
    "Rewrite console.log/error/warn to sanitizing safeLog/safeError/safeWarn",
    "",
    "Usage: safe-log-fixer [OPTIONS] <COMMAND>",
    "",
    "Commands:",
    "  fix    Rewrite unsafe logging calls in place and add the missing import",
    "  check  Report files that `fix` would change, without writing",
    "  help   Print this message or the help of the given subcommand(s)",
    "",
    "Options:",
    "  -v...          Increase verbosity (-v, -vv). Uses RUST_LOG under the hood",
    "  -h, --help     Print help",
    "  -V, --version  Print version"]
  | .task .fix => lines [
    "Rewrite unsafe logging calls in place and add the missing import",
    "",
    "Usage: safe-log-fixer fix [OPTIONS]",
    "",
    "Options:",
    "      --config <CONFIG>  Path to safe-log-fixer.toml (defaults to current directory)",
    "  -v...                  Increase verbosity (-v, -vv). Uses RUST_LOG under the hood",
    "      --strict           Exit non-zero when any file could not be processed",
    "      --json             Print the run summary as JSON instead of text",
    "  -h, --help             Print help"]
  | .task .check => lines [
    "Report files that `fix` would change, without writing",
    "",
    "Usage: safe-log-fixer check [OPTIONS]",
    "",
    "Options:",
    "      --config <CONFIG>  ",
    "  -v...                  Increase verbosity (-v, -vv). Uses RUST_LOG under the hood",
    "      --strict           Exit non-zero when any file still needs rewriting or errored",
    "      --json             ",
    "  -h, --help             Print help"]
  | .help => lines [
    "Print this message or the help of the given subcommand(s)",
    "",
    "Usage: safe-log-fixer help [COMMAND]...",
    "",
    "Arguments:",
    "  [COMMAND]...  Print help for the subcommand(s)"]

/-- The name and version of the program. -/
def versionText : String :=
  lines ["safe-log-fixer 0.1.0"]

/-- What a user is told about a refused command line. -/
def UsageError.message : UsageError → String
  | .noWords => "no command given"
  | .noCommand => "no command given"
  | .unknownCommand word => "unrecognized command: " ++ String.ofList word
  | .unknownArgument word => "unexpected argument: " ++ String.ofList word
  | .missingValue => "--config needs a value"
  | .repeatedOption name => "--" ++ String.ofList name ++ " is given more than once"
  | .unwantedValue name => "--" ++ String.ofList name ++ " takes no value"

end LogGuard.Command
