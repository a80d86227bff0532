import PageTree.Command.Arguments

/-!
What the program says about its arguments.
-/

namespace PageTree.Command

def usage : String := "\n".intercalate [
  "Usage: [OPTIONS] <COMMAND>",
  "",
  "Commands:",
  "  transform, t  Run the passes over trees or Markdown files",
  "  convert, c    Read a Markdown file as a tree",
  "  help          Print this text",
  "",
  "Options:",
  "      --color <WHEN>     Colour the log: auto, always or never",
  "  -C, --config <FILE>    The configuration file [default: mdpass.toml]",
  "  -v, --verbose          Log each step",
  "  -h, --help             Print this text",
  "  -V, --version          Print the version",
  "",
  "Options of transform:",
  "      --id <ID>          The identifier of the page",
  "  -o, --output <DIR>     Write into a folder instead of printing",
  "  -p, --pretty           Indent the tree",
  "      --heading[=BOOL]   Run the heading pass or not",
  "      --link[=BOOL]      Run the link pass or not",
  "      --entity[=BOOL]    Run the entity pass or not",
  "",
  "Options of convert:",
  "  -o, --output <FILE>    Write into a file instead of printing",
  "  -p, --pretty           Indent the tree",
  ""]

def version : String := "0.1.0\n"

namespace UsageError

def message : UsageError → String
  | displayHelp | displayHelpOnMissing => usage
  | displayVersion => version
  | invalidCommand => "error: there is no such command\n"
  | missingCommand => "error: a command is required\n"
  | missingArgument => "error: an input is required\n"
  | conflict => "error: an option is given twice\n"
  | invalidValue => "error: the value of an option or an input is missing or invalid\n"
  | tooManyValues => "error: an option that takes no value has one\n"
  | unknownArgument => "error: an argument is unknown\n"

def isRequest : UsageError → Bool
  | displayHelp | displayVersion => true
  | _ => false

end UsageError

end PageTree.Command
