/-!
# Help and version
-/

namespace NoteTemplate.CommandLine

/-- What the program is and how it is used, line by line. -/
def helpLines : List String :=
  ["notefill: fill reusable note templates",
    "",
    "Usage: notefill [OPTIONS] [TEMPLATE]",
    "",
    "Arguments:",
    "  [TEMPLATE]  Key of the template to fill",
    "",
    "Options:",
    "  -c, --catalog <FILE>  Additional catalog file (JSON or YAML) merged over the " ++
      "built-in templates",
    "  -a, --answers <FILE>  Read answers from a JSON file instead of prompting",
    "  -s, --stdin           Read answers as JSON from stdin instead of prompting",
    "  -e, --editor          Type each prompted value in $EDITOR so it may span several lines",
    "  -o, --output <FILE>   Write the filled template to a file instead of stdout",
    "  -l, --list            List available templates and exit",
    "  -v, --verbose         Enable verbose logging output",
    "  -h, --help            Print help",
    "  -V, --version         Print version"]

def helpText : String := String.join (helpLines.map (· ++ "\n"))

/-- The name of the program and its version. -/
def versionText : String := "notefill 0.1.0\n"

end NoteTemplate.CommandLine
