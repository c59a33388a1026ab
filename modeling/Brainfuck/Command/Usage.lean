/-!
# Usage

The help texts, each ending in an empty line.
-/

namespace Brainfuck

def usageText (program : String) : String :=
  "Usage:\n" ++
  "  " ++ program ++ " run   [OPTIONS] \"<code>\"       # Run code (args are concatenated)\n" ++
  "  " ++ program ++ " run   [OPTIONS] --file <PATH>  # Run code loaded from file\n" ++
  "  " ++ program ++ " check \"<code>\"                 # Only check that loops are balanced\n" ++
  "  " ++ program ++ " check --file <PATH>\n" ++
  "\n" ++
  "Run \"" ++ program ++ " <subcommand> --help\" for more info.\n" ++
  "\n"

def runUsageText (program : String) : String :=
  "Usage:\n" ++
  "  " ++ program ++ " run [OPTIONS] \"<code>\"\n" ++
  "  " ++ program ++ " run [OPTIONS] --file <PATH>\n" ++
  "\n" ++
  "Options:\n" ++
  "  --file,  -f <PATH>     Read program code from PATH instead of positional \"<code>\"\n" ++
  "  --input, -i <TEXT>     Input text consumed by `,`\n" ++
  "  --input-file <PATH>    Read input text from PATH (`-` for stdin)\n" ++
  "  --tape-size <N>        Number of tape cells (default 30000)\n" ++
  "  --permissive           Ignore out-of-range moves and reads past end of input\n" ++
  "  --stream               Feed input byte-by-byte instead of one byte per token\n" ++
  "  --timeout <MS>         Abort after MS milliseconds of wall-clock time (default unlimited)\n" ++
  "  --max-steps <N>        Abort after N instructions (default unlimited)\n" ++
  "  --debug, -d            Print a step-by-step table of operations instead of output\n" ++
  "  --help,  -h            Show this help\n" ++
  "\n" ++
  "Notes:\n" ++
  "- Characters outside of ><+-.,[] are comments and are ignored.\n" ++
  "- Unbalanced [ ] are reported before anything runs.\n" ++
  "- By default input is split on whitespace and each word supplies its first byte.\n" ++
  "- Program output is written to stdout as raw bytes with nothing added.\n" ++
  "\n" ++
  "Examples:\n" ++
  "- Load code from a file:\n" ++
  "    " ++ program ++ " run --file ./program.bf\n" ++
  "- Echo two letters:\n" ++
  "    " ++ program ++ " run --input \"H i\" \",.,.\"\n" ++
  "\n"

def checkUsageText (program : String) : String :=
  "Usage:\n" ++
  "  " ++ program ++ " check \"<code>\"\n" ++
  "  " ++ program ++ " check --file <PATH>\n" ++
  "\n" ++
  "Options:\n" ++
  "  --file, -f <PATH>  Read program code from PATH instead of positional \"<code>\"\n" ++
  "  --help, -h         Show this help\n" ++
  "\n" ++
  "Description:\n" ++
  "  Checks that every [ has a matching ] without running the program.\n" ++
  "\n"

end Brainfuck
