/-!
# Brainfuck.Command.Usage

The help texts of the command.
-/

namespace Brainfuck.Usage

/-- The help for the command as a whole. -/
def top (name : String) : String :=
  "Usage:\n" ++
  "  " ++ name ++ " run [OPTIONS] \"<code>\"        # Run Brainfuck code (args are concatenated)\n" ++
  "  " ++ name ++ " run [OPTIONS] --file <PATH>   # Run Brainfuck code loaded from file\n" ++
  "\n" ++
  "Run \"" ++ name ++ " <subcommand> --help\" for more info.\n" ++
  "Set RUST_LOG=debug (or trace) for engine logs on stderr.\n" ++
  "\n"

/-- The help for running a program. -/
def run (name : String) : String :=
  "Usage:\n" ++
  "  " ++ name ++ " run [OPTIONS] \"<code>\"\n" ++
  "  " ++ name ++ " run [OPTIONS] --file <PATH>\n" ++
  "\n" ++
  "Options:\n" ++
  "  --file,  -f <PATH>   Read Brainfuck code from PATH instead of positional \"<code>\"\n" ++
  "  --debug, -d          Print a step-by-step table of operations instead of program output\n" ++
  "  --watch, -w          Print every tape change to stderr\n" ++
  "  --delay <MS>         Pause between steps (animate execution)\n" ++
  "  --timeout <MS>       Wall-clock timeout, 0 disables (default 2000)\n" ++
  "  --max-steps <N>      Abort after N steps\n" ++
  "  --tape-size <N>      Number of tape cells (default 30000)\n" ++
  "  --wrap-pointer       Wrap the pointer around the tape ends instead of failing\n" ++
  "  --strict-brackets    Fail on a bracket without a partner instead of falling through\n" ++
  "  --help,  -h          Show this help\n" ++
  "\n" ++
  "Notes:\n" ++
  "- Input (`,`) waits for a byte from stdin; on EOF the current cell is set to 0.\n" ++
  "- Characters outside of Brainfuck's ><+-.,[] are ignored.\n" ++
  "- Ctrl+C aborts the running program.\n" ++
  "\n" ++
  "Examples:\n" ++
  "- Load Brainfuck code from a file:\n" ++
  "    " ++ name ++ " run --file ./program.bf\n" ++
  "- Read bytes from a file as stdin (`,` will consume file input):\n" ++
  "    " ++ name ++ " run \",[.,]\" < input.txt\n" ++
  "- Animate a program while watching the tape:\n" ++
  "    " ++ name ++ " run --delay 50 --timeout 0 --watch --file ./program.bf\n" ++
  "\n"

end Brainfuck.Usage
