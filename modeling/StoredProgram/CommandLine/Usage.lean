import StoredProgram.CommandLine.Arguments
import StoredProgram.Text.Lines

set_option autoImplicit false

namespace StoredProgram.CommandLine

open Text

def versionText : String :=
  unlines ["ls8 0.1.0"]

def usageText : String :=
  unlines [
    "Runs a program on a minimal 8-bit virtual machine",
    "",
    "Usage: ls8 [OPTIONS] <PROGRAM>",
    "",
    "Arguments:",
    "  <PROGRAM>  Program file: one binary literal per line, `#` starts a comment",
    "",
    "Options:",
    "      --max-steps <N>  Stop after this many instructions instead of running until the machine faults",
    "      --disassemble    Print the decoded program and exit without running it",
    "      --dump-state     Print the machine state when the run stops",
    "  -v, --verbosity...   Set the minimum log level.",
    "",
    "                       -v     Info",
    "                       -vv    Debug",
    "                       -vvv   Traces, one line per executed instruction",
    "",
    "  -q, --quiet          Silence all log output",
    "  -h, --help           Print help",
    "  -V, --version        Print version"]

end StoredProgram.CommandLine
