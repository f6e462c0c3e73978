import AheadOfTime.CommandLine.Option

/-! # Usage and help

    The texts that explain the command line. -/

namespace AheadOfTime.CommandLine

/-- The name of the program. -/
def programName : String := "aotc"

/-- What the program answers when asked for its version. -/
def versionText : String := programName ++ " 0.1.0\n"

/-- Lines as text, each one ended. -/
def paragraphs (lines : List String) : String := String.join (lines.map (· ++ "\n"))

/-- How the program is called. -/
def usage : String := paragraphs [
  "usage: aotc [-h] [-c] [-o OUTPUT] [--static] [--framework NAME] [--sdk SDK]",
  "            [--dylib] [--compatibility_version VERSION]",
  "            [--current_version VERSION] [--install_name NAME] [--bundle]",
  "            [-a ARCH] [-j JOBS] [-V] [--log-file LOG_FILE] [-v]",
  "            [FILE ...]"]

/-- What the program does and what its options mean. -/
def helpText : String := usage ++ paragraphs [
  "",
  "Compile source modules into native objects, bundles, libraries or executables.",
  "",
  "positional arguments:",
  "  FILE",
  "",
  "options:",
  "  -h, --help            show this help message and exit",
  "  -c, --compile-only    Compile to object files without linking",
  "  -o OUTPUT             Write output to OUTPUT",
  "  --static              Create a static executable",
  "  --framework NAME      Link standalone executable against the given framework",
  "  --sdk SDK             Use SDK when compiling standalone executable",
  "  --dylib               Create a dynamic library",
  "  --compatibility_version VERSION",
  "                        Compatibility version for dynamic library link",
  "  --current_version VERSION",
  "                        Current version for dynamic library link",
  "  --install_name NAME   Install name for dynamic library link",
  "  --bundle              Create a loadable bundle",
  "  -a ARCH, --arch ARCH  Compile for the given architecture (i386, x86_64,",
  "                        arm64)",
  "  -j JOBS, --jobs JOBS  Compile architectures in parallel with up to JOBS",
  "                        workers",
  "  -V, --verbose         Print every command line executed",
  "  --log-file LOG_FILE   Write structured build logs as JSON lines",
  "  -v, --version         show program's version number and exit"]

/-- The usage and the reason why a command line is refused. -/
def UsageError.text (e : UsageError) : String :=
  usage ++ programName ++ ": error: " ++ e.message ++ "\n"

end AheadOfTime.CommandLine
