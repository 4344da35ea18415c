import DollarMath.Command.Switch
import DollarMath.Text.Quoted

/-!
# Usage

How the program is called, and what is wrong with a call that it does not understand.
-/

namespace DollarMath
namespace Command

/-- Why a command line is refused. -/
inductive UsageError where
  /-- A word is the beginning of several spellings. -/
  | ambiguous (word : Text) (spellings : List Text)
  /-- The output switch stands without a value. -/
  | valueMissing
  /-- A flag is given a value. -/
  | valueUnused (flag : Flag) (value : Text)
  /-- Words have no place in the command line. -/
  | unrecognized (words : List Text)
  /-- The converted text cannot go to two places. -/
  | inPlaceWithOutput
  /-- The standard input cannot be written back. -/
  | inPlaceWithStdin
  deriving DecidableEq, Repr

/-- The line that says what is wrong with a command line. -/
def UsageError.message : UsageError → Text
  | .ambiguous word spellings =>
      "ambiguous option: " ++ word ++ " could match " ++
        (Text.ofString ", ").intercalate spellings
  | .valueMissing => "argument " ++ Switch.output.title ++ ": expected one argument"
  | .valueUnused flag value =>
      "argument " ++ (Switch.flag flag).title ++ ": ignored explicit argument " ++
        Text.quoted value
  | .unrecognized words => "unrecognized arguments: " ++ (Text.ofString " ").intercalate words
  | .inPlaceWithOutput => "--in-place cannot be combined with --output"
  | .inPlaceWithStdin => "--in-place needs file sources, not stdin"

/-- How the program is called. -/
def usage : Text :=
  "usage: texformatter [-h] [-o OUTPUT] [--in-place] [--report] [--examples] [-v]\n" ++
    "                    [sources ...]\n"

/-- What the program does and what its switches mean. -/
def help : Text :=
  usage ++
    "\nConvert ChatGPT-style LaTeX (\\( \\), \\[ \\], align) into Obsidian-compatible\n" ++
    "MathJax ($, $$, aligned).\n" ++
    "\npositional arguments:\n" ++
    "  sources               Files to convert. Reads stdin when omitted or given as\n" ++
    "                        '-'.\n" ++
    "\noptions:\n" ++
    "  -h, --help            show this help message and exit\n" ++
    "  -o OUTPUT, --output OUTPUT\n" ++
    "                        Write the converted text to this file instead of\n" ++
    "                        stdout.\n" ++
    "  --in-place            Rewrite each source file with its converted text.\n" ++
    "  --report              Log the detected dialect and the stages that fired for\n" ++
    "                        each source.\n" ++
    "  --examples            Print the built-in conversion examples and exit.\n" ++
    "  -v, --verbose         Enable verbose logging (DEBUG level).\n"

/-- What is written about a command line that is refused. -/
def UsageError.render (error : UsageError) : Text :=
  usage ++ "texformatter: error: " ++ error.message ++ "\n"

end Command
end DollarMath
