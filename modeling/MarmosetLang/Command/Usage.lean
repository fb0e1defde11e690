/-!
# Texts of the command

What the command says about itself.
-/

namespace MarmosetLang
namespace Command

/-- The name of the command. -/
def name : String := "marmoset"

/-- The arguments in short. -/
def usage : String :=
  "usage: marmoset [-h] [-c] [-v] [program]\n"

/-- The arguments in full. -/
def explanation : String :=
  usage ++
  "\n" ++
  "Interpreter for the Marmoset programming language.\n" ++
  "\n" ++
  "positional arguments:\n" ++
  "  program        try examples/closures.mk for example.\n" ++
  "\n" ++
  "options:\n" ++
  "  -h, --help     show this help message and exit\n" ++
  "  -c, --check    Parse the program and report problems, but do not actually\n" ++
  "                 run it.\n" ++
  "  -v, --verbose  Say more about what is going on. Repeat for more still.\n"

/-- The welcome to someone who sits at a terminal. -/
def welcome : String :=
  "This is an interpreter for the Marmoset programming language.\n" ++
  "\n" ++
  usage ++
  "\n" ++
  "\n" ++
  "For example:\n" ++
  "\n" ++
  "    marmoset program.mk\n" ++
  "\n" ++
  "will run program.mk if possible, or else try to explain why not.\n" ++
  "\n" ++
  "    marmoset\n" ++
  "\n" ++
  "with no program starts an interactive session.\n" ++
  "\n" ++
  "    marmoset -h\n" ++
  "\n" ++
  "will explain all the arguments.\n"

end Command
end MarmosetLang
