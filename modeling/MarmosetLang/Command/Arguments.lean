import MarmosetLang.Text.Digit
import MarmosetLang.Text.Quoted

/-!
# Command-line arguments

The command takes three flags and at most one program.  A flag has a letter and a word: letters may
be put together after one dash, with or without an equals sign after the first, and words may be cut
short after two dashes as long as only one flag is meant.  After an argument of two dashes alone,
nothing is a flag any more.
-/

namespace MarmosetLang
namespace Command

/-- A flag of the command. -/
inductive Flag where
  /-- Explain the arguments. -/
  | help
  /-- Look for problems only. -/
  | check
  /-- Say more. -/
  | verbose
deriving DecidableEq, Repr

namespace Flag

/-- The letter of a flag. -/
def letter : Flag → Char
  | help => 'h'
  | check => 'c'
  | verbose => 'v'

/-- The word of a flag. -/
def word : Flag → String
  | help => "help"
  | check => "check"
  | verbose => "verbose"

/-- All flags. -/
def all : List Flag := [help, check, verbose]

/-- The flag of a given letter. -/
def ofLetter? (c : Char) : Option Flag :=
  all.find? (·.letter = c)

/-- The flags whose words begin with the given characters. -/
def startingWith (front : List Char) : List Flag :=
  all.filter fun flag => front.isPrefixOf flag.word.toList

/-- Both ways to write a flag. -/
def render (flag : Flag) : String :=
  "-" ++ flag.letter.toString ++ "/--" ++ flag.word

end Flag

/-- Why arguments are refused. -/
inductive Refusal where
  /-- A word that is cut too short. -/
  | ambiguous (argument : String) (candidates : List Flag)
  /-- A value for a flag that takes none. -/
  | needless (flag : Flag) (value : String)
  /-- Arguments that mean nothing. -/
  | unrecognized (arguments : List String)
deriving DecidableEq, Repr

/-- The wording of a refusal. -/
def Refusal.message : Refusal → String
  | ambiguous argument candidates =>
      "ambiguous option: " ++ argument ++ " could match " ++
        ", ".intercalate (candidates.map fun flag => "--" ++ flag.word)
  | needless flag value =>
      "argument " ++ flag.render ++ ": ignored explicit argument " ++ Quoted.encode value
  | unrecognized arguments => "unrecognized arguments: " ++ " ".intercalate arguments

/-- An argument by its looks. -/
inductive Argument where
  /-- An argument that is no flag. -/
  | plain (text : String)
  /-- The two dashes after which nothing is a flag. -/
  | divider
  /-- A flag, and the letters of others in the same argument. -/
  | flags (first : Flag) (letters : List Char)
  /-- A flag with a value, which none of them takes. -/
  | valued (flag : Flag) (value : String)
  /-- An argument that looks like a flag and is none. -/
  | unknown (text : String)
deriving DecidableEq, Repr

namespace Argument

/-- Whether characters are the digits of a number, with at most one point that is not at the end.  A
line feed may follow. -/
def isNumber (text : List Char) : Bool :=
  let line := if text.getLast? = some '\n' then text.dropLast else text
  match line.dropWhile isDecimalDigit with
  | [] => !line.isEmpty
  | '.' :: decimals => !decimals.isEmpty && decimals.all isDecimalDigit
  | _ => false

/-- An argument that begins with a dash but names no flag.  Numbers below zero and texts with blanks
are meant as they are. -/
def other (text : String) : Argument :=
  if isNumber (text.toList.drop 1) || text.toList.contains ' ' then plain text else unknown text

/-- Look at an argument that is not the divider. -/
def ofText (text : String) : Except Refusal Argument :=
  match text.toList with
  | '-' :: '-' :: rest =>
      match Flag.startingWith (rest.takeWhile (· != '=')) with
      | [] => .ok (other text)
      | [found] =>
          match rest.dropWhile (· != '=') with
          | [] => .ok (flags found [])
          | _ :: value => .ok (valued found (String.ofList value))
      | candidates => .error (.ambiguous text candidates)
  | '-' :: letter :: rest =>
      match Flag.ofLetter? letter with
      | some found =>
          match rest with
          | ['='] => .ok (valued found "")
          | '=' :: letters => .ok (flags found letters)
          | letters => .ok (flags found letters)
      | none => .ok (other text)
  | _ => .ok (plain text)

/-- Look at arguments up to the divider.  What follows it is plain. -/
def ofTexts : List String → Except Refusal (List Argument)
  | [] => .ok []
  | text :: others =>
      if text = "--" then
        .ok (divider :: others.map plain)
      else do
        let first ← ofText text
        let rest ← ofTexts others
        return first :: rest

end Argument

/-- What the command was asked to do. -/
structure Wish where
  /-- The program to run, if one was named. -/
  program : Option String
  /-- Whether to look for problems only. -/
  check : Bool
  /-- How often more words were asked for. -/
  verbosity : Nat
deriving DecidableEq, Repr

/-- Arguments on the way to a wish. -/
structure Reading where
  /-- The wish so far. -/
  wish : Wish
  /-- Whether the place of the program has been taken. -/
  taken : Bool
  /-- Whether an explanation was asked for. -/
  help : Bool
  /-- The arguments that mean nothing. -/
  extras : List String
deriving DecidableEq, Repr

namespace Reading

/-- The reading before any argument. -/
def start : Reading :=
  ⟨⟨none, false, 0⟩, false, false, []⟩

/-- Take in a flag. -/
def note (reading : Reading) : Flag → Reading
  | .help => { reading with help := true }
  | .check => { reading with wish := { reading.wish with check := true } }
  | .verbose =>
      { reading with wish := { reading.wish with verbosity := reading.wish.verbosity + 1 } }

/-- Put an argument aside that means nothing. -/
def spare (reading : Reading) (text : String) : Reading :=
  { reading with extras := reading.extras ++ [text] }

/-- Take the place of the program. -/
def settle (reading : Reading) (program : Option String) : Reading :=
  { reading with wish := { reading.wish with program := program }, taken := true }

/-- Take in a flag and those whose letters follow it.  Letters from the first one on that is no
flag's count as a value for the flag before them. -/
def spread (reading : Reading) (flag : Flag) : List Char → Except Refusal Reading
  | [] => .ok (reading.note flag)
  | letter :: rest =>
      match Flag.ofLetter? letter with
      | some next => spread (reading.note flag) next rest
      | none => .error (.needless flag (String.ofList (letter :: rest)))

/-- Take in arguments from left to right, up to a flag that asks for an explanation.  A divider next
to the program goes with it. -/
def read (reading : Reading) : List Argument → Except Refusal Reading
  | [] => .ok reading
  | .plain text :: .divider :: others =>
      if reading.taken then
        ((reading.spare text).spare "--").read others
      else
        (reading.settle (some text)).read others
  | .plain text :: others =>
      if reading.taken then
        (reading.spare text).read others
      else
        (reading.settle (some text)).read others
  | .divider :: .plain text :: others =>
      if reading.taken then
        ((reading.spare "--").spare text).read others
      else
        (reading.settle (some text)).read others
  | .divider :: others =>
      if reading.taken then
        (reading.spare "--").read others
      else
        (reading.settle none).read others
  | .unknown text :: others => (reading.spare text).read others
  | .valued flag value :: _ => .error (.needless flag value)
  | .flags first letters :: others => do
      let later ← reading.spread first letters
      if later.help then
        return later
      else
        later.read others

end Reading

/-- Read arguments as a wish.  There is none if an explanation was asked for. -/
def Wish.ofArguments (texts : List String) : Except Refusal (Option Wish) := do
  let arguments ← Argument.ofTexts texts
  let reading ← Reading.start.read arguments
  if reading.help then
    return none
  else if reading.extras.isEmpty then
    return some reading.wish
  else
    throw (.unrecognized reading.extras)

end Command
end MarmosetLang
