/-!
# Outbursts

The words that come before complaints.  They are put together from three lists, and the choice from
each is made by one number, which is counted around the list, backwards if it is negative.
-/

namespace MarmosetLang
namespace Outburst

/-- Words to begin with. -/
def particles : List String :=
  ["Oh, ", "Well, ", "Aw, ", "", ""]

/-- Words to swear by. -/
def oaths : List String :=
  ["Ack", "Blargh", "Crud", "Curses", "Drat", "Fiddlesticks", "Good Grief", "Great Scott",
    "Jeepers", "Nuts", "Rats"]

/-- Words to give up with. -/
def resignations : List String :=
  ["I cannot continue.", "We ran into some monkey business here.",
    "I have no idea what the right answer is."]

/-- Choose from a list by a number that is counted around it. -/
def choose (choices : List String) (pick : Int) : String :=
  choices.getD (pick % choices.length).toNat ""

/-- The outburst of the given number. -/
def render (pick : Int) : String :=
  choose particles pick ++ choose oaths pick ++ "! " ++ choose resignations pick

end Outburst
end MarmosetLang
