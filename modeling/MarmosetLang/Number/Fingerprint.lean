/-!
# Fingerprints

The 64-bit FNV-1a hash of a text.  A state starts at a fixed word and takes in the bytes of the text
one by one: the byte is mixed into the low bits by exclusive or, and a multiplication spreads it
over the others.
-/

namespace MarmosetLang
namespace Fingerprint

/-- The state before any byte. -/
def start : UInt64 := 0xcbf29ce484222325

/-- The multiplier that spreads a byte over the state. -/
def multiplier : UInt64 := 0x100000001b3

/-- The state after one more byte. -/
def step (state : UInt64) (byte : UInt8) : UInt64 :=
  (state ^^^ byte.toUInt64) * multiplier

/-- The fingerprint of a string of bytes. -/
def ofBytes (bytes : List UInt8) : UInt64 :=
  bytes.foldl step start

/-- The fingerprint of a text, by way of its UTF-8 encoding. -/
def ofText (text : String) : UInt64 :=
  ofBytes (text.toList.flatMap String.utf8EncodeChar)

theorem ofBytes_append_singleton (bytes : List UInt8) (byte : UInt8) :
    ofBytes (bytes ++ [byte]) = step (ofBytes bytes) byte := by
  simp [ofBytes]

end Fingerprint
end MarmosetLang
