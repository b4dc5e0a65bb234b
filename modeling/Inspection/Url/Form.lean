import Inspection.Text.Split
import Inspection.Url.Percent

/-!
# Url — form encoding

A list of names and values as the query of a URL: pairs are parted by `&`, the two sides of a pair
by `=`, a space is a plus sign, and all but letters, digits and `*-._` is encoded.
-/

namespace Inspection.Url.Form

/-- Whether a character stands for itself. -/
def isPlain (c : Char) : Bool := c.isAlphanum || c = '*' || c = '-' || c = '.' || c = '_'

/-- A character of a name or value. -/
def writeChar (c : Char) : List Char :=
  if c = ' ' then ['+'] else encodeChar (fun c => !isPlain c) c

/-- A name or value. -/
def writeText (s : String) : List Char := s.toList.flatMap writeChar

/-- A name and its value. -/
def writePair (pair : String × String) : List Char := writeText pair.1 ++ '=' :: writeText pair.2

/-- Puts pairs behind a query. -/
def append (query : List Char) (pairs : List (String × String)) : List Char :=
  pairs.foldl (fun query pair =>
    (if query.isEmpty then query else query ++ ['&']) ++ writePair pair) query

/-- Reads a name or value. -/
def readText (cs : List Char) : String :=
  Text.decodeLossy (decode (cs.map fun c => if c = '+' then ' ' else c))

/-- Reads a pair.  The first `=` parts it. -/
def readPair (cs : List Char) : String × String :=
  (readText (cs.takeWhile (· ≠ '=')), readText ((cs.dropWhile (· ≠ '=')).drop 1))

/-- Reads the pairs of a query.  Nothing between two `&` is no pair. -/
def read (query : List Char) : List (String × String) :=
  ((Text.split '&' query).filter (!·.isEmpty)).map readPair

end Inspection.Url.Form
