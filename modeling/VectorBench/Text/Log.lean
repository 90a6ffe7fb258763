/-!
# Logs

A buffer of text that grows at its end.  It is searched as a whole or line by line; a line ends with
a line feed, and a carriage return just before that is no part of it.
-/

namespace VectorBench

def occursIn (pattern : List Char) : List Char → Bool
  | [] => pattern.isEmpty
  | character :: text => pattern.isPrefixOf (character :: text) || occursIn pattern text

def dropCarriageReturn (line : String) : String :=
  if line.toList.getLast? = some '\r' then String.ofList line.toList.dropLast else line

/-- The lines of a text.  A line feed at the end starts no further line, and only lines that end
with a line feed lose a carriage return. -/
def linesOf (text : String) : List String :=
  let pieces := text.splitOn "\n"
  pieces.dropLast.map dropCarriageReturn ++ (pieces.getLast?.toList.filter (· ≠ ""))

structure Log where
  text : String
deriving DecidableEq, Repr

namespace Log

def empty : Log where
  text := ""

def write (log : Log) (text : String) : Log where
  text := log.text ++ text

def take (log : Log) : String × Log :=
  (log.text, empty)

def contains (log : Log) (pattern : String) : Bool :=
  occursIn pattern.toList log.text.toList

def countLines (log : Log) (pattern : String) : Nat :=
  (linesOf log.text).countP fun line => occursIn pattern.toList line.toList

end Log

end VectorBench
