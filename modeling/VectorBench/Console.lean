import VectorBench.Text.Numeral

/-!
# Line console

A console delivers bytes, and line feeds for ever once they are used up.  A line is read up to a
carriage return, a line feed or its limit, and what is read is echoed.
-/

namespace VectorBench

def lineFeed : UInt8 := 10

def carriageReturn : UInt8 := 13

structure ByteStream where
  bytes : List UInt8
  consumed : Nat
deriving DecidableEq, Repr

namespace ByteStream

def ofList (bytes : List UInt8) : ByteStream where
  bytes := bytes
  consumed := 0

/-- Reads one byte; past the end that is a line feed. -/
def next (stream : ByteStream) : UInt8 × ByteStream :=
  match stream.bytes with
  | byte :: bytes => (byte, { bytes, consumed := stream.consumed + 1 })
  | [] => (lineFeed, { bytes := [], consumed := stream.consumed + 1 })

end ByteStream

def maxLine : Nat := 80

def endsLine (byte : UInt8) : Bool :=
  byte = carriageReturn || byte = lineFeed

/-- Reads bytes up to the first that ends a line, or one byte more than `limit`.  That last byte is
read but not kept. -/
def scanLine : (limit : Nat) → ByteStream → List UInt8 × ByteStream
  | 0, stream => ([], stream.next.2)
  | limit + 1, stream =>
      let (byte, stream) := stream.next
      if endsLine byte then ([], stream)
      else
        let (kept, stream) := scanLine limit stream
        (byte :: kept, stream)

theorem length_scanLine_le (limit : Nat) (stream : ByteStream) :
    (scanLine limit stream).1.length ≤ limit := by
  induction limit generalizing stream with
  | zero => simp [scanLine]
  | succ limit ih =>
      simp only [scanLine]
      split
      · simp
      · simpa using ih stream.next.2

/-- The longest beginning of some bytes that is ASCII, as text. -/
def asciiText (bytes : List UInt8) : String :=
  String.ofList ((bytes.takeWhile (· < 128)).map fun byte => Char.ofNat byte.toNat)

def textBytes (text : String) : List UInt8 :=
  text.toUTF8.toList

structure Echoed (α : Type) where
  result : α
  written : List UInt8
deriving DecidableEq, Repr

/-- Reads one line: its text up to the first byte that is not ASCII.  All kept bytes are echoed,
and then a line feed. -/
def readLine (stream : ByteStream) : Echoed String × ByteStream :=
  let (kept, stream) := scanLine maxLine stream
  ({ result := asciiText kept, written := kept ++ [lineFeed] }, stream)

def readValue (prompt : String) (stream : ByteStream) : Echoed Word × ByteStream :=
  let (line, stream) := readLine stream
  ({ result := Numeral.read line.result
     written := textBytes (prompt ++ " > ") ++ line.written }, stream)

end VectorBench
