import VectorBench.Proofs.Text.Bytes

/-!
# Lines of a byte stream

One call reads the bytes up to the first that ends a line, but at most 81, and
keeps those in front of the last one it read.  Calls in a row divide the stream
between them without losing a byte.
-/

namespace VectorBench

namespace ByteStream

/-- The byte that is read behind a number of others. -/
def ahead (stream : ByteStream) (place : Nat) : UInt8 :=
  stream.bytes.getD place lineFeed

/-- A stream with some bytes read. -/
def skip (stream : ByteStream) (count : Nat) : ByteStream where
  bytes := stream.bytes.drop count
  consumed := stream.consumed + count

theorem next_eq (stream : ByteStream) :
    stream.next = (stream.ahead 0, stream.skip 1) := by
  obtain ⟨bytes, consumed⟩ := stream
  cases bytes with
  | nil => rfl
  | cons byte bytes => rfl

theorem skip_skip (stream : ByteStream) (first second : Nat) :
    (stream.skip first).skip second = stream.skip (first + second) := by
  simp only [skip, List.drop_drop, Nat.add_assoc]

theorem ahead_skip (stream : ByteStream) (count place : Nat) :
    (stream.skip count).ahead place = stream.ahead (count + place) := by
  simp only [ahead, skip, List.getD_eq_getElem?_getD, List.getElem?_drop]

end ByteStream

/-- Of the bytes ahead, one line keeps `kept` and takes `taken`: all up to the
first byte that ends a line, if one is among the next `limit + 1` bytes, and
`limit + 1` bytes otherwise.  The last byte taken is not kept. -/
inductive Framed (limit : Nat) (ahead : Nat → UInt8) :
    (kept taken : Nat) → Prop where
  | ended {kept : Nat} :
      kept < limit + 1 → (∀ place < kept, endsLine (ahead place) = false) →
      endsLine (ahead kept) = true → Framed limit ahead kept (kept + 1)
  | full :
      (∀ place < limit + 1, endsLine (ahead place) = false) →
      Framed limit ahead limit (limit + 1)

/-- The first bytes ahead. -/
def bytesAhead (ahead : Nat → UInt8) (count : Nat) : List UInt8 :=
  (List.range count).map ahead

namespace Framed

variable {limit kept taken : Nat} {ahead : Nat → UInt8}

theorem taken_eq (framed : Framed limit ahead kept taken) :
    taken = kept + 1 := by
  cases framed <;> rfl

theorem kept_le (framed : Framed limit ahead kept taken) : kept ≤ limit := by
  cases framed with
  | ended within => exact Nat.le_of_lt_succ within
  | full => exact Nat.le_refl limit

theorem congr {other : Nat → UInt8} (framed : Framed limit ahead kept taken)
    (same : ∀ place < limit + 1, ahead place = other place) :
    Framed limit other kept taken := by
  cases framed with
  | ended within unbroken ends =>
      refine .ended within (fun place before => ?_) ?_
      · rw [← same place (by omega)]
        exact unbroken place before
      · rwa [← same kept within]
  | full unbroken =>
      refine .full fun place within => ?_
      rw [← same place within]
      exact unbroken place within

/-- Only the first byte that ends a line is right behind the kept ones. -/
theorem kept_eq {length : Nat} (framed : Framed limit ahead kept taken)
    (fits : length ≤ limit)
    (unbroken : ∀ place < length, endsLine (ahead place) = false)
    (ends : endsLine (ahead length) = true) : kept = length := by
  cases framed with
  | ended within before found =>
      rcases Nat.lt_trichotomy kept length with earlier | same | later
      · exact absurd found (Bool.eq_false_iff.mp (unbroken kept earlier))
      · exact same
      · exact absurd ends (Bool.eq_false_iff.mp (before length later))
  | full before =>
      exact absurd ends (Bool.eq_false_iff.mp (before length (by omega)))

/-- A byte in front that ends no line is kept. -/
theorem cons (unbroken : endsLine (ahead 0) = false)
    (framed : Framed limit (fun place => ahead (1 + place)) kept taken) :
    Framed (limit + 1) ahead (kept + 1) (taken + 1) := by
  have later : ∀ bound, (∀ place < bound, endsLine (ahead (1 + place)) = false) →
      ∀ place < bound + 1, endsLine (ahead place) = false := by
    intro bound unbrokenLater place within
    cases place with
    | zero => exact unbroken
    | succ place =>
        rw [Nat.add_comm]
        exact unbrokenLater place (Nat.lt_of_succ_lt_succ within)
  cases framed with
  | ended within before ends =>
      refine .ended (by omega) (later _ before) ?_
      rwa [Nat.add_comm]
  | full unbrokenLater => exact .full (later _ unbrokenLater)

end Framed

theorem bytesAhead_succ (ahead : Nat → UInt8) (count : Nat) :
    bytesAhead ahead (count + 1) =
      ahead 0 :: bytesAhead (fun place => ahead (1 + place)) count := by
  simp only [bytesAhead, List.range_succ_eq_map, List.map_cons, List.map_map,
    Function.comp_def, Nat.succ_eq_add_one, Nat.add_comm 1]

theorem bytesAhead_of_bytes {stream : ByteStream} {front later : List UInt8}
    (received : stream.bytes = front ++ later) :
    bytesAhead stream.ahead front.length = front := by
  apply List.ext_getElem
  · simp [bytesAhead]
  · intro place inside within
    simp only [bytesAhead, List.getElem_map, List.getElem_range,
      ByteStream.ahead, received, List.getD_eq_getElem?_getD,
      List.getElem?_append_left within, List.getElem?_eq_getElem within,
      Option.getD_some]

theorem scanLine_framed (limit : Nat) (stream : ByteStream) :
    ∃ kept taken, Framed limit stream.ahead kept taken ∧
      scanLine limit stream =
        (bytesAhead stream.ahead kept, stream.skip taken) := by
  induction limit generalizing stream with
  | zero =>
      have scanned : scanLine 0 stream =
          (bytesAhead stream.ahead 0, stream.skip 1) := by
        simp only [scanLine, stream.next_eq]
        rfl
      refine ⟨0, 1, ?_, scanned⟩
      cases ends : endsLine (stream.ahead 0) with
      | true =>
          exact .ended (by omega) (fun _ before => absurd before (by omega))
            ends
      | false =>
          refine .full fun place within => ?_
          obtain rfl := Nat.lt_one_iff.mp within
          exact ends
  | succ limit ih =>
      simp only [scanLine, stream.next_eq]
      cases ends : endsLine (stream.ahead 0) with
      | true =>
          refine ⟨0, 1, ?_, rfl⟩
          exact .ended (by omega) (fun _ before => absurd before (by omega))
            ends
      | false =>
          obtain ⟨kept, taken, framed, scanned⟩ := ih (stream.skip 1)
          have shifted : (stream.skip 1).ahead =
              fun place => stream.ahead (1 + place) :=
            funext (stream.ahead_skip 1)
          rw [shifted] at framed scanned
          refine ⟨kept + 1, taken + 1, framed.cons ends, ?_⟩
          rw [scanned, bytesAhead_succ, ByteStream.skip_skip, Nat.add_comm 1]
          rfl

/-! ### Lines in a row -/

/-- The longest beginning of some bytes that is ASCII, as text. -/
inductive AsciiBeginning : List UInt8 → String → Prop where
  | intro {text : String} {rest : List UInt8} :
      (∀ byte ∈ textBytes text, byte.toNat < 128) →
      (∀ byte, rest.head? = some byte → 128 ≤ byte.toNat) →
      AsciiBeginning (textBytes text ++ rest) text

theorem asciiBeginning_asciiText (bytes : List UInt8) :
    AsciiBeginning bytes (asciiText bytes) := by
  have split : textBytes (asciiText bytes) ++ bytes.dropWhile (· < 128) =
      bytes := by
    rw [textBytes_asciiText, List.takeWhile_append_dropWhile]
  have beginning : AsciiBeginning
      (textBytes (asciiText bytes) ++ bytes.dropWhile (· < 128))
      (asciiText bytes) := by
    apply AsciiBeginning.intro
    · rw [textBytes_asciiText]
      exact fun _ => toNat_lt_of_mem_takeWhile
    · intro byte first
      have stops := List.head?_dropWhile_not (· < 128) bytes
      rw [first] at stops
      apply Nat.le_of_not_lt
      intro below
      exact of_decide_eq_false stops (UInt8.lt_iff_toNat_lt.mpr below)
  rwa [split] at beginning

/-- A line that returns the ASCII beginning of some bytes, and echoes them all
with a line feed behind. -/
structure Shows (line : Echoed String) (bytes : List UInt8) : Prop where
  result : AsciiBeginning bytes line.result
  written : line.written = bytes ++ [lineFeed]

/-- The line that is made of the bytes it keeps. -/
def lineOf (bytes : List UInt8) : Echoed String where
  result := asciiText bytes
  written := bytes ++ [lineFeed]

theorem shows_lineOf (bytes : List UInt8) : Shows (lineOf bytes) bytes where
  result := asciiBeginning_asciiText bytes
  written := rfl

theorem readLine_framed (stream : ByteStream) :
    ∃ kept taken, Framed 80 stream.ahead kept taken ∧
      readLine stream =
        (lineOf (bytesAhead stream.ahead kept), stream.skip taken) := by
  obtain ⟨kept, taken, framed, scanned⟩ := scanLine_framed maxLine stream
  refine ⟨kept, taken, framed, ?_⟩
  simp only [readLine, scanned]
  rfl

/-- Reads a number of lines, one after the other. -/
def readLines : (count : Nat) → ByteStream → List (Echoed String) × ByteStream
  | 0, stream => ([], stream)
  | count + 1, stream =>
      let (line, stream) := readLine stream
      let (lines, stream) := readLines count stream
      (line :: lines, stream)

/-- Lines that divide the bytes of a source between them, from one place on up
to another. -/
inductive Divides (source : Nat → UInt8) :
    (place : Nat) → List (Echoed String) → (stop : Nat) → Prop where
  | nil {place : Nat} : Divides source place [] place
  | cons {place kept taken stop : Nat} {line : Echoed String}
      {lines : List (Echoed String)} :
      Framed 80 (fun distance => source (place + distance)) kept taken →
      Shows line
        (bytesAhead (fun distance => source (place + distance)) kept) →
      Divides source (place + taken) lines stop →
      Divides source place (line :: lines) stop

/-- Each line looks at most 81 bytes ahead. -/
theorem readLines_divides {source : Nat → UInt8} {place count : Nat}
    {stream : ByteStream}
    (delivers : ∀ distance < 81 * count,
      stream.ahead distance = source (place + distance)) :
    ∃ lines taken, readLines count stream = (lines, stream.skip taken) ∧
      lines.length = count ∧
      Divides source place lines (place + taken) := by
  induction count generalizing place stream with
  | zero => exact ⟨[], 0, rfl, rfl, .nil⟩
  | succ count ih =>
      obtain ⟨kept, taken, framed, read⟩ := readLine_framed stream
      have near := framed.kept_le
      have one := framed.taken_eq
      have later : ∀ distance < 81 * count,
          (stream.skip taken).ahead distance =
            source (place + taken + distance) := by
        intro distance within
        rw [ByteStream.ahead_skip, delivers _ (by omega), Nat.add_assoc]
      obtain ⟨lines, rest, readLater, length, divides⟩ := ih later
      have bytes : bytesAhead stream.ahead kept =
          bytesAhead (fun distance => source (place + distance)) kept := by
        apply List.map_congr_left
        intro distance member
        have before := List.mem_range.mp member
        exact delivers distance (by omega)
      have divided := Divides.cons
        (framed.congr fun distance within => delivers distance (by omega))
        (shows_lineOf _) divides
      rw [← bytes, Nat.add_assoc] at divided
      refine ⟨_, taken + rest, ?_, congrArg (· + 1) length, divided⟩
      simp only [readLines, read, readLater, ByteStream.skip_skip]

/-! ### Prompts -/

/-- A prompt with the line that answers it and the byte behind the line. -/
structure Entry where
  prompt : String
  line : String
  ending : UInt8

namespace Entry

/-- The bytes that a console receives for an entry. -/
def bytes (entry : Entry) : List UInt8 :=
  textBytes entry.line ++ [entry.ending]

/-- What a console makes of an entry. -/
def answer (entry : Entry) : Echoed Word where
  result := Numeral.read entry.line
  written := textBytes entry.prompt ++ textBytes " > " ++
    textBytes entry.line ++ [lineFeed]

/-- A line of ASCII characters that fits the limit, and one byte that ends
it. -/
structure Fits (entry : Entry) : Prop where
  ascii : ∀ character ∈ entry.line.toList, character.toNat < 128
  unbroken : ∀ character ∈ entry.line.toList,
    character ≠ '\r' ∧ character ≠ '\n'
  short : entry.line.length ≤ 80
  ending : entry.ending = carriageReturn ∨ entry.ending = lineFeed

end Entry

/-- Prompts for a number of values, one after the other. -/
def readValues : (prompts : List String) → ByteStream →
    List (Echoed Word) × ByteStream
  | [], stream => ([], stream)
  | prompt :: prompts, stream =>
      let (value, stream) := readValue prompt stream
      let (values, stream) := readValues prompts stream
      (value :: values, stream)

namespace Entry

variable {entry : Entry}

theorem Fits.textBytes_eq_map (fits : entry.Fits) :
    textBytes entry.line =
      entry.line.toList.map fun character => UInt8.ofNat character.toNat := by
  rw [textBytes_eq, charBytes_ascii fits.ascii]

theorem Fits.length_le (fits : entry.Fits) :
    (textBytes entry.line).length ≤ 80 := by
  rw [fits.textBytes_eq_map, List.length_map]
  exact fits.short

theorem Fits.endsLine_line (fits : entry.Fits) :
    ∀ byte ∈ textBytes entry.line, endsLine byte = false := by
  rw [fits.textBytes_eq_map]
  intro byte member
  obtain ⟨character, inLine, rfl⟩ := List.mem_map.mp member
  have small := fits.ascii character inLine
  have code : (UInt8.ofNat character.toNat).toNat = character.toNat := by
    rw [UInt8.toNat_ofNat', Nat.mod_eq_of_lt (by omega)]
  obtain ⟨noReturn, noFeed⟩ := fits.unbroken character inLine
  rw [endsLine, Bool.or_eq_false_iff, decide_eq_false_iff_not,
    decide_eq_false_iff_not]
  constructor
  · intro isReturn
    apply noReturn
    apply Char.toNat_inj.mp
    rw [← code, isReturn]
    rfl
  · intro isFeed
    apply noFeed
    apply Char.toNat_inj.mp
    rw [← code, isFeed]
    rfl

theorem Fits.endsLine_ending (fits : entry.Fits) :
    endsLine entry.ending = true := by
  rcases fits.ending with ending | ending <;> rw [ending] <;> rfl

end Entry

theorem readValue_entry {entry : Entry} (fits : entry.Fits)
    {stream : ByteStream} {later : List UInt8}
    (received : stream.bytes = entry.bytes ++ later) :
    readValue entry.prompt stream =
      (entry.answer, stream.skip entry.bytes.length) := by
  have length : entry.bytes.length = (textBytes entry.line).length + 1 :=
    List.length_append
  have front : bytesAhead stream.ahead (textBytes entry.line).length =
      textBytes entry.line := by
    apply bytesAhead_of_bytes
    rw [received, Entry.bytes, List.append_assoc]
  obtain ⟨kept, taken, framed, read⟩ := readLine_framed stream
  have whole : kept = (textBytes entry.line).length := by
    apply framed.kept_eq fits.length_le
    · intro place before
      apply fits.endsLine_line
      rw [← front]
      exact List.mem_map_of_mem (List.mem_range.mpr before)
    · have ending : stream.ahead (textBytes entry.line).length =
          entry.ending := by
        simp [ByteStream.ahead, received, Entry.bytes]
      rw [ending]
      exact fits.endsLine_ending
  rw [framed.taken_eq, whole, ← length, front] at read
  simp only [readValue, read, lineOf, asciiText_textBytes fits.ascii,
    textBytes_append, Entry.answer, List.append_assoc]

theorem readValues_entries {entries : List Entry}
    (fits : ∀ entry ∈ entries, entry.Fits) {stream : ByteStream}
    {later : List UInt8}
    (received : stream.bytes = entries.flatMap Entry.bytes ++ later) :
    readValues (entries.map Entry.prompt) stream =
      (entries.map Entry.answer,
        stream.skip (entries.flatMap Entry.bytes).length) := by
  induction entries generalizing stream with
  | nil => rfl
  | cons entry entries ih =>
      rw [List.flatMap_cons, List.append_assoc] at received
      have first := readValue_entry (fits entry List.mem_cons_self) received
      have behind : (stream.skip entry.bytes.length).bytes =
          entries.flatMap Entry.bytes ++ later := by
        rw [ByteStream.skip, received]
        exact List.drop_left
      have rest := ih (fun other member =>
        fits other (List.mem_cons_of_mem entry member)) behind
      simp only [List.map_cons, readValues, first, rest, ByteStream.skip_skip,
        List.flatMap_cons, List.length_append]

/-- Calls in a row divide any source of bytes between them: each takes the bytes
up to the first that ends a line, but at most 81, and keeps those in front of
the last.  So the lines that answer some prompts are read one by one. -/
theorem lines_framed :
    (∀ (source : Nat → UInt8) (count : Nat) (stream : ByteStream),
      (∀ distance < 81 * count, stream.ahead distance = source distance) →
      ∃ lines taken, readLines count stream = (lines, stream.skip taken) ∧
        lines.length = count ∧ Divides source 0 lines taken) ∧
    ∀ (entries : List Entry) (stream : ByteStream) (later : List UInt8),
      (∀ entry ∈ entries, entry.Fits) →
      stream.bytes = entries.flatMap Entry.bytes ++ later →
      readValues (entries.map Entry.prompt) stream =
        (entries.map Entry.answer,
          stream.skip (entries.flatMap Entry.bytes).length) := by
  constructor
  · intro source count stream delivers
    have fromStart : ∀ distance < 81 * count,
        stream.ahead distance = source (0 + distance) := by
      intro distance within
      rw [Nat.zero_add]
      exact delivers distance within
    obtain ⟨lines, taken, read, length, divides⟩ := readLines_divides fromStart
    rw [Nat.zero_add] at divides
    exact ⟨lines, taken, read, length, divides⟩
  · intro entries stream later fits received
    exact readValues_entries fits received

/-- A line of 81 characters and another one. -/
def overlong : ByteStream :=
  ByteStream.ofList (List.replicate 81 0x31 ++ [0x32, 0xc3, 0x0d])

/-- Two entries, ended in the two ways. -/
def twoEntries : List Entry :=
  [⟨"a", "12", carriageReturn⟩, ⟨"b", "-0x1f", lineFeed⟩]

theorem twoEntries_fit : ∀ entry ∈ twoEntries, entry.Fits := by
  intro entry member
  simp only [twoEntries, List.mem_cons, List.not_mem_nil, or_false] at member
  rcases member with rfl | rfl
  · exact ⟨by simp, by simp, by decide, .inl rfl⟩
  · exact ⟨by simp, by simp, by decide, .inr rfl⟩

theorem lines_framed_overlong :
    (∃ lines, readLines 2 overlong = (lines, overlong.skip 84) ∧
      lines.length = 2 ∧ Divides overlong.ahead 0 lines 84) ∧
    (readValues ["a", "b"]
        (ByteStream.ofList (twoEntries.flatMap Entry.bytes))).1.map
          Echoed.result = [12, -31] := by
  constructor
  · obtain ⟨lines, taken, read, length, divides⟩ :=
      lines_framed.1 overlong.ahead 2 overlong fun _ _ => rfl
    have consumed : (readLines 2 overlong).2.consumed = 84 := by decide
    rw [read] at consumed
    obtain rfl : taken = 84 := by
      simpa [ByteStream.skip, overlong, ByteStream.ofList] using consumed
    exact ⟨lines, read, length, divides⟩
  · have read := lines_framed.2 twoEntries
      (ByteStream.ofList (twoEntries.flatMap Entry.bytes)) [] twoEntries_fit
      (List.append_nil _).symm
    have values := congrArg Prod.fst read
    refine (congrArg (List.map Echoed.result) values).trans ?_
    decide

end VectorBench
