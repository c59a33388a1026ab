/-!
# UTF-8

A text as bytes, and bytes as a text. Reading goes byte by byte: `Sequence` is what is known of a
character whose first bytes have been read. A byte that cannot continue the character leaves a gap
where the character would have been, and is then read as a first byte itself.
-/

namespace Brainfuck.Text

def bytes (s : String) : List UInt8 :=
  s.toList.flatMap String.utf8EncodeChar

@[simp] theorem bytes_empty : bytes "" = [] := by
  simp [bytes]

@[simp] theorem bytes_append (s t : String) : bytes (s ++ t) = bytes s ++ bytes t := by
  simp [bytes]

namespace Utf8

/-- A character that lacks `missing` bytes, the next of them between `low` and `high`. `value` holds
the bits read so far. -/
structure Sequence where
  missing : Nat
  low : Nat := 0x80
  high : Nat := 0xBF
  value : Nat

/-- Reads a byte that starts a character. `none` is a gap. -/
def start (b : UInt8) : Option Sequence × List (Option Char) :=
  let n := b.toNat
  if n < 0x80 then (none, [some (Char.ofNat n)])
  else if n < 0xC2 then (none, [none])
  else if n < 0xE0 then (some { missing := 1, value := n - 0xC0 }, [])
  else if n == 0xE0 then (some { missing := 2, low := 0xA0, value := 0 }, [])
  else if n == 0xED then (some { missing := 2, high := 0x9F, value := 0xD }, [])
  else if n < 0xF0 then (some { missing := 2, value := n - 0xE0 }, [])
  else if n == 0xF0 then (some { missing := 3, low := 0x90, value := 0 }, [])
  else if n < 0xF4 then (some { missing := 3, value := n - 0xF0 }, [])
  else if n == 0xF4 then (some { missing := 3, high := 0x8F, value := 4 }, [])
  else (none, [none])

def read (pending : Option Sequence) (b : UInt8) : Option Sequence × List (Option Char) :=
  match pending with
  | none => start b
  | some q =>
    let n := b.toNat
    if q.low ≤ n && n ≤ q.high then
      let value := q.value * 64 + (n - 0x80)
      if q.missing == 1 then (none, [some (Char.ofNat value)])
      else (some { missing := q.missing - 1, value }, [])
    else
      let (pending, units) := start b
      (pending, none :: units)

/-- The characters of a byte sequence, with gaps where the bytes are none. -/
def units (pending : Option Sequence) : List UInt8 → List (Option Char)
  | [] => if pending.isSome then [none] else []
  | b :: bs =>
    let (pending, now) := read pending b
    now ++ units pending bs

end Utf8

/-- The text that the bytes encode, if they encode one. -/
def ofBytes? (bs : List UInt8) : Option String :=
  ((Utf8.units none bs).mapM id).map String.ofList

/-- The text that the bytes encode, with the replacement character for every gap. -/
def ofBytesLossy (bs : List UInt8) : String :=
  String.ofList ((Utf8.units none bs).map fun u => u.getD (Char.ofNat 0xFFFD))

end Brainfuck.Text
