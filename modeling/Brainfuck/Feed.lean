import Brainfuck.Text.Blank
import Brainfuck.Text.Utf8

/-!
# Feed

The bytes that `,` reads, fixed before a run starts. A text supplies either the first byte of each
of its words, or all its bytes.
-/

namespace Brainfuck

inductive FeedMode where
  | words
  | stream
  deriving DecidableEq, Inhabited

/-- The bytes not yet read, next one first. -/
structure Feed where
  pending : List UInt8
  deriving DecidableEq, Inhabited

namespace Feed

def empty : Feed := ⟨[]⟩

def ofText : FeedMode → String → Feed
  | .words, text =>
    ⟨(Text.words text.toList).filterMap fun w =>
      w.head?.bind fun c => (String.utf8EncodeChar c).head?⟩
  | .stream, text => ⟨Text.bytes text⟩

def size (f : Feed) : Nat :=
  f.pending.length

def isEmpty (f : Feed) : Bool :=
  f.pending.isEmpty

theorem ofText_stream_append (s t : String) :
    (ofText .stream (s ++ t)).pending =
      (ofText .stream s).pending ++ (ofText .stream t).pending := by
  simp [ofText]

def next? (f : Feed) : Option (UInt8 × Feed) :=
  match f.pending with
  | [] => none
  | b :: bs => some (b, ⟨bs⟩)

end Feed

end Brainfuck
