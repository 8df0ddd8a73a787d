import CobraProxy.Spec.Pipeline

/-! The peer that `read_proxy_request` reads from: a stream of bytes that arrives in pieces. -/

namespace Cobra

open Text Program

/-- What a peer has yet to deliver: the pieces in which the bytes arrive, and the error after them, `none` for the
end of the stream. -/
structure ByteStream where
  pieces : List Bytes
  failure : Option ReadError

namespace ByteStream

def bytes (stream : ByteStream) : Bytes := stream.pieces.flatten

/-- No read comes back empty before the end. -/
def Flowing (stream : ByteStream) : Prop := ∀ piece ∈ stream.pieces, piece ≠ []

/-- `AsyncReadExt::read` into a buffer of that many bytes: the next piece or the part of it that fits, and nothing at
the end. -/
def read (stream : ByteStream) (capacity : ℕ) :
    Except ReadError {chunk : Bytes // chunk.length ≤ capacity} × ByteStream :=
  match stream.pieces with
  | [] => (stream.failure.elim (.ok ⟨[], Nat.zero_le _⟩) .error, stream)
  | piece :: pieces =>
    (.ok ⟨piece.take capacity, List.length_take_le ..⟩,
      { stream with pieces := if piece.length ≤ capacity then pieces else piece.drop capacity :: pieces })

/-- The stream answers reads and nothing else. -/
def answer (stream : ByteStream) : (c : Call) → Option (c.Result × ByteStream)
  | .read capacity _ => some (stream.read capacity)
  | _ => none

end ByteStream

end Cobra
