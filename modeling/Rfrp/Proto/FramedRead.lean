import Rfrp.Proto.FrameCodec

/-!
# Frames off a socket

`FramedRead` with the codec of `make_length_delimited_codec`: what was read so far is buffered, and
the codec is asked for a frame until it wishes for more bytes.
-/

namespace Rfrp

/-- `LengthDelimitedCodec`: a frame cut off the front of the buffer, or a wish for more bytes. -/
structure Codec (S : Type) where
  decode : S → Bytes → S × Bytes × Except String (Option Bytes)
  decodeEof : S → Bytes → S × Bytes × Except String (Option Bytes)

structure FramedRead (S : Type) where
  codec : S
  buffer : Bytes
  eof : Bool
  readable : Bool

namespace FramedRead

variable {S : Type}

def new (codec : S) : FramedRead S := ⟨codec, [], false, false⟩

def read (bytes : Bytes) (r : FramedRead S) : FramedRead S :=
  { r with buffer := r.buffer ++ bytes, eof := bytes.isEmpty, readable := true }

/-- The answer of the codec for what was read so far. -/
def next (codec : Codec S) (r : FramedRead S) : FramedRead S × Except String (Option Bytes) :=
  let (state, buffer, answer) :=
    if r.eof then codec.decodeEof r.codec r.buffer else codec.decode r.codec r.buffer
  ({ r with codec := state, buffer }, answer)

end FramedRead

end Rfrp
