import Futils.Core.Basic

/-!
# Fragments of a stream

`stream::Fragment` is the payload of one STREAM frame, `resend::StreamFragment` a piece of a stream
that is kept: a buffered range on the receiving side, a frame waiting for its acknowledgement on
the sending side.
-/

namespace Futils.Quic.Stream

/-- `resend::StreamFragment`: a piece of a stream that is kept. -/
structure StreamFragment where
  offset : Nat
  data : Bytes
  fin : Bool
  deriving DecidableEq

/-- `stream::Fragment`: the payload of one STREAM frame. -/
structure Fragment where
  offset : Nat
  fragment : Bytes
  fin : Bool := false
  deriving DecidableEq

def StreamFragment.stop (range : StreamFragment) : Nat := range.offset + range.data.length

def Fragment.stop (frag : Fragment) : Nat := frag.offset + frag.fragment.length

end Futils.Quic.Stream
