import Futils.Quic.Frame.Ack
import Futils.Quic.Frame.Stream
import Futils.Quic.Frame.Crypto

/-!
# The frame writer

`fwriter` renders frames into the payload of one packet.  The model keeps the list of frames that
were rendered: it is what the packet carries.
-/

namespace Futils.Quic

open Binary Varint

/-- The frames the modelled senders write. -/
inductive Frame
  | ack (frame : Frame.ACKFrame)
  | stream (frame : Frame.StreamFrame)
  | crypto (frame : Frame.CryptoFrame)
  | resetStream (frame : Frame.ResetStreamFrame)
  | streamDataBlocked (frame : Frame.StreamDataBlockedFrame)
  | dataBlocked (frame : Frame.DataBlockedFrame)
  deriving DecidableEq

namespace Frame

def render : Frame → Writer → Writer × Bool
  | .ack frame => frame.render
  | .stream frame => frame.render
  | .crypto frame => frame.render
  | .resetStream frame => writeFields frame.fields
  | .streamDataBlocked frame => writeFields frame.fields
  | .dataBlocked frame => writeFields frame.fields

/-- `fwriter`, with the frames written so far. -/
structure FWriter where
  w : Writer
  frames : List Frame

namespace FWriter

def ofCapacity (capacity : Nat) : FWriter := ⟨.ofCapacity capacity, []⟩

def remain (fw : FWriter) : Nat := fw.w.remain

def write (fw : FWriter) (frame : Frame) : FWriter × Bool :=
  let (w, ok) := frame.render fw.w
  (⟨w, if ok then fw.frames ++ [frame] else fw.frames⟩, ok)

@[simp] theorem remain_ofCapacity (capacity : Nat) : (ofCapacity capacity).remain = capacity := rfl

@[simp] theorem frames_ofCapacity (capacity : Nat) : (ofCapacity capacity).frames = [] := rfl

theorem write_eq {fw : FWriter} {frame : Frame} {bytes : Bytes}
    (writes : Writer.Writes frame.render bytes) (room : bytes.length ≤ fw.remain) :
    fw.write frame = (⟨fw.w.append bytes room, fw.frames ++ [frame]⟩, true) := by
  rw [write, writes _ _]
  rfl

theorem write_of_room {fw : FWriter} {frame : Frame} {bytes : Bytes}
    (writes : Writer.Writes frame.render bytes) (room : bytes.length ≤ fw.remain) :
    ∃ next, fw.write frame = (next, true) ∧ next.frames = fw.frames ++ [frame] ∧
      next.remain = fw.remain - bytes.length :=
  ⟨_, write_eq writes room, rfl, Writer.remain_append _ _ room⟩

theorem frames_write (fw : FWriter) (frame : Frame) :
    (fw.write frame).1.frames = fw.frames ++ if (fw.write frame).2 then [frame] else [] := by
  cases ok : (frame.render fw.w).2 <;> simp [write, ok]

end FWriter

end Frame

end Futils.Quic
