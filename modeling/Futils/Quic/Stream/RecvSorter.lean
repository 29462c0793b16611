import Futils.Quic.Types
import Futils.Quic.Stream.Fragment

/-!
# The receive sorter

`RecvSorter` keeps the fragments of one receiving stream in a list sorted by offset, merges a new
fragment into it and hands the bytes at the read position out.  `recv` walks the list once; the walk
is modelled with the ranges already passed in `before` and those still ahead in the list itself.
-/

namespace Futils.Quic.Stream

structure RecvSorter where
  sorted : List StreamFragment := []
  done : Bool := false
  fin : Bool := false
  rst : Bool := false
  prevNotified : Nat := max64
  readPos : Nat := 0
  deriving DecidableEq

/-- What `recv` answers: whether all data is there, and the error reported. -/
abbrev RecvResult := Bool × Option QUICError

namespace RecvSorter

variable (sorter : RecvSorter) (frag : Fragment)

/-- `pack_new`: the list entry for a new fragment.  The FIN flag of the sorter is updated too. -/
def packNew : RecvSorter × StreamFragment :=
  ({ sorter with fin := sorter.fin || frag.fin },
    { offset := frag.offset, data := frag.fragment, fin := frag.fin })

def fragmentError (type : FrameType) : QUICError where
  msg := "received fragment is not same as received before"
  transportError := .streamStateError
  frameType := type

/-- The loop of `check_done`: the ranges follow each other from `prev` on. -/
def contiguous : Nat → List StreamFragment → Bool
  | _, [] => true
  | prev, range :: rest => prev == range.offset && contiguous range.stop rest

/-- The first part of `check_done`: data at the read position is notified once. -/
def notify : RecvSorter :=
  { sorter with
    prevNotified :=
      match sorter.sorted with
      | [] => sorter.prevNotified
      | front :: _ =>
        if front.offset = sorter.readPos ∧ sorter.readPos ≠ sorter.prevNotified then
          sorter.readPos
        else sorter.prevNotified }

@[simp] theorem notify_sorted : sorter.notify.sorted = sorter.sorted := rfl

@[simp] theorem notify_readPos : sorter.notify.readPos = sorter.readPos := rfl

@[simp] theorem notify_done : sorter.notify.done = sorter.done := rfl

@[simp] theorem notify_fin : sorter.notify.fin = sorter.fin := rfl

@[simp] theorem notify_rst : sorter.notify.rst = sorter.rst := rfl

def checkDone : RecvSorter × Bool :=
  let sorter := sorter.notify
  if sorter.done then (sorter, true)
  else if !sorter.fin && !sorter.rst then (sorter, false)
  else if contiguous sorter.readPos sorter.sorted then ({ sorter with done := true }, true)
  else (sorter, false)

@[simp] theorem checkDone_sorted : sorter.checkDone.1.sorted = sorter.sorted := by
  simp only [checkDone]
  repeat' split
  all_goals simp

@[simp] theorem checkDone_readPos : sorter.checkDone.1.readPos = sorter.readPos := by
  simp only [checkDone]
  repeat' split
  all_goals simp

@[simp] theorem checkDone_fin : sorter.checkDone.1.fin = sorter.fin := by
  simp only [checkDone]
  repeat' split
  all_goals simp

@[simp] theorem checkDone_rst : sorter.checkDone.1.rst = sorter.rst := by
  simp only [checkDone]
  repeat' split
  all_goals simp

/-- Without a reset `check_done` reports that the FIN is there and no range is missing. -/
theorem checkDone_done {sorter : RecvSorter} (unfinished : sorter.done = false)
    (not_reset : sorter.rst = false) :
    sorter.checkDone.1.done = (sorter.fin && contiguous sorter.readPos sorter.sorted) := by
  simp only [checkDone, notify_fin, notify_rst, not_reset,
    notify_readPos, notify_sorted]
  cases sorter.fin <;> cases contiguous sorter.readPos sorter.sorted <;> simp [unfinished]

/-- `return {check_done(conn_ctx), error::none}`. -/
def finish : RecvSorter × RecvResult :=
  ((checkDone sorter).1, (checkDone sorter).2, none)

/-- `handle_single_range`: merge `frag` into `range`, which stands between `before` and `rest`. -/
def handleSingleRange (before : List StreamFragment)
    (range : StreamFragment) (rest : List StreamFragment) (type : FrameType) (frag : Fragment) :
    RecvSorter × RecvResult :=
  let curmax := range.stop
  let newmax := frag.stop
  if newmax ≤ curmax then
    let cmp := substr range.data (sub64 frag.offset range.offset) frag.fragment.length
    if cmp ≠ frag.fragment then
      ({ sorter with sorted := before ++ range :: rest }, false, some (fragmentError type))
    else
      finish { sorter with
        sorted := before ++ range :: rest
        fin := sorter.fin || frag.fin }
  else if frag.offset ≤ curmax then
    let cmp1 := substr range.data (sub64 frag.offset range.offset) max64
    let cmp2 := substr frag.fragment 0 cmp1.length
    if cmp1 ≠ cmp2 then
      ({ sorter with sorted := before ++ range :: rest }, false, some (fragmentError type))
    else
      let add := substr frag.fragment cmp1.length max64
      let range := { range with data := range.data ++ add, fin := frag.fin }
      finish { sorter with
        sorted := before ++ range :: rest
        fin := sorter.fin || frag.fin }
  else
    let (sorter, save) := sorter.packNew frag
    finish { sorter with sorted := before ++ range :: save :: rest }

/-- The end of `recv`, reached when the walk returned nothing. -/
def push : RecvSorter × RecvResult :=
  match sorter.sorted with
  | [] =>
    let (sorter, save) := sorter.packNew frag
    finish { sorter with sorted := [save] }
  | front :: _ =>
    let (sorter, save) := sorter.packNew frag
    if frag.offset < front.offset then finish { sorter with sorted := save :: sorter.sorted }
    else finish { sorter with sorted := sorter.sorted ++ [save] }

/-- The walk of `recv` over the sorted list. -/
def recvLoop (sorter : RecvSorter) (type : FrameType) :
    List StreamFragment → List StreamFragment → Fragment → RecvSorter × RecvResult
  | before, [], frag => push { sorter with sorted := before } frag
  | before, range :: rest, frag =>
    if range.offset ≤ frag.offset then
      match rest with
      | [] => handleSingleRange sorter before range [] type frag
      | next :: tail =>
        let nextofs := next.offset
        if nextofs ≤ frag.offset then
          recvLoop sorter type (before ++ [range]) (next :: tail) frag
        else
          let curmax := range.stop
          let newmax := frag.stop
          if newmax ≤ nextofs then
            handleSingleRange sorter before range (next :: tail) type frag
          else
            let cmp1 := substr range.data (sub64 frag.offset range.offset) max64
            let cmp2 := substr frag.fragment 0 cmp1.length
            if cmp1 ≠ cmp2 then
              ({ sorter with sorted := before ++ range :: next :: tail }, false,
                some (fragmentError type))
            else
              let add := substr frag.fragment cmp1.length (sub64 nextofs curmax)
              let remain := substr frag.fragment (sub64 nextofs curmax) max64
              recvLoop sorter type
                (before ++ [{ range with data := range.data ++ add }]) (next :: tail)
                { frag with fragment := remain, offset := nextofs }
    else recvLoop sorter type (before ++ [range]) rest frag

def recv (type : FrameType) (frag : Fragment) : RecvSorter × RecvResult :=
  if sorter.done then (sorter, true, none)
  else if frag.offset < sorter.readPos then finish sorter
  else recvLoop sorter type [] sorter.sorted frag

/-- The loop of `read_impl`: `room` bytes of the buffer are still free. -/
def readLoop : List StreamFragment → Nat → Nat → List StreamFragment × Nat × Bytes
  | [], readPos, _ => ([], readPos, [])
  | front :: rest, readPos, room =>
    if room = 0 ∨ front.offset ≠ readPos then (front :: rest, readPos, [])
    else if front.data.length > room then
      ({ front with offset := front.offset + room, data := front.data.drop room } :: rest,
        readPos + room, front.data.take room)
    else
      let (sorted, pos, bytes) :=
        readLoop rest (readPos + front.data.length) (room - front.data.length)
      (sorted, pos, front.data ++ bytes)

/-- `read`: fill a buffer of `size` bytes; the flag reports the end of the stream. -/
def read (size : Nat) : RecvSorter × Bytes × Bool :=
  let (sorted, readPos, bytes) := readLoop sorter.sorted sorter.readPos size
  ({ sorter with sorted := sorted, readPos := readPos }, bytes, sorted.isEmpty && sorter.done)

/-- `read_direct`: hand the range at the read position out as a whole. -/
def readDirect : RecvSorter × Bytes × Bool :=
  match sorter.sorted with
  | [] => (sorter, [], sorter.done)
  | front :: rest =>
    if front.offset ≠ sorter.readPos then (sorter, [], sorter.done)
    else
      ({ sorter with sorted := rest, readPos := sorter.readPos + front.data.length },
        front.data, rest.isEmpty && sorter.done)

/-- The loop of `read_best`.  `accepts` lists what the callback answers, call after call. -/
def readBestLoop (done : Bool) :
    List StreamFragment → Nat → (Nat → Bool) → List StreamFragment × Nat × Bytes × Bool
  | [], readPos, _ => ([], readPos, [], done)
  | front :: rest, readPos, accepts =>
    if front.offset ≠ readPos then (front :: rest, readPos, [], false)
    else if !accepts 0 then (rest, readPos + front.data.length, front.data, false)
    else
      let (sorted, pos, bytes, eos) :=
        readBestLoop done rest (readPos + front.data.length) fun call => accepts (call + 1)
      (sorted, pos, front.data ++ bytes, eos)

/-- `read_best`: hand range after range to the callback. -/
def readBest (accepts : Nat → Bool) : RecvSorter × Bytes × Bool :=
  let (sorted, readPos, bytes, eos) :=
    readBestLoop sorter.done sorter.sorted sorter.readPos accepts
  ({ sorter with sorted := sorted, readPos := readPos }, bytes, eos)

end RecvSorter

end Futils.Quic.Stream
