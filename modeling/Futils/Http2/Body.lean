import Futils.Http1.Body
import Futils.Http1.Header
import Futils.Http2.HeaderBlock

/-!
# Message bodies

DATA that a stream receives waits in a buffer until the body is read, which is after the headers
were.  That the body is complete is not noted when END_STREAM arrives, but told from the state of the
stream when the headers and the buffer are read.
-/

namespace Futils.Http2.Body

open Http1 Lib.Machine List ConnState Hpack

/-- How far a message has been read. -/
inductive HTTPState where
  | init | firstLine | header | body | trailer | end
  deriving DecidableEq

/-- `Stream`, with its connection and with the headers that have been decoded. -/
structure Stream where
  conn : ConnState
  state : StreamState
  receivedHeader : List Header
  dataBuffer : Bytes := []
  recvState : HTTPState := .init

/-- The payload of DATA without its padding. -/
def content (frame : Frame) : Bytes :=
  match frame.payload with
  | .data _ data => data
  | _ => []

variable (stream : Stream)

/-- `recv_frame`, without the parts of HPACK. -/
def Stream.recvFrame (frame : Frame) : Stream × Option Error :=
  let ((conn, state), error) := stream.conn.onRecvStreamFrame frame stream.state
  let buffer := if error = none then stream.dataBuffer ++ content frame else stream.dataBuffer
  ({ stream with conn := conn, state := state, dataBuffer := buffer }, error)

/-- `send_stream_frame`, without the output. -/
def Stream.sendFrame (frame : Frame) : Stream × Option Error :=
  let ((conn, state), error) := stream.conn.onSendStreamFrame frame stream.state
  ({ stream with conn := conn, state := state }, error)

/-- `receive_header`, without the callback. -/
def Stream.receiveHeader : Stream × HeaderError :=
  if stream.recvState ≠ .init ∧ stream.recvState ≠ .header then (stream, .invalidState)
  else if stream.receivedHeader = [] then ({ stream with recvState := .header }, .noData)
  else
    let next := if stream.state.com.state = .halfClosedRemote then .end else .body
    ({ stream with recvState := next, receivedHeader := [] }, .none)

/-- `receive_data`, with the bytes that the callback is given: none if the buffer is empty. -/
def Stream.receiveData : Stream × Bytes × BodyResult :=
  if stream.recvState ≠ .body then (stream, [], .invalidState)
  else if stream.state.com.state = .closed then
    ({ stream with dataBuffer := [], recvState := .end }, stream.dataBuffer, .full)
  else ({ stream with dataBuffer := [] }, stream.dataBuffer, .incomplete)

/-- A stream with the payload that has arrived and whether it has ended, and with what was handed
out: whether the headers were, the bytes, and whether their end was reported. -/
structure World where
  stream : Stream
  received : Bytes := []
  ended : Bool := false
  headed : Bool := false
  handed : Bytes := []
  reported : Bool := false

/-- A frame comes in or goes out, or the application reads. -/
inductive Op where
  | recv (frame : Frame)
  | send (frame : Frame)
  | readHeader
  | read

/-- What a step returns. -/
inductive Answer where
  | frame (error : Option Error)
  | header (error : HeaderError)
  | body (result : BodyResult)
  deriving DecidableEq

/-- One step of the stream, noted in the books. -/
def step (world : World) : Op → World × Answer
  | .recv frame =>
    let (stream, error) := world.stream.recvFrame frame
    if error = none then
      ({ world with
        stream := stream
        received := world.received ++ content frame
        ended := world.ended || hasFlag frame.flag .endStream }, .frame error)
    else ({ world with stream := stream }, .frame error)
  | .send frame =>
    let (stream, error) := world.stream.sendFrame frame
    ({ world with stream := stream }, .frame error)
  | .readHeader =>
    let (stream, error) := world.stream.receiveHeader
    ({ world with stream := stream, headed := world.headed || error = .none }, .header error)
  | .read =>
    let (stream, bytes, result) := world.stream.receiveData
    ({ world with
      stream := stream
      handed := world.handed ++ bytes
      reported := world.reported || result = .full }, .body result)

/-- DATA is accepted up to END_STREAM, the stream is not reset, and neither the headers nor the body
after them are read while only the own direction is open. -/
def guard (world : World) : Op → Prop
  | .recv frame => frame.type = .data ∧ world.ended = false ∧ (step world (.recv frame)).2 = .frame none
  | .send frame => frame.type ≠ .rstStream
  | .readHeader => world.stream.receivedHeader ≠ [] → world.stream.state.com.state ≠ .halfClosedRemote
  | .read => world.headed = true → world.stream.state.com.state ≠ .halfClosedRemote

instance (world : World) (op : Op) : Decidable (guard world op) := by
  cases op <;> dsimp only [guard] <;> infer_instance

/-- Between the headers and the report of the end, a read of the body hands out all that has arrived,
and reports the end if it has arrived. -/
def Answered (world : World) (op : Op) : Prop :=
  op = .read → world.headed = true → world.reported = false →
    (step world op).1.handed = world.received ∧
      ((step world op).2 = .body .full ↔ world.ended = true)

/-- The states in which the peer has ended its direction, and those in which it has not. -/
def states (ended : Bool) : List State :=
  if ended then [.halfClosedRemote, .closed] else [.opened, .halfClosedLocal]

variable {ended : Bool} {com : StreamCommonState} {frame : Frame} {conn : ConnState}
  {state : StreamState}

theorem onSend_states (listed : com.state ∈ states ended) (other : frame.type ≠ .rstStream) :
    (com.onSend frame).1.state ∈ states ended := by
  obtain ⟨_, _, _, _⟩ := com
  cases ended <;> simp only [states, Bool.false_eq_true, if_false, if_true, mem_cons, not_mem_nil,
    or_false] at listed ⊢ <;> obtain rfl | rfl := listed <;>
    simp only [StreamCommonState.onSend, reduceCtorEq, if_false, decide_false,
      Bool.false_and] <;> split_ifs <;> simp

theorem onRecv_states (listed : com.state ∈ states false) (data : frame.type = .data)
    (accepted : (com.onRecv frame).2 = none) :
    (com.onRecv frame).1.state ∈ states (hasFlag frame.flag .endStream) := by
  have sameId : frame.id = com.id := by
    by_contra different
    simp [StreamCommonState.onRecv, Ne.symm different] at accepted
  obtain ⟨_, _, _, _⟩ := com
  simp only [states, Bool.false_eq_true, if_false, mem_cons, not_mem_nil, or_false] at listed
  obtain rfl | rfl := listed <;> cases ends : hasFlag frame.flag .endStream <;>
    simp [StreamCommonState.onRecv, data, sameId, ends, states, Policy.hasEndStreamFlag,
      AllowPolicy.permits]

theorem maybeClosed_of_listed (listed : state.com.state ∈ states ended) :
    conn.maybeClosedByHigherCreation state = state :=
  Compression.maybeClosed_of_not_barred fun barred => by
    cases ended <;> simp [states, barred.1] at listed

theorem recvFrame_states {after : ConnState × StreamState} (listed : state.com.state ∈ states false)
    (data : frame.type = .data) (accepted : conn.onRecvStreamFrame frame state = (after, none)) :
    after.2.com.state ∈ states (hasFlag frame.flag .endStream) := by
  simp only [onRecvStreamFrame, maybeClosed_of_listed listed] at accepted
  split at accepted
  · cases accepted
  split at accepted
  · cases accepted
  split at accepted
  · cases accepted
  case h_2 taken =>
    cases accepted
    obtain ⟨moved, -, rfl⟩ := StreamState.onRecvFrame_ok taken
    exact onRecv_states listed data moved

theorem sendFrame_states (listed : state.com.state ∈ states ended)
    (other : frame.type ≠ .rstStream) :
    (conn.onSendStreamFrame frame state).1.2.com.state ∈ states ended := by
  simp only [onSendStreamFrame, maybeClosed_of_listed listed]
  have moved := onSend_states listed other
  split
  · exact listed
  split
  · exact listed
  have kept : (state.onSendFrame frame).1.com = (state.com.onSend frame).1 := by
    rw [StreamState.onSendFrame]
    split <;> simp [*]
  split <;> simp_all

/-- What has arrived was handed out or waits, the state of the stream says whether the peer has
ended its direction, and the body can be read between the headers and its end. -/
structure Sound (world : World) : Prop where
  whole : world.handed ++ world.stream.dataBuffer = world.received
  listed : world.stream.state.com.state ∈ states world.ended
  reading : world.headed = true → world.reported = false → world.stream.recvState = .body

theorem whole_step (world : World) (op : Op)
    (whole : world.handed ++ world.stream.dataBuffer = world.received) :
    (step world op).1.handed ++ (step world op).1.stream.dataBuffer = (step world op).1.received := by
  cases op with
  | recv frame =>
    simp only [step, Stream.recvFrame]
    split_ifs
    · rw [← append_assoc, whole]
    · exact whole
  | send frame => exact whole
  | readHeader =>
    simp only [step, Stream.receiveHeader]
    split_ifs <;> exact whole
  | read =>
    simp only [step, Stream.receiveData]
    split_ifs <;> simpa using whole

theorem listed_step {world : World} {op : Op}
    (listed : world.stream.state.com.state ∈ states world.ended) (allowed : guard world op) :
    (step world op).1.stream.state.com.state ∈ states (step world op).1.ended := by
  cases op with
  | recv frame =>
    obtain ⟨type, running, accepted⟩ := allowed
    rw [running] at listed
    simp only [step, Stream.recvFrame] at accepted ⊢
    split_ifs at accepted ⊢ with taken
    · simpa [running] using recvFrame_states listed type (Prod.ext rfl taken)
    · exact absurd (Answer.frame.inj accepted) taken
  | send frame => exact sendFrame_states listed allowed
  | readHeader =>
    simp only [step, Stream.receiveHeader]
    split_ifs <;> exact listed
  | read =>
    simp only [step, Stream.receiveData]
    split_ifs <;> exact listed

theorem Sound.step {world : World} {op : Op} (sound : Sound world) (allowed : guard world op) :
    Sound (step world op).1 := by
  refine ⟨whole_step _ op sound.whole, listed_step sound.listed allowed, ?_⟩
  have reading := sound.reading
  cases op with
  | recv frame =>
    simp only [Body.step, Stream.recvFrame]
    split_ifs <;> exact reading
  | send frame => exact reading
  | readHeader =>
    simp only [Body.step, Stream.receiveHeader]
    split_ifs with late empty remote
    · simpa using reading
    · -- In the state `body` headers are not asked for any more.
      intro headed running
      have body := reading (by simpa using headed) running
      simp [body] at late
    · exact absurd remote (allowed empty)
    · exact fun _ _ => rfl
  | read =>
    simp only [Body.step, Stream.receiveData]
    split_ifs <;> simp_all

theorem answered_of_sound {world : World} {op : Op} (sound : Sound world)
    (allowed : guard world op) : Answered world op := by
  rintro rfl headed running
  have reading := sound.reading headed running
  have remote := allowed headed
  have closed : world.stream.state.com.state = .closed ↔ world.ended := by
    have listed := sound.listed
    cases ended : world.ended <;> simp [ended, states, remote] at listed
    · obtain state | state := listed <;> simp [state]
    · simp [listed]
  simp only [step, Stream.receiveData, ne_eq]
  split_ifs with state
  · exact ⟨sound.whole, by simpa using closed.1 state⟩
  · exact ⟨sound.whole, by simpa using mt closed.2 state⟩

/-- The stream of a message whose headers have arrived and of which nothing has been read. -/
def start (conn : ConnState) (state : StreamState) (headers : List Header) : World :=
  { stream := ⟨conn, state, headers, [], .init⟩ }

/-- In every run what is handed out is what has arrived, but for what waits; where the steps meet
the condition, reads hand out everything and report the end exactly when it has arrived. -/
theorem body_delivered (conn : ConnState) {state : StreamState} (headers : List Header)
    (ops : List Op) (receiving : state.com.state ∈ [.opened, .halfClosedLocal]) :
    (final step (start conn state headers) ops).handed ++
        (final step (start conn state headers) ops).stream.dataBuffer =
      (final step (start conn state headers) ops).received ∧
    (Guarded step guard (start conn state headers) ops →
      Guarded step Answered (start conn state headers) ops) := by
  constructor
  · exact @invariant_final _ _ _ _ _ (fun world op whole => whole_step world op whole) _ rfl ops
  · exact @guarded_of_invariant _ _ _ _ _ _ Answered
      (fun _ _ sound allowed => ⟨sound.step allowed, answered_of_sound sound allowed⟩) _ _
      ⟨rfl, receiving, nofun⟩

/-- The stream 1 on which the headers of a message have been sent, or have arrived. -/
def talking (isServer ended : Bool) : World :=
  let headers : Frame := { id := 1, flag := if ended then 0x5 else 0x4, payload := .header 0 {} [0x82] }
  let talk := if isServer then onRecvStreamFrame else onSendStreamFrame
  let (conn, state) := (talk { isServer := isServer } headers (.ofId 1)).1
  start conn state [([58], [47])]

theorem body_delivered_client :
    let data (flag : UInt8) (bytes : Bytes) : Frame :=
      { id := 1, flag := flag, payload := .data 2 bytes }
    Guarded step Answered (talking false true)
      [.readHeader, .read, .recv (data 8 [1, 2]), .read, .recv (data 9 [3]), .read, .read] :=
  (body_delivered _ _ _ (by decide)).2 (by decide)

/-- A server that has yet to answer is not told that the request has ended; one that reads the
headers then is not given the body. -/
theorem body_not_delivered :
    let data : Op := .recv { id := 1, flag := 1, payload := .data 0 [1] }
    let answer : Op := .send { id := 1, flag := 0x5, payload := .header 0 {} [0x88] }
    let answers (run : List Op) := (trace step (talking true false) run).map Prod.snd
    answers [.readHeader, data, .read, .read] =
        [.header .none, .frame none, .body .incomplete, .body .incomplete] ∧
      answers [data, .readHeader, answer, .read] =
        [.frame none, .header .none, .frame none, .body .invalidState] := by
  decide

end Futils.Http2.Body
