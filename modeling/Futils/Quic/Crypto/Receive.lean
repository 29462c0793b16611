import Futils.Lib.Machine
import Futils.Lib.Segment
import Futils.Quic.Frame.Crypto
import Mathlib.Data.List.Sort

/-!
# Reassembly of the handshake data

`recv_crypto` hands the data of a CRYPTO frame to TLS when the frame begins where the last one
ended, and then takes from the buffer what begins exactly there.  A frame that begins earlier is
dropped whole, and a buffered fragment that the data has passed stays at the end of the buffer for
good: nothing behind it is taken again.  As long as neither loses a byte, TLS gets everything that
has arrived without a gap.
-/

namespace Futils.Quic.Crypto

open Lib.Machine Lib.Segment Quic.Frame List Nat

inductive EncryptionLevel
  | initial
  | earlyData
  | handshake
  | application
  deriving DecidableEq

structure CryptoRecvFragment where
  fragment : Bytes
  offset : Nat := 0
  deriving DecidableEq

/-- The calls of `tls::TLS` that `recv_crypto` makes, on a TLS state `T` with errors `E`. -/
structure Tls (T E : Type) where
  provideQuicData : T → EncryptionLevel → Bytes → T × Option E
  progressQuic : T → T × Option E
  accept : T → T × Option E
  connect : T → T × Option E
  isTLSBlock : E → Bool

/-- `std::sort` by falling offset; the order of equal offsets is left open. -/
structure Sorter where
  sort : List CryptoRecvFragment → List CryptoRecvFragment
  perm : ∀ frags, (sort frags).Perm frags
  sorted : ∀ frags, (sort frags).Pairwise fun left right => right.offset ≤ left.offset

/-- The receiving half of `CryptoHandshaker`. -/
structure CryptoReceiver where
  recvData : List CryptoRecvFragment := []
  readOffset : Nat := 0
  deriving DecidableEq

section Code

variable {T E : Type} (ops : Tls T E) (sorter : Sorter) (level : EncryptionLevel)

/-- The loop of `recv_crypto`, over the buffer from its back on. -/
def takeBuffered : List CryptoRecvFragment → Nat → T →
    List CryptoRecvFragment × Nat × T × Option E
  | [], readOffset, tls => ([], readOffset, tls, none)
  | src :: front, readOffset, tls =>
    if readOffset = src.offset then
      match ops.provideQuicData tls level src.fragment with
      | (tls, some err) => (src :: front, readOffset, tls, some err)
      | (tls, none) => takeBuffered front (readOffset + src.fragment.length) tls
    else (src :: front, readOffset, tls, none)

/-- What `recv_crypto` does after the data: the new state of TLS, whether the handshake is complete,
and the error. -/
def progress (isServer handshakeComplete : Bool) (tls : T) : T × Bool × Option E :=
  if handshakeComplete then
    let (tls, err) := ops.progressQuic tls
    (tls, handshakeComplete, err)
  else
    let (tls, err) := if isServer then ops.accept tls else ops.connect tls
    match err with
    | some err =>
      if ops.isTLSBlock err then (tls, handshakeComplete, none)
      else (tls, handshakeComplete, some err)
    | none => (tls, true, none)

/-- The buffer as the loop finds it. -/
def CryptoReceiver.sorted (receiver : CryptoReceiver) : List CryptoRecvFragment :=
  if 1 < receiver.recvData.length then sorter.sort receiver.recvData else receiver.recvData

def CryptoReceiver.recvCrypto (isServer : Bool) (receiver : CryptoReceiver)
    (handshakeComplete : Bool) (tls : T) (frame : CryptoFrame) :
    CryptoReceiver × Bool × T × Option E :=
  if frame.offset < receiver.readOffset then (receiver, handshakeComplete, tls, none)
  else if receiver.readOffset = frame.offset then
    match ops.provideQuicData tls level frame.cryptoData with
    | (tls, some err) => (receiver, handshakeComplete, tls, some err)
    | (tls, none) =>
      let (left, readOffset, tls, err) := takeBuffered ops level
        (receiver.sorted sorter).reverse (receiver.readOffset + frame.cryptoData.length) tls
      let receiver := ⟨left.reverse, readOffset⟩
      match err with
      | some err => (receiver, handshakeComplete, tls, some err)
      | none =>
        let (tls, handshakeComplete, err) := progress ops isServer handshakeComplete tls
        (receiver, handshakeComplete, tls, err)
  else
    ({ receiver with
      recvData := receiver.recvData ++ [⟨frame.cryptoData, frame.offset⟩] },
      handshakeComplete, tls, none)

end Code

/-- TLS with a record of the data it is given. -/
def Tls.recording {T E : Type} (ops : Tls T E) : Tls (T × Bytes) E where
  provideQuicData := fun (tls, given) level data =>
    let (tls, err) := ops.provideQuicData tls level data
    ((tls, given ++ data), err)
  progressQuic := fun (tls, given) => ((((ops.progressQuic tls).1), given), (ops.progressQuic tls).2)
  accept := fun (tls, given) => (((ops.accept tls).1, given), (ops.accept tls).2)
  connect := fun (tls, given) => (((ops.connect tls).1, given), (ops.connect tls).2)
  isTLSBlock := ops.isTLSBlock

/-- A handshaker at work, with a record of what TLS was given. -/
structure Reception (T : Type) where
  receiver : CryptoReceiver
  handshakeComplete : Bool
  tls : T × Bytes

def receive {T E : Type} (ops : Tls T E) (sorter : Sorter) (level : EncryptionLevel)
    (isServer : Bool) (reception : Reception T) (frame : CryptoFrame) :
    Reception T × Option E :=
  let (receiver, handshakeComplete, tls, err) := reception.receiver.recvCrypto ops.recording sorter
    level isServer reception.handshakeComplete reception.tls frame
  (⟨receiver, handshakeComplete, tls⟩, err)

/-- A buffered fragment has the byte at `position`. -/
def CryptoRecvFragment.Holds (frag : CryptoRecvFragment) (position : Nat) : Prop :=
  Within frag.offset frag.fragment.length position
deriving Decidable

def CryptoRecvFragment.stop (frag : CryptoRecvFragment) : Nat := frag.offset + frag.fragment.length

def Buffered (frags : List CryptoRecvFragment) (position : Nat) : Prop :=
  ∃ frag ∈ frags, frag.Holds position
deriving Decidable

def Contains (frame : CryptoFrame) (position : Nat) : Prop :=
  Within frame.offset frame.cryptoData.length position
deriving Decidable

/-- After `left`, `right` may be passed over: it begins outside of `left`, or behind a gap, or
nothing goes on where `left` ends, or `left` is passed over itself. -/
def Harmless (frags : List CryptoRecvFragment) (start : Nat) (left right : CryptoRecvFragment) :
    Prop :=
  ¬ left.Holds right.offset ∨
    (∃ position < right.offset, start ≤ position ∧ ¬ Buffered frags position) ∨
    ¬ Buffered frags left.stop ∨
    ∃ other ∈ frags, other.offset < left.offset ∧ other.Holds left.offset

/-- Nothing goes on at `start`, or all fragments begin there or later and may be taken in turn. -/
def Flows (frags : List CryptoRecvFragment) (start : Nat) : Prop :=
  ¬ Buffered frags start ∨
    (∀ frag ∈ frags, start ≤ frag.offset) ∧
      frags.Pairwise fun left right =>
        Harmless frags start left right ∧ Harmless frags start right left

instance (frags : List CryptoRecvFragment) (start : Nat) (left right : CryptoRecvFragment) :
    Decidable (Harmless frags start left right) :=
  inferInstanceAs (Decidable (_ ∨ (∃ position < right.offset, _ ∧ _) ∨ _ ∨ ∃ other ∈ frags, _))

instance (frags : List CryptoRecvFragment) (start : Nat) : Decidable (Flows frags start) :=
  inferInstanceAs (Decidable (_ ∨ _ ∧ _))

variable {others frags : List CryptoRecvFragment}

theorem Buffered.perm (perm : frags.Perm others) {position : Nat} :
    Buffered frags position ↔ Buffered others position :=
  exists_congr fun _ => and_congr_left' perm.mem_iff

theorem Flows.perm (perm : frags.Perm others) {start : Nat} (flows : Flows frags start) :
    Flows others start := by
  have harmless {left right : CryptoRecvFragment} :
      Harmless frags start left right ↔ Harmless others start left right := by
    simp only [Harmless, Buffered.perm perm, perm.mem_iff]
  refine flows.imp (mt (Buffered.perm perm).2) fun ⟨ahead, pairs⟩ =>
    ⟨fun frag member => ahead _ (perm.mem_iff.2 member), ?_⟩
  refine (perm.pairwise_iff fun both => both.symm).1 (pairs.imp fun both => ?_)
  exact both.imp harmless.1 harmless.1

theorem Flows.tail {src : CryptoRecvFragment} {rest : List CryptoRecvFragment}
    (flows : Flows (src :: rest) src.offset) : Flows rest src.stop := by
  by_cases goesOn : Buffered rest src.stop
  case neg => exact .inl goesOn
  have more {position : Nat} (buffered : Buffered rest position) :
      Buffered (src :: rest) position := by
    obtain ⟨frag, member, holds⟩ := buffered
    exact ⟨frag, mem_cons_of_mem _ member, holds⟩
  obtain unbuffered | ⟨ahead, pairs⟩ := flows
  · -- The first fragment is empty, so that it stops where it starts.
    have empty : src.stop = src.offset := by
      by_contra nonempty
      refine unbuffered ⟨src, mem_cons_self, le_rfl, ?_⟩
      rw [CryptoRecvFragment.stop] at nonempty
      omega
    rw [empty] at goesOn
    exact absurd (more goesOn) unbuffered
  · obtain ⟨first, pairs⟩ := pairwise_cons.1 pairs
    have later : ∀ frag ∈ rest, src.stop ≤ frag.offset := by
      intro frag member
      by_contra inside
      obtain outside | ⟨_, before, from_start, gap⟩ | ends | ⟨other, among, earlier, -⟩ :=
        (first _ member).1
      · exact outside ⟨ahead _ (mem_cons_of_mem _ member), not_le.1 inside⟩
      · exact gap ⟨src, mem_cons_self, from_start, before.trans (not_le.1 inside)⟩
      · exact ends (more goesOn)
      · exact absurd (ahead _ among) (not_le.2 earlier)
    have still {left right : CryptoRecvFragment} (member : left ∈ rest)
        (harmless : Harmless (src :: rest) src.offset left right) :
        Harmless rest src.stop left right := by
      obtain outside | ⟨position, before, from_start, gap⟩ | ends | ⟨other, among, earlier, holds⟩ :=
        harmless
      · exact .inl outside
      · refine .inr (.inl ⟨position, before, ?_, mt more gap⟩)
        by_contra inside
        exact gap ⟨src, mem_cons_self, from_start, not_le.1 inside⟩
      · exact .inr (.inr (.inl (mt more ends)))
      · obtain rfl | among := mem_cons.1 among
        · exact absurd holds.2 (not_lt.2 (later _ member))
        · exact .inr (.inr (.inr ⟨other, among, earlier, holds⟩))
    exact .inr ⟨later, pairs.imp_of_mem fun left right both =>
      ⟨still left both.1, still right both.2⟩⟩

section Loop

variable {T E : Type} {ops : Tls T E} {level : EncryptionLevel} {stream : Bytes}

/-- TLS takes whatever it is given. -/
def Tls.Accepting (ops : Tls T E) : Prop :=
  ∀ tls level data, (ops.provideQuicData tls level data).2 = none

theorem Tls.Accepting.recording (accepting : ops.Accepting) (level : EncryptionLevel) (tls : T)
    (given data : Bytes) : ∃ after,
      ops.recording.provideQuicData (tls, given) level data = ((after, given ++ data), none) :=
  ⟨_, Prod.ext rfl (accepting tls _ _)⟩

theorem progress_recording (isServer handshakeComplete : Bool) (tls : T × Bytes) :
    (progress ops.recording isServer handshakeComplete tls).1.2 = tls.2 := by
  rw [progress]
  split
  case isTrue => rfl
  case isFalse =>
    have kept : (if isServer then ops.recording.accept tls else ops.recording.connect tls).1.2 =
        tls.2 := by
      cases isServer <;> rfl
    generalize (if isServer then ops.recording.accept tls else ops.recording.connect tls) = result
      at kept ⊢
    obtain ⟨_, _ | _⟩ := result
    · exact kept
    · dsimp only
      split <;> exact kept

/-- TLS has been given the stream up to the new offset, no byte is lost, and nothing goes on there.
-/
theorem takeBuffered_spec (accepting : ops.Accepting) :
    ∀ (frags : List CryptoRecvFragment) (readOffset : Nat) (tls : T),
      (frags.Pairwise fun left right => left.offset ≤ right.offset) →
      (∀ frag ∈ frags, Agrees stream frag.offset frag.fragment) → readOffset ≤ stream.length →
      Flows frags readOffset →
      ∃ left stop after, takeBuffered ops.recording level frags readOffset
          (tls, stream.take readOffset) = (left, stop, (after, stream.take stop), none) ∧
        readOffset ≤ stop ∧ stop ≤ stream.length ∧ left <:+ frags ∧ ¬ Buffered left stop ∧
        ∀ position, Buffered frags position → position < stop ∨ Buffered left position := by
  intro frags
  induction frags with
  | nil =>
    intro readOffset tls _ _ within _
    exact ⟨[], readOffset, tls, rfl, le_rfl, within, suffix_refl _, by simp [Buffered],
      fun _ buffered => .inr buffered⟩
  | cons src rest ih =>
    intro readOffset tls sorted agrees within flows
    by_cases matched : readOffset = src.offset
    · subst matched
      have taken := agrees src mem_cons_self
      obtain ⟨middle, provided⟩ := accepting.recording _ tls _ _
      obtain ⟨left, stop, after, loop, later, bound, suffix, done, kept⟩ :=
        ih _ _ (pairwise_cons.1 sorted).2 (forall_mem_cons.1 agrees).2 taken.end_le flows.tail
      refine ⟨left, stop, after, ?_, (le_add_right _ _).trans later, bound,
        suffix.trans (suffix_cons _ _), done, fun position buffered => ?_⟩
      · rw [takeBuffered, if_pos rfl, provided, taken.take_append]
        exact loop
      · obtain ⟨frag, member, holds⟩ := buffered
        obtain rfl | member := mem_cons.1 member
        · exact .inl (lt_of_lt_of_le holds.2 later)
        · exact kept _ ⟨frag, member, holds⟩
    · refine ⟨src :: rest, readOffset, tls, by rw [takeBuffered, if_neg matched], le_rfl, within,
        suffix_refl _, ?_, fun _ buffered => .inr buffered⟩
      obtain unbuffered | ⟨ahead, -⟩ := flows
      · exact unbuffered
      · -- The first fragment begins past the offset, and so do those after it.
        rintro ⟨frag, member, holds⟩
        have first := ahead src mem_cons_self
        obtain rfl | member := mem_cons.1 member
        · exact matched (le_antisymm first holds.1)
        · have behind := (pairwise_cons.1 sorted).1 _ member
          exact matched (le_antisymm first (behind.trans holds.1))

end Loop

/-- Everything that has arrived is below the read offset or in the buffer, and the byte at the read
offset has not arrived. -/
structure Reassembled {T : Type} (stream : Bytes) (reception : Reception T)
    (received : List CryptoFrame) : Prop where
  given : reception.tls.2 = stream.take reception.receiver.readOffset
  within : reception.receiver.readOffset ≤ stream.length
  agrees : ∀ frag ∈ reception.receiver.recvData, Agrees stream frag.offset frag.fragment
  kept : ∀ frame ∈ received, ∀ position, Contains frame position →
    position < reception.receiver.readOffset ∨ Buffered reception.receiver.recvData position
  missing : ¬ Buffered reception.receiver.recvData reception.receiver.readOffset

/-- No byte is lost: an early frame has not the byte at the read offset, and behind a frame in order
the buffer flows on. -/
def Absorbed {T : Type} (reception : Reception T) (frame : CryptoFrame) : Prop :=
  (frame.offset < reception.receiver.readOffset →
    ¬ Contains frame reception.receiver.readOffset) ∧
  (frame.offset = reception.receiver.readOffset →
    Flows reception.receiver.recvData
      (reception.receiver.readOffset + frame.cryptoData.length))
deriving Decidable

section Run

variable {T E : Type} {ops : Tls T E} {sorter : Sorter} {level : EncryptionLevel}
  {isServer : Bool} {stream : Bytes} {reception : Reception T} {received : List CryptoFrame}
  {frame : CryptoFrame}

theorem sorted_perm (receiver : CryptoReceiver) :
    (receiver.sorted sorter).reverse.Perm receiver.recvData := by
  refine (reverse_perm _).trans ?_
  rw [CryptoReceiver.sorted]
  split
  case isTrue => exact sorter.perm _
  case isFalse => exact Perm.refl _

theorem pairwise_sorted (receiver : CryptoReceiver) :
    (receiver.sorted sorter).reverse.Pairwise fun left right => left.offset ≤ right.offset := by
  rw [pairwise_reverse, CryptoReceiver.sorted]
  split
  case isTrue => exact sorter.sorted _
  case isFalse short =>
    match frags : receiver.recvData with
    | [] => exact Pairwise.nil
    | [_] => exact pairwise_singleton _ _
    | _ :: _ :: _ =>
      rw [frags] at short
      simp at short

variable (reassembled : Reassembled stream reception received)
include reassembled

theorem Reassembled.drop (early : frame.offset < reception.receiver.readOffset)
    (absorbed : ¬ Contains frame reception.receiver.readOffset) :
    Reassembled stream reception (received ++ [frame]) := by
  refine { reassembled with kept := fun other member position contains => ?_ }
  obtain earlier | rfl := mem_snoc.1 member
  · exact reassembled.kept _ earlier _ contains
  · refine .inl (lt_of_lt_of_le contains.2 ?_)
    by_contra longer
    exact absorbed ⟨early.le, not_le.1 longer⟩

variable (agrees : Agrees stream frame.offset frame.cryptoData)
include agrees

theorem Reassembled.buffer (late : reception.receiver.readOffset < frame.offset) :
    Reassembled stream { reception with receiver := { reception.receiver with
      recvData := reception.receiver.recvData ++ [⟨frame.cryptoData, frame.offset⟩] } }
      (received ++ [frame]) where
  given := reassembled.given
  within := reassembled.within
  agrees frag member := by
    obtain earlier | rfl := mem_snoc.1 member
    · exact reassembled.agrees _ earlier
    · exact agrees
  kept other member position contains := by
    obtain earlier | rfl := mem_snoc.1 member
    · refine (reassembled.kept _ earlier _ contains).imp_right fun buffered => ?_
      obtain ⟨frag, among, holds⟩ := buffered
      exact ⟨frag, mem_append_left _ among, holds⟩
    · exact .inr ⟨_, mem_append_right _ (mem_singleton_self _), contains⟩
  missing := by
    rintro ⟨frag, member, holds⟩
    obtain earlier | rfl := mem_snoc.1 member
    · exact reassembled.missing ⟨frag, earlier, holds⟩
    · exact absurd holds.1 (not_le.2 late)

theorem Reassembled.provide (accepting : ops.Accepting)
    (matched : reception.receiver.readOffset = frame.offset)
    (flows : Flows reception.receiver.recvData
      (reception.receiver.readOffset + frame.cryptoData.length)) :
    Reassembled stream (receive ops sorter level isServer reception frame).1
      (received ++ [frame]) := by
  obtain ⟨receiver, handshakeComplete, tls, given⟩ := reception
  obtain ⟨given_eq, within, buffered, kept, missing⟩ := reassembled
  dsimp only at given_eq within buffered kept missing matched flows
  have perm := @sorted_perm sorter receiver
  obtain ⟨middle, provided⟩ := accepting.recording level tls given frame.cryptoData
  rw [matched] at flows given_eq
  have taken : given ++ frame.cryptoData = stream.take (frame.offset + frame.cryptoData.length) := by
    rw [given_eq, agrees.take_append]
  obtain ⟨left, stop, after, loop, later, bound, suffix, done, kept'⟩ :=
    @takeBuffered_spec T E ops level _ accepting _ _ middle (pairwise_sorted _)
      (fun frag member => buffered _ (perm.mem_iff.1 member)) agrees.end_le
      (flows.perm perm.symm)
  have through : frame.offset ≤ stop := (le_add_right _ _).trans later
  have tlsGiven := @progress_recording T E ops isServer handshakeComplete
    (after, stream.take stop)
  generalize made : (receive ops sorter level isServer _ frame).1 = result
  obtain ⟨receiver', tls'⟩ :
      result.receiver = ⟨left.reverse, stop⟩ ∧ result.tls.2 = stream.take stop := by
    rw [← made, receive, CryptoReceiver.recvCrypto]
    simp only [matched, lt_self_iff_false, if_false, if_true, provided, taken, loop]
    exact ⟨trivial, tlsGiven⟩
  have stillBuffered {position : Nat} : Buffered left.reverse position ↔ Buffered left position :=
    Buffered.perm (reverse_perm _)
  constructor
  · rw [tls', receiver']
  · rw [receiver']
    exact bound
  · rw [receiver']
    exact fun frag member =>
      buffered _ (perm.mem_iff.1 (suffix.subset (mem_reverse.1 member)))
  · rw [receiver']
    intro other member position contains
    rw [stillBuffered]
    obtain earlier | rfl := mem_snoc.1 member
    · obtain below | inside := kept _ earlier _ contains
      · rw [matched] at below
        exact .inl (lt_of_lt_of_le below through)
      · exact kept' _ ((Buffered.perm perm).2 inside)
    · exact .inl (lt_of_lt_of_le contains.2 later)
  · rw [receiver', stillBuffered]
    exact done

theorem Reassembled.step (accepting : ops.Accepting) (absorbed : Absorbed reception frame) :
    Reassembled stream (receive ops sorter level isServer reception frame).1
      (received ++ [frame]) := by
  obtain early | matched | late := lt_trichotomy _ reception.receiver.readOffset
  · have dropped : (receive ops sorter level isServer reception frame).1 = reception := by
      rw [receive, CryptoReceiver.recvCrypto, if_pos early]
    rw [dropped]
    exact reassembled.drop early (absorbed.1 early)
  · exact reassembled.provide agrees accepting matched.symm (absorbed.2 matched)
  · have waits : (receive ops sorter level isServer reception frame).1 =
        { reception with receiver := { reception.receiver with
          recvData := reception.receiver.recvData ++ [⟨frame.cryptoData, frame.offset⟩] } } := by
      rw [receive, CryptoReceiver.recvCrypto, if_neg late.le.not_gt, if_neg late.ne]
    rw [waits]
    exact reassembled.buffer agrees late

end Run

/-- In every run in which no byte is lost, TLS is given the handshake data as far as the frames
cover it. -/
theorem handshake_data_complete {T E : Type} {ops : Tls T E} (accepting : ops.Accepting)
    (sorter : Sorter) (level : EncryptionLevel) (isServer handshakeComplete : Bool) (tls : T)
    {stream : Bytes} {frames : List CryptoFrame}
    (agree : ∀ frame ∈ frames, Agrees stream frame.offset frame.cryptoData)
    (absorbed : Guarded (receive ops sorter level isServer) Absorbed
      ⟨{}, handshakeComplete, tls, []⟩ frames)
    {n : Nat} (covered : ∀ position < n, ∃ frame ∈ frames, Contains frame position) :
    let given := (final (receive ops sorter level isServer) ⟨{}, handshakeComplete, tls, []⟩
      frames).tls.2
    given <+: stream ∧ n ≤ given.length := by
  have run := @invariant_of_guarded _ _ _ _ _
    (fun reception past => Reassembled _ _ (past.map Prod.fst))
    (fun reception past frame holds allowed => by
      rw [map_append]
      exact holds.step allowed.1 accepting allowed.2)
    _ [] _
    ⟨rfl, zero_le, by simp, by simp, by simp [Buffered]⟩ (absorbed.and_forall agree)
  rw [nil_append, trace_map_fst] at run
  intro given
  have given_eq : given = stream.take _ := run.given
  refine ⟨by rw [given_eq]; exact take_prefix _ _, ?_⟩
  rw [given_eq, length_take, min_eq_left run.within]
  by_contra short
  obtain ⟨frame, member, contains⟩ := covered _ (not_le.1 short)
  exact (run.kept _ member _ contains).elim (lt_irrefl _) run.missing

def insertionSorter : Sorter where
  sort := List.insertionSort fun left right => right.offset ≤ left.offset
  perm := List.perm_insertionSort _
  sorted := by
    have : Std.Total fun left right : CryptoRecvFragment => right.offset ≤ left.offset :=
      ⟨fun left right => le_total right.offset left.offset⟩
    have : IsTrans CryptoRecvFragment fun left right => right.offset ≤ left.offset :=
      ⟨fun _ _ _ first second => second.trans first⟩
    exact List.pairwise_insertionSort _

def blockingTls : Tls Unit Unit where
  provideQuicData _ _ _ := ((), none)
  progressQuic _ := ((), none)
  accept _ := ((), some ())
  connect _ := ((), some ())
  isTLSBlock _ := true

/-- Frames out of order, with a fragment that is passed over. -/
theorem handshake_data_complete_reordered :
    let frames : List CryptoFrame := [⟨4, [5, 6]⟩, ⟨1, [2]⟩, ⟨1, [2]⟩, ⟨0, [1]⟩, ⟨2, [3]⟩,
      ⟨0, [1, 2, 3]⟩]
    let given := (final (receive blockingTls insertionSorter .initial false) ⟨{}, false, (), []⟩
      frames).tls.2
    given <+: [1, 2, 3, 4, 5, 6] ∧ 3 ≤ given.length :=
  handshake_data_complete (fun _ _ _ => rfl) _ _ _ _ () (by decide) (by decide) (by decide)

/-- A frame that repeats old data loses the new data behind it; a fragment buffered twice stops what
follows. -/
theorem handshake_data_stuck :
    let overlapping : List CryptoFrame := [⟨0, [1, 2]⟩, ⟨1, [2, 3]⟩]
    let repeated : List CryptoFrame := [⟨1, [2]⟩, ⟨1, [2]⟩, ⟨2, [3]⟩, ⟨0, [1]⟩]
    ∀ frames ∈ [overlapping, repeated],
      (∀ frame ∈ frames, Agrees [1, 2, 3] frame.offset frame.cryptoData) ∧
      (∀ position < 3, ∃ frame ∈ frames, Contains frame position) ∧
      (final (receive blockingTls insertionSorter .initial false) ⟨{}, false, (), []⟩
        frames).tls.2 = [1, 2] := by
  decide

end Futils.Quic.Crypto
