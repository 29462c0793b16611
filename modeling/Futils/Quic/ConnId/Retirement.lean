import Futils.Quic.ConnId.Acceptor
import Futils.Quic.ConnId.WaitList

/-!
# Retirement of connection IDs

An ID that is retired leaves the stored ones for the list of RETIRE_CONNECTION_ID frames, where it
waits until a packet that carries it is acknowledged.  A run keeps the packets and, besides the
acceptor, which numbers came in frames that were taken and the highest `retire_prior_to` of them.  A
number is lost when a frame for it comes late, and comes back when it is the highest retired one.
-/

namespace Futils.Quic.ConnId

open Lib.Machine Binary Varint AList List Carrier

namespace IDAcceptor

/-- IDs that are no longer stored are on the list of IDs to retire, and nothing else happens. -/
structure Moves (acceptor next : IDAcceptor) : Prop where
  stored : ∀ seq, seq ∈ next.dstids → seq ∈ acceptor.dstids
  queued : ∀ seq, seq ∈ next.waitlist ↔
    seq ∈ acceptor.waitlist ∨ (seq ∈ acceptor.dstids ∧ seq ∉ next.dstids)

variable {acceptor next last : IDAcceptor}

theorem moves_of_eq (dstids_eq : next.dstids = acceptor.dstids)
    (waitlist_eq : next.waitlist = acceptor.waitlist) : Moves acceptor next := by
  refine ⟨fun seq => ?_, fun seq => ?_⟩
  · rw [dstids_eq]
    exact id
  · rw [dstids_eq, waitlist_eq]
    simp

theorem Moves.trans (first : Moves acceptor next) (second : Moves next last) :
    Moves acceptor last := by
  refine ⟨fun seq stored => first.stored seq (second.stored seq stored), fun seq => ?_⟩
  have := first.stored seq
  have := second.stored seq
  rw [second.queued, first.queued]
  grind

theorem moves_retire (seq : Int) : Moves acceptor (acceptor.retire seq).1 := by
  rw [retire]
  split
  case isTrue stored =>
    refine ⟨fun other member => (mem_erase.1 member).2, fun other => ?_⟩
    simp only [mem_erase]
    grind
  case isFalse => exact moves_of_eq rfl rfl

theorem moves_retireLoop (first : Int) (count : Nat) :
    Moves acceptor (acceptor.retireLoop first count) := by
  induction count generalizing acceptor first with
  | zero => exact moves_of_eq rfl rfl
  | succ count ih => exact (moves_retire first).trans (ih (first + 1))

theorem moves_retireUnder (border : Int) : Moves acceptor (acceptor.retireUnder border) := by
  rw [retireUnder]
  split
  · exact moves_of_eq rfl rfl
  · exact (moves_retireLoop _ _).trans (moves_of_eq rfl rfl)

theorem moves_updateActive (draw : Nat) : Moves acceptor (acceptor.updateActive draw).1 := by
  have retired : Moves acceptor (if 0 ≤ acceptor.activeConnid then
      acceptor.retire acceptor.activeConnid else (acceptor, true)).1 := by
    split
    · exact moves_retire _
    · exact moves_of_eq rfl rfl
  rw [updateActive]
  split
  · exact moves_of_eq rfl rfl
  generalize (if 0 ≤ acceptor.activeConnid then acceptor.retire acceptor.activeConnid
    else (acceptor, true)) = result at retired ⊢
  simp only
  split
  · exact retired
  split
  · exact retired
  · exact retired.trans (moves_of_eq rfl rfl)

theorem moves_maybeUpdateId (handshakeComplete : Bool) (localMaxActiveConn draw : Nat) :
    Moves acceptor (acceptor.maybeUpdateId handshakeComplete localMaxActiveConn draw).1 := by
  rw [maybeUpdateId]
  split
  · exact moves_of_eq rfl rfl
  split
  · exact moves_updateActive _
  · exact moves_of_eq rfl rfl

theorem mem_store (seq : Int) (id token : Bytes) :
    (∀ other, other ∈ (acceptor.store seq id token).1.dstids ↔
      other = seq ∨ other ∈ acceptor.dstids) ∧
      (acceptor.store seq id token).1.waitlist = acceptor.waitlist := by
  rw [store]
  by_cases new : (acceptor.choose seq).seq = invalidSeq
  · rw [if_pos new]
    exact ⟨fun other => mem_insert _, rfl⟩
  · have stored : seq ∈ acceptor.dstids := by
      by_contra absent
      rw [choose, lookup_eq_none.2 absent] at new
      exact new rfl
    have unchanged : ∀ other, other ∈ acceptor.dstids ↔ other = seq ∨ other ∈ acceptor.dstids := by
      intro other
      exact ⟨.inr, fun either => either.elim (fun same => same ▸ stored) fun old => old⟩
    rw [if_neg new]
    split
    · exact ⟨unchanged, rfl⟩
    split <;> exact ⟨unchanged, rfl⟩

/-- The frame is behind the ID in use or the retired ones: `accept` only retires its number. -/
def Late (acceptor : IDAcceptor) (seq : Int) : Prop :=
  seq < acceptor.activeConnid ∨ seq < acceptor.highestRetired
deriving Decidable

/-- The frame passes the checks of its own fields. -/
def WellFormed (version : Nat) (seq retirePriorTo : Int) (id : Bytes) : Prop :=
  ¬ (version = version1 ∧ (id.length < 1 ∨ 20 < id.length)) ∧ retirePriorTo ≤ seq
deriving Decidable

/-- `accept` takes the frame. -/
def Takes (acceptor : IDAcceptor) (version : Nat) (seq retirePriorTo : Int) (id : Bytes) : Prop :=
  acceptor.useZeroLength = false ∧ (Late acceptor seq ∨ WellFormed version seq retirePriorTo id)
deriving Decidable

variable {version : Nat} {seq retirePriorTo : Int} {id token : Bytes} {draw : Nat}

theorem accept_of_not_takes (refused : ¬ Takes acceptor version seq retirePriorTo id) :
    (acceptor.accept version seq retirePriorTo id token draw).1 = acceptor ∧
      (acceptor.accept version seq retirePriorTo id token draw).2 ≠ none := by
  rw [accept]
  split
  · simp
  case isFalse not_zero =>
    have not_zero : acceptor.useZeroLength = false := by simpa using not_zero
    split
    case isTrue late => exact absurd ⟨not_zero, .inl late⟩ refused
    case isFalse in_time =>
      split
      · simp
      case isFalse right_size =>
        split
        · simp
        case isFalse right_border =>
          exact absurd ⟨not_zero, .inr ⟨right_size, Int.not_lt.1 right_border⟩⟩ refused

theorem accept_of_late (not_zero : acceptor.useZeroLength = false) (late : Late acceptor seq) :
    (acceptor.accept version seq retirePriorTo id token draw).1 = (acceptor.retire seq).1 := by
  have late : seq < acceptor.activeConnid ∨ seq < acceptor.highestRetired := late
  rw [accept, if_neg (by simp [not_zero]), if_pos late]

/-- A frame in time retires below its border, stores its number, and may change the ID in use. -/
theorem accept_of_wellFormed (not_zero : acceptor.useZeroLength = false)
    (in_time : ¬ Late acceptor seq) (formed : WellFormed version seq retirePriorTo id) :
    Moves ((acceptor.retireUnder retirePriorTo).store seq id token).1
      (acceptor.accept version seq retirePriorTo id token draw).1 := by
  have in_time : ¬ (seq < acceptor.activeConnid ∨ seq < acceptor.highestRetired) := in_time
  rw [accept, if_neg (by simp [not_zero]), if_neg in_time, if_neg formed.1,
    if_neg (Int.not_lt.2 formed.2)]
  split
  case h_1 stored error stored_eq =>
    rw [stored_eq]
    exact moves_of_eq rfl rfl
  case h_2 stored stored_eq =>
    rw [stored_eq]
    split
    · exact moves_updateActive _
    · exact moves_of_eq rfl rfl

/-- The frame does not contradict the ID that is stored under its number. -/
def Agrees (acceptor : IDAcceptor) (seq : Int) (id token : Bytes) : Prop :=
  ∀ storage ∈ acceptor.dstids.lookup seq, storage.id = id ∧ storage.statelessResetToken = token
deriving Decidable

theorem store_of_agrees (agrees : Agrees acceptor seq id token) :
    (acceptor.store seq id token).2 = none ∧
      (acceptor.store seq id token).1.activeConnid = acceptor.activeConnid := by
  rw [store]
  by_cases new : (acceptor.choose seq).seq = invalidSeq
  · rw [if_pos new]
    exact ⟨rfl, rfl⟩
  · rw [if_neg new]
    cases found : acceptor.dstids.lookup seq with
    | none =>
      rw [choose, found] at new
      exact absurd rfl new
    | some storage =>
      obtain ⟨id_eq, token_eq⟩ := agrees _ (by rw [found]; rfl)
      have chosen : acceptor.choose seq = storage := by rw [choose, found]; rfl
      rw [chosen, if_neg (by simp [id_eq]), if_neg (by simp [token_eq])]
      exact ⟨rfl, rfl⟩

/-- With another ID stored, `update_active` retires the one in use. -/
theorem updateActive_erases (valid : 0 ≤ acceptor.activeConnid)
    (stored : acceptor.activeConnid ∈ acceptor.dstids) (other_stored : seq ∈ acceptor.dstids)
    (differs : seq ≠ acceptor.activeConnid) :
    acceptor.activeConnid ∉ (acceptor.updateActive draw).1.dstids := by
  have not_alone : ¬ (acceptor.dstids.keys.length < 2 ∧ 0 ≤ acceptor.activeConnid) := by
    rintro ⟨few, -⟩
    have both : seq ∈ acceptor.dstids.keys ∧ acceptor.activeConnid ∈ acceptor.dstids.keys :=
      ⟨other_stored, stored⟩
    match keys : acceptor.dstids.keys with
    | [] => simp [keys] at both
    | [key] =>
      rw [keys, mem_singleton, mem_singleton] at both
      exact differs (both.1.trans both.2.symm)
    | _ :: _ :: _ =>
      rw [keys, length_cons, length_cons] at few
      omega
  have erased : acceptor.activeConnid ∉ (acceptor.retire acceptor.activeConnid).1.dstids := by
    rw [← lookup_eq_none, lookup_retire, if_pos rfl]
  rw [updateActive, if_neg not_alone, if_pos valid]
  simp only
  split
  · exact erased
  split <;> exact erased

/-- A frame in time whose border is above the ID in use retires it, one way or the other. -/
theorem accept_erases (not_zero : acceptor.useZeroLength = false) (in_time : ¬ Late acceptor seq)
    (formed : WellFormed version seq retirePriorTo id) (agrees : Agrees acceptor seq id token)
    (valid : 0 ≤ acceptor.activeConnid) (passed : acceptor.activeConnid < retirePriorTo) :
    acceptor.activeConnid ∉
      (acceptor.accept version seq retirePriorTo id token draw).1.dstids := by
  have right_border := formed.2
  obtain ⟨same, -, lookups⟩ := @retireUnder_spec _ _
  have agrees : Agrees (acceptor.retireUnder retirePriorTo) seq id token := by
    intro storage found
    rw [lookups, if_neg (by omega)] at found
    exact agrees _ found
  obtain ⟨accepted, active_eq⟩ := store_of_agrees agrees
  obtain ⟨members, -⟩ := @mem_store _ seq id _
  have in_time : ¬ (seq < acceptor.activeConnid ∨ seq < acceptor.highestRetired) := in_time
  rw [accept, if_neg (by simp [not_zero]), if_neg in_time, if_neg formed.1,
    if_neg (Int.not_lt.2 formed.2)]
  rw [same.activeConnid_eq] at active_eq
  generalize (acceptor.retireUnder retirePriorTo).store seq id token = result
    at accepted active_eq members
  obtain ⟨stored, error⟩ := result
  obtain rfl : error = none := accepted
  simp only at active_eq members ⊢
  rw [if_pos (by omega), ← active_eq]
  by_cases present : stored.activeConnid ∈ stored.dstids
  · exact updateActive_erases (by omega) present ((members seq).2 (.inl rfl)) (by omega)
  · exact fun kept => present ((moves_updateActive _).stored _ kept)

end IDAcceptor

namespace Retirement

open IDAcceptor

structure World where
  /-- The acceptor; its list holds the entries that no `send` has looked at yet. -/
  acceptor : IDAcceptor
  waits : List (Resend Int) := []
  /-- The packets that `send` wrote into. -/
  packets : List (Carrier Int) := []
  accepted : List Int := []
  /-- The highest `retire_prior_to` of them. -/
  border : Int := invalidSeq

/-- A RETIRE_CONNECTION_ID frame for the number is queued, in flight or acknowledged. -/
def World.Retired (world : World) (seq : Int) : Prop :=
  seq ∈ world.acceptor.waitlist ∨ (∃ item ∈ world.waits, item.frag = seq) ∨
    Carrier.Acked world.packets seq
deriving Decidable

def retireFields (seq : Int) : List Nat := [FrameType.retireConnectionId.value, seq.toNat]

/-- `send`, into a new packet with this room. -/
def World.send (world : World) (capacity : Nat) : World × Bool :=
  let sent := sendLoop (Carrier.marks world.packets) world.packets.length (fun _ => false)
    (fun seq => fieldsLen (retireFields seq)) (fun seq => writeFields (retireFields seq))
    (.ofCapacity capacity) (world.waits ++ world.acceptor.waitlist.map (⟨·, none⟩))
  ({ world with
    acceptor := { world.acceptor with waitlist := [] }
    waits := sent.left
    packets := world.packets ++ [{ frames := sent.written }] }, sent.ok)

inductive Op
  /-- A NEW_CONNECTION_ID frame, or the preferred address (whose border is -1). -/
  | accept (seq : Nat) (retirePriorTo : Int) (id token : Bytes) (draw : Nat)
  | maybeUpdateId (handshakeComplete : Bool) (localMaxActiveConn draw : Nat)
  | retire (seq : Int)
  | onPacketSent
  | onZeroLengthAcception
  | send (capacity : Nat)
  | mark (index : Nat) (state : ACKLostState)
  deriving DecidableEq

inductive Answer
  | error (result : Option QUICError)
  | done (ok : Bool)

def step (version : Nat) (world : World) : Op → World × Answer
  | .accept seq retirePriorTo id token draw =>
    let (next, error) := world.acceptor.accept version seq retirePriorTo id token draw
    (if world.acceptor.Takes version seq retirePriorTo id then
      { world with
        acceptor := next
        accepted := ↑seq :: world.accepted
        border := max world.border retirePriorTo }
    else { world with acceptor := next }, .error error)
  | .maybeUpdateId handshakeComplete localMaxActiveConn draw =>
    let (next, error) :=
      world.acceptor.maybeUpdateId handshakeComplete localMaxActiveConn draw
    ({ world with acceptor := next }, .error error)
  | .retire seq =>
    let (next, ok) := world.acceptor.retire seq
    ({ world with acceptor := next }, .done ok)
  | .onPacketSent => ({ world with acceptor := world.acceptor.onPacketSent }, .done true)
  | .onZeroLengthAcception =>
    ({ world with acceptor := { world.acceptor with useZeroLength := true } }, .done true)
  | .send capacity =>
    let (next, ok) := world.send capacity
    (next, .done ok)
  | .mark index state =>
    ({ world with packets := Carrier.mark world.packets index state }, .done true)

/-- A late frame is for a number that is stored or retired, and leaves nothing else below its
border.  A frame in time is for a new number, and what it retires is above all retired numbers or is
the ID in use, with what the frame agrees. -/
def guard (version : Nat) (world : World) : Op → Prop
  | .accept seq retirePriorTo id token _ =>
    world.acceptor.Takes version seq retirePriorTo id →
      if world.acceptor.Late seq then
        (↑seq ∈ world.acceptor.dstids ∨ world.Retired seq) ∧
          ∀ other ∈ world.acceptor.dstids.keys, other < retirePriorTo → other = seq
      else
        ¬ world.Retired seq ∧ world.border ≤ seq ∧
          ∀ other ∈ world.acceptor.dstids.keys, other < retirePriorTo →
            world.acceptor.highestRetired < other ∨
              (other = world.acceptor.activeConnid ∧ world.acceptor.Agrees seq id token)
  | _ => True

instance (version : Nat) (world : World) (op : Op) : Decidable (guard version world op) := by
  cases op <;> dsimp only [guard] <;> infer_instance

/-- Every number that was taken is stored or retired and no number is both. -/
structure Sound (world : World) : Prop where
  disjoint : ∀ seq ∈ world.acceptor.dstids, ¬ world.Retired seq
  border_le : ∀ seq ∈ world.acceptor.dstids, world.border ≤ seq
  valid : ∀ seq ∈ world.acceptor.dstids, 0 ≤ seq
  covered : ∀ seq ∈ world.accepted, seq ∈ world.acceptor.dstids ∨ world.Retired seq
  carried : ∀ item ∈ world.waits, ∀ record ∈ item.wait,
    Carrier.Carries world.packets record item.frag
  recorded : Carrier.Recorded world.packets
  sent : ∀ packet ∈ world.packets, ∀ seq ∈ packet.frames, world.Retired seq

/-- Nothing that is retired or below the border comes back. -/
structure Later (world next : World) : Prop where
  retired : ∀ seq, world.Retired seq → next.Retired seq
  border_le : world.border ≤ next.border

variable {world next : World} {acceptor : IDAcceptor} {seq : Int}

theorem Later.trans {last : World} (first : Later world next) (second : Later next last) :
    Later world last :=
  ⟨fun seq retired => second.retired seq (first.retired seq retired),
    Int.le_trans first.border_le second.border_le⟩

theorem retired_moves (moves : Moves world.acceptor acceptor) :
    { world with acceptor := acceptor }.Retired seq ↔
      world.Retired seq ∨ (seq ∈ world.acceptor.dstids ∧ seq ∉ acceptor.dstids) := by
  simp only [World.Retired, moves.queued]
  grind

theorem Sound.moves (sound : Sound world) (moves : Moves world.acceptor acceptor) :
    Sound { world with acceptor := acceptor } ∧ Later world { world with acceptor := acceptor } := by
  refine ⟨⟨fun seq stored retired => ?_,
    fun seq stored => sound.border_le seq (moves.stored seq stored),
    fun seq stored => sound.valid seq (moves.stored seq stored), fun seq taken => ?_,
    sound.carried, sound.recorded, fun packet member seq carried =>
      (retired_moves moves).2 (.inl (sound.sent _ member seq carried))⟩,
    fun seq retired => (retired_moves moves).2 (.inl retired), Int.le_refl _⟩
  · rcases (retired_moves moves).1 retired with before | ⟨-, erased⟩
    · exact sound.disjoint seq (moves.stored seq stored) before
    · exact erased stored
  · by_cases kept : seq ∈ acceptor.dstids
    · exact .inl kept
    · refine .inr ((retired_moves moves).2 ?_)
      exact (sound.covered seq taken).elim (fun stored => .inr ⟨stored, kept⟩) .inl

theorem Sound.take (sound : Sound world) (present : seq ∈ world.acceptor.dstids ∨ world.Retired seq)
    {border : Int} (above : ∀ other ∈ world.acceptor.dstids, border ≤ other) :
    let next := { world with accepted := seq :: world.accepted, border := max world.border border }
    Sound next ∧ Later world next := by
  refine ⟨⟨sound.disjoint, fun other stored => ?_, sound.valid,
    forall_mem_cons.2 ⟨present, sound.covered⟩, sound.carried, sound.recorded, sound.sent⟩,
    fun _ => id, Int.le_max_left _ _⟩
  exact Int.max_le.2 ⟨sound.border_le _ stored, above _ stored⟩

/-- A number that is neither retired nor below the border is stored. -/
theorem Sound.store (sound : Sound world)
    (stored : ∀ other, other ∈ acceptor.dstids ↔ other = seq ∨ other ∈ world.acceptor.dstids)
    (waitlist_eq : acceptor.waitlist = world.acceptor.waitlist) (unretired : ¬ world.Retired seq)
    (border_le : world.border ≤ seq) (seq_valid : 0 ≤ seq) :
    Sound { world with acceptor := acceptor } ∧ Later world { world with acceptor := acceptor } := by
  have same_retired : ∀ other, { world with acceptor := acceptor }.Retired other ↔
      world.Retired other := by
    intro other
    simp only [World.Retired, waitlist_eq]
  refine ⟨⟨fun other member => ?_, fun other member => ?_, fun other member => ?_,
    fun other taken => ?_, sound.carried, sound.recorded, fun packet member other carried =>
      (same_retired _).2 (sound.sent _ member _ carried)⟩,
    fun other => (same_retired _).2, Int.le_refl _⟩
  · rw [same_retired]
    rcases (stored other).1 member with rfl | old
    · exact unretired
    · exact sound.disjoint _ old
  · rcases (stored other).1 member with rfl | old
    · exact border_le
    · exact sound.border_le _ old
  · rcases (stored other).1 member with rfl | old
    · exact seq_valid
    · exact sound.valid _ old
  · rw [same_retired, stored]
    exact (sound.covered _ taken).imp_left .inr

theorem Sound.accept {version : Nat} {retirePriorTo : Int} {id token : Bytes} {draw : Nat}
    (sound : Sound world) (not_zero : world.acceptor.useZeroLength = false)
    (in_time : ¬ Late world.acceptor seq) (formed : WellFormed version seq retirePriorTo id)
    (unretired : ¬ world.Retired seq) (border_le : world.border ≤ seq)
    (seq_valid : 0 ≤ seq) (reached : ∀ other ∈ world.acceptor.dstids, other < retirePriorTo →
      world.acceptor.highestRetired < other ∨
        (other = world.acceptor.activeConnid ∧ world.acceptor.Agrees seq id token)) :
    let next := { world with
      acceptor := (world.acceptor.accept version seq retirePriorTo id token draw).1
      accepted := seq :: world.accepted
      border := max world.border retirePriorTo }
    Sound next ∧ Later world next := by
  have moves := @moves_retireUnder world.acceptor retirePriorTo
  obtain ⟨-, -, lookups⟩ := @retireUnder_spec _ _
  have erased : ∀ other, other ∈ (world.acceptor.retireUnder retirePriorTo).dstids ↔
      other ∈ world.acceptor.dstids ∧
        ¬ (world.acceptor.highestRetired < other ∧ other < retirePriorTo) := by
    intro other
    rw [← lookup_isSome, ← lookup_isSome, lookups]
    split
    case isTrue below => simp [below]
    case isFalse kept => simp [kept]
  have right_border := formed.2
  -- Below the border nothing is left, and the number of the frame is not below it.
  obtain ⟨under_sound, under_later⟩ := sound.moves moves
  have still : ¬ { world with acceptor := world.acceptor.retireUnder retirePriorTo }.Retired seq := by
    rw [retired_moves moves]
    grind
  obtain ⟨members, waitlist_eq⟩ := @mem_store _ seq id _
  obtain ⟨stored_sound, stored_later⟩ :=
    under_sound.store members waitlist_eq still border_le seq_valid
  have last_moves := @accept_of_wellFormed _ _ _ _ id token draw not_zero in_time formed
  obtain ⟨last_sound, last_later⟩ := stored_sound.moves last_moves
  have present : seq ∈ (world.acceptor.accept version seq retirePriorTo id token draw).1.dstids ∨
      { world with acceptor :=
        (world.acceptor.accept version seq retirePriorTo id token draw).1 }.Retired seq := by
    by_cases kept : seq ∈ (world.acceptor.accept version seq retirePriorTo id token draw).1.dstids
    · exact .inl kept
    · exact .inr ((@retired_moves { world with acceptor := _ } _ seq last_moves).2
        (.inr ⟨(members seq).2 (.inl rfl), kept⟩))
  obtain ⟨taken_sound, taken_later⟩ := @Sound.take _ seq last_sound present retirePriorTo
    (fun other kept => by
      rcases (members other).1 (last_moves.stored other kept) with rfl | old
      · exact right_border
      · obtain ⟨before, not_erased⟩ := (erased _).1 old
        by_contra below
        rcases reached other before (Int.not_le.1 below) with above | ⟨rfl, agrees⟩
        · exact not_erased ⟨above, Int.not_le.1 below⟩
        · exact accept_erases not_zero in_time formed agrees (sound.valid _ before)
            (Int.not_le.1 below) kept)
  exact ⟨taken_sound, ((under_later.trans stored_later).trans last_later).trans taken_later⟩

theorem Sound.send (sound : Sound world) (capacity : Nat) :
    Sound (world.send capacity).1 ∧ Later world (world.send capacity).1 := by
  obtain ⟨sent, sent_eq⟩ : ∃ sent, sendLoop (marks world.packets) world.packets.length
    (fun _ => false) (fun seq => fieldsLen (retireFields seq))
    (fun seq => writeFields (retireFields seq)) (.ofCapacity capacity)
    (world.waits ++ world.acceptor.waitlist.map (⟨·, none⟩)) = sent := ⟨_, rfl⟩
  have next_eq : (world.send capacity).1 = { world with
      acceptor := { world.acceptor with waitlist := [] }
      waits := sent.left
      packets := world.packets ++ [{ frames := sent.written }] } := by
    rw [World.send, sent_eq]
  have queue_carried : ∀ item ∈ world.waits ++ world.acceptor.waitlist.map (⟨·, none⟩),
      ∀ record ∈ item.wait, Carries world.packets record item.frag := by
    intro item member record waits
    rcases mem_append.1 member with old | new
    · exact sound.carried _ old _ waits
    · obtain ⟨_, -, rfl⟩ := mem_map.1 new
      cases waits
  -- Every entry was acknowledged or is still there.
  have kept : ∀ item ∈ world.waits ++ world.acceptor.waitlist.map (⟨·, none⟩),
      Acked world.packets item.frag ∨ ∃ left ∈ sent.left, left.frag = item.frag := by
    intro item member
    have found := @sendLoop_kept _ (marks world.packets) world.packets.length
      (fun _ => false) (fun seq => fieldsLen (retireFields seq))
      (fun seq => writeFields (retireFields seq)) (.ofCapacity capacity) _ _ member
    rw [sent_eq] at found
    rcases found with acked | gone | left
    · refine .inl ?_
      cases waits : item.wait with
      | none =>
        rw [waits] at acked
        cases acked
      | some record =>
        rw [waits] at acked
        refine acked_of_carries sound.recorded (queue_carried _ member _ (by rw [waits]; rfl)) ?_
        simpa [Resend.isAck] using acked
    · cases gone
    · exact .inr left
  have queue_retired : ∀ item ∈ world.waits ++ world.acceptor.waitlist.map (⟨·, none⟩),
      world.Retired item.frag := by
    intro item member
    rcases mem_append.1 member with waiting | new
    · exact .inr (.inl ⟨item, waiting, rfl⟩)
    · obtain ⟨_, queued, rfl⟩ := mem_map.1 new
      exact .inl queued
  have retired_iff : ∀ seq, (world.send capacity).1.Retired seq ↔ world.Retired seq := by
    intro seq
    rw [next_eq]
    constructor
    · rintro (queued | ⟨item, left, rfl⟩ | ⟨packet, member, acked, carried⟩)
      · cases queued
      · rw [← sent_eq] at left
        rcases sendLoop_left left with old | ⟨⟨old, member, same⟩, -⟩
        · exact queue_retired _ old
        · exact same ▸ queue_retired old member
      · rcases mem_snoc.1 member with old | rfl
        · exact .inr (.inr ⟨packet, old, acked, carried⟩)
        · cases acked
    · have from_queue : ∀ item ∈ world.waits ++ world.acceptor.waitlist.map (⟨·, none⟩),
          item.frag = seq → (∃ left ∈ sent.left, left.frag = seq) ∨
            Acked (world.packets ++ [{ frames := sent.written }]) seq := by
        rintro item member rfl
        exact (kept _ member).symm.imp_right fun acked => acked.push _
      rintro (queued | ⟨item, waiting, same⟩ | acked)
      · exact .inr (from_queue _ (mem_append_right _ (mem_map_of_mem queued)) rfl)
      · exact .inr (from_queue _ (mem_append_left _ waiting) same)
      · exact .inr (.inr (acked.push _))
  refine ⟨⟨fun seq stored => ?_, sound.border_le, sound.valid, fun seq taken => ?_,
    fun item left record waits => ?_, sound.recorded.push rfl, fun packet member seq carried => ?_⟩,
    fun seq => (retired_iff seq).2, Int.le_refl _⟩
  · rw [retired_iff]
    exact sound.disjoint seq stored
  · rw [retired_iff]
    exact sound.covered seq taken
  · rw [next_eq] at left ⊢
    rw [← sent_eq] at left
    rcases sendLoop_left left with old | ⟨-, waits_new, written⟩
    · exact (queue_carried _ old _ waits).push _
    · rw [waits_new] at waits
      cases waits
      rw [sent_eq] at written
      exact carries_push_last written
  · rw [retired_iff]
    rw [next_eq] at member
    rcases mem_snoc.1 member with old | rfl
    · exact sound.sent _ old seq carried
    · rw [← sent_eq] at carried
      obtain ⟨⟨item, in_queue, same⟩, -⟩ := sendLoop_written carried
      exact same ▸ queue_retired _ in_queue

theorem Sound.mark (sound : Sound world) (index : Nat) (state : ACKLostState) :
    let next := { world with packets := mark world.packets index state }
    Sound next ∧ Later world next := by
  intro next
  have sent : ∀ packet ∈ next.packets, ∀ seq ∈ packet.frames, world.Retired seq := by
    intro packet member seq carried
    rcases mem_mark member with old | ⟨old, old_member, rfl⟩
    · exact sound.sent _ old seq carried
    · exact sound.sent old old_member seq carried
  have retired_iff : ∀ seq, next.Retired seq ↔ world.Retired seq := by
    intro seq
    refine ⟨?_, fun retired => retired.imp_right fun sent =>
      sent.imp_right fun acked => acked.mark _ _⟩
    rintro (queued | waiting | ⟨packet, member, -, carried⟩)
    · exact .inl queued
    · exact .inr (.inl waiting)
    · exact sent _ member seq carried
  refine ⟨⟨fun seq stored => ?_, sound.border_le, sound.valid, fun seq taken => ?_,
    fun item waiting record waits => (sound.carried _ waiting _ waits).mark _ _,
    sound.recorded.mark _ _, fun packet member seq carried =>
      (retired_iff seq).2 (sent _ member seq carried)⟩,
    fun seq => (retired_iff seq).2, Int.le_refl _⟩
  · rw [retired_iff]
    exact sound.disjoint seq stored
  · rw [retired_iff]
    exact sound.covered seq taken

theorem step_sound {version : Nat} {op : Op} (sound : Sound world)
    (allowed : guard version world op) :
    Sound (step version world op).1 ∧ Later world (step version world op).1 := by
  cases op with
  | accept seq retirePriorTo id token draw =>
    simp only [step]
    split
    case isFalse refused =>
      rw [(accept_of_not_takes refused).1]
      exact ⟨sound, fun _ retired => retired, Int.le_refl _⟩
    case isTrue takes =>
      have admitted := allowed takes
      by_cases late : world.acceptor.Late seq
      · rw [if_pos late] at admitted
        obtain ⟨present, above⟩ := admitted
        rw [accept_of_late takes.1 late]
        have moves := @moves_retire world.acceptor seq
        obtain ⟨moved_sound, moved_later⟩ := sound.moves moves
        have erased : (seq : Int) ∉ (world.acceptor.retire seq).1.dstids := by
          rw [← lookup_eq_none, lookup_retire, if_pos rfl]
        obtain ⟨taken_sound, taken_later⟩ := @Sound.take _ seq moved_sound
          (.inr ((retired_moves moves).2 (present.elim (fun stored => .inr ⟨stored, erased⟩) .inl)))
          _ (fun other stored => by
            by_contra below
            have same := above _ (moves.stored _ stored) (Int.not_le.1 below)
            exact erased (same ▸ stored))
        exact ⟨taken_sound, moved_later.trans taken_later⟩
      · rw [if_neg late] at admitted
        obtain ⟨unretired, border_le, reached⟩ := admitted
        exact sound.accept takes.1 late (takes.2.resolve_left late) unretired border_le
          (Int.natCast_nonneg seq) reached
  | maybeUpdateId handshakeComplete localMaxActiveConn draw =>
    exact sound.moves (moves_maybeUpdateId _ _ _)
  | retire seq => exact sound.moves (moves_retire seq)
  | onPacketSent => exact sound.moves (moves_of_eq rfl rfl)
  | onZeroLengthAcception => exact sound.moves (moves_of_eq rfl rfl)
  | send capacity => exact sound.send capacity
  | mark index state => exact sound.mark index state

def start (before : IDAcceptor) (perId maxPerId : Nat) (mode : ConnIDChangeMode) : World where
  acceptor := before.reset perId maxPerId mode

/-- Every number that was taken is either stored or retired. -/
def Placed (world : World) : Prop :=
  ∀ seq ∈ world.accepted, (seq ∈ world.acceptor.dstids ∧ ¬ world.Retired seq) ∨
    (seq ∉ world.acceptor.dstids ∧ world.Retired seq)

/-- What is retired in a world or below its border is not stored in a later one, and retired if a
frame for it was taken. -/
def StaysRetired (world next : World) : Prop :=
  ∀ seq, world.Retired seq ∨ seq < world.border →
    seq ∉ next.acceptor.dstids ∧ (seq ∈ next.accepted → next.Retired seq)

/-- In every run that meets the condition, every number taken is either stored or retired, and
numbers that are retired or below the border stay away and are answered. -/
theorem retirement_tracked {before : IDAcceptor} {perId maxPerId version : Nat}
    {mode : ConnIDChangeMode} {first second : List Op}
    (guarded : Guarded (step version) (guard version) (start before perId maxPerId mode)
      (first ++ second)) :
    let world := final (step version) (start before perId maxPerId mode) first
    let next := final (step version) (start before perId maxPerId mode) (first ++ second)
    Placed next ∧ StaysRetired world next := by
  intro world next
  obtain ⟨guarded_first, guarded_second⟩ := (guarded_append _ _ _).1 guarded
  have started : Sound (start before perId maxPerId mode) :=
    ⟨nofun, nofun, nofun, nofun, nofun, nofun, nofun⟩
  have sound : Sound world := @invariant_of_guarded _ _ _ (step version) (guard version)
    (fun world _ => Sound world) (fun world _ op sound allowed => (step_sound sound allowed).1)
    _ [] _ started guarded_first
  have reached : Sound next ∧ Later world next := by
    have next_eq : next = final (step version) world second := final_append _ _ _
    rw [next_eq]
    exact @invariant_of_guarded _ _ _ _ _ (fun next _ => Sound next ∧ Later _ _)
      (fun next _ op holds allowed =>
        (step_sound holds.1 allowed).imp_right fun later => holds.2.trans later)
      _ [] _ ⟨sound, fun _ retired => retired, Int.le_refl _⟩ guarded_second
  obtain ⟨next_sound, later⟩ := reached
  refine ⟨fun seq taken => ?_, fun seq gone => ?_⟩
  · rcases next_sound.covered seq taken with stored | retired
    · exact .inl ⟨stored, next_sound.disjoint seq stored⟩
    · exact .inr ⟨fun stored => next_sound.disjoint seq stored retired, retired⟩
  · have away : seq ∉ next.acceptor.dstids := by
      intro stored
      rcases gone with retired | below
      · exact next_sound.disjoint seq stored (later.retired seq retired)
      · have := next_sound.border_le seq stored
        have := later.border_le
        omega
    exact ⟨away, fun taken => (next_sound.covered seq taken).resolve_left away⟩

/-- IDs 0 to 2 come, 0 is retired by a border, its frame is lost and sent again, and a second frame
for it changes nothing. -/
theorem retirement_tracked_lost :
    let first : List Op := [.accept 0 0 [7] [] 0, .accept 1 0 [8] [] 0, .maybeUpdateId true 4 0,
      .send 10, .accept 2 1 [9] [] 0]
    let second : List Op := [.mark 0 .lost, .send 10, .accept 0 0 [7] [] 0, .mark 1 .ack, .send 10]
    let begin := start {} 1 10 .constant
    Guarded (step version1) (guard version1) begin (first ++ second) ∧
      Placed (final (step version1) begin (first ++ second)) ∧
      StaysRetired (final (step version1) begin first)
        (final (step version1) begin (first ++ second)) :=
  ⟨by decide +kernel, retirement_tracked (by decide +kernel)⟩

/-- A retired number is stored again when its frame comes twice; one that was jumped over is
dropped; one stays stored below a border, as a higher one was retired before. -/
theorem retirement_leaks :
    let run (ops : List Op) := final (step version1) (start {} 1 10 .none) ops
    let again := [.accept 0 0 [7] [] 0, .accept 1 0 [8] [] 0, .retire 1]
    let jumped := run [.accept 0 0 [7] [] 0, .accept 3 0 [8] [] 0, .maybeUpdateId true 4 0,
      .accept 2 0 [9] [] 0]
    let below := run [.accept 0 0 [7] [] 0, .accept 1 0 [8] [] 0, .accept 2 0 [9] [] 0,
      .accept 3 0 [10] [] 0, .retire 3, .accept 4 3 [11] [] 0]
    ((run again).Retired 1 ∧ 1 ∈ (run (again ++ [.accept 1 0 [8] [] 0])).acceptor.dstids) ∧
      (2 ∈ jumped.accepted ∧ 2 ∉ jumped.acceptor.dstids ∧ ¬ jumped.Retired 2) ∧
      (below.border = 3 ∧ 2 ∈ below.acceptor.dstids) := by
  decide +kernel

end Retirement

end Futils.Quic.ConnId
