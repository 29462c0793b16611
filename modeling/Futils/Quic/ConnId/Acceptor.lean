import Mathlib.Data.List.AList
import Futils.Lib.Machine
import Futils.Quic.Types

/-!
# Destination connection IDs

`IDAcceptor` stores the connection IDs the peer issued, by sequence number, and the one in use.  A
NEW_CONNECTION_ID frame may ask to retire all IDs below a border.  The ID in use stays a stored one
as long as no border passes it: `retire_under` erases the ID in use before `update_active` looks for
another one.
-/

namespace Futils.Quic.ConnId

open Lib.Machine AList Option

inductive ConnIDChangeMode
  | none
  | constant
  | random
  deriving DecidableEq

def invalidSeq : Int := -1

structure IDStorage where
  seq : Int := invalidSeq
  id : Bytes := []
  statelessResetToken : Bytes := List.replicate 16 0
  deriving DecidableEq

def version1 : Nat := 1

structure IDAcceptor where
  changeMode : ConnIDChangeMode := .none
  useZeroLength : Bool := false
  maxPacketPerId : Nat := 0
  /-- The connection IDs, by sequence number. -/
  dstids : AList fun _ : Int => IDStorage := ∅
  waitlist : List Int := []
  highestAccepted : Int := invalidSeq
  highestRetired : Int := invalidSeq
  activeConnid : Int := invalidSeq
  packetCountSinceIdChanged : Nat := 0
  packetPerId : Nat := 0

namespace IDAcceptor

variable (acceptor : IDAcceptor)

/-- `reset`; the default of `max_p_per_id` is taken from the mode before. -/
def reset (perId maxPerId : Nat) (mode : ConnIDChangeMode) : IDAcceptor where
  changeMode := mode
  maxPacketPerId := if acceptor.changeMode = .random ∧ maxPerId = 0 then 10000 else maxPerId
  packetPerId := perId

def retire (seq : Int) : IDAcceptor × Bool :=
  if seq ∈ acceptor.dstids then
    ({ acceptor with
      dstids := acceptor.dstids.erase seq
      waitlist := acceptor.waitlist ++ [seq]
      highestRetired := max acceptor.highestRetired seq }, true)
  else (acceptor, false)

/-- The loop of `retire_under`, over `count` sequence numbers from `first` on. -/
def retireLoop (acceptor : IDAcceptor) : Int → Nat → IDAcceptor
  | _, 0 => acceptor
  | first, count + 1 => retireLoop (acceptor.retire first).1 (first + 1) count

def retireUnder (border : Int) : IDAcceptor :=
  if border ≤ acceptor.highestRetired then acceptor
  else
    let first := acceptor.highestRetired + 1
    { acceptor.retireLoop first (border - first).toNat with highestRetired := border - 1 }

def choose (seq : Int) : IDStorage := (acceptor.dstids.lookup seq).getD {}

/-- The loop of `update_active`: the first of `count` sequence numbers from `first` on that is
stored. -/
def findLoop : Int → Nat → Option Int
  | _, 0 => none
  | first, count + 1 =>
    if (acceptor.choose first).seq = first then some first else findLoop (first + 1) count

/-- `update_active`; `draw` is the random number for the next change. -/
def updateActive (draw : Nat) : IDAcceptor × Option QUICError :=
  if acceptor.dstids.keys.length < 2 ∧ 0 ≤ acceptor.activeConnid then (acceptor, none)
  else
    let (retired, ok) :=
      if 0 ≤ acceptor.activeConnid then acceptor.retire acceptor.activeConnid else (acceptor, true)
    if !ok then
      (retired, some { msg := "failed to retire active connection id. unexpected error." })
    else
      let first := retired.activeConnid + 1
      match retired.findLoop first (retired.highestAccepted + 1 - first).toNat with
      | none => (retired, some { msg := "no connection id available" })
      | some seq =>
        ({ retired with
          activeConnid := seq
          packetCountSinceIdChanged := 0
          packetPerId := if retired.changeMode = .random then draw % retired.maxPacketPerId
            else retired.packetPerId }, none)

/-- `accept`, behind the checks of the frame: store the connection ID, or compare it with the one
that is stored. -/
def store (seq : Int) (id token : Bytes) : IDAcceptor × Option QUICError :=
  let stored := acceptor.choose seq
  if stored.seq = invalidSeq then
    ({ acceptor with
      dstids := acceptor.dstids.insert seq ⟨seq, id, token⟩
      highestAccepted := max acceptor.highestAccepted seq }, none)
  else if stored.id ≠ id then
    (acceptor, some
      { msg := "different connection ID on same sequence number"
        transportError := .protocolViolation
        frameType := .newConnectionId })
  else if stored.statelessResetToken ≠ token then
    (acceptor, some
      { msg := "different stateless reset token on same sequence number"
        transportError := .protocolViolation
        frameType := .newConnectionId })
  else ({ acceptor with highestAccepted := max acceptor.highestAccepted stored.seq }, none)

def accept (version : Nat) (seq retirePriorTo : Int) (id token : Bytes) (draw : Nat) :
    IDAcceptor × Option QUICError :=
  if acceptor.useZeroLength then
    (acceptor, some
      { msg := "recv NewConnectionID frame when using zero length connection ID"
        transportError := .connectionIdLimitError
        frameType := .retireConnectionId })
  else if seq < acceptor.activeConnid ∨ seq < acceptor.highestRetired then
    ((acceptor.retire seq).1, none)
  else if version = version1 ∧ (id.length < 1 ∨ 20 < id.length) then
    (acceptor, some
      { msg := "invalid connection ID length for QUIC version 1"
        transportError := .frameEncodingError
        packetType := .oneRTT
        frameType := .newConnectionId })
  else if seq < retirePriorTo then
    (acceptor, some
      { msg := "retire_proior_to is higher than sequence_number"
        transportError := .protocolViolation
        frameType := .newConnectionId })
  else
    match (acceptor.retireUnder retirePriorTo).store seq id token with
    | (stored, some error) => (stored, some error)
    | (stored, none) =>
      if stored.activeConnid < retirePriorTo then stored.updateActive draw else (stored, none)

def maybeUpdateId (handshakeComplete : Bool) (localMaxActiveConn draw : Nat) :
    IDAcceptor × Option QUICError :=
  if !handshakeComplete then (acceptor, none)
  else if (acceptor.dstids.keys.length ≠ 0 ∧ acceptor.activeConnid = 0) ∨
      (acceptor.changeMode ≠ .none ∧ localMaxActiveConn ≤ acceptor.dstids.keys.length * 2 ∧
        acceptor.packetPerId ≤ acceptor.packetCountSinceIdChanged) then
    acceptor.updateActive draw
  else (acceptor, none)

/-- `pick_up_id`; without an ID in use it is the one of the first packets. -/
def pickUpId (initialOrRetry : Bytes) : Bytes :=
  if acceptor.useZeroLength then []
  else if acceptor.activeConnid < 0 then initialOrRetry
  else (acceptor.choose acceptor.activeConnid).id

def onPacketSent : IDAcceptor :=
  { acceptor with
    packetCountSinceIdChanged := (acceptor.packetCountSinceIdChanged + 1) % 2 ^ 32 }

section Frames

/-- Only the stored IDs, the list of IDs to retire and `highest_retired` differ. -/
structure SameIds (acceptor next : IDAcceptor) : Prop where
  useZeroLength_eq : next.useZeroLength = acceptor.useZeroLength
  activeConnid_eq : next.activeConnid = acceptor.activeConnid
  highestAccepted_eq : next.highestAccepted = acceptor.highestAccepted

variable {acceptor}

theorem sameIds_retire (seq : Int) : SameIds acceptor (acceptor.retire seq).1 := by
  rw [retire]
  split <;> exact ⟨rfl, rfl, rfl⟩

theorem lookup_retire (seq other : Int) : (acceptor.retire seq).1.dstids.lookup other =
    if other = seq then none else acceptor.dstids.lookup other := by
  rw [retire]
  by_cases stored : seq ∈ acceptor.dstids
  · rw [if_pos stored]
    split
    case isTrue same => rw [same, lookup_erase]
    case isFalse differs => rw [lookup_erase_ne differs]
  · rw [if_neg stored]
    split
    case isTrue same => rw [same, lookup_eq_none.2 stored]
    case isFalse => rfl

theorem retireLoop_spec (first : Int) (count : Nat) :
    SameIds acceptor (acceptor.retireLoop first count) ∧
      ∀ other, (acceptor.retireLoop first count).dstids.lookup other =
        if first ≤ other ∧ other < first + count then none else acceptor.dstids.lookup other := by
  induction count generalizing acceptor first with
  | zero =>
    refine ⟨⟨rfl, rfl, rfl⟩, fun other => ?_⟩
    rw [if_neg (by omega)]
    rfl
  | succ count ih =>
    obtain ⟨same, lookups⟩ := @ih _ _
    have retired := @sameIds_retire acceptor first
    refine ⟨⟨same.useZeroLength_eq.trans retired.useZeroLength_eq,
      same.activeConnid_eq.trans retired.activeConnid_eq,
      same.highestAccepted_eq.trans retired.highestAccepted_eq⟩, fun other => ?_⟩
    rw [retireLoop, lookups, lookup_retire]
    grind

/-- `retire_under` erases the IDs between the retired ones and the border. -/
theorem retireUnder_spec (border : Int) :
    SameIds acceptor (acceptor.retireUnder border) ∧
      (acceptor.retireUnder border).highestRetired = max acceptor.highestRetired (border - 1) ∧
      ∀ other, (acceptor.retireUnder border).dstids.lookup other =
        if acceptor.highestRetired < other ∧ other < border then none
        else acceptor.dstids.lookup other := by
  rw [retireUnder]
  by_cases passed : border ≤ acceptor.highestRetired
  · rw [if_pos passed]
    refine ⟨⟨rfl, rfl, rfl⟩, by omega, fun other => ?_⟩
    rw [if_neg (by omega)]
  · rw [if_neg passed]
    obtain ⟨same, lookups⟩ := @retireLoop_spec _ _ _
    refine ⟨⟨same.useZeroLength_eq, same.activeConnid_eq, same.highestAccepted_eq⟩,
      by simp only; omega, fun other => ?_⟩
    grind

theorem findLoop_spec {first seq : Int} {count : Nat} (first_ge : 0 ≤ first)
    (keys : ∀ other storage, acceptor.dstids.lookup other = some storage → storage.seq = other)
    (stored : seq ∈ acceptor.dstids) (inside : first ≤ seq ∧ seq < first + count) :
    ∃ found, acceptor.findLoop first count = some found ∧ first ≤ found ∧
      found ∈ acceptor.dstids ∧ ∀ other ∈ acceptor.dstids, first ≤ other → found ≤ other := by
  induction count generalizing first with
  | zero => omega
  | succ count ih =>
    rw [findLoop]
    by_cases here : first ∈ acceptor.dstids
    · obtain ⟨storage, storage_eq⟩ := isSome_iff_exists.1 (lookup_isSome.2 here)
      rw [if_pos (by rw [choose, storage_eq]; exact keys _ _ storage_eq)]
      exact ⟨first, rfl, Int.le_refl _, here, fun _ _ above => above⟩
    · have not_here : (acceptor.choose first).seq ≠ first := by
        rw [choose, lookup_eq_none.2 here]
        simp only [getD_none, invalidSeq]
        omega
      have differs : seq ≠ first := by
        rintro rfl
        exact here stored
      rw [if_neg not_here]
      obtain ⟨found, found_eq, above, found_mem, least⟩ := @ih (first + 1) (by omega) (by omega)
      refine ⟨found, found_eq, by omega, found_mem, fun other other_mem other_ge => ?_⟩
      have other_ne : other ≠ first := by
        rintro rfl
        exact here other_mem
      exact least _ other_mem (by omega)

end Frames

/-- The ID in use is stored, and every stored ID is usable after it. -/
structure Usable (acceptor : IDAcceptor) : Prop where
  not_zero : acceptor.useZeroLength = false
  active_valid : 0 ≤ acceptor.activeConnid
  active_mem : acceptor.activeConnid ∈ acceptor.dstids
  stored : ∀ seq storage, acceptor.dstids.lookup seq = some storage →
    storage.seq = seq ∧ acceptor.activeConnid ≤ seq ∧ seq ≤ acceptor.highestAccepted ∧
      storage.id ≠ []
  retired_lt : acceptor.highestRetired < acceptor.activeConnid

/-- A well-formed frame that asks to retire the ID in use. -/
def PassesActive (version : Nat) (seq retirePriorTo : Int) (id : Bytes) : Prop :=
  ¬ (version = version1 ∧ (id.length < 1 ∨ 20 < id.length)) ∧ retirePriorTo ≤ seq ∧
    acceptor.activeConnid < retirePriorTo
deriving Decidable

namespace Usable

variable {acceptor}

variable (usable : Usable acceptor)
include usable

theorem le_of_mem {seq : Int} (member : seq ∈ acceptor.dstids) :
    acceptor.activeConnid ≤ seq ∧ seq ≤ acceptor.highestAccepted := by
  obtain ⟨storage, storage_eq⟩ := isSome_iff_exists.1 (lookup_isSome.2 member)
  obtain ⟨-, above, below, -⟩ := usable.stored seq _ storage_eq
  exact ⟨above, below⟩

theorem retire {seq : Int} (below : seq < acceptor.activeConnid) :
    Usable (acceptor.retire seq).1 := by
  have not_stored : seq ∉ acceptor.dstids := fun member => by
    have := (usable.le_of_mem member).1
    omega
  rw [IDAcceptor.retire, if_neg not_stored]
  exact usable

theorem retireUnder {border : Int}
    (border_le : border ≤ acceptor.activeConnid) : Usable (acceptor.retireUnder border) := by
  obtain ⟨same, retired_eq, lookups⟩ := @retireUnder_spec _ _
  have kept : ∀ other, (acceptor.retireUnder border).dstids.lookup other =
      acceptor.dstids.lookup other := by
    intro other
    rw [lookups]
    split
    case isTrue erased =>
      have absent : other ∉ acceptor.dstids := fun member => by
        have := (usable.le_of_mem member).1
        omega
      rw [lookup_eq_none.2 absent]
    case isFalse => rfl
  have retired_lt := usable.retired_lt
  refine ⟨same.useZeroLength_eq.trans usable.not_zero, ?_, ?_, fun seq storage storage_eq => ?_, ?_⟩
  · rw [same.activeConnid_eq]
    exact usable.active_valid
  · rw [← lookup_isSome, kept, same.activeConnid_eq, lookup_isSome]
    exact usable.active_mem
  · rw [same.activeConnid_eq, same.highestAccepted_eq]
    rw [kept] at storage_eq
    exact usable.stored seq _ storage_eq
  · rw [same.activeConnid_eq]
    omega

/-- Storing an ID that is not empty, at or above the one in use. -/
theorem store {seq : Int} {id token : Bytes}
    (above : acceptor.activeConnid ≤ seq) (not_empty : id ≠ []) :
    Usable (acceptor.store seq id token).1 := by
  rw [IDAcceptor.store]
  by_cases new : (acceptor.choose seq).seq = invalidSeq
  · rw [if_pos new]
    refine ⟨usable.not_zero, usable.active_valid, ?_, fun other storage storage_eq => ?_,
      usable.retired_lt⟩
    · exact (mem_insert _).2 (.inr usable.active_mem)
    · by_cases same : other = seq
      · subst same
        rw [lookup_insert] at storage_eq
        cases storage_eq
        exact ⟨rfl, above, by simp only; omega, not_empty⟩
      · rw [lookup_insert_ne same] at storage_eq
        obtain ⟨seq_eq, other_ge, other_le, stored_not_empty⟩ := usable.stored _ _ storage_eq
        exact ⟨seq_eq, other_ge, by simp only; omega, stored_not_empty⟩
  · rw [if_neg new]
    split
    · exact usable
    split
    · exact usable
    · refine ⟨usable.not_zero, usable.active_valid, usable.active_mem,
        fun other storage storage_eq => ?_, usable.retired_lt⟩
      obtain ⟨seq_eq, other_ge, other_le, stored_not_empty⟩ := usable.stored _ _ storage_eq
      exact ⟨seq_eq, other_ge, by simp only; omega, stored_not_empty⟩

theorem updateActive (draw : Nat) :
    Usable (acceptor.updateActive draw).1 ∧ (acceptor.updateActive draw).2 = none := by
  have active_valid := usable.active_valid
  have retired_lt := usable.retired_lt
  rw [IDAcceptor.updateActive]
  by_cases alone : acceptor.dstids.keys.length < 2 ∧ 0 ≤ acceptor.activeConnid
  · rw [if_pos alone]
    exact ⟨usable, rfl⟩
  · rw [if_neg alone, if_pos active_valid, IDAcceptor.retire, if_pos usable.active_mem]
    simp only [Bool.not_true, Bool.false_eq_true, if_false]
    -- Some other ID is stored, and it is above the one that was retired.
    have keys_mem := usable.active_mem
    have length_erase := List.length_erase_of_mem keys_mem
    obtain ⟨seq, seq_mem⟩ := List.exists_mem_of_length_pos
      (show 0 < (acceptor.dstids.keys.erase acceptor.activeConnid).length by omega)
    rw [← keys_erase] at seq_mem
    obtain ⟨seq_ne, seq_stored⟩ := mem_erase.1 seq_mem
    obtain ⟨seq_ge, seq_le⟩ := usable.le_of_mem seq_stored
    obtain ⟨_, found_eq, found_ge, found_mem, least⟩ := @findLoop_spec
      { acceptor with
        dstids := acceptor.dstids.erase _
        waitlist := acceptor.waitlist ++ [acceptor.activeConnid]
        highestRetired := max acceptor.highestRetired acceptor.activeConnid }
      (acceptor.activeConnid + 1) seq
      (acceptor.highestAccepted + 1 - (acceptor.activeConnid + 1)).toNat (by omega)
      (fun other storage storage_eq => by
        have other_ne : other ≠ acceptor.activeConnid := by
          rintro rfl
          simp at storage_eq
        rw [lookup_erase_ne other_ne] at storage_eq
        exact (usable.stored _ _ storage_eq).1)
      seq_mem (by omega)
    simp only [found_eq]
    refine ⟨⟨usable.not_zero, by simp only; omega, found_mem, fun other storage storage_eq => ?_,
      by simp only; omega⟩, by simp⟩
    have other_mem := lookup_isSome.1 (by rw [storage_eq]; rfl)
    obtain ⟨other_ne, other_stored⟩ := mem_erase.1 other_mem
    have other_ge := (usable.le_of_mem other_stored).1
    rw [lookup_erase_ne other_ne] at storage_eq
    obtain ⟨seq_eq, -, other_le, not_empty⟩ := usable.stored _ _ storage_eq
    exact ⟨seq_eq, least _ other_mem (by omega), other_le, not_empty⟩

/-- A frame whose border is not above the ID in use. -/
theorem accept {version : Nat} {seq retirePriorTo : Int} {id token : Bytes} {draw : Nat}
    (border_le : ¬ PassesActive acceptor version seq retirePriorTo id)
    (not_empty : version = version1 ∨ id ≠ []) :
    Usable (acceptor.accept version seq retirePriorTo id token draw).1 := by
  have retired_lt := usable.retired_lt
  rw [IDAcceptor.accept, if_neg (by simp [usable.not_zero])]
  by_cases old : seq < acceptor.activeConnid ∨ seq < acceptor.highestRetired
  · rw [if_pos old]
    exact usable.retire (by omega)
  rw [if_neg old]
  by_cases wrong_size : version = version1 ∧ (id.length < 1 ∨ 20 < id.length)
  · rw [if_pos wrong_size]
    exact usable
  rw [if_neg wrong_size]
  by_cases wrong_border : seq < retirePriorTo
  · rw [if_pos wrong_border]
    exact usable
  rw [if_neg wrong_border]
  have below : retirePriorTo ≤ acceptor.activeConnid := by
    rcases Int.lt_or_le acceptor.activeConnid retirePriorTo with above | below
    · exact absurd ⟨wrong_size, by omega, above⟩ border_le
    · exact below
  have id_ne : id ≠ [] := by
    rcases not_empty with is_version1 | id_ne
    · rintro rfl
      exact wrong_size ⟨is_version1, .inl (by simp)⟩
    · exact id_ne
  have under := usable.retireUnder below
  obtain ⟨same, -, -⟩ := @retireUnder_spec _ _
  have above : (acceptor.retireUnder retirePriorTo).activeConnid ≤ seq := by
    rw [same.activeConnid_eq]
    omega
  have stored := @Usable.store _ under seq id token above id_ne
  split
  case h_1 next error stored_eq =>
    rw [stored_eq] at stored
    exact stored
  case h_2 next stored_eq =>
    rw [stored_eq] at stored
    split
    · exact (stored.updateActive _).1
    · exact stored

theorem maybeUpdateId (handshakeComplete : Bool) (localMaxActiveConn draw : Nat) :
    Usable (acceptor.maybeUpdateId handshakeComplete localMaxActiveConn draw).1 := by
  rw [IDAcceptor.maybeUpdateId]
  split
  · exact usable
  split
  · exact (usable.updateActive _).1
  · exact usable

end Usable

theorem usable_updateActive {seq : Int} {storage : IDStorage} (draw : Nat)
    (not_zero : acceptor.useZeroLength = false) (no_active : acceptor.activeConnid = invalidSeq)
    (only : ∀ other, acceptor.dstids.lookup other = if other = seq then some storage else none)
    (seq_ge : 0 ≤ seq) (seq_eq : storage.seq = seq) (id_ne : storage.id ≠ [])
    (seq_le : seq ≤ acceptor.highestAccepted) (retired_lt : acceptor.highestRetired < seq) :
    Usable (acceptor.updateActive draw).1 := by
  have no_active_value : acceptor.activeConnid = -1 := no_active
  have only_stored : ∀ other found, acceptor.dstids.lookup other = some found →
      other = seq ∧ found = storage := by
    intro other found found_eq
    rw [only] at found_eq
    split at found_eq
    case isTrue same => exact ⟨same, (some.inj found_eq).symm⟩
    case isFalse => cases found_eq
  have seq_mem := lookup_isSome.1 (by rw [only, if_pos rfl]; rfl)
  obtain ⟨found, found_eq, -, found_mem, -⟩ := @findLoop_spec _ (acceptor.activeConnid + 1) seq
    (acceptor.highestAccepted + 1 - (acceptor.activeConnid + 1)).toNat (by omega)
    (fun other found found_eq => by
      obtain ⟨rfl, rfl⟩ := only_stored _ _ found_eq
      exact seq_eq)
    seq_mem (by omega)
  obtain ⟨stored, stored_eq⟩ := isSome_iff_exists.1 (lookup_isSome.2 found_mem)
  obtain ⟨rfl, -⟩ := only_stored _ _ stored_eq
  rw [updateActive, if_neg (by omega), if_neg (by omega)]
  simp only [found_eq]
  refine ⟨not_zero, seq_ge, found_mem, fun other stored stored_eq => ?_, retired_lt⟩
  obtain ⟨rfl, rfl⟩ := only_stored _ _ stored_eq
  exact ⟨seq_eq, Int.le_refl _, seq_le, id_ne⟩

theorem usable_of_first {perId maxPerId version : Nat} {mode : ConnIDChangeMode}
    {before : IDAcceptor} {seq retirePriorTo : Int} {id token : Bytes} {draw : Nat}
    (seq_ge : 0 ≤ seq) (retire_ge : 0 ≤ retirePriorTo) (id_ne : id ≠ [])
    (accepted : ((before.reset perId maxPerId mode).accept version seq retirePriorTo id token
      draw).2 = none) :
    Usable ((before.reset perId maxPerId mode).accept version seq retirePriorTo id token draw).1 := by
  obtain ⟨start, start_eq⟩ : ∃ start, before.reset perId maxPerId mode = start := ⟨_, rfl⟩
  have empty : ∀ other, start.dstids.lookup other = none := by
    rw [← start_eq]
    exact fun other => rfl
  have not_zero : start.useZeroLength = false := by rw [← start_eq]; rfl
  have no_active : start.activeConnid = -1 := by rw [← start_eq]; rfl
  have no_retired : start.highestRetired = -1 := by rw [← start_eq]; rfl
  rw [start_eq] at accepted ⊢
  rw [accept, if_neg (by simp [not_zero]), if_neg (by omega)] at accepted ⊢
  by_cases wrong_size : version = version1 ∧ (id.length < 1 ∨ 20 < id.length)
  · rw [if_pos wrong_size] at accepted
    cases accepted
  rw [if_neg wrong_size] at accepted ⊢
  by_cases wrong_border : seq < retirePriorTo
  · rw [if_pos wrong_border] at accepted
    cases accepted
  rw [if_neg wrong_border] at accepted ⊢
  obtain ⟨same, retired_eq, lookups⟩ := @retireUnder_spec _ _
  generalize start.retireUnder retirePriorTo = under at accepted same retired_eq lookups ⊢
  have under_empty : ∀ other, under.dstids.lookup other = none := by
    intro other
    rw [lookups, empty, ite_self]
  have active_eq := same.activeConnid_eq
  have stored_eq : under.store seq id token = ({ under with
      dstids := under.dstids.insert seq ⟨seq, id, token⟩
      highestAccepted := max under.highestAccepted seq }, none) :=
    if_pos (by rw [choose, under_empty]; rfl)
  rw [stored_eq]
  simp only
  rw [if_pos (by omega)]
  refine @usable_updateActive _ seq ⟨seq, id, token⟩ _ (same.useZeroLength_eq.trans not_zero) ?_
    (fun other => ?_) seq_ge rfl id_ne ?_ ?_
  · simp only [invalidSeq]
    omega
  · split
    case isTrue same_seq => rw [same_seq, lookup_insert]
    case isFalse differs => rw [lookup_insert_ne differs, under_empty]
  · simp only
    omega
  · simp only
    omega

end IDAcceptor

open IDAcceptor

inductive Op
  /-- A NEW_CONNECTION_ID frame is received; `draw` is a random number. -/
  | accept (seq retirePriorTo : Int) (id token : Bytes) (draw : Nat)
  | maybeUpdateId (handshakeComplete : Bool) (localMaxActiveConn draw : Nat)
  | onPacketSent
  deriving DecidableEq

variable (version : Nat) (acceptor : IDAcceptor)

def step : Op → IDAcceptor × Option QUICError
  | .accept seq retirePriorTo id token draw =>
    acceptor.accept version seq retirePriorTo id token draw
  | .maybeUpdateId handshakeComplete localMaxActiveConn draw =>
    acceptor.maybeUpdateId handshakeComplete localMaxActiveConn draw
  | .onPacketSent => (acceptor.onPacketSent, none)

/-- No well-formed frame asks to retire the ID in use; no ID is empty, which version 1 checks. -/
def guard : Op → Prop
  | .accept seq retirePriorTo id _ _ =>
    ¬ acceptor.PassesActive version seq retirePriorTo id ∧ (version = version1 ∨ id ≠ [])
  | .maybeUpdateId .. | .onPacketSent => True

instance (version : Nat) (acceptor : IDAcceptor) (op : Op) :
    Decidable (guard version acceptor op) := by
  cases op <;> dsimp only [guard] <;> infer_instance

theorem step_usable (op : Op) (usable : Usable acceptor)
    (allowed : guard version acceptor op) : Usable (step version acceptor op).1 := by
  cases op with
  | accept seq retirePriorTo id token draw => exact usable.accept allowed.1 allowed.2
  | maybeUpdateId handshakeComplete localMaxActiveConn draw =>
    exact usable.maybeUpdateId _ _ _
  | onPacketSent =>
    exact ⟨usable.not_zero, usable.active_valid, usable.active_mem, usable.stored,
      usable.retired_lt⟩

/-- The ID in use is a stored one, and `pick_up_id` returns it. -/
def ActiveUsable (initialOrRetry : Bytes) : Prop :=
  ∃ storage, acceptor.dstids.lookup acceptor.activeConnid = some storage ∧
    acceptor.pickUpId initialOrRetry = storage.id ∧ storage.id ≠ []

/-- After the first ID, in every run without a frame that asks to retire the ID in use, it is a
stored one. -/
theorem active_id_usable {before : IDAcceptor} {perId maxPerId version : Nat}
    {mode : ConnIDChangeMode} {seq retirePriorTo : Int} {id token : Bytes} {draw : Nat}
    {ops : List Op} (seq_ge : 0 ≤ seq) (retire_ge : 0 ≤ retirePriorTo) (id_ne : id ≠ [])
    (accepted : ((before.reset perId maxPerId mode).accept version seq retirePriorTo id token
      draw).2 = none)
    (guarded : Guarded (step version) (guard version)
      ((before.reset perId maxPerId mode).accept version seq retirePriorTo id token draw).1 ops)
    (initialOrRetry : Bytes) :
    ActiveUsable (final (step version)
      ((before.reset perId maxPerId mode).accept version seq retirePriorTo id token draw).1 ops)
      initialOrRetry := by
  have started := usable_of_first seq_ge retire_ge id_ne accepted
  have usable := @invariant_of_guarded _ _ _ _ _ _ (fun acceptor _ op => step_usable version _ op)
    _ [] ops started guarded
  obtain ⟨storage, storage_eq⟩ := isSome_iff_exists.1
    (lookup_isSome.2 usable.active_mem)
  refine ⟨storage, storage_eq, ?_, (usable.stored _ _ storage_eq).2.2.2⟩
  have active_valid := usable.active_valid
  rw [pickUpId, if_neg (by simp [usable.not_zero]), if_neg (by omega), choose, storage_eq]
  rfl

/-- IDs 0 to 2 are accepted, then the ID in use changes twice. -/
theorem active_id_usable_changed :
    let first := (({} : IDAcceptor).reset 1 10 .constant).accept version1 0 0 [7] [] 0
    let ops := [.accept 1 0 [8] [] 0, .accept 2 0 [9] [] 0, .maybeUpdateId true 4 0, .onPacketSent,
      .maybeUpdateId true 2 0]
    Guarded (step version1) (guard version1) first.1 ops ∧
      ActiveUsable (final (step version1) first.1 ops) [] :=
  ⟨by decide, active_id_usable (by decide) (by decide) (by decide) (by decide) (by decide) []⟩

/-- ID 1 replaces ID 0, which is in use, and no ID is left; with ID 1 stored before, the frame for
ID 2 is rejected. -/
theorem active_id_dangling :
    let first := (({} : IDAcceptor).reset 1 10 .constant).accept version1 0 0 [7] [] 0
    let replaced := first.1.accept version1 1 1 [8] [] 0
    let rejected := (first.1.accept version1 1 0 [8] [] 0).1.accept version1 2 1 [9] [] 0
    (replaced.2 = none ∧ replaced.1.activeConnid ∉ replaced.1.dstids ∧
        replaced.1.pickUpId [] = []) ∧
      rejected.2 = some { msg := "failed to retire active connection id. unexpected error." } := by
  decide

end Futils.Quic.ConnId
