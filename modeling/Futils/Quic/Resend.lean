import Futils.Core.Basic

/-!
# Retransmission of fragments

Every fragment that was sent waits on the record of the packet that carries it.  The record is
marked when the packet is acknowledged or declared lost; `retransmit` then drops the fragment or
hands it to a `send` callback.  Records are named by the index of their packet.
-/

namespace Futils.Quic

open List

inductive IOResult
  | ok
  | idMismatch
  | notInIoState
  | noData
  | blockByStream
  | blockByConn
  | noCapacity
  | cancel
  | invalidData
  | fatal
  deriving DecidableEq

inductive ACKLostState
  | wait
  | ack
  | lost
  deriving DecidableEq

/-- `Resend`: a fragment and the record its `ACKHandler` waits on. -/
structure Resend (Fragment : Type*) where
  frag : Fragment
  /-- The packet whose record is waited for, if any. -/
  wait : Option Nat
  deriving DecidableEq

namespace Resend

section ACKHandler

variable (marks : Nat → ACKLostState)

def isAck (wait : Option Nat) : Bool := wait.any fun record => marks record = .ack

def isLost (wait : Option Nat) : Bool := wait.any fun record => marks record = .lost

end ACKHandler

section Retransmiter

variable {Fragment State : Type*} (marks : Nat → ACKLostState) (observer : Nat)

/-- `detect_ack_and_lost`: drop what was acknowledged and count what was lost. -/
def detectAckAndLost (fragments : List (Resend Fragment)) : List (Resend Fragment) × Nat :=
  let left := fragments.filter fun item => !isAck marks item.wait
  (left, left.countP fun item => isLost marks item.wait)

/-- The `send` callback: the state it leaves, the fragment as it changed it, those handed to
`save_new`, and its result. -/
abbrev Send (Fragment State : Type*) :=
  State → Fragment → State × Fragment × List Fragment × IOResult

/-- `save_new_frag`: the fragment waits on the packet being written. -/
def saveNewFrag (frag : Fragment) : Resend Fragment := ⟨frag, some observer⟩

/-- The loop of `retransmit`: `kept` are the fragments passed, `tmpfrags` the new ones. -/
def retransmitLoop (send : Send Fragment State) :
    State → List (Resend Fragment) → List (Resend Fragment) → List (Resend Fragment) →
      State × List (Resend Fragment) × IOResult
  | state, kept, tmpfrags, [] => (state, kept ++ tmpfrags, .ok)
  | state, kept, tmpfrags, item :: rest =>
    if isAck marks item.wait then retransmitLoop send state kept tmpfrags rest
    else if isLost marks item.wait then
      let (state, frag, saved, res) := send state item.frag
      let tmpfrags := tmpfrags ++ saved.map (saveNewFrag observer)
      match res with
      | .fatal | .invalidData => (state, kept ++ { item with frag := frag } :: rest, res)
      | .noCapacity => (state, kept ++ { item with frag := frag } :: rest ++ tmpfrags, .ok)
      | .notInIoState =>
        retransmitLoop send state (kept ++ [saveNewFrag observer frag]) tmpfrags rest
      | _ => retransmitLoop send state kept tmpfrags rest
    else retransmitLoop send state (kept ++ [item]) tmpfrags rest

def retransmit (send : Send Fragment State) (state : State) (fragments : List (Resend Fragment)) :
    State × List (Resend Fragment) × IOResult :=
  retransmitLoop marks observer send state [] [] fragments

def sent (fragments : List (Resend Fragment)) (frag : Fragment) : List (Resend Fragment) :=
  fragments ++ [saveNewFrag observer frag]

end Retransmiter

section Specification

variable {Fragment State Duty : Type*} (marks : Nat → ACKLostState) (observer : Nat)

/-- Every lost fragment fits in the room left when its turn comes; `cost` is what it takes. -/
def LostFit (fits : Nat → Fragment → Prop) (cost : Nat → Fragment → Nat) :
    Nat → List (Resend Fragment) → Prop
  | _, [] => True
  | room, item :: rest =>
    if isAck marks item.wait = false ∧ isLost marks item.wait = true then
      fits room item.frag ∧ LostFit fits cost (room - cost room item.frag) rest
    else LostFit fits cost room rest

instance decidableLostFit (fits : Nat → Fragment → Prop) (cost : Nat → Fragment → Nat)
    [∀ room frag, Decidable (fits room frag)] :
    ∀ (room : Nat) (items : List (Resend Fragment)), Decidable (LostFit marks fits cost room items)
  | _, [] => .isTrue trivial
  | room, item :: rest =>
    have := decidableLostFit fits cost (room - cost room item.frag) rest
    have := decidableLostFit fits cost room rest
    inferInstanceAs (Decidable (if _ ∧ _ then _ ∧ _ else _))

/-- What the callbacks of `retransmit` are judged by. -/
structure Ledger (Fragment State Duty : Type*) where
  room : State → Nat
  valid : Fragment → Prop
  carried : State → Fragment → Prop
  covers : Fragment → Duty → Prop
  fits : Nat → Fragment → Prop
  cost : Nat → Fragment → Nat

/-- The fragments a callback leaves for the packet being written. -/
def leftovers (result : State × Fragment × List Fragment × IOResult) : List Fragment :=
  result.2.2.1 ++ if result.2.2.2 = .notInIoState then [result.2.1] else []

/-- A callback has resent a fragment: whatever stood for something is carried by the packet. -/
structure Resent (ledger : Ledger Fragment State Duty) (state : State) (frag : Fragment)
    (result : State × Fragment × List Fragment × IOResult) : Prop where
  goes_on : result.2.2.2 = .ok ∨ result.2.2.2 = .notInIoState
  room_eq : ledger.room result.1 = ledger.room state - ledger.cost (ledger.room state) frag
  left : ∀ new ∈ leftovers result, ledger.valid new ∧ ledger.carried result.1 new
  covered : ∀ duty, ledger.covers frag duty → ∃ new ∈ leftovers result, ledger.covers new duty
  carried_mono : ∀ other, ledger.carried state other → ledger.carried result.1 other

/-- A callback that leaves the fragment itself. -/
theorem Resent.of_self {ledger : Ledger Fragment State Duty} {state : State} {frag : Fragment}
    {result : State × Fragment × List Fragment × IOResult}
    (goes_on : result.2.2.2 = .ok ∨ result.2.2.2 = .notInIoState)
    (self : leftovers result = [frag]) (valid : ledger.valid frag)
    (room_eq : ledger.room result.1 = ledger.room state - ledger.cost (ledger.room state) frag)
    (carried : ledger.carried result.1 frag)
    (carried_mono : ∀ other, ledger.carried state other → ledger.carried result.1 other) :
    Resent ledger state frag result :=
  ⟨goes_on, room_eq, by simp [self, valid, carried], fun _ covered => ⟨frag, by simp [self], covered⟩,
    carried_mono⟩

/-- A callback that resends every fragment that fits. -/
def Faithful (ledger : Ledger Fragment State Duty) (send : Send Fragment State) : Prop :=
  ∀ state frag, ledger.valid frag → ledger.fits (ledger.room state) frag →
    Resent ledger state frag (send state frag)

/-- What a faithful callback makes of `rest` behind `passed`: each is kept or waits on the packet
that carries it, and only acknowledged ones are gone. -/
structure Retransmitted (ledger : Ledger Fragment State Duty) (state : State)
    (passed rest : List (Resend Fragment)) (result : State × List (Resend Fragment) × IOResult) :
    Prop where
  ok : result.2.2 = .ok
  passed_kept : ∀ item ∈ passed, item ∈ result.2.1
  /-- Fragments in the list are waited for as before or were just sent. -/
  left : ∀ item ∈ result.2.1, item ∈ passed ∨ item ∈ rest ∨
    (item.wait = some observer ∧ ledger.valid item.frag ∧ ledger.carried result.1 item.frag)
  covered : ∀ item ∈ rest, isAck marks item.wait = false → ∀ duty, ledger.covers item.frag duty →
    ∃ new ∈ result.2.1, ledger.covers new.frag duty
  carried_mono : ∀ other, ledger.carried state other → ledger.carried result.1 other

variable {marks observer} {ledger : Ledger Fragment State Duty} {send : Send Fragment State}

theorem Retransmitted.of_resent {state : State} {passed later rest : List (Resend Fragment)}
    {item : Resend Fragment} {sent : State × Fragment × List Fragment × IOResult}
    {result : State × List (Resend Fragment) × IOResult}
    (resent : Resent ledger state item.frag sent)
    (later_mem : ∀ other, other ∈ later ↔
      other ∈ passed ∨ ∃ new ∈ leftovers sent, saveNewFrag observer new = other)
    (done : Retransmitted marks observer ledger sent.1 later rest result) :
    Retransmitted marks observer ledger state passed (item :: rest) result where
  ok := done.ok
  passed_kept other member := done.passed_kept _ ((later_mem _).2 (.inl member))
  left other member := by
    rcases done.left other member with old | old | fresh
    · rcases (later_mem other).1 old with old | ⟨new, new_mem, rfl⟩
      · exact .inl old
      · obtain ⟨valid, carried⟩ := resent.left new new_mem
        exact .inr (.inr ⟨rfl, valid, done.carried_mono new carried⟩)
    · exact .inr (.inl (mem_cons_of_mem _ old))
    · exact .inr (.inr fresh)
  covered other member not_ack duty covers := by
    rcases mem_cons.1 member with rfl | member
    · obtain ⟨new, new_mem, covers⟩ := resent.covered _ covers
      exact ⟨saveNewFrag _ new,
        done.passed_kept _ ((later_mem _).2 (.inr ⟨new, new_mem, rfl⟩)), covers⟩
    · exact done.covered _ member not_ack _ covers
  carried_mono other carried := done.carried_mono _ (resent.carried_mono _ carried)

theorem retransmitLoop_faithful (faithful : Faithful ledger send) {state : State}
    {kept tmpfrags rest : List (Resend Fragment)} (valid : ∀ item ∈ rest, ledger.valid item.frag)
    (fit : LostFit marks ledger.fits ledger.cost (ledger.room state) rest) :
    Retransmitted marks observer ledger state (kept ++ tmpfrags) rest
      (retransmitLoop marks observer send state kept tmpfrags rest) := by
  induction rest generalizing state kept tmpfrags with
  | nil =>
    exact
      { ok := rfl
        passed_kept := fun _ member => member
        left := fun _ member => .inl member
        covered := by simp
        carried_mono := fun _ carried => carried }
  | cons item rest ih =>
    have rest_valid := (forall_mem_cons.1 valid).2
    rw [retransmitLoop]
    rw [LostFit] at fit
    cases acked : isAck marks item.wait with
    | true =>
      rw [if_neg (by simp [acked])] at fit
      have done := @ih _ kept tmpfrags rest_valid fit
      refine ⟨done.ok, done.passed_kept, fun other member => ?_, ?_, done.carried_mono⟩
      · rcases done.left other member with old | old | fresh
        · exact .inl old
        · exact .inr (.inl (mem_cons_of_mem _ old))
        · exact .inr (.inr fresh)
      · intro other member not_ack
        rcases mem_cons.1 member with rfl | member
        · rw [acked] at not_ack
          contradiction
        · exact done.covered _ member not_ack
    | false =>
      cases lost : isLost marks item.wait with
      | true =>
        rw [if_pos ⟨acked, lost⟩] at fit
        have resent := faithful _ _ (valid _ (mem_cons_self ..)) fit.1
        have rest_fit := fit.2
        rw [← resent.room_eq] at rest_fit
        generalize send state item.frag = sent at resent rest_fit ⊢
        obtain ⟨_, _, _, _⟩ := sent
        rcases resent.goes_on with sent_ok | kept_frag
        · subst sent_ok
          refine .of_resent resent (fun other => ?_) (ih rest_valid rest_fit)
          simp [leftovers]
          tauto
        · subst kept_frag
          refine .of_resent resent (fun other => ?_) (ih rest_valid rest_fit)
          simp only [leftovers]
          grind
      | false =>
        rw [if_neg (by simp [lost])] at fit
        have done := @ih _ (kept ++ [item]) tmpfrags rest_valid fit
        refine ⟨done.ok, fun other member => ?_, fun other member => ?_, ?_,
          done.carried_mono⟩
        · exact done.passed_kept _ (by simp at member ⊢; tauto)
        · rcases done.left other member with old | old | fresh
          · simp at old ⊢
            tauto
          · exact .inr (.inl (mem_cons_of_mem _ old))
          · exact .inr (.inr fresh)
        · intro other member not_ack duty covers
          rcases mem_cons.1 member with rfl | member
          · exact ⟨other, done.passed_kept _ (by simp), covers⟩
          · exact done.covered _ member not_ack _ covers

/-- With a faithful callback, `retransmit` forgets nothing. -/
theorem retransmit_faithful (faithful : Faithful ledger send) {state : State}
    {fragments : List (Resend Fragment)} (valid : ∀ item ∈ fragments, ledger.valid item.frag)
    (fit : LostFit marks ledger.fits ledger.cost (ledger.room state) fragments) :
    Retransmitted marks observer ledger state [] fragments
      (retransmit marks observer send state fragments) :=
  @retransmitLoop_faithful _ _ _ _ _ _ _ faithful _ [] [] _ valid fit

theorem mem_detectAckAndLost {fragments : List (Resend Fragment)} {item : Resend Fragment} :
    item ∈ (detectAckAndLost marks fragments).1 ↔
      item ∈ fragments ∧ isAck marks item.wait = false := by
  simp [detectAckAndLost]

end Specification

end Resend

end Futils.Quic
