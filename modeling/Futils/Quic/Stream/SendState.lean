import Futils.Quic.Varint

/-!
# Credit and state of a sending stream

`Limiter` counts the bytes used against a limit that the peer raises.  Limits that are no
variable-length integer are refused, so a limiter never leaves that range.  `SendUniStreamState` is
the state machine of the stream, with the flags that ask for a reset.
-/

namespace Futils.Quic.Stream

open Varint

theorem zero_lt_end : 0 < 2 ^ 62 := by decide

structure Limiter where
  limit : Nat := 0
  used : Nat := 0
  limit_lt : limit < 2 ^ 62 := by first | exact zero_lt_end | decide
  used_lt : used < 2 ^ 62 := by first | exact zero_lt_end | decide
  deriving DecidableEq

namespace Limiter

variable (limiter : Limiter) (newLimit : Nat)

def availSize : Nat :=
  if limiter.limit > limiter.used then limiter.limit - limiter.used else 0

def setLimit : Limiter × Bool :=
  if refused : newLimit ≥ border 8 then (limiter, false)
  else ({ limiter with limit := newLimit, limit_lt := Nat.lt_of_not_le refused }, true)

def updateLimit : Limiter × Bool :=
  if refused : newLimit ≥ border 8 then (limiter, false)
  else if newLimit > limiter.limit then
    ({ limiter with limit := newLimit, limit_lt := Nat.lt_of_not_le refused }, true)
  else (limiter, false)

theorem used_add_lt {limiter : Limiter} {size : Nat} (room : size ≤ limiter.availSize) :
    limiter.used + size < 2 ^ 62 := by
  have limit_lt := limiter.limit_lt
  have used_lt := limiter.used_lt
  unfold availSize at room
  split at room <;> omega

def use (size : Nat) : Limiter × Bool :=
  if room : limiter.availSize < size then (limiter, false)
  else ({ limiter with
    used := limiter.used + size, used_lt := used_add_lt (Nat.le_of_not_lt room) }, true)

def updateUse (newUsed : Nat) : Limiter × Bool :=
  if refused : limiter.limit < newUsed then (limiter, false)
  else if newUsed > limiter.used then
    ({ limiter with
      used := newUsed
      used_lt := Nat.lt_of_le_of_lt (Nat.le_of_not_lt refused) limiter.limit_lt }, true)
  else (limiter, true)

@[simp] theorem used_setLimit : (limiter.setLimit newLimit).1.used = limiter.used := by
  unfold setLimit
  split <;> rfl

@[simp] theorem used_updateLimit : (limiter.updateLimit newLimit).1.used = limiter.used := by
  unfold updateLimit
  split
  · rfl
  · split <;> rfl

/-- Usage that was accepted is within the limit and never shrinks. -/
theorem updateUse_spec {limiter next : Limiter} {newUsed : Nat} (grows : limiter.used ≤ newUsed)
    (accepted : limiter.updateUse newUsed = (next, true)) :
    newUsed ≤ limiter.limit ∧ next.used = newUsed := by
  unfold updateUse at accepted
  split at accepted
  · simp at accepted
  case isFalse within =>
    refine ⟨not_lt.1 within, ?_⟩
    split at accepted <;> obtain ⟨rfl, -⟩ := Prod.mk.inj accepted
    · rfl
    · omega

end Limiter

inductive SendState
  | ready
  | send
  | dataSent
  | dataRecved
  | resetSent
  | resetRecved
  deriving DecidableEq

/-- `SendUniStreamState`, with its reset flags as booleans. -/
structure SendUniStreamState where
  limit : Limiter := {}
  errorCode : Nat := 0
  state : SendState := .ready
  resetByPeer : Bool := false
  resetByLocal : Bool := false
  resetSentFlag : Bool := false
  deriving DecidableEq

namespace SendUniStreamState

variable (self : SendUniStreamState)

def sendableSize : Nat := self.limit.availSize

def sendLimit : Nat := self.limit.limit

def sentBytes : Nat := self.limit.used

def updateSendLimit (credit : Nat) : SendUniStreamState :=
  { self with limit := (self.limit.updateLimit credit).1 }

def setSendLimit (newLimit : Nat) : SendUniStreamState :=
  { self with limit := (self.limit.setLimit newLimit).1 }

def isTerminalState : Bool := self.state = .dataRecved || self.state = .resetRecved

def canSend : Bool := self.state = .ready || self.state = .send

def canRetransmit : Bool := self.state = .send || self.state = .dataSent

def canRetransmitReset : Bool := self.state = .resetSent

def isDataSent : Bool := self.state = .dataSent

/-- The states in which a reset is refused. -/
def resetClosed : Bool :=
  self.state = .resetSent || self.state = .dataRecved || self.state = .resetRecved

def reset : SendUniStreamState × Bool :=
  if self.resetClosed then (self, false)
  else ({ self with state := .resetSent, resetSentFlag := true }, true)

def resetAck : SendUniStreamState × Bool :=
  if self.state = .resetRecved then (self, true)
  else if self.state ≠ .resetSent then (self, false)
  else ({ self with state := .resetRecved }, true)

def send (sendMax : Nat) : SendUniStreamState × Bool :=
  if !self.canSend then (self, false)
  else
    match self.limit.updateUse sendMax with
    | (limit, true) => ({ self with limit := limit, state := .send }, true)
    | (_, false) => (self, false)

def sent : SendUniStreamState × Bool :=
  if self.state ≠ .send then (self, false) else ({ self with state := .dataSent }, true)

def sentAck : SendUniStreamState × Bool :=
  if self.state ≠ .dataSent then (self, false) else ({ self with state := .dataRecved }, true)

def setErrorCodeImpl (code : Nat) (byPeer : Bool) : SendUniStreamState × Bool :=
  if self.resetClosed then (self, false)
  else if byPeer then ({ self with errorCode := code, resetByPeer := true }, true)
  else ({ self with errorCode := code, resetByLocal := true }, true)

def isResetRequired : Bool := !self.resetSentFlag && (self.resetByLocal || self.resetByPeer)

theorem send_spec {self next : SendUniStreamState} {sendMax : Nat}
    (grows : self.limit.used ≤ sendMax) (accepted : self.send sendMax = (next, true)) :
    self.canSend ∧ sendMax ≤ self.sendLimit ∧ next.limit.used = sendMax ∧
      next = { self with limit := next.limit, state := .send } := by
  unfold send at accepted
  cases open_state : self.canSend with
  | false => simp [open_state] at accepted
  | true =>
    simp only [open_state, Bool.not_true, Bool.false_eq_true, if_false] at accepted
    split at accepted
    case h_1 limit used =>
      obtain ⟨rfl, -⟩ := Prod.mk.inj accepted
      obtain ⟨within, used_eq⟩ := Limiter.updateUse_spec grows used
      exact ⟨rfl, within, used_eq, rfl⟩
    case h_2 => simp at accepted

/-- The state moved towards its end: limits stay, and what was closed stays closed. -/
structure Closes (before after : SendUniStreamState) : Prop where
  limit_eq : after.limit = before.limit
  send_closed : before.canSend = false → after.canSend = false
  retransmit_closed : before.canRetransmit = false → after.canRetransmit = false

theorem closes_refl : Closes self self := ⟨rfl, id, id⟩

theorem closes_of_state {next : SendState} (flag : Bool)
    (closed : next ≠ .ready ∧ next ≠ .send ∧ next ≠ .dataSent) :
    Closes self { self with state := next, resetSentFlag := flag } :=
  ⟨rfl, fun _ => by simp [canSend, closed], fun _ => by simp [canRetransmit, closed]⟩

theorem closes_reset : Closes self self.reset.1 := by
  unfold reset
  split
  · exact closes_refl _
  · exact closes_of_state _ _ (by decide)

theorem closes_resetAck : Closes self self.resetAck.1 := by
  unfold resetAck
  split
  · exact closes_refl _
  · split
    · exact closes_refl _
    · exact closes_of_state _ _ (by decide)

theorem closes_sentAck : Closes self self.sentAck.1 := by
  unfold sentAck
  split
  · exact closes_refl _
  · exact closes_of_state _ _ (by decide)

end SendUniStreamState

end Futils.Quic.Stream
