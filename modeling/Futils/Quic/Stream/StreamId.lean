import Futils.Core.Basic

/-!
# Stream identifiers

A stream identifier is a 64-bit word: two bits that must be zero, 60 bits of sequence number, one bit
for the type and one for the side that opened the stream.
-/

namespace Futils.Quic.Stream

inductive Origin
  | client
  | server
  | unknown
  deriving DecidableEq

inductive StreamType
  | bidi
  | uni
  | unknown
  deriving DecidableEq

def Origin.inverse : Origin → Origin
  | .client => .server
  | .server => .client
  | .unknown => .unknown

namespace StreamID

def valid (id : Nat) : Bool := id / 2 ^ 62 = 0

def seqCount (id : Nat) : Nat := if valid id then id / 4 % 2 ^ 60 else max64

def type (id : Nat) : StreamType :=
  if valid id then (if id / 2 % 2 = 1 then .uni else .bidi) else .unknown

def origin (id : Nat) : Origin :=
  if valid id then (if id % 2 = 1 then .server else .client) else .unknown

/-- `make_id`: a sequence number that does not fit, an unknown origin or type make it invalid. -/
def makeId (seq : Nat) (origin : Origin) (type : StreamType) : Nat :=
  let invalid := 2 ^ 60 ≤ seq ∨ origin = .unknown ∨ type = .unknown
  (if invalid then 2 ^ 62 else 0) + (if seq < 2 ^ 60 then seq * 4 else 0) +
    (if type = .uni then 2 else 0) + (if origin = .server then 1 else 0)

variable {seq : Nat} {side : Origin} {kind : StreamType}

theorem makeId_eq (seq_lt : seq < 2 ^ 60) (side_known : side ≠ .unknown)
    (kind_known : kind ≠ .unknown) :
    makeId seq side kind =
      seq * 4 + (if kind = .uni then 2 else 0) + (if side = .server then 1 else 0) := by
  have fits : ¬ 2 ^ 60 ≤ seq := not_le.2 seq_lt
  simp only [makeId, fits, seq_lt, side_known, kind_known, or_self, if_false, if_true,
    Nat.zero_add]

/-- Identifiers of one type and side are told apart by their sequence numbers. -/
theorem makeId_inj {other : Nat} (seq_lt : seq < 2 ^ 60) (other_lt : other < 2 ^ 60)
    (side_known : side ≠ .unknown) (kind_known : kind ≠ .unknown)
    (same : makeId seq side kind = makeId other side kind) : seq = other := by
  rw [makeId_eq seq_lt side_known kind_known, makeId_eq other_lt side_known kind_known] at same
  omega

theorem seqCount_lt {id : Nat} (is_valid : valid id) : seqCount id < 2 ^ 60 := by
  rw [seqCount, if_pos is_valid]
  exact Nat.mod_lt _ (by decide)

theorem makeId_parts {id : Nat} (is_valid : valid id) :
    makeId (seqCount id) (origin id) (type id) = id := by
  have small : id < 2 ^ 62 := by
    simp only [valid, decide_eq_true_eq] at is_valid
    omega
  rw [makeId_eq (seqCount_lt is_valid)
    (by rw [origin, if_pos is_valid]; split <;> decide)
    (by rw [type, if_pos is_valid]; split <;> decide)]
  simp only [seqCount, origin, type, if_pos is_valid]
  by_cases uni : id / 2 % 2 = 1 <;> by_cases server : id % 2 = 1 <;>
    simp only [uni, server, if_true, if_false, reduceCtorEq] <;> omega

end StreamID

end Futils.Quic.Stream
