import Futils.Quic.ConnId.Acceptor
import Futils.Quic.ConnId.WaitList
import Futils.Quic.Wire.Frame
import Mathlib.Data.List.Perm.Subperm

/-!
# Issued connection IDs

`IDIssuer` numbers the connection IDs that the peer may use, announces them in NEW_CONNECTION_ID
frames and takes them back when the peer retires them.  The peer limits how many it keeps.  At the
limit `issue` may ask the peer to retire those below the current one; but the current one is the
lowest, so nothing is below it and the limit is passed.
-/

namespace Futils.Quic.ConnId

open Lib.Machine Binary Varint Wire AList Nat
open List hiding count

/-- `IDStorage`, with a token of sixteen bytes. -/
structure IssuedID where
  seq : Int
  id : Bytes
  statelessResetToken : StatelessResetToken
  deriving DecidableEq

/-- `IDWait`, without its `ACKHandler`. -/
structure IDWait where
  seq : Int := -1
  retireProiorTo : Int := 0
  deriving DecidableEq

/-- The error codes of the library that the issuer uses. -/
inductive LibCode
  | connectionIdError
  | userArgError
  | implementationBug
  deriving DecidableEq

inductive IssuerError
  | lib (msg : String) (code : LibCode)
  | quic (error : QUICError)
  /-- The error of `exporter.generate`. -/
  | generate

def defaultMaxActiveConnId : Nat := 2

/-- `IDIssuer`, with the IDs handed to `exporter.add`. -/
structure IDIssuer where
  issuedSeq : Int := invalidSeq
  currentSeq : Int := invalidSeq
  srcids : AList fun _ : Int => IssuedID := ∅
  waitlist : List (Resend IDWait) := []
  maxActiveConnId : Nat := defaultMaxActiveConnId
  connIDLen : Nat := 0
  concurrentLimit : Nat := 0
  retireProiorToId : Int := 0
  added : List IssuedID := []

namespace IDIssuer

variable (issuer : IDIssuer)

/-- `reset`, which leaves `retire_proior_to_id`. -/
def reset (connIdLen concLimit : Nat) : IDIssuer where
  connIDLen := connIdLen
  concurrentLimit := concLimit
  retireProiorToId := issuer.retireProiorToId

def size : Nat := issuer.srcids.keys.length

variable (random : Bool) (generated : Option (Bytes × StatelessResetToken))

/-- `issue`; `generated` is the ID and the token of `exporter.generate`, unless it fails. -/
def issue (enqueWait : Bool) : IDIssuer × Except IssuerError IssuedID :=
  if issuer.connIDLen = 0 then (issuer, .error (.lib "using zero length" .connectionIdError))
  else if !random then (issuer, .error (.lib "invalid random" .userArgError))
  else if issuer.maxActiveConnId ≤ issuer.size ∧ issuer.retireProiorToId ≠ issuer.currentSeq then
    (issuer, .error (.lib "id generation limit" .connectionIdError))
  else
    let full := issuer.maxActiveConnId ≤ issuer.size
    let retireProiorTo := if full then issuer.currentSeq else 0
    let limited := { issuer with
      retireProiorToId := if full then issuer.currentSeq + 1 else issuer.retireProiorToId }
    match generated with
    | none => (limited, .error .generate)
    | some (id, token) =>
      let new : IssuedID := ⟨issuer.issuedSeq + 1, id, token⟩
      if ((issuer.srcids.lookup new.seq).elim invalidSeq IssuedID.seq) ≥ 0 then
        (limited, .error (.lib "invalid sequence id for new connection id. libary bug!!"
          .implementationBug))
      else
        ({ limited with
          issuedSeq := new.seq
          currentSeq := if new.seq = 0 then 0 else issuer.currentSeq
          srcids := issuer.srcids.insert new.seq new
          waitlist := issuer.waitlist ++
            if enqueWait then [⟨⟨new.seq, retireProiorTo⟩, none⟩] else []
          added := issuer.added ++ [new] }, .ok new)

/-- `issue_ids_to_max_connid_limit`, with `count` IDs left to issue. -/
def issueLoop (random : Bool) : List (Option (Bytes × StatelessResetToken)) → Nat → IDIssuer →
    IDIssuer × Option IssuerError
  | _, 0, issuer => (issuer, none)
  | generated, count + 1, issuer =>
    match issuer.issue random generated.head?.join true with
    | (next, .error error) => (next, some error)
    | (next, .ok _) => issueLoop random generated.tail count next

/-- `issue_ids_to_max_connid_limit`; `generated` are the results of `exporter.generate`. -/
def issueIdsToMaxConnidLimit
    (generated : List (Option (Bytes × StatelessResetToken))) : IDIssuer × Option IssuerError :=
  issueLoop random generated
    (min issuer.maxActiveConnId issuer.concurrentLimit - issuer.size) issuer

def updateCurrentId : IDIssuer × Option IssuerError :=
  let current := issuer.srcids.entries.foldl (fun current entry =>
    if current < 0 ∨ entry.2.seq < current then entry.2.seq else current) invalidSeq
  ({ issuer with currentSeq := current },
    if current < 0 then some (.quic
      { msg := "retire connection ID without new connection ID. libary bug!"
        transportError := .protocolViolation
        frameType := .retireConnectionId })
    else none)

def toU64 (seq : Int) : Nat := (seq % 2 ^ 64).toNat

/-- `retire`, behind the erasure: another ID is issued, unless it was the first one. -/
def replace (seq : Int) : IDIssuer × Option IssuerError :=
  if seq ≠ 0 then
    match issuer.issue random generated true with
    | (next, .error error) => (next, some error)
    | (next, .ok _) => (next, none)
  else (issuer, none)

def retire (recvDestId : Bytes) (seq : Value) : IDIssuer × Option IssuerError :=
  if issuer.connIDLen = 0 then
    (issuer, some (.quic
      { msg := "Received RetireConnectionID frame while using zero-length connection ID"
        transportError := .connectionIdLimitError
        frameType := .retireConnectionId }))
  else if toU64 issuer.issuedSeq < seq.val then
    (issuer, some (.quic
      { msg := "Retiring connection ID with a sequence number that was not issued"
        transportError := .protocolViolation
        frameType := .retireConnectionId }))
  else
    match issuer.srcids.lookup (seq.val : Int) with
    | none => (issuer, none)
    | some stored =>
      if stored.seq < 0 then (issuer, none)
      else if stored.id = recvDestId then
        (issuer, some (.quic
          { msg := "Retiring connection ID that was used for sending the RetireConnectionID frame"
            transportError := .protocolViolation
            frameType := .retireConnectionId }))
      else
        match { issuer with srcids := issuer.srcids.erase (seq.val : Int) }.replace random generated
            stored.seq with
        | (next, some error) => (next, some error)
        | (next, none) =>
          if next.currentSeq = seq.val then next.updateCurrentId else (next, none)

def newConnectionIDFrame (entry : IDWait) : NewConnectionIDFrame :=
  let stored := (issuer.srcids.lookup entry.seq).getD ⟨invalidSeq, [], ⟨List.replicate 16 0, rfl⟩⟩
  ⟨⟨stored.seq.toNat, 0⟩, ⟨entry.retireProiorTo.toNat, 0⟩, stored.id, stored.statelessResetToken⟩

/-- `choose(seq)` finds nothing: the entry is already retired. -/
def alreadyRetired (entry : IDWait) : Bool :=
  (issuer.srcids.lookup entry.seq).elim true fun stored => stored.seq < 0

/-- `send`, into packet `observer`. -/
def send (marks : Nat → ACKLostState) (observer capacity : Nat) : IDIssuer × Sent IDWait :=
  let sent := sendLoop marks observer issuer.alreadyRetired
    (fun entry => (issuer.newConnectionIDFrame entry).len)
    (fun entry => (issuer.newConnectionIDFrame entry).render) (.ofCapacity capacity)
    issuer.waitlist
  ({ issuer with waitlist := sent.left }, sent)

end IDIssuer

namespace Issuing

open IDIssuer

structure World where
  issuer : IDIssuer
  /-- The packets that `send` wrote into. -/
  packets : List (Carrier IDWait) := []
  retired : List Int := []
  failed : Bool := false

inductive Op
  | onTransportParameterReceived
  | issue (random : Bool) (generated : Option (Bytes × StatelessResetToken)) (enqueWait : Bool)
  | issueIdsToMaxConnidLimit (random : Bool)
      (generated : List (Option (Bytes × StatelessResetToken)))
  | send (capacity : Nat)
  | retire (random : Bool) (generated : Option (Bytes × StatelessResetToken)) (recvDestId : Bytes)
      (seq : Value)
  | mark (index : Nat) (state : ACKLostState)

/-- One step; `limit` is the `active_connection_id_limit` of the peer.  The answer is whether the call
succeeds. -/
def step (limit : Nat) (world : World) : Op → World × Bool
  | .onTransportParameterReceived =>
    ({ world with issuer := { world.issuer with maxActiveConnId := limit } }, true)
  | .issue random generated enqueWait =>
    let (next, result) := world.issuer.issue random generated enqueWait
    ({ world with issuer := next, failed := world.failed || !result.isOk }, result.isOk)
  | .issueIdsToMaxConnidLimit random generated =>
    let (next, error) := world.issuer.issueIdsToMaxConnidLimit random generated
    ({ world with issuer := next, failed := world.failed || error.isSome }, !error.isSome)
  | .send capacity =>
    let (next, sent) :=
      world.issuer.send (Carrier.marks world.packets) world.packets.length capacity
    ({ world with
      issuer := next
      packets := world.packets ++ [{ frames := sent.written }]
      failed := world.failed || !sent.ok }, sent.ok)
  | .retire random generated recvDestId seq =>
    let (next, error) := world.issuer.retire random generated recvDestId seq
    ({ world with
      issuer := next
      retired := if error.isSome then world.retired else ↑seq.val :: world.retired
      failed := world.failed || error.isSome }, !error.isSome)
  | .mark index state =>
    ({ world with packets := Carrier.mark world.packets index state }, true)

/-- No ID is issued at the limit behind a request that retires nothing, and none is retired before
the first is issued. -/
def guard (world : World) : Op → Prop
  | .issue random generated _ =>
    ¬ (world.issuer.connIDLen ≠ 0 ∧ random = true ∧ generated.isSome = true ∧
      world.issuer.maxActiveConnId ≤ world.issuer.size ∧
      world.issuer.retireProiorToId = world.issuer.currentSeq)
  | .retire .. => world.issuer.connIDLen = 0 ∨ 0 ≤ world.issuer.issuedSeq
  | _ => True

instance (world : World) (op : Op) : Decidable (guard world op) := by
  cases op <;> dsimp only [guard] <;> infer_instance

/-- The IDs that were issued and not retired, from `border` on. -/
def World.active (world : World) (border : Int) : List Int :=
  (world.issuer.added.map IssuedID.seq).filter fun seq => seq ∉ world.retired ∧ border ≤ seq

/-- The largest `retire_prior_to` that was put into a frame. -/
def World.border (world : World) : Int :=
  (world.packets.flatMap fun packet => packet.frames.map IDWait.retireProiorTo).foldr max 0

/-- What the issuer keeps. -/
structure Kept (issuer : IDIssuer) (retired : List Int) : Prop where
  consecutive : issuer.added.map IssuedID.seq = (List.range issuer.added.length).map Int.ofNat
  issuedSeq_eq : issuer.issuedSeq = issuer.added.length - 1
  stored : ∀ seq, seq ∈ issuer.srcids ↔ seq ∈ issuer.added.map IssuedID.seq ∧ seq ∉ retired
  keyed : ∀ seq, ∀ id ∈ issuer.srcids.lookup seq, id.seq = seq
  size_le : issuer.size ≤ issuer.maxActiveConnId

variable {issuer next : IDIssuer} {retired : List Int} {random enqueWait : Bool}
  {generated : Option (Bytes × StatelessResetToken)}

theorem Kept.issued_iff (kept : Kept issuer retired) (seq : Int) :
    seq ∈ issuer.added.map IssuedID.seq ↔ 0 ≤ seq ∧ seq ≤ issuer.issuedSeq := by
  rw [kept.consecutive, kept.issuedSeq_eq, mem_map]
  constructor
  · rintro ⟨_, below, rfl⟩
    have := mem_range.1 below
    simp only [Int.ofNat_eq_natCast]
    omega
  · rintro ⟨valid, below⟩
    exact ⟨seq.toNat, mem_range.2 (by omega), Int.toNat_of_nonneg valid⟩

/-- What `issue` does when there is room. -/
structure Issued (issuer next : IDIssuer) : Prop where
  issuedSeq_eq : next.issuedSeq = issuer.issuedSeq + 1
  currentSeq_eq : next.currentSeq = if issuer.issuedSeq + 1 = 0 then 0 else issuer.currentSeq
  maxActiveConnId_eq : next.maxActiveConnId = issuer.maxActiveConnId
  new : ∃ new : IssuedID, new.seq = issuer.issuedSeq + 1 ∧ next.added = issuer.added ++ [new] ∧
    next.srcids = issuer.srcids.insert new.seq new

theorem issued_of_ok (ok : (issuer.issue random generated enqueWait).2.isOk) :
    Issued issuer (issuer.issue random generated enqueWait).1 := by
  rw [issue] at ok ⊢
  split at ok
  · cases ok
  split at ok
  · cases ok
  split at ok
  · cases ok
  rename_i has_id random_ok unlimited
  rw [if_neg has_id, if_neg random_ok, if_neg unlimited]
  cases generated with
  | none => cases ok
  | some pair =>
    simp only at ok ⊢
    split at ok
    · cases ok
    rename_i fresh
    rw [if_neg fresh]
    exact ⟨rfl, rfl, rfl, ⟨_, rfl, rfl, rfl⟩⟩

theorem Kept.issue (kept : Kept issuer retired) (within : ∀ seq ∈ retired, seq ≤ issuer.issuedSeq)
    (issued : Issued issuer next) (room : issuer.size < issuer.maxActiveConnId) :
    Kept next retired ∧ next.size = issuer.size + 1 := by
  obtain ⟨new, new_seq, added_eq, srcids_eq⟩ := issued.new
  have length_eq : next.added.length = issuer.added.length + 1 := by simp [added_eq]
  have seqs_eq : next.added.map IssuedID.seq = issuer.added.map IssuedID.seq ++ [new.seq] := by
    simp [added_eq]
  have fresh : new.seq ∉ issuer.srcids := by
    rw [kept.stored, kept.issued_iff]
    omega
  have size_eq : next.size = issuer.size + 1 := by
    rw [IDIssuer.size, srcids_eq, keys_insert, erase_of_not_mem fresh]
    rfl
  have issuedSeq_eq := kept.issuedSeq_eq
  refine ⟨⟨?_, ?_, fun seq => ?_, fun seq id found => ?_, ?_⟩, size_eq⟩
  · rw [seqs_eq, kept.consecutive, length_eq, range_succ, map_append, map_singleton,
      Int.ofNat_eq_natCast]
    congr 2
    omega
  · rw [issued.issuedSeq_eq]
    omega
  · rw [srcids_eq, mem_insert, seqs_eq, mem_append, mem_singleton, kept.stored]
    constructor
    · rintro (rfl | ⟨old, unretired⟩)
      · refine ⟨.inr rfl, fun is_retired => ?_⟩
        have := within _ is_retired
        omega
      · exact ⟨.inl old, unretired⟩
    · rintro ⟨old | rfl, unretired⟩
      · exact .inr ⟨old, unretired⟩
      · exact .inl rfl
  · rw [srcids_eq] at found
    by_cases same : seq = new.seq
    · rw [same, lookup_insert] at found
      cases found
      exact same.symm
    · rw [lookup_insert_ne same] at found
      exact kept.keyed seq id found
  · rw [issued.maxActiveConnId_eq]
    omega

/-- The current number is stored, once there is one. -/
structure Steady (issuer : IDIssuer) (retired : List Int) : Prop extends Kept issuer retired where
  within : ∀ seq ∈ retired, seq ≤ issuer.issuedSeq
  current : issuer.added ≠ [] → issuer.currentSeq ∈ issuer.srcids

theorem Steady.issue (steady : Steady issuer retired) (issued : Issued issuer next)
    (room : issuer.size < issuer.maxActiveConnId) :
    Steady next retired ∧ next.size = issuer.size + 1 ∧
      next.maxActiveConnId = issuer.maxActiveConnId := by
  obtain ⟨kept, size_eq⟩ := steady.toKept.issue steady.within issued room
  refine ⟨⟨kept, fun seq is_retired => ?_, fun _ => ?_⟩, size_eq, issued.maxActiveConnId_eq⟩
  · have := steady.within seq is_retired
    rw [issued.issuedSeq_eq]
    omega
  · obtain ⟨_, new_seq, -, srcids_eq⟩ := issued.new
    have issuedSeq_eq := steady.issuedSeq_eq
    rw [issued.currentSeq_eq, srcids_eq, mem_insert, new_seq]
    split
    case isTrue first => exact .inl first.symm
    case isFalse later =>
      refine .inr (steady.current fun none_added => later ?_)
      rw [none_added, length_nil] at issuedSeq_eq
      omega

theorem Steady.issueLoop (steady : Steady issuer retired) {count : Nat}
    {results : List (Option (Bytes × StatelessResetToken))}
    (room : issuer.size + count ≤ issuer.maxActiveConnId)
    (ok : (issueLoop random results count issuer).2 = none) :
    Steady (issueLoop random results count issuer).1 retired ∧
      (issueLoop random results count issuer).1.maxActiveConnId =
        issuer.maxActiveConnId := by
  induction count generalizing issuer results with
  | zero => exact ⟨steady, rfl⟩
  | succ count ih =>
    rw [issueLoop] at ok ⊢
    have issued := @issued_of_ok issuer random true results.head?.join
    split at ok
    · cases ok
    rename_i issue_eq
    rw [issue_eq] at issued
    obtain ⟨next_steady, size_eq, max_eq⟩ := steady.issue (issued rfl) (by omega)
    obtain ⟨last_steady, last_max⟩ := ih next_steady (by omega) ok
    exact ⟨last_steady, last_max.trans max_eq⟩

/-- The search of `update_current_id` returns where it starts or a stored number. -/
theorem foldl_current (entries : List (Sigma fun _ : Int => IssuedID)) (current : Int) :
    entries.foldl (fun current entry =>
        if current < 0 ∨ entry.2.seq < current then entry.2.seq else current) current = current ∨
      ∃ entry ∈ entries, entries.foldl (fun current entry =>
        if current < 0 ∨ entry.2.seq < current then entry.2.seq else current) current =
          entry.2.seq := by
  induction entries generalizing current with
  | nil => exact .inl rfl
  | cons entry entries ih =>
    rw [foldl_cons]
    rcases ih (if current < 0 ∨ entry.2.seq < current then entry.2.seq else current) with
      same | ⟨found, member, found_eq⟩
    · rw [same]
      split
      · exact .inr ⟨entry, mem_cons_self, rfl⟩
      · exact .inl rfl
    · exact .inr ⟨found, mem_cons_of_mem _ member, found_eq⟩

theorem updateCurrentId_mem (kept : Kept issuer retired)
    (ok : issuer.updateCurrentId.2 = none) :
    issuer.updateCurrentId.1.currentSeq ∈ issuer.srcids := by
  rw [updateCurrentId] at ok ⊢
  rcases foldl_current issuer.srcids.entries invalidSeq with same | ⟨entry, member, found⟩
  · rw [same] at ok
    cases ok
  · rw [found]
    have lookup_eq := mem_lookup_iff.2 member
    rw [kept.keyed _ _ lookup_eq]
    exact mem_keys.2 (mem_map_of_mem member)

variable {seq : Int} {result : IDIssuer × Option IssuerError} {world : World} {limit : Nat}

theorem Kept.erase (kept : Kept issuer retired) (stored : seq ∈ issuer.srcids) :
    Kept { issuer with srcids := issuer.srcids.erase seq } (seq :: retired) ∧
      { issuer with srcids := issuer.srcids.erase seq }.size + 1 = issuer.size := by
  have size_eq : { issuer with srcids := issuer.srcids.erase seq }.size + 1 = issuer.size := by
    have erased := length_erase_of_mem (mem_keys.1 stored)
    have positive := length_pos_of_mem (mem_keys.1 stored)
    simp only [IDIssuer.size, keys_erase]
    omega
  refine ⟨⟨kept.consecutive, kept.issuedSeq_eq, fun other => ?_, fun other id found => ?_, ?_⟩,
    size_eq⟩
  · rw [mem_erase, kept.stored, mem_cons, not_or]
    exact ⟨fun ⟨differs, added, unretired⟩ => ⟨added, differs, unretired⟩,
      fun ⟨added, differs, unretired⟩ => ⟨differs, added, unretired⟩⟩
  · by_cases same : other = seq
    · rw [same, lookup_erase] at found
      cases found
    · rw [lookup_erase_ne same] at found
      exact kept.keyed _ id found
  · have := kept.size_le
    exact le_trans (by omega) this

theorem Steady.retire_again (steady : Steady issuer retired) (valid : 0 ≤ seq)
    (issued : seq ≤ issuer.issuedSeq) (absent : seq ∉ issuer.srcids) :
    Steady issuer (seq :: retired) := by
  have is_retired : seq ∈ retired := by
    by_contra unretired
    exact absent ((steady.stored seq).2 ⟨(steady.issued_iff seq).2 ⟨valid, issued⟩, unretired⟩)
  refine ⟨⟨steady.consecutive, steady.issuedSeq_eq, fun other => ?_, steady.keyed, steady.size_le⟩,
    forall_mem_cons.2 ⟨issued, steady.within⟩, steady.current⟩
  rw [steady.stored, mem_cons, not_or]
  exact ⟨fun ⟨added, unretired⟩ => ⟨added, fun same => unretired (same ▸ is_retired), unretired⟩,
    fun ⟨added, _, unretired⟩ => ⟨added, unretired⟩⟩

theorem toU64_eq (valid : 0 ≤ seq) (small : seq < 2 ^ 64) : toU64 seq = seq := by
  rw [toU64, Int.emod_eq_of_lt valid small, Int.toNat_of_nonneg valid]

/-- The end of `retire`: another ID becomes the current one if the current one is retired. -/
theorem Kept.steady_current (kept : Kept issuer retired)
    (within : ∀ seq ∈ retired, seq ≤ issuer.issuedSeq)
    (still : issuer.currentSeq ≠ seq → issuer.added ≠ [] → issuer.currentSeq ∈ issuer.srcids)
    (result_eq : (if issuer.currentSeq = seq then issuer.updateCurrentId
      else (issuer, none)) = result) (ok : result.2 = none) :
    Steady result.1 retired ∧ result.1.maxActiveConnId = issuer.maxActiveConnId := by
  split at result_eq
  case isTrue same =>
    subst result_eq
    have current := updateCurrentId_mem kept ok
    exact ⟨⟨⟨kept.consecutive, kept.issuedSeq_eq, kept.stored, kept.keyed, kept.size_le⟩, within,
      fun _ => current⟩, rfl⟩
  case isFalse differs =>
    subst result_eq
    exact ⟨⟨kept, within, still differs⟩, rfl⟩

theorem Kept.replace (kept : Kept issuer retired)
    (within : ∀ seq ∈ retired, seq ≤ issuer.issuedSeq) (issued_some : 0 ≤ issuer.issuedSeq)
    (room : issuer.size < issuer.maxActiveConnId)
    (replaced : issuer.replace random generated seq = (next, none)) :
    Kept next retired ∧ (∀ seq ∈ retired, seq ≤ next.issuedSeq) ∧
      next.currentSeq = issuer.currentSeq ∧ (∀ other ∈ issuer.srcids, other ∈ next.srcids) ∧
      next.maxActiveConnId = issuer.maxActiveConnId := by
  rw [IDIssuer.replace] at replaced
  split at replaced
  case isFalse =>
    cases replaced
    exact ⟨kept, within, rfl, fun _ => id, rfl⟩
  case isTrue =>
    have issued := @issued_of_ok issuer random true generated
    split at replaced
    · cases replaced
    rename_i issue_eq
    cases replaced
    rw [issue_eq] at issued
    have issued : Issued issuer next := issued rfl
    obtain ⟨next_kept, -⟩ := kept.issue within issued room
    refine ⟨next_kept, fun seq is_retired => ?_, ?_, fun other stored => ?_,
      issued.maxActiveConnId_eq⟩
    · have := within seq is_retired
      rw [issued.issuedSeq_eq]
      omega
    · rw [issued.currentSeq_eq, if_neg (by omega)]
    · obtain ⟨_, -, -, srcids_eq⟩ := issued.new
      rw [srcids_eq, mem_insert]
      exact .inr stored

theorem Steady.retire (steady : Steady issuer retired) {recvDestId : Bytes} {seq : Value}
    (issued_some : issuer.connIDLen = 0 ∨ 0 ≤ issuer.issuedSeq)
    (result_eq : issuer.retire random generated recvDestId seq = result) (ok : result.2 = none) :
    Steady result.1 (↑seq.val :: retired) ∧
      result.1.maxActiveConnId = issuer.maxActiveConnId := by
  rw [IDIssuer.retire] at result_eq
  split at result_eq
  · cases result_eq
    cases ok
  case isFalse has_id =>
  have issued_some := issued_some.resolve_left has_id
  split at result_eq
  · cases result_eq
    cases ok
  case isFalse issued =>
  have below : (seq.val : Int) ≤ issuer.issuedSeq := by
    by_contra above
    have := toU64_eq issued_some (by omega)
    omega
  split at result_eq
  case h_1 absent =>
    cases result_eq
    exact ⟨steady.retire_again (Int.natCast_nonneg _) below (lookup_eq_none.1 absent), rfl⟩
  case h_2 stored found =>
  have stored_seq := steady.keyed _ _ (by rw [found]; rfl)
  have member := lookup_isSome.1 (by rw [found]; rfl)
  rw [if_neg (by omega)] at result_eq
  split at result_eq
  · cases result_eq
    cases ok
  obtain ⟨erased_kept, erased_size⟩ := steady.toKept.erase member
  have within : ∀ other ∈ (seq.val : Int) :: retired, other ≤ issuer.issuedSeq :=
    forall_mem_cons.2 ⟨below, steady.within⟩
  have size_le := steady.size_le
  split at result_eq
  case h_1 =>
    cases result_eq
    cases ok
  case h_2 next replaced =>
    obtain ⟨next_kept, next_within, current_eq, kept_ids, max_eq⟩ :=
      erased_kept.replace within issued_some (lt_of_lt_of_le (by omega) size_le) replaced
    obtain ⟨last_steady, last_max⟩ := next_kept.steady_current next_within (fun differs _ => by
      rw [current_eq] at differs ⊢
      refine kept_ids _ (mem_erase.2 ⟨differs, steady.current fun none_added => ?_⟩)
      have issuedSeq_eq := steady.issuedSeq_eq
      rw [none_added, length_nil] at issuedSeq_eq
      omega) result_eq ok
    exact ⟨last_steady, last_max.trans max_eq⟩

theorem room_of_ok (allowed : guard world (.issue random generated enqueWait))
    (ok : (world.issuer.issue random generated enqueWait).2.isOk) :
    world.issuer.size < world.issuer.maxActiveConnId := by
  by_contra full
  rw [issue] at ok
  split at ok
  · cases ok
  split at ok
  · cases ok
  split at ok
  · cases ok
  rename_i has_id random_ok unlimited
  cases generated with
  | none => cases ok
  | some pair =>
    refine allowed ⟨has_id, by simpa using random_ok, rfl, not_lt.1 full, ?_⟩
    by_contra differs
    exact unlimited ⟨not_lt.1 full, differs⟩

/-- The state of a run in which no call failed. -/
structure Sound (limit : Nat) (world : World) : Prop where
  steady : Steady world.issuer world.retired
  max_le : world.issuer.maxActiveConnId ≤ limit

theorem step_sound {op : Op} (sound : Sound limit world) (allowed : guard world op)
    (succeeded : (step limit world op).2) : Sound limit (step limit world op).1 := by
  have steady := sound.steady
  cases op with
  | onTransportParameterReceived =>
    refine ⟨⟨⟨steady.consecutive, steady.issuedSeq_eq, steady.stored, steady.keyed, ?_⟩,
      steady.within, steady.current⟩, le_rfl⟩
    exact le_trans steady.size_le sound.max_le
  | issue random generated enqueWait =>
    have room := room_of_ok allowed succeeded
    obtain ⟨next_steady, -, max_eq⟩ := steady.issue (issued_of_ok succeeded) room
    exact ⟨next_steady, le_trans (le_of_eq max_eq) sound.max_le⟩
  | issueIdsToMaxConnidLimit random generated =>
    have size_le := steady.size_le
    have ok : (world.issuer.issueIdsToMaxConnidLimit random generated).2 = none := by
      simpa [step] using succeeded
    obtain ⟨next_steady, max_eq⟩ := steady.issueLoop (by omega) ok
    exact ⟨next_steady, le_trans (le_of_eq max_eq) sound.max_le⟩
  | send capacity =>
    exact ⟨⟨⟨steady.consecutive, steady.issuedSeq_eq, steady.stored, steady.keyed,
      steady.size_le⟩, steady.within, steady.current⟩, sound.max_le⟩
  | retire random generated recvDestId seq =>
    have ok : (world.issuer.retire random generated recvDestId seq).2 = none := by
      simpa [step] using succeeded
    obtain ⟨next_steady, max_eq⟩ := steady.retire allowed rfl ok
    refine ⟨?_, le_trans (le_of_eq max_eq) sound.max_le⟩
    simp only [step, ok]
    exact next_steady
  | mark index state => exact ⟨steady, sound.max_le⟩

theorem failed_step (limit : Nat) (world : World) (op : Op) :
    (step limit world op).1.failed = (world.failed || !(step limit world op).2) := by
  cases op <;> simp [step]

/-- Retiring a number that was not issued is an error. -/
def Answered (limit : Nat) (world : World) : Op → Prop
  | .retire random generated recvDestId seq => world.failed = false →
      (seq.val : Int) ∉ world.issuer.added.map IssuedID.seq →
        (step limit world (.retire random generated recvDestId seq)).2 = false
  | _ => True

theorem answered_of_sound {op : Op} (sound : world.failed = false → Sound limit world)
    (allowed : guard world op) : Answered limit world op := by
  cases op with
  | retire random generated recvDestId seq =>
    intro unfailed never_issued
    have steady := (sound unfailed).steady
    rw [steady.issued_iff] at never_issued
    simp only [step, retire]
    split
    · rfl
    case isFalse has_id =>
      have issued_some := allowed.resolve_left has_id
      have := toU64_eq issued_some (by omega)
      rw [if_pos (by omega)]
      rfl
  | _ => trivial

def start (before : IDIssuer) (connIdLen concLimit : Nat) : World where
  issuer := before.reset connIdLen concLimit

/-- The IDs of the peer are within its limit, the current one is one of them, and the numbers were
issued one after the other. -/
structure WithinLimit (limit : Nat) (world : World) : Prop where
  active_le : (world.active world.border).length ≤ limit
  current : world.issuer.added ≠ [] → world.issuer.currentSeq ∈ world.active 0
  consecutive :
    world.issuer.added.map IssuedID.seq = (List.range world.issuer.added.length).map Int.ofNat

theorem Sound.withinLimit (sound : Sound limit world) : WithinLimit limit world := by
  have steady := sound.steady
  refine ⟨?_, fun some_added => ?_, steady.consecutive⟩
  · have distinct : (world.active world.border).Nodup := by
      refine Nodup.filter _ ?_
      rw [steady.consecutive]
      exact nodup_range.map fun _ _ => Int.ofNat.inj
    have stored : world.active world.border ⊆ world.issuer.srcids.keys := by
      intro seq member
      obtain ⟨added, kept⟩ := mem_filter.1 member
      have kept : seq ∉ world.retired ∧ world.border ≤ seq := by simpa using kept
      exact mem_keys.1 ((steady.stored seq).2 ⟨added, kept.1⟩)
    exact le_trans (distinct.subperm stored).length_le
      (le_trans steady.size_le sound.max_le)
  · obtain ⟨added, unretired⟩ := (steady.stored _).1 (steady.current some_added)
    refine mem_filter.2 ⟨added, ?_⟩
    simpa using ⟨unretired, ((steady.issued_iff _).1 added).1⟩

/-- In every run that meets the condition, numbers never issued cannot be retired, and as long as no
call failed the IDs are within the limit of the peer. -/
theorem issued_within_limit {before : IDIssuer} {connIdLen concLimit limit : Nat}
    (limit_ge : 2 ≤ limit) {ops : List Op}
    (guarded : Guarded (step limit) guard (start before connIdLen concLimit) ops) :
    Guarded (step limit) (Answered limit) (start before connIdLen concLimit) ops ∧
      let world := final (step limit) (start before connIdLen concLimit) ops
      world.failed = false → WithinLimit limit world := by
  have started : (start before connIdLen concLimit).failed = false →
      Sound limit (start before connIdLen concLimit) := fun _ =>
    ⟨⟨⟨rfl, rfl, fun seq => by simp [start, reset], nofun, zero_le⟩, nofun, by
      simp [start, reset]⟩, limit_ge⟩
  have kept (world : World) (op : Op) (sound : world.failed = false → Sound limit world)
      (allowed : guard world op) :
      (step limit world op).1.failed = false → Sound limit (step limit world op).1 := by
    intro unfailed
    rw [failed_step, Bool.or_eq_false_iff, Bool.not_eq_false'] at unfailed
    exact step_sound (sound unfailed.1) allowed unfailed.2
  refine ⟨?_, fun unfailed => ?_⟩
  · exact @guarded_of_invariant _ _ _ _ _ _ _
      (fun world op sound allowed => ⟨kept _ op sound allowed, answered_of_sound sound allowed⟩)
      _ _ started guarded
  · exact (@invariant_of_guarded _ _ _ _ _ _
      (fun world _ op sound allowed => kept world op sound allowed)
      _ [] ops started guarded unfailed).withinLimit

/-- Two IDs are issued and sent, the frame is lost and sent again, and the first two numbers are
retired. -/
theorem issued_within_limit_retired :
    let token : StatelessResetToken := ⟨replicate 16 7, rfl⟩
    let new (byte : UInt8) : Option (Bytes × StatelessResetToken) := some ([byte], token)
    let ops := [.issue true (new 1) false, .onTransportParameterReceived,
      .issueIdsToMaxConnidLimit true [new 2], .send 64, .mark 0 .lost, .send 64,
      .retire true (new 3) [1] 1, .retire true none [2] 0]
    Guarded (step 2) guard (start {} 1 4) ops ∧
      (final (step 2) (start {} 1 4) ops).failed = false ∧
      WithinLimit 2 (final (step 2) (start {} 1 4) ops) :=
  ⟨by decide +kernel, by decide +kernel,
    (issued_within_limit (by decide) (by decide +kernel)).2 (by decide +kernel)⟩

/-- A third ID is issued at a limit of two; and before the first ID is issued, any number can be
retired. -/
theorem issued_past_limit :
    let token : StatelessResetToken := ⟨replicate 16 7, rfl⟩
    let new (byte : UInt8) : Option (Bytes × StatelessResetToken) := some ([byte], token)
    let issued := final (step 2) (start {} 1 4)
      [.issue true (new 1) true, .issue true (new 2) true, .issue true (new 3) true, .send 200]
    (issued.failed = false ∧ issued.border = 0 ∧ (issued.active issued.border).length = 3) ∧
      (step 2 (start {} 1 4) (.retire true none [] 5)).2 := by
  decide +kernel

end Issuing

end Futils.Quic.ConnId
