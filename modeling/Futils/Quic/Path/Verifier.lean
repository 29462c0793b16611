import Futils.Lib.BigEndian
import Futils.Lib.Machine
import Futils.Quic.Resend
import Futils.Quic.Status.LossTimer
import Futils.Quic.Types
import Futils.Quic.Varint
import Mathlib.Data.Finset.Insert

/-!
# Path validation

`PathVerifier` answers the challenges of the peer and probes paths with its own.  A response is
compared with the data of every probe, and a probe that waits to be sent has the data zero: a
response with this data validates its path.  Apart from that a path is valid only after a challenge
for it and a response to it.
-/

namespace Futils.Quic.Path

open Binary Lib.Machine Status List Varint Finset

abbrev PathID := UInt32

def originalPath : PathID := 0

def unknownPath : PathID := 0xffffffff

/-- `PathBase<t>`: PATH_CHALLENGE and PATH_RESPONSE. -/
structure PathFrame where
  type : FrameType
  data : UInt64
  deriving DecidableEq

def PathFrame.render (frame : PathFrame) : Writer → Writer × Bool :=
  Writer.andThen (Varint.write frame.type.value)
    fun writer => writer.write (Lib.BigEndian.toBytes 8 frame.data.toNat)

/-- `PathProbeInfo`, with the packet whose record `wait` has. -/
structure PathProbeInfo where
  id : PathID := unknownPath
  probeTimer : Int := invalid
  probeData : UInt64 := 0
  wait : Option Nat := none
  forceProbe : Bool := false
  deriving DecidableEq

/-- `PathVerifier`, without the path of the packet being written. -/
structure PathVerifier where
  recvData : List UInt64 := []
  maxPathChallenge : Nat := 256
  probes : List PathProbeInfo := []
  numProbeToSend : Nat := 0
  validPath : Finset PathID := ∅
  activePath : PathID := originalPath
  migratePath : PathID := originalPath
  deriving DecidableEq

namespace PathVerifier

variable (verifier : PathVerifier)

def reset (hsPath : PathID) (maxPathChallenge : Nat) : PathVerifier where
  maxPathChallenge := maxPathChallenge
  activePath := hsPath
  migratePath := hsPath

def recvPathChallenge (data : UInt64) : PathVerifier × Bool :=
  if verifier.maxPathChallenge < verifier.recvData.length then (verifier, false)
  else ({ verifier with recvData := verifier.recvData ++ [data] }, true)

def sendPathResponse (w : Writer) : PathVerifier × Writer × IOResult :=
  match verifier.recvData with
  | [] => (verifier, w, .noData)
  | data :: rest =>
    if w.remain < 9 then (verifier, w, .noCapacity)
    else
      let (w, ok) := (PathFrame.mk .pathResponse data).render w
      ({ verifier with recvData := rest }, w, if ok then .ok else .fatal)

section Probes

variable (marks : Nat → ACKLostState) (now : Int)

/-- `detect_dead_probe`: whether the probe is dead, and the probe that is added at the end. -/
def detectDeadProbe (info : PathProbeInfo) : Bool × List PathProbeInfo :=
  if timerTimeout info.probeTimer now then
    (Resend.isAck marks info.wait || Resend.isLost marks info.wait, [])
  else if Resend.isLost marks info.wait && decide (info.id ∉ verifier.validPath) then
    -- The source asks for a valid path once more, where there is none.
    if !info.forceProbe && decide (info.id ∈ verifier.validPath) then (true, [])
    else (false, [{ id := info.id, probeTimer := info.probeTimer }])
  else (false, [])

/-- The probes before the first that waits: those that stay, the rest, and those added at the end.
-/
def sweepSent : List PathProbeInfo → List PathProbeInfo × List PathProbeInfo × List PathProbeInfo
  | [] => ([], [], [])
  | info :: rest =>
    if info.wait = none then ([], info :: rest, [])
    else
      let (dead, new) := verifier.detectDeadProbe marks now info
      let (kept, left, added) := sweepSent rest
      (if dead then kept else info :: kept, left, new ++ added)

/-- The loop over the probes after the one that was sent. -/
def sweepTail : List PathProbeInfo → List PathProbeInfo × List PathProbeInfo
  | [] => ([], [])
  | info :: rest =>
    let (kept, added) := sweepTail rest
    if info.wait = none then (info :: kept, added)
    else
      let (dead, new) := verifier.detectDeadProbe marks now info
      (if dead then kept else info :: kept, new ++ added)

/-- `detect_path_probe_timeout`, and whether it returns: at a probe that waits to be sent its loop
stays for ever. -/
def detectPathProbeTimeout : PathVerifier × Bool :=
  let (kept, left, added) := verifier.sweepSent marks now verifier.probes
  ({ verifier with
    probes := kept ++ (left ++ added)
    numProbeToSend := add64 verifier.numProbeToSend added.length }, (left ++ added).isEmpty)

/-- `send_path_challenge`, with the probe whose challenge was written; its path is read past the end
of the list. -/
def sendPathChallenge (w : Writer) (observer : Nat) (random : Option UInt64) (probeDeadline : Int) :
    PathVerifier × Writer × (IOResult × Option PathID) × Option PathProbeInfo :=
  let (kept, left, added) := verifier.sweepSent marks now verifier.probes
  let verifier := { verifier with
    probes := kept ++ (left ++ added)
    numProbeToSend := add64 verifier.numProbeToSend added.length }
  match left ++ added with
  | [] => (verifier, w, (.noData, some unknownPath), none)
  | info :: rest =>
    if w.remain < 9 then (verifier, w, (.noCapacity, some unknownPath), none)
    else
      match random with
      | none => (verifier, w, (.fatal, some unknownPath), none)
      | some data =>
        match (PathFrame.mk .pathChallenge data).render w with
        | (w, false) =>
          ({ verifier with probes := kept ++ { info with probeData := data } :: rest }, w,
            (.fatal, some unknownPath), none)
        | (w, true) =>
          let sent := { info with
            probeData := data
            probeTimer := if info.probeTimer < 0 then timerDeadline probeDeadline
              else info.probeTimer
            wait := some observer }
          let (keptTail, addedTail) := verifier.sweepTail marks now rest
          ({ verifier with
            probes := kept ++ sent :: (keptTail ++ addedTail)
            numProbeToSend := add64 (sub64 verifier.numProbeToSend 1) addedTail.length }, w,
            (.ok, none), some sent)

end Probes

def requestPathValidation (id : PathID) : PathVerifier :=
  { verifier with
    probes := verifier.probes ++ [{ id := id }]
    numProbeToSend := add64 verifier.numProbeToSend 1 }

def maybePeerMigratedPath (id : PathID) (isNonProbePacket : Bool) : PathVerifier :=
  if id ≠ verifier.activePath then
    let verifier := if isNonProbePacket then { verifier with migratePath := id } else verifier
    if id ∈ verifier.validPath then
      if isNonProbePacket then { verifier with activePath := id } else verifier
    else verifier.requestPathValidation id
  else verifier

def recvPathResponse (data : UInt64) : PathVerifier × Option QUICError :=
  match verifier.probes.find? fun info => info.probeData = data with
  | some info =>
    ({ verifier with
      probes := verifier.probes.eraseP fun info => info.probeData = data
      validPath := insert info.id verifier.validPath
      activePath := if info.id = verifier.migratePath then info.id else verifier.activePath },
      none)
  | none => (verifier, some {
      msg := "PathResponse contains not issued data"
      transportError := .protocolViolation
      frameType := .pathResponse })

def recv (frame : PathFrame) : PathVerifier × Option QUICError :=
  match frame.type with
  | .pathChallenge =>
    let (verifier, ok) := verifier.recvPathChallenge frame.data
    (verifier, if ok then none else some {
      msg := "Too many PATH_CHALLENGE"
      transportError := .protocolViolation
      frameType := .pathChallenge })
  | .pathResponse => verifier.recvPathResponse frame.data
  | _ => (verifier, none)

end PathVerifier

/-- The operations of a verifier; the records of the packets and the clock are read anew each time. -/
inductive Op where
  | requestPathValidation (id : PathID)
  | maybePeerMigratedPath (id : PathID) (isNonProbePacket : Bool)
  | sendPathResponse (room : Nat)
  | sendPathChallenge (room observer : Nat) (random : Option UInt64) (probeDeadline : Int)
      (marks : Nat → ACKLostState) (now : Int)
  | detectPathProbeTimeout (marks : Nat → ACKLostState) (now : Int)
  | recv (frame : PathFrame)

/-- What happened; `challenged` names the path and the data of a PATH_CHALLENGE that was written. -/
inductive Answer where
  | done
  | hangs
  | io (res : IOResult)
  | challenged (id : PathID) (data : UInt64)
  | received (err : Option QUICError)
  deriving DecidableEq

/-- One operation; a call that does not return leaves what its loop has done. -/
def step (verifier : PathVerifier) : Op → PathVerifier × Answer
  | .requestPathValidation id => (verifier.requestPathValidation id, .done)
  | .maybePeerMigratedPath id isNonProbePacket =>
    (verifier.maybePeerMigratedPath id isNonProbePacket, .done)
  | .sendPathResponse room =>
    let (verifier, _, res) := verifier.sendPathResponse (.ofCapacity room)
    (verifier, .io res)
  | .sendPathChallenge room observer random probeDeadline marks now =>
    let (verifier, _, (res, _), sent) :=
      verifier.sendPathChallenge marks now (.ofCapacity room) observer random probeDeadline
    (verifier, sent.elim (.io res) fun info => .challenged info.id info.probeData)
  | .detectPathProbeTimeout marks now =>
    let (verifier, returns) := verifier.detectPathProbeTimeout marks now
    (verifier, if returns then .done else .hangs)
  | .recv frame =>
    let (verifier, err) := verifier.recv frame
    (verifier, .received err)

/-- A challenge for the path was written. -/
def Challenged (past : List (Op × Answer)) (id : PathID) (data : UInt64) : Prop :=
  ∃ op, (op, Answer.challenged id data) ∈ past

/-- A challenge for the path was answered. -/
def Validated (past : List (Op × Answer)) (id : PathID) : Prop :=
  ∃ data before after, past =
      before ++ (Op.recv ⟨.pathResponse, data⟩, Answer.received none) :: after ∧
    Challenged before id data

/-- A path is valid because a challenge for it was answered, and the active path is the path of the
handshake or a valid one. -/
structure Sound (hsPath : PathID) (verifier : PathVerifier) (past : List (Op × Answer)) : Prop where
  valid : ∀ id ∈ verifier.validPath, Validated past id
  active : verifier.activePath = hsPath ∨ verifier.activePath ∈ verifier.validPath
  sent : ∀ info ∈ verifier.probes, info.wait ≠ none → Challenged past info.id info.probeData

/-- The probe a response is matched with has been sent. -/
def MatchesSent (verifier : PathVerifier) : Op → Prop
  | .recv frame => frame.type = .pathResponse →
      ∀ info ∈ verifier.probes.find? fun info => info.probeData = frame.data, info.wait ≠ none
  | _ => True

instance (verifier : PathVerifier) (op : Op) : Decidable (MatchesSent verifier op) := by
  cases op <;> dsimp only [MatchesSent] <;> infer_instance

section Sweep

variable {verifier : PathVerifier} {marks : Nat → ACKLostState} {now : Int}

/-- The sent probes of one list are among those of another. -/
def SentAmong (probes others : List PathProbeInfo) : Prop :=
  ∀ info ∈ probes, info.wait ≠ none → info ∈ others

theorem wait_of_detectDeadProbe (info : PathProbeInfo) :
    ∀ new ∈ (verifier.detectDeadProbe marks now info).2, new.wait = none := by
  rw [PathVerifier.detectDeadProbe]
  repeat' split
  all_goals simp

/-- A sweep drops a probe or keeps it, and adds probes that are not sent yet. -/
theorem SentAmong.cons {info : PathProbeInfo} {rest kept new more : List PathProbeInfo}
    (among : SentAmong (kept ++ more) rest) (dead : Bool) (unsent : ∀ info ∈ new, info.wait = none) :
    SentAmong ((if dead then kept else info :: kept) ++ (new ++ more)) (info :: rest) := by
  intro other member sent
  have places : other = info ∨ other ∈ kept ++ more ∨ other ∈ new := by
    cases dead <;> simp only [Bool.false_eq_true, if_false, mem_append,
      List.mem_cons] at member ⊢ <;> tauto
  obtain rfl | old | added := places
  · exact mem_cons_self
  · exact mem_cons_of_mem _ (among _ old sent)
  · exact absurd (unsent _ added) sent

theorem sentAmong_sweepSent (probes : List PathProbeInfo) :
    let (kept, left, added) := verifier.sweepSent marks now probes
    SentAmong (kept ++ (added ++ left)) probes := by
  induction probes with
  | nil => exact fun _ member => nomatch member
  | cons info rest ih =>
    rw [PathVerifier.sweepSent]
    by_cases waiting : info.wait = none
    · rw [if_pos waiting]
      exact fun other member _ => member
    · rw [if_neg waiting]
      have unsent := @wait_of_detectDeadProbe verifier marks now info
      generalize verifier.detectDeadProbe marks now info = detected at unsent ⊢
      dsimp only
      rw [append_assoc]
      exact SentAmong.cons ih _ unsent

theorem sentAmong_sweepTail (probes : List PathProbeInfo) :
    let (kept, added) := verifier.sweepTail marks now probes
    SentAmong (kept ++ added) probes := by
  induction probes with
  | nil => exact fun _ member => nomatch member
  | cons info rest ih =>
    have unsent := @wait_of_detectDeadProbe verifier marks now info
    rw [PathVerifier.sweepTail]
    generalize verifier.detectDeadProbe marks now info = detected at unsent ⊢
    by_cases waiting : info.wait = none
    · simp only [if_pos waiting]
      intro other member sent
      obtain rfl | later := mem_cons.1 member
      · exact absurd waiting sent
      · exact mem_cons_of_mem _ (ih _ later sent)
    · simp only [if_neg waiting]
      exact SentAmong.cons ih _ unsent

end Sweep

namespace Sound

variable {hsPath : PathID} {verifier after : PathVerifier} {past : List (Op × Answer)}

theorem challenged_append {id : PathID} {data : UInt64} (challenged : Challenged past id data)
    (more : List (Op × Answer)) : Challenged (past ++ more) id data := by
  obtain ⟨op, member⟩ := challenged
  exact ⟨op, mem_append_left _ member⟩

theorem validated_append {id : PathID} (validated : Validated past id)
    (more : List (Op × Answer)) : Validated (past ++ more) id := by
  obtain ⟨data, before, later, rfl, challenged⟩ := validated
  exact ⟨data, before, later ++ more, by simp, challenged⟩

theorem challenge_writes (data : UInt64) : ∃ bytes : Bytes, bytes.length = 9 ∧
    Writer.Writes (PathFrame.mk .pathChallenge data).render bytes :=
  ⟨_, by simp [minLen, inRange, border, FrameType.value],
    .andThen (writes_varint (show FrameType.pathChallenge.value < 2 ^ 62 by decide))
      (Writer.writes_write _)⟩

theorem recvPathChallenge_queue (verifier : PathVerifier) (data : UInt64) :
    ∃ recvData, (verifier.recvPathChallenge data).1 = { verifier with recvData := recvData } := by
  rw [PathVerifier.recvPathChallenge]
  split
  case isTrue => exact ⟨verifier.recvData, rfl⟩
  case isFalse => exact ⟨_, rfl⟩

theorem sendPathResponse_queue (verifier : PathVerifier) (w : Writer) :
    ∃ recvData, (verifier.sendPathResponse w).1 = { verifier with recvData := recvData } := by
  rw [PathVerifier.sendPathResponse]
  split
  case h_1 => exact ⟨verifier.recvData, rfl⟩
  case h_2 =>
    split
    case isTrue => exact ⟨verifier.recvData, rfl⟩
    case isFalse => exact ⟨_, rfl⟩

variable {event : Op × Answer} (sound : Sound hsPath verifier past)

include sound

theorem keep (valid : after.validPath = verifier.validPath)
    (active : after.activePath = verifier.activePath ∨ after.activePath ∈ verifier.validPath)
    (sent : ∀ info ∈ after.probes, info.wait ≠ none →
      info ∈ verifier.probes ∨ event.2 = .challenged info.id info.probeData) :
    Sound hsPath after (past ++ [event]) where
  valid id member := validated_append (sound.valid id (valid ▸ member)) _
  active := by
    rw [valid]
    obtain same | moved := active
    · rw [same]
      exact sound.active
    · exact .inr moved
  sent info member waits := by
    obtain earlier | now := sent _ member waits
    · exact challenged_append (sound.sent _ earlier waits) _
    · exact ⟨event.1, List.mem_append_right _ (by rw [← now]; exact List.mem_singleton_self _)⟩

theorem requestPathValidation (id : PathID) {event : Op × Answer} :
    Sound hsPath (verifier.requestPathValidation id) (past ++ [event]) := by
  refine sound.keep rfl (.inl rfl) fun info member waits => .inl ?_
  obtain earlier | rfl := mem_snoc.1 member
  · exact earlier
  · exact absurd rfl waits

theorem maybePeerMigratedPath (id : PathID) (isNonProbePacket : Bool) :
    Sound hsPath (verifier.maybePeerMigratedPath id isNonProbePacket) (past ++ [event]) := by
  rw [PathVerifier.maybePeerMigratedPath]
  by_cases moved : id ≠ verifier.activePath
  · rw [if_pos moved]
    by_cases valid : id ∈ verifier.validPath
    · cases isNonProbePacket <;> simp only [Bool.false_eq_true, if_false, if_true, if_pos valid]
      · exact sound.keep rfl (.inl rfl) fun _ member _ => .inl member
      · exact sound.keep rfl (.inr valid) fun _ member _ => .inl member
    · cases isNonProbePacket <;> simp only [Bool.false_eq_true, if_false, if_true, if_neg valid]
      · exact sound.requestPathValidation id
      · exact @requestPathValidation _ { verifier with migratePath := id } _
          ⟨sound.valid, sound.active, sound.sent⟩ id _
  · rw [if_neg moved]
    exact sound.keep rfl (.inl rfl) fun _ member _ => .inl member

theorem detectPathProbeTimeout (marks : Nat → ACKLostState) (now : Int) :
    Sound hsPath (verifier.detectPathProbeTimeout marks now).1 (past ++ [event]) := by
  have among := @sentAmong_sweepSent verifier marks now verifier.probes
  rw [PathVerifier.detectPathProbeTimeout]
  refine sound.keep rfl (.inl rfl) fun info member waits => .inl (among _ ?_ waits)
  simp only [mem_append] at member ⊢
  tauto

theorem sendPathChallenge (marks : Nat → ACKLostState) (now : Int) (w : Writer) (observer : Nat)
    (random : Option UInt64) (probeDeadline : Int) {op : Op} {answer : Answer}
    (answered : ∀ info ∈ (verifier.sendPathChallenge marks now w observer random
      probeDeadline).2.2.2, answer = .challenged info.id info.probeData) :
    Sound hsPath (verifier.sendPathChallenge marks now w observer random probeDeadline).1
      (past ++ [(op, answer)]) := by
  have among := @sentAmong_sweepSent verifier marks now verifier.probes
  rw [PathVerifier.sendPathChallenge] at answered ⊢
  generalize verifier.sweepSent marks now verifier.probes = swept at among answered ⊢
  obtain ⟨kept, left, added⟩ := swept
  dsimp only at among answered ⊢
  have swept (info : PathProbeInfo) (member : info ∈ kept ++ (left ++ added))
      (waits : info.wait ≠ none) : info ∈ verifier.probes := by
    refine among _ ?_ waits
    simp only [List.mem_append] at member ⊢
    tauto
  match unsent : left ++ added with
  | [] =>
    rw [unsent] at swept
    exact sound.keep rfl (.inl rfl) fun info member waits => .inl (swept _ member waits)
  | info :: rest =>
    rw [unsent] at swept answered
    by_cases full : w.remain < 9
    · simp only [if_pos full]
      exact sound.keep rfl (.inl rfl) fun info member waits => .inl (swept _ member waits)
    · simp only [if_neg full] at answered ⊢
      cases random with
      | none =>
        exact sound.keep rfl (.inl rfl) fun info member waits => .inl (swept _ member waits)
      | some data =>
        obtain ⟨bytes, length_eq, writes⟩ := challenge_writes data
        have room : bytes.length ≤ w.remain := by omega
        simp only [writes w room] at answered ⊢
        generalize middle_eq : ({ verifier with
          probes := kept ++ info :: rest
          numProbeToSend := add64 verifier.numProbeToSend added.length } : PathVerifier) =
            middle at answered ⊢
        have tail := @sentAmong_sweepTail middle marks now rest
        refine sound.keep rfl (.inl rfl) fun other member waits => ?_
        simp only [List.mem_append, List.mem_cons] at member
        obtain inKept | rfl | inTail := member
        · exact .inl (swept _ (List.mem_append_left _ inKept) waits)
        · exact .inr (answered _ rfl)
        · refine .inl (swept _ ?_ waits)
          have inRest := tail _ (List.mem_append.2 inTail) waits
          exact List.mem_append_right _ (List.mem_cons_of_mem _ inRest)

theorem answering (queue : ∃ recvData, after = { verifier with recvData := recvData }) :
    Sound hsPath after (past ++ [event]) := by
  obtain ⟨-, rfl⟩ := queue
  exact sound.keep rfl (.inl rfl) fun _ member _ => .inl member

theorem recvPathResponse {data : UInt64}
    (matched : ∀ info ∈ verifier.probes.find? fun info => info.probeData = data,
      info.wait ≠ none) :
    Sound hsPath (verifier.recvPathResponse data).1
      (past ++ [(.recv ⟨.pathResponse, data⟩, .received (verifier.recvPathResponse data).2)]) := by
  rw [PathVerifier.recvPathResponse]
  split
  case h_1 info found =>
    have challenged := sound.sent _ (mem_of_find?_eq_some found) (matched _ found)
    have answers : info.probeData = data := by simpa using find?_some found
    rw [answers] at challenged
    constructor
    · intro id member
      obtain rfl | earlier := mem_insert.1 member
      · exact ⟨data, past, [], rfl, challenged⟩
      · exact validated_append (sound.valid id earlier) _
    · split
      case isTrue => exact .inr (mem_insert_self _ _)
      case isFalse => exact sound.active.imp_right mem_insert_of_mem
    · exact fun other member waits =>
        challenged_append (sound.sent _ (mem_of_mem_eraseP member) waits) _
  case h_2 => exact sound.answering ⟨verifier.recvData, rfl⟩

theorem recv {frame : PathFrame} (matched : MatchesSent verifier (.recv frame)) :
    Sound hsPath (verifier.recv frame).1
      (past ++ [(.recv frame, .received (verifier.recv frame).2)]) := by
  obtain ⟨type, data⟩ := frame
  by_cases challenge : type = .pathChallenge
  · subst challenge
    exact sound.answering (recvPathChallenge_queue _ _)
  · by_cases response : type = .pathResponse
    · subst response
      exact sound.recvPathResponse (matched rfl)
    · have other : verifier.recv ⟨type, data⟩ = (verifier, none) := by
        cases type <;> first | rfl | contradiction
      rw [other]
      exact sound.answering ⟨verifier.recvData, rfl⟩

theorem step {op : Op} (matched : MatchesSent verifier op) :
    Sound hsPath (Path.step verifier op).1 (past ++ [(op, (Path.step verifier op).2)]) := by
  cases op with
  | requestPathValidation id => exact sound.requestPathValidation id
  | maybePeerMigratedPath id isNonProbePacket =>
    exact sound.maybePeerMigratedPath id _
  | sendPathResponse room =>
    exact sound.answering (sendPathResponse_queue _ _)
  | sendPathChallenge room observer random probeDeadline marks now =>
    refine sound.sendPathChallenge _ now _ _ _ _ fun info written => ?_
    simp only [Path.step]
    rw [Option.mem_def.1 written]
    rfl
  | detectPathProbeTimeout marks now => exact sound.detectPathProbeTimeout marks now
  | recv frame => exact sound.recv matched

end Sound

/-- In every run in which responses match probes that were sent, every valid path was challenged and
answered, and the active path is that of the handshake or a valid one. -/
theorem valid_paths_challenged {hsPath : PathID} {maxPathChallenge : Nat} {ops : List Op}
    (matched : Guarded step MatchesSent (.reset hsPath maxPathChallenge) ops) :
    let verifier := final step (.reset hsPath maxPathChallenge) ops
    (∀ id ∈ verifier.validPath,
      Validated (trace step (.reset hsPath maxPathChallenge) ops) id) ∧
      (verifier.activePath = hsPath ∨ verifier.activePath ∈ verifier.validPath) := by
  have run := @invariant_of_guarded _ _ _ _ _ (Sound _)
    (fun _ _ _ sound allowed => sound.step allowed) _ [] ops
    ⟨by simp [PathVerifier.reset], .inl rfl, by simp [PathVerifier.reset]⟩ matched
  exact ⟨run.valid, run.active⟩

/-- The peer migrates to path 3, which is probed twice because a packet is lost. -/
theorem valid_paths_challenged_migration :
    let lost : Nat → ACKLostState := fun _ => .lost
    let ops := [.maybePeerMigratedPath 3 true, .sendPathChallenge 20 0 (some 7) 100 lost 10,
      .sendPathChallenge 20 1 (some 8) 100 lost 11, .recv ⟨.pathResponse, 8⟩]
    let verifier := final step (.reset 0 256) ops
    (∀ id ∈ verifier.validPath, Validated (trace step (.reset 0 256) ops) id) ∧
      (verifier.activePath = 0 ∨ verifier.activePath ∈ verifier.validPath) :=
  valid_paths_challenged (by decide +kernel)

/-- A response with the data zero validates a path that was never challenged. -/
theorem valid_path_unchallenged :
    let ops := [.maybePeerMigratedPath 3 true, .recv ⟨.pathResponse, 0⟩]
    let verifier := final step (.reset 0 256) ops
    3 ∈ verifier.validPath ∧ verifier.activePath = 3 ∧
      (trace step (.reset 0 256) ops).map Prod.snd = [.done, .received none] := by
  decide +kernel

end Futils.Quic.Path
