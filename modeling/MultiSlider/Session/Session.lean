import MultiSlider.Session.Message

/-! The client's side of a session (`Session.cpp`). Every public method is a function of the object and
    of what it reads from the clock and the socket; it returns the object after the call, the datagrams
    sent, the callbacks made, and how the call failed if it did not return.

    Unsigned integers are natural numbers, reduced where the code lets them wrap; `size_t` has 64 bits. An `int64_t`
    is an integer that `toInt64` brings back into its range.
    `now` is `getTimeLocalMS()`, the milliseconds of the local day. -/

namespace MultiSlider

/-! Constants of the client. -/

def messsagesBufferSize : Nat := 32
def idxWrapModulo : Nat := 1024
def clockSyncTimeoutMs : Nat := 30 * 1000
def defaultTimeoutMs : Nat := 10000
def clientKeepAliveLimit : Nat := 10000
def resendInterval : Nat := 1000

/-- `narrow_cast` of a JSON number to an unsigned type of `width` bits; its assertion fails elsewhere. -/
def narrowCast (width : Nat) (x : Int) : Option Nat :=
  if 0 ≤ x ∧ x < 2 ^ width then some x.toNat else none

theorem narrowCast_eq_some_iff {width n : Nat} {x : Int} : narrowCast width x = some n ↔ x = n ∧ n < 2 ^ width := by
  unfold narrowCast
  constructor
  · intro h
    obtain ⟨⟨hlow, hhigh⟩, heq⟩ := Option.ite_none_right_eq_some.mp h
    obtain rfl := Option.some.inj heq
    refine ⟨(Int.toNat_of_nonneg hlow).symm, ?_⟩
    rw [← Int.toNat_of_nonneg hlow] at hhigh
    exact_mod_cast hhigh
  · rintro ⟨rfl, hn⟩
    rw [if_pos ⟨Int.natCast_nonneg n, by exact_mod_cast hn⟩, Int.toNat_natCast]

theorem narrowCast_natCast {width x : Nat} (h : x < 2 ^ width) : narrowCast width x = some x :=
  narrowCast_eq_some_iff.mpr ⟨rfl, h⟩

theorem narrowCast_natCast_eq_none_iff {width x : Nat} : narrowCast width x = none ↔ 2 ^ width ≤ x := by
  rw [Option.eq_none_iff_forall_ne_some]
  constructor
  · intro h
    exact not_lt.mp fun hx => h x (narrowCast_natCast hx)
  · intro hx n h
    obtain ⟨heq, hn⟩ := narrowCast_eq_some_iff.mp h
    exact absurd hx (not_le.mpr (Nat.cast_injective heq ▸ hn))

/-- `static_cast<int64_t>`: the number in the range of the type that is congruent modulo 2^64. -/
def toInt64 (x : Int) : Int := x.bmod (2 ^ 64)

theorem toInt64_eq {x : Int} (hlow : -2 ^ 63 ≤ x) (hhigh : x < 2 ^ 63) : toInt64 x = x :=
  Int.bmod_eq_of_le hlow hhigh

theorem toInt64_emod (x : Int) : toInt64 x % 2 ^ 64 = x % 2 ^ 64 := Int.bmod_emod

/-- Additions on `uint64_t` do not see whether a summand has been cast. -/
theorem add_toInt64_emod (x y : Int) : (x + toInt64 y) % 2 ^ 64 = (x + y) % 2 ^ 64 := by
  rw [Int.add_emod, toInt64_emod, ← Int.add_emod]

theorem toInt64_eq_toInt64_iff {x y : Int} : toInt64 x = toInt64 y ↔ x % 2 ^ 64 = y % 2 ^ 64 := by
  constructor
  · intro h
    rw [← toInt64_emod x, h, toInt64_emod]
  · intro h
    have hcast (x : Int) : (x % 2 ^ 64).bmod (2 ^ 64) = toInt64 x := by exact_mod_cast Int.emod_bmod x (2 ^ 64)
    rw [← hcast x, h, hcast]

/-- The casts to `int64_t` cancel out in the sum, which is cast itself. -/
theorem toInt64_shift (timeShift responseTime requestTime lastPing : Int) :
    toInt64 (timeShift + (toInt64 responseTime - toInt64 requestTime - toInt64 lastPing)) =
      toInt64 (timeShift + (responseTime - requestTime - lastPing)) := by
  have hresponse := toInt64_emod responseTime
  have hrequest := toInt64_emod requestTime
  have hping := toInt64_emod lastPing
  rw [toInt64_eq_toInt64_iff]
  omega

/-- An entry of `mOutputQueue`, with the datagram as the object that it is the text of. -/
structure MsgInfo where
  seqIdx : Nat
  sentTime : Nat
  msgData : Envelop
deriving DecidableEq, Repr

/-- How far `startup` has got: it waits for the first datagram, then after `RESPONSE_SUCC` for a second
    one; `time` is the waiting time so far. -/
inductive StartupPhase where
  | notCalled
  | awaitingResponse (time timeout : Nat)
  | awaitingStart (time timeout : Nat)
  | finished
deriving DecidableEq, Repr

/-- The fields of a `Session`. `calls` counts its reliable `sync` calls and is not part of the object. -/
structure Session where
  playerName : String
  sessionId : Nat
  lastTimestamp : Nat
  lastPing : Nat
  started : Bool
  timeShift : Int
  lastSyncTime : Nat
  clockSyncId : Nat
  localSeqIdx : Nat
  remoteSeqIdx : Nat
  previousIdxBits : BitVec 32
  outputQueue : List MsgInfo
  startupPhase : StartupPhase
  calls : Nat
deriving DecidableEq, Repr

/-- The methods of `SessionCallback`. -/
inductive Callback where
  | onStart
  | onUpdate (data : List PlayerData) (sharedData : String) (sharedTimestamp : Int)
  | onMessage (sender message : String)
  | onSync (syncId : Nat) (wasLost : Bool)
  | onQuit (playerName : String) (byTimeout : Bool)
deriving DecidableEq, Repr

/-- A call that does not return: an exception, or a failed assertion. -/
inductive Fault where
  | runtimeError (what : String)
  | protocolError (what : String)
  | assertion
deriving DecidableEq, Repr

/-- What a call comes to. -/
structure Turn where
  session : Session
  sent : List Envelop
  callbacks : List Callback
  fault : Option Fault

namespace Session

/-- The object that the constructor builds. -/
def create (playerName : String) (sessionId : Nat) : Session where
  playerName := playerName
  sessionId := sessionId
  lastTimestamp := 0
  lastPing := 0
  started := false
  timeShift := 0
  lastSyncTime := 0
  clockSyncId := 0
  localSeqIdx := 1
  remoteSeqIdx := 0
  previousIdxBits := 0
  outputQueue := []
  startupPhase := .notCalled
  calls := 0

variable (s : Session)

/-- The call returns after sending and calling back. -/
def returns (sent : List Envelop) (callbacks : List Callback) : Turn := ⟨s, sent, callbacks, none⟩

/-- The call ends with this fault, after sending nothing. -/
def throws (fault : Fault) : Turn := ⟨s, [], [], some fault⟩

/-- `makeEnvelop`; `request` tells which call the datagram is sent for. -/
def makeEnvelop (message : BackendMessage) (request : Option Request) : Envelop :=
  ⟨s.sessionId, .json message, request⟩

/-- `getTimeSyncronizedMS`, in 64 bits without a sign. -/
def getTimeSyncronizedMS (now : Nat) : Nat := ((now + s.timeShift) % 2 ^ 64).toNat

/-- `getNextSeqIdx`: the index, and `mLocalSeqIdx` after it. -/
def getNextSeqIdx : Nat × Nat :=
  (s.localSeqIdx, if s.localSeqIdx < idxWrapModulo - 1 then s.localSeqIdx + 1 else 0)

/-- `sendClockSync`: a new number, and the request with the corrected time. -/
def sendClockSync (now : Nat) : Session × Envelop :=
  let s := { s with clockSyncId := if s.clockSyncId < 254 then s.clockSyncId + 1 else 0 }
  (s, s.makeEnvelop (.clockSync s.clockSyncId (s.getTimeSyncronizedMS now) 0) none)

/-- `updatePing`; the sum of the average may wrap. -/
def updatePing (now timestamp : Nat) : Session :=
  if s.lastSyncTime > 0 then
    let currTime := s.getTimeSyncronizedMS now
    if timestamp > currTime then { s with lastPing := (s.lastPing + (timestamp - currTime)) % 2 ^ 64 / 2 } else s
  else s

/-! ### Startup -/

/-- The message that `startup` sends, and sends again. -/
def readyMessage : Envelop := s.makeEnvelop (.ready s.playerName) none

/-- The first part of `startup`, up to its first wait. -/
def startup (timeout : Nat) : Turn :=
  { s with startupPhase := .awaitingResponse 0 timeout }.returns [s.readyMessage] []

/-- The end of `startup`, with the datagram that must be `Start`. -/
def finishStartup (now : Nat) : Payload → Turn
  | .json .start =>
    let r := { s with started := true, startupPhase := .finished }.sendClockSync now
    { r.1 with lastTimestamp := r.1.getTimeSyncronizedMS now }.returns [r.2] [.onStart]
  | _ =>
    { s with startupPhase := .finished }.throws
      (.runtimeError "Session[Startup]: Unexpected server response!")

/-- A wait of `startup` ended without a datagram, or with an empty one. -/
def startupTimeout : Turn :=
  let expire (time timeout : Nat) (phase : StartupPhase) : Turn :=
    if time > timeout then
      { s with startupPhase := .finished }.throws
        (.runtimeError "Session[Startup]: Failed to get response from server")
    else { s with startupPhase := phase }.returns [s.readyMessage] []
  match s.startupPhase with
  | .awaitingResponse time timeout =>
    expire (time + defaultTimeoutMs) timeout (.awaitingResponse (time + defaultTimeoutMs) timeout)
  | .awaitingStart time timeout =>
    expire (time + defaultTimeoutMs) timeout (.awaitingStart (time + defaultTimeoutMs) timeout)
  | _ => s.returns [] []

/-- A wait of `startup` ended with a datagram that is not empty. -/
def startupReceive (now : Nat) (received : Payload) : Turn :=
  match s.startupPhase with
  | .awaitingResponse time timeout =>
    if received = .text responseSucc then
      { s with startupPhase := .awaitingStart time timeout }.returns [] []
    else s.finishStartup now received
  | .awaitingStart _ _ => s.finishStartup now received
  | _ => s.returns [] []

/-! ### Requests -/

/-- The error of a method that needs a started session. -/
def notStarted (method : String) : Fault := .protocolError ("Session[" ++ method ++ "]: Session was not started!")

/-- The methods that send one message of a started session. -/
def sends (method : String) (message : BackendMessage) : Turn :=
  if s.started then s.returns [s.makeEnvelop message none] [] else s.throws (notStarted method)

/-- `broadcast`, stamped with the local time as it is, without the shift. -/
def broadcast (now : Nat) (data sharedData : String) (forced : Bool) : Turn :=
  s.sends "broadcast" (.update s.playerName now forced data (some sharedData))

/-- `say` names itself `broadcast` in its error. -/
def say (message : String) : Turn := s.sends "broadcast" (.message s.playerName message)

/-- `keepAlive`, stamped with the corrected time. -/
def keepAlive (now : Nat) : Turn := s.sends "keepAlive" (.keepAlive (some s.playerName) (s.getTimeSyncronizedMS now))

/-- `quit`; the program is told at once, before the server knows. -/
def quit : Turn :=
  if s.started then
    { s with started := false }.returns [s.makeEnvelop (.quit s.playerName) none]
      [.onQuit s.playerName false]
  else s.returns [] []

/-- `sync` with `reliable = false`. -/
def syncSimple (syncId delay : Nat) : Turn :=
  s.sends "broadcast" (.requestSync s.playerName delay syncId (idxWrapModulo + 1 : Nat))

/-- `sync` with `reliable = true`; the flag is its result, false where the queue is full. It names itself `broadcast`
    in its error. -/
def sync (now syncId delay : Nat) : Turn × Bool :=
  if s.started then
    if s.outputQueue.length ≥ messsagesBufferSize then (s.returns [] [], false)
    else
      let seqIdx := s.getNextSeqIdx
      let syncMessage := s.makeEnvelop (.requestSync s.playerName delay syncId seqIdx.1)
        (some ⟨s.playerName, s.calls + 1, syncId⟩)
      let msg : MsgInfo := ⟨seqIdx.1, s.getTimeSyncronizedMS now, syncMessage⟩
      let s := { s with localSeqIdx := seqIdx.2, outputQueue := s.outputQueue ++ [msg], calls := s.calls + 1 }
      (s.returns [syncMessage] [], true)
  else (s.throws (notStarted "broadcast"), false)

/-! ### Receiving -/

/-- `removeAcknowledged`: the first entry with this number, wherever it stands. -/
def removeAcknowledged (ackIdx : Nat) : Session :=
  { s with outputQueue := s.outputQueue.eraseP fun msg => msg.seqIdx = ackIdx }

/-- `checkAcknowledgement`: the object after it where it returns true. The fourth test repeats the
    second and is never reached with success. -/
def checkAcknowledgement (ackIdx : Nat) : Option Session :=
  if ackIdx = s.remoteSeqIdx then none
  else if ackIdx > s.remoteSeqIdx ∧ ackIdx - s.remoteSeqIdx < messsagesBufferSize then
    some { s.removeAcknowledged ackIdx with
      previousIdxBits := s.previousIdxBits <<< (ackIdx - s.remoteSeqIdx)
      remoteSeqIdx := ackIdx }
  else if idxWrapModulo + ackIdx > s.remoteSeqIdx ∧
      idxWrapModulo + ackIdx - s.remoteSeqIdx < messsagesBufferSize then
    some { s.removeAcknowledged ackIdx with
      previousIdxBits := s.previousIdxBits <<< (idxWrapModulo + ackIdx - s.remoteSeqIdx)
      remoteSeqIdx := ackIdx }
  else if ackIdx > s.remoteSeqIdx ∧ ackIdx - s.remoteSeqIdx < messsagesBufferSize then
    let ackBit : BitVec 32 := 1#32 <<< (ackIdx - s.remoteSeqIdx - 1)
    if s.previousIdxBits &&& ackBit = 0 then
      some { s.removeAcknowledged ackIdx with previousIdxBits := s.previousIdxBits ||| ackBit }
    else none
  else none

/-- The `SYNC` branch of `receive`. -/
def receiveSync (syncId seqIdx : Int) : Turn :=
  match narrowCast 32 seqIdx with
  | none => s.throws .assertion
  | some seqIdx =>
    match if seqIdx ≥ idxWrapModulo then some s else s.checkAcknowledgement seqIdx with
    | none => s.returns [] []
    | some s =>
      match narrowCast 32 syncId with
      | none => s.throws .assertion
      | some syncId => s.returns [] [.onSync syncId false]

/-- The `ACK` branch of `receive`. -/
def receiveAck (seqIdx : Int) : Turn :=
  match narrowCast 32 seqIdx with
  | none => s.throws .assertion
  | some ackIdx => ((s.checkAcknowledgement ackIdx).getD s).returns [] []

/-- The `CLOCK_SYNC` branch of `receive`. -/
def receiveClockSync (now : Nat) (id requestTime responseTime : Int) : Turn :=
  match narrowCast 8 id with
  | none => s.throws .assertion
  | some id =>
    if s.clockSyncId = id then
      match narrowCast 64 requestTime with
      | none => s.throws .assertion
      | some requestTime =>
        let currTime := s.getTimeSyncronizedMS now
        if currTime > requestTime then
          let lastPing := (currTime - requestTime) / 2
          { s with
            lastSyncTime := currTime
            lastPing
            timeShift := toInt64
              (s.timeShift + (toInt64 responseTime - toInt64 requestTime - toInt64 lastPing)) }.returns [] []
        else { s with lastSyncTime := currTime }.throws .assertion
    else s.returns [] []

/-- The branch of `receive` for the class of the datagram. -/
def dispatch (now : Nat) : Payload → Turn
  | .json .start => s.returns [] [.onStart]
  | .json (.sessionState data sharedData sharedTimestamp) =>
    s.returns [] [.onUpdate data sharedData sharedTimestamp]
  | .json (.sync syncId seqIdx) => s.receiveSync syncId seqIdx
  | .json (.keepAlive _ timestamp) =>
    if s.lastSyncTime > 0 then
      match narrowCast 64 timestamp with
      | none => s.throws .assertion
      | some timestamp => (s.updatePing now timestamp).returns [] []
    else s.returns [] []
  | .json (.ack seqIdx) => s.receiveAck seqIdx
  | .json (.clockSync id requestTime responseTime) => s.receiveClockSync now id requestTime responseTime
  | .json (.quit player) =>
    { s with started := s.started && player ≠ s.playerName }.returns [] [.onQuit player false]
  | .json (.message sender message) => s.returns [] [.onMessage sender message]
  | _ => s.throws (.runtimeError "Session[receive]: Unknown datagram type!")

/-- One round of the loop of `receive`, with a datagram that is not empty. -/
def receiveDatagram (now : Nat) (received : Payload) : Turn :=
  let t := s.dispatch now received
  match t.fault with
  | none => { t with session := { t.session with lastTimestamp := t.session.getTimeSyncronizedMS now } }
  | some _ => t

/-- The resend loop: the entries after it and the copies sent. -/
def resend (currentTime : Nat) (queue : List MsgInfo) : List MsgInfo × List Envelop :=
  let due (msg : MsgInfo) : Bool := currentTime > (msg.sentTime + resendInterval) % 2 ^ 64
  (queue.map fun msg => if due msg then { msg with sentTime := currentTime } else msg,
    (queue.filter due).map (·.msgData))

/-- The part of `receive` after its loop. -/
def periodic (now : Nat) : Turn :=
  let currentTime := s.getTimeSyncronizedMS now
  if s.started then
    if currentTime > (s.lastTimestamp + clientKeepAliveLimit) % 2 ^ 64 then
      { s with started := false }.returns [] [.onQuit s.playerName true]
    else
      let r := resend currentTime s.outputQueue
      let s := { s with outputQueue := r.1 }
      if currentTime > (s.lastSyncTime + clockSyncTimeoutMs) % 2 ^ 64 then
        let c := s.sendClockSync now
        c.1.returns (r.2 ++ [c.2]) []
      else s.returns r.2 []
  else s.returns [] []

/-- The loop of `receive` over the datagrams in the socket, each with the local time it is handled at.
    It ends at a fault, at the limit, at an empty datagram, or when the session is no longer started; a
    `KeepAlive` does not count against the limit. -/
def receiveLoop : Nat → List (Nat × Payload) → Session → Turn
  | _, [], s => s.returns [] []
  | 0, _, s => s.returns [] []
  | messagesLimit + 1, (now, received) :: rest, s =>
    if s.started ∧ received ≠ .text "" then
      let t := s.receiveDatagram now received
      match t.fault with
      | none =>
        let invisible := match received with
          | .json (.keepAlive _ _) => true
          | _ => false
        let u := receiveLoop (if invisible then messagesLimit + 1 else messagesLimit) rest t.session
        ⟨u.session, t.sent ++ u.sent, t.callbacks ++ u.callbacks, u.fault⟩
      | some _ => t
    else s.returns [] []

/-- `receive`, with `now` the time after its loop. -/
def receive (messagesLimit : Nat) (arrivals : List (Nat × Payload)) (now : Nat) : Turn :=
  let t := receiveLoop messagesLimit arrivals s
  match t.fault with
  | none =>
    let u := t.session.periodic now
    ⟨u.session, t.sent ++ u.sent, t.callbacks ++ u.callbacks, u.fault⟩
  | some _ => t

end Session

end MultiSlider
