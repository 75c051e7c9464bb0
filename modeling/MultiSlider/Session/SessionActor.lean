import Mathlib.Data.List.ReduceOption
import MultiSlider.Lib.OrderedMap
import MultiSlider.Session.Message

/-! The server's side of a session (`SessionActor.scala`). A handler returns the actor's state after it,
    the effects it had in order, and whether it ended with an exception; state changes and sends made
    before the exception stay. -/

namespace MultiSlider

/-! Constants of `SessionActor` and `MessagesSequenceInfo`. -/

def keepAliveLimit : Int := 10000
def weakConnectionTimeout : Int := 1000
def ackHistorySize : Int := 32
def idxWrapModule : Int := 1024

/-- Dynamic information for each player. -/
structure PlayerStatistics where
  address : Address
  updateTimestamp : Int
  privateData : String
  lastPingTime : Int
  weakConnection : Bool
deriving DecidableEq, Repr

/-- The two fields of `m_shared_stats` that the code reads. -/
structure SharedStatistics where
  updateTimestamp : Int
  privateData : String
deriving DecidableEq, Repr

/-- The indices of the requests of a player, in both directions. -/
structure MessagesSequenceInfo where
  localSeqIdx : Int
  remoteSeqIdx : Int
  remoteIdxBits : BitVec 64
deriving DecidableEq, Repr

/-- `m_state`. -/
inductive SessionState where
  | waiting
  | running
  | zombie
deriving DecidableEq, Repr

/-- The fields of a `SessionActor`. `stats` is in the iteration order of the hash map, and a player who
    has not joined or has departed is a `null` entry; `keepAliveTask` says whether the task is active,
    and is `none` before it is created. -/
structure SessionActor where
  id : Nat
  stats : AList fun _ : String => Option PlayerStatistics
  sharedStats : SharedStatistics
  seqStats : String → Option MessagesSequenceInfo
  state : SessionState
  keepAliveTask : Option Bool
  stopped : Bool

/-- What a handler does besides changing the actor. -/
inductive Effect where
  | send (payload : Payload) (address : Address)
  | schedule (delay syncId msgIdx : Int)
  | closeSession (sessionId : Nat)
deriving DecidableEq, Repr

/-- What a handler comes to. -/
structure Outcome where
  actor : SessionActor
  effects : List Effect
  raised : Bool

namespace SessionActor

/-- A session for `players`, iterated over in the order of the list. -/
def create (id : Nat) (players : List String) : SessionActor where
  id := id
  stats := .ofKeys players none
  sharedStats := ⟨0, ""⟩
  seqStats := fun _ => none
  state := .waiting
  keepAliveTask := none
  stopped := false

variable (a : SessionActor)

/-- The handler ended normally. -/
def done (effects : List Effect) : Outcome := ⟨a, effects, false⟩

/-- The handler ended with an exception. -/
def raise (effects : List Effect) : Outcome := ⟨a, effects, true⟩

/-- The players that have joined and not departed, in iteration order. -/
def livePlayers : List PlayerStatistics := a.stats.values.reduceOption

/-- `gatherSessionData`: a player who has not joined or has departed is shown with default values. -/
def gatherSessionData : List PlayerData :=
  a.stats.entries.map fun e => match e.2 with
    | some stats => ⟨e.1, stats.privateData, stats.updateTimestamp, stats.weakConnection, true⟩
    | none => ⟨e.1, "", 0, false, false⟩

/-- The `SessionState` of this moment. -/
def sessionState : Payload :=
  .json (.sessionState a.gatherSessionData a.sharedStats.privateData a.sharedStats.updateTimestamp)

/-- `quitImpl`: the last player to go ends the session, its task and its actor. -/
def quitImpl (playerName : String) : SessionActor × List Effect :=
  match a.stats.lookup playerName with
  | some (some _) =>
    let a := { a with stats := a.stats.replace playerName none }
    if a.stats.values.all (·.isNone) then
      ({ a with keepAliveTask := some false, stopped := true }, [.closeSession a.id])
    else (a, [])
  | _ => (a, [])

/-- One round of the loop of `checkConnection`, for a player as the iteration finds it. -/
def checkPlayer (currTime : Int) (a : SessionActor) (name : String) :
    Option PlayerStatistics → SessionActor × List Effect
  | some player =>
    if currTime > player.lastPingTime then
      if currTime - player.lastPingTime > keepAliveLimit then a.quitImpl name
      else
        let player := { player with weakConnection := currTime - player.lastPingTime > weakConnectionTimeout }
        ({ a with stats := a.stats.replace name (some player) }, [])
    else (a, [])
  | none => (a, [])

/-- `checkConnection`: one round for each entry, in the order of the map as the round began. -/
def checkConnection (currTime : Int) : SessionActor × List Effect :=
  a.stats.entries.foldl (fun r e =>
    let next := checkPlayer currTime r.1 e.1 e.2
    (next.1, r.2 ++ next.2)) (a, [])

/-- The periodic keep-alive task. -/
def keepAlive (now : Int) : SessionActor × List Effect :=
  if a.keepAliveTask = some true then
    let r := a.checkConnection now
    (r.1, r.2 ++ r.1.livePlayers.map fun p => .send (.json (.keepAlive none now)) p.address)
  else (a, [])

end SessionActor

/-- The filter of `checkAcknowlegment` on the sequence state of one player: the state it stores where it
    returns true. The fourth test repeats the second and is never reached with success. -/
def MessagesSequenceInfo.checkAcknowlegment (info : MessagesSequenceInfo) (ackIdx : Int) :
    Option MessagesSequenceInfo :=
  if info.remoteSeqIdx = ackIdx then none
  else if ackIdx > info.remoteSeqIdx ∧ toInt (ackIdx - info.remoteSeqIdx) < ackHistorySize then
    some { info with
      remoteSeqIdx := ackIdx
      remoteIdxBits := info.remoteIdxBits <<< (toInt (ackIdx - info.remoteSeqIdx) % 64).toNat }
  else if toInt (idxWrapModule + ackIdx) > info.remoteSeqIdx ∧
      toInt (toInt (idxWrapModule + ackIdx) - info.remoteSeqIdx) < ackHistorySize then
    some { info with
      remoteSeqIdx := ackIdx
      remoteIdxBits := info.remoteIdxBits <<<
        (toInt (toInt (idxWrapModule + ackIdx) - info.remoteSeqIdx) % 64).toNat }
  else if ackIdx > info.remoteSeqIdx ∧ toInt (ackIdx - info.remoteSeqIdx) < ackHistorySize then
    let ackBit := (1#32 <<< (toInt (ackIdx - info.remoteSeqIdx - 1) % 32).toNat).signExtend 64
    if info.remoteIdxBits &&& ackBit = 0 then
      some { info with remoteIdxBits := info.remoteIdxBits ||| ackBit }
    else none
  else none

namespace SessionActor

variable (a : SessionActor)

/-- `checkAcknowlegment`: the actor after it where it returns true. A player without sequence state is refused. -/
def checkAcknowlegment (ackIdx : Int) (player : String) : Option SessionActor :=
  match a.seqStats player with
  | some info =>
    (info.checkAcknowlegment ackIdx).map fun info =>
      { a with seqStats := Function.update a.seqStats player (some info) }
  | none => none

/-- The loops that send to `stat.address` without a test: a `null` entry raises and ends the loop. -/
def sendEach (payload : Payload) : List (Option PlayerStatistics) → List Effect × Bool
  | [] => ([], false)
  | none :: _ => ([], true)
  | some player :: rest =>
    let r := sendEach payload rest
    (.send payload player.address :: r.1, r.2)

/-- `MessagesSequenceInfo` after one more message was numbered by `localSeqIdx`. -/
def nextLocal (info : MessagesSequenceInfo) : MessagesSequenceInfo :=
  { info with localSeqIdx := if info.localSeqIdx < idxWrapModule - 1 then info.localSeqIdx + 1 else 0 }

/-- What the scheduler's timer does: the `Sync` to all who are live when it fires. -/
def fireSync (syncId msgIdx : Int) : List Effect :=
  a.livePlayers.map fun player => .send (.json (.sync syncId msgIdx)) player.address

/-- `Ready` while waiting. -/
def readyWaiting (now : Int) (senderAddress : Address) (playerName : String) : Outcome :=
  if playerName ∈ a.stats then
    let a := { a with
      stats := a.stats.replace playerName (some ⟨senderAddress, 0, "", now, false⟩)
      seqStats := Function.update a.seqStats playerName (some ⟨1, 0, 0⟩) }
    if a.stats.values.any (·.isNone) then a.done [.send (.text responseSucc) senderAddress]
    else
      let sends := sendEach (.json .start) a.stats.values
      ⟨{ a with state := .running, keepAliveTask := some true }, sends.1, sends.2⟩
  else a.done [.send (.text responseSuck) senderAddress]

/-- `KeepAlive`, the same in both modes. -/
def touch (now : Int) (playerName : Option String) : Outcome :=
  match playerName.bind a.stats.lookup, playerName with
  | some (some player), some name =>
    { a with stats := a.stats.replace name (some { player with lastPingTime := now }) }.done []
  | some none, _ => a.raise []
  | _, _ => a.done []

/-- `Update` while running. -/
def update (now : Int) (senderAddress : Address) (playerName : String) (timestamp : Int)
    (forceBroadcast : Bool) (privateData : String) (sharedData : Option String) : Outcome :=
  match a.stats.lookup playerName with
  | some (some player) =>
    if player.updateTimestamp < timestamp then
      let player := { player with updateTimestamp := timestamp, privateData, lastPingTime := now }
      let a := { a with stats := a.stats.replace playerName (some player) }
      let a := match sharedData with
        | some shared =>
          if shared ≠ "" ∧ a.sharedStats.updateTimestamp < timestamp then
            { a with sharedStats := ⟨timestamp, shared⟩ }
          else a
        | none => a
      if forceBroadcast then
        let sends := sendEach a.sessionState a.stats.values
        ⟨a, sends.1, sends.2⟩
      else a.done [.send a.sessionState senderAddress]
    else a.done []
  | _ => a.done []

/-- `Message` while running: the raw message to every entry but the sender's. -/
def relay (raw : Payload) (sender : String) : Outcome :=
  let sends := sendEach raw ((a.stats.entries.filter fun e => e.1 ≠ sender).map (·.2))
  ⟨a, sends.1, sends.2⟩

/-- `RequestSync` while running. `accepts` tells which delays `delay milliseconds` and `scheduleOnce`
    take; they throw on the others. -/
def requestSync (accepts : Int → Bool) (senderAddress : Address) (playerName : String)
    (delay syncId seqIdx : Int) : Outcome :=
  if seqIdx < idxWrapModule then
    match a.checkAcknowlegment seqIdx playerName with
    | some a =>
      match a.seqStats playerName with
      | some info =>
        let a := { a with seqStats := Function.update a.seqStats playerName (some (nextLocal info)) }
        if accepts delay then
          a.done [.schedule delay syncId info.localSeqIdx, .send (.json (.ack seqIdx)) senderAddress]
        else a.raise []
      | none => a.raise []
    | none => a.done []
  else if accepts delay then a.done [.schedule delay syncId (idxWrapModule + 1)]
  else a.raise []

/-- `Quit` while running. -/
def quit (senderAddress : Address) (playerName : String) : Outcome :=
  let r := a.quitImpl playerName
  r.1.done (r.2 ++ (r.1.livePlayers.filter fun p => p.address ≠ senderAddress).map fun p =>
    .send (.json (.quit playerName)) p.address)

/-- The messages a waiting session handles; it logs and drops the others. -/
def handleWaiting (now : Int) (senderAddress : Address) : BackendMessage → Outcome
  | .ready playerName => a.readyWaiting now senderAddress playerName
  | .keepAlive playerName _ => a.touch now playerName
  | _ => a.done []

/-- The messages a running session handles; it ignores `Ready` and logs and drops the others. -/
def handleRunning (accepts : Int → Bool) (now : Int) (senderAddress : Address) (raw : Payload) :
    BackendMessage → Outcome
  | .ready _ => a.done []
  | .update playerName timestamp forceBroadcast privateData sharedData =>
    a.update now senderAddress playerName timestamp forceBroadcast privateData sharedData
  | .message sender _ => a.relay raw sender
  | .keepAlive playerName _ => a.touch now playerName
  | .requestSync playerName delay syncId seqIdx =>
    a.requestSync accepts senderAddress playerName delay syncId seqIdx
  | .clockSync id requestTime _ => a.done [.send (.json (.clockSync id requestTime now)) senderAddress]
  | .quit playerName => a.quit senderAddress playerName
  | _ => a.done []

/-- The handler of `m_state`. -/
def handle (accepts : Int → Bool) (now : Int) (senderAddress : Address) (raw : Payload)
    (message : BackendMessage) : Outcome :=
  match a.state with
  | .waiting => a.handleWaiting now senderAddress message
  | .running => a.handleRunning accepts now senderAddress raw message
  | .zombie => a.done []

/-- `receive` of a `SignedEnvelop`: what does not parse raises, and every exception is answered. -/
def receive (accepts : Int → Bool) (now : Int) (senderAddress : Address) (raw : Payload) :
    SessionActor × List Effect :=
  if a.stopped then (a, []) else
  let outcome := match raw with
    | .json message => a.handle accepts now senderAddress raw message.extract
    | .text _ => a.raise []
  if outcome.raised then
    (outcome.actor, outcome.effects ++ [.send (.text responseSuck) senderAddress])
  else (outcome.actor, outcome.effects)

end SessionActor

end MultiSlider
