import Mathlib.Logic.Embedding.Basic
import MultiSlider.Lib.Machine
import MultiSlider.Session.Turns
import MultiSlider.Session.Handlers

/-! A session as a whole: the actor, a client at every address, the datagrams on their way, the `Sync`
    timers, and what has happened so far. One action is one call of a client's method, one round of the
    loop of `receive`, one datagram handled by the actor, one timer, or one datagram lost by the network.
    The network may lose, duplicate and reorder; the restrictions that a result needs are conditions on
    the actions of a run. A client calls `startup` once, and keeps the address of the socket that it opens
    there. -/

namespace MultiSlider

/-- A datagram on its way to the server. -/
structure Uplink where
  sender : Address
  envelop : Envelop
deriving DecidableEq, Repr

/-- A datagram on its way to a client, and the call whose request led to it. -/
structure Downlink where
  receiver : Address
  payload : Payload
  origin : Option Request
deriving DecidableEq, Repr

/-- A `scheduleOnce` that has not fired. -/
structure Timer where
  syncId : Int
  msgIdx : Int
  origin : Option Request
deriving DecidableEq, Repr

/-- A call of `onSync` at a client. -/
structure Delivery where
  client : Address
  syncId : Nat
  origin : Option Request
deriving DecidableEq, Repr

/-- `accepted` lists the requests that `checkAcknowlegment` returned true for, `removed` the calls whose
    entries have left an output queue, and `synced` the calls of `onSync`, each in the order it happened. -/
structure Net where
  actor : SessionActor
  clients : Address → Session
  up : List Uplink
  down : List Downlink
  timers : List Timer
  accepted : List Request
  removed : List Request
  synced : List Delivery

/-- `keep` leaves a datagram on its way, to come again; with `atOnce` the timers of the request fire before the actor
    goes on. -/
inductive Action where
  | startup (c : Address) (timeout : Nat)
  | startupTimeout (c : Address)
  | sync (c : Address) (now syncId delay : Nat)
  | syncSimple (c : Address) (syncId delay : Nat)
  | broadcast (c : Address) (now : Nat) (data sharedData : String) (forced : Bool)
  | say (c : Address) (message : String)
  | keepAlive (c : Address) (now : Nat)
  | quit (c : Address)
  | poll (c : Address) (now : Nat)
  | toServer (k : Nat) (now : Int) (keep atOnce : Bool)
  | loseUp (k : Nat)
  | toClient (k : Nat) (now : Nat) (keep : Bool)
  | loseDown (k : Nat)
  | fire (k : Nat)
  | tick (now : Int)
deriving DecidableEq, Repr

/-- The calls whose entries are in the output queue. -/
def Session.requests (s : Session) : List Request := s.outputQueue.filterMap (·.msgData.request)

/-- `startup` waits for a datagram. -/
def Session.awaits (s : Session) : Bool :=
  match s.startupPhase with
  | .awaitingResponse _ _ | .awaitingStart _ _ => true
  | _ => false

namespace Net

/-- A session of `players`; the client at address `c` plays under `name c`. -/
def start (id : Nat) (players : List String) (name : Address ↪ String) : Net where
  actor := .create id players
  clients := fun c => .create (name c) id
  up := []
  down := []
  timers := []
  accepted := []
  removed := []
  synced := []

variable (σ : Net)

/-- A call of a method of the client at `c`; `origin` is that of the datagram it received. -/
def turn (c : Address) (t : Turn) (origin : Option Request) : Net :=
  { σ with
    clients := Function.update σ.clients c t.session
    up := σ.up ++ t.sent.map fun e => ⟨c, e⟩
    removed := σ.removed ++ (σ.clients c).requests.filter (· ∉ t.session.requests)
    synced := σ.synced ++ (Session.syncs t.callbacks).map fun syncId => ⟨c, syncId, origin⟩ }

/-- The datagrams that a list of effects sends. -/
def posted (origin : Option Request) (effects : List Effect) : List Downlink :=
  effects.filterMap fun
    | .send payload address => some ⟨address, payload, origin⟩
    | _ => none

/-- What one effect of a handler puts on its way. With `atOnce` a timer fires before the handler goes on. -/
def outgoing (actor : SessionActor) (atOnce : Bool) (origin : Option Request) : Effect → List Downlink
  | .schedule _ syncId msgIdx => if atOnce then posted origin (actor.fireSync syncId msgIdx) else []
  | e => posted origin [e]

/-- The timer that one effect of a handler leaves. -/
def scheduled (atOnce : Bool) (origin : Option Request) : Effect → List Timer
  | .schedule _ syncId msgIdx => if atOnce then [] else [⟨syncId, msgIdx, origin⟩]
  | _ => []

/-- The actor handles a datagram. -/
def serve (accepts : Int → Bool) (now : Int) (atOnce : Bool) (u : Uplink) : Net :=
  let r := σ.actor.receive accepts now u.sender u.envelop.data
  { σ with
    actor := r.1
    down := σ.down ++ r.2.flatMap (outgoing r.1 atOnce u.envelop.request)
    timers := σ.timers ++ r.2.flatMap (scheduled atOnce u.envelop.request)
    accepted := if σ.actor.takes u.envelop.data then σ.accepted ++ u.envelop.request.toList else σ.accepted }

/-- A client takes a datagram from its socket while it is started or waits in `startup`. -/
def deliver (now : Nat) (d : Downlink) : Net :=
  let s := σ.clients d.receiver
  if s.started then σ.turn d.receiver (s.receiveDatagram now d.payload) d.origin
  else σ.turn d.receiver (s.startupReceive now d.payload) d.origin

/-- The client at `c` reads its socket. -/
def reads (c : Address) : Bool := (σ.clients c).started || (σ.clients c).awaits

/-- One action; an action that is not possible changes nothing. -/
def step (accepts : Int → Bool) (σ : Net) : Action → Net
  | .startup c timeout =>
    if (σ.clients c).startupPhase = .notCalled then σ.turn c ((σ.clients c).startup timeout) none else σ
  | .startupTimeout c => σ.turn c (σ.clients c).startupTimeout none
  | .sync c now syncId delay => σ.turn c ((σ.clients c).sync now syncId delay).1 none
  | .syncSimple c syncId delay => σ.turn c ((σ.clients c).syncSimple syncId delay) none
  | .broadcast c now data sharedData forced => σ.turn c ((σ.clients c).broadcast now data sharedData forced) none
  | .say c message => σ.turn c ((σ.clients c).say message) none
  | .keepAlive c now => σ.turn c ((σ.clients c).keepAlive now) none
  | .quit c => σ.turn c (σ.clients c).quit none
  | .poll c now => σ.turn c ((σ.clients c).periodic now) none
  | .toServer k now keep atOnce =>
    match σ.up[k]? with
    | some u => { σ with up := if keep then σ.up else σ.up.eraseIdx k }.serve accepts now atOnce u
    | none => σ
  | .loseUp k => { σ with up := σ.up.eraseIdx k }
  | .toClient k now keep =>
    match σ.down[k]? with
    | some d =>
      if σ.reads d.receiver then { σ with down := if keep then σ.down else σ.down.eraseIdx k }.deliver now d
      else σ
    | none => σ
  | .loseDown k => { σ with down := σ.down.eraseIdx k }
  | .fire k =>
    match σ.timers[k]? with
    | some t =>
      { σ with
        timers := σ.timers.eraseIdx k
        down := σ.down ++ posted t.origin (σ.actor.fireSync t.syncId t.msgIdx) }
    | none => σ
  | .tick now =>
    let r := σ.actor.keepAlive now
    { σ with actor := r.1, down := σ.down ++ posted none r.2 }

/-- The client whose method an action calls. -/
def caller : Action → Option Address
  | .startup c _ | .startupTimeout c | .sync c _ _ _ | .syncSimple c _ _ | .broadcast c _ _ _ _ | .say c _
  | .keepAlive c _ | .quit c | .poll c _ => some c
  | _ => none

/-- A call is a turn of its client, and a quiet one unless it is a reliable `sync`. -/
theorem step_of_caller (accepts : Int → Bool) {σ : Net} {a : Action} {c : Address} (h : caller a = some c) :
    σ.step accepts a = σ ∨ ∃ t, σ.step accepts a = σ.turn c t none ∧ ((σ.clients c).Quiet False t ∨
      ∃ now syncId delay, a = .sync c now syncId delay ∧ t = ((σ.clients c).sync now syncId delay).1) := by
  cases a with
  | startup c timeout =>
    cases h
    simp only [step]
    split
    · rename_i hphase
      exact Or.inr ⟨_, rfl, Or.inl (Session.Quiet.startup hphase)⟩
    · exact Or.inl rfl
  | startupTimeout c =>
    cases h
    exact Or.inr ⟨_, rfl, Or.inl Session.Quiet.startupTimeout⟩
  | sync c now syncId delay =>
    cases h
    exact Or.inr ⟨_, rfl, Or.inr ⟨now, syncId, delay, rfl, rfl⟩⟩
  | syncSimple c syncId delay =>
    cases h
    exact Or.inr ⟨_, rfl, Or.inl Session.Quiet.syncSimple⟩
  | broadcast c now data sharedData forced =>
    cases h
    exact Or.inr ⟨_, rfl, Or.inl Session.Quiet.broadcast⟩
  | say c message =>
    cases h
    exact Or.inr ⟨_, rfl, Or.inl Session.Quiet.say⟩
  | keepAlive c now =>
    cases h
    exact Or.inr ⟨_, rfl, Or.inl Session.Quiet.keepAlive⟩
  | quit c =>
    cases h
    exact Or.inr ⟨_, rfl, Or.inl Session.Quiet.quit⟩
  | poll c now =>
    cases h
    exact Or.inr ⟨_, rfl, Or.inl Session.Quiet.periodic⟩
  | _ => cases h

/-! ### The network -/

/-- No datagram is lost. -/
def NoLoss : Action → Prop
  | .loseUp _ | .loseDown _ => False
  | _ => True

/-- No datagram is delivered twice. -/
def NoDup : Action → Prop
  | .toServer _ _ keep _ | .toClient _ _ keep => keep = false
  | _ => True

/-- Of two datagrams on one link the one sent first is delivered first. -/
def InOrder (σ : Net) : Action → Prop
  | .toServer k _ _ _ => σ.up[k]?.map (·.sender) ∉ (σ.up.take k).map (some ·.sender)
  | .toClient k _ _ => σ.down[k]?.map (·.receiver) ∉ (σ.down.take k).map (some ·.receiver)
  | _ => True

instance (a : Action) : Decidable (NoLoss a) := by cases a <;> unfold NoLoss <;> infer_instance

instance (a : Action) : Decidable (NoDup a) := by cases a <;> unfold NoDup <;> infer_instance

instance (σ : Net) (a : Action) : Decidable (InOrder σ a) := by cases a <;> unfold InOrder <;> infer_instance

/-- A scheduler that takes every delay. -/
abbrev anyDelay : Int → Bool := fun _ => true

/-- A name for every address, of the length of the address. -/
def letters : Address ↪ String where
  toFun c := .ofList (List.replicate (c + 1) 'a')
  inj' c c' h := by
    have := congrArg List.length (String.ofList_injective h)
    simpa using this

/-- Two players get ready and start; nothing is left on its way. -/
def duel : List Action :=
  [.startup 0 10000, .startup 1 10000, .toServer 0 0 false false, .toServer 0 0 false false,
    .toClient 0 0 false, .toClient 0 0 false, .toClient 0 0 false,
    .toServer 0 0 false false, .toServer 0 0 false false, .toClient 0 5 false, .toClient 0 5 false]

end Net

end MultiSlider
