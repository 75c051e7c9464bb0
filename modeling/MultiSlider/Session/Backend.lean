import MultiSlider.Session.Steps

/-! The backend (`Backend.scala`) with the sessions it creates. It hands a datagram to the session whose id the
    datagram carries; ids come from a stack of free ones, and a session that closes puts its id back. One action
    is one message handled by the backend or by a session, one round of a keep-alive task, or one step of the
    network or the clock. -/

namespace MultiSlider

/-! Constants of the backend and of the keep-alive task. -/

def maxSessionsNumber : Nat := 256
def keepAliveInterval : Int := 1000

/-- The actor of a session. -/
abbrev SessionRef := Nat

/-- A session with its actor. -/
structure SessionInfo where
  id : Nat
  name : String
  handler : SessionRef
deriving DecidableEq, Repr

/-- `m_sessions` and `m_freeSessions`, the top of the stack first. -/
structure Backend where
  sessions : Nat → Option SessionInfo
  freeSessions : List Nat

/-- What the backend does with an `Envelop`. -/
inductive Routed where
  | forward (handler : SessionRef)
  | nothing
  | suck
deriving DecidableEq, Repr

namespace Backend

/-- All ids are free. -/
def create : Backend := ⟨fun _ => none, List.range maxSessionsNumber⟩

variable (b : Backend)

/-- `Udp.Received` with an `Envelop`; an id that is no index of the array raises, and `SUCK` is answered. -/
def envelop (sessionId : Int) : Routed :=
  if 0 ≤ sessionId ∧ sessionId < maxSessionsNumber then
    match b.sessions sessionId.toNat with
    | some info => .forward info.handler
    | none => .nothing
  else .suck

/-- `CreateSession`, where the actor created is `handler`: the backend after it, and the id that is answered. -/
def createSession (sessionName : String) (handler : SessionRef) : Backend × Int :=
  match b.freeSessions with
  | id :: free => (⟨Function.update b.sessions id (some ⟨id, sessionName, handler⟩), free⟩, id)
  | [] => (b, -1)

/-- `CloseSession`: the id is put on top of the stack. One that is not in use is ignored. -/
def closeSession (sessionId : Nat) : Backend :=
  match b.sessions sessionId with
  | some _ => ⟨Function.update b.sessions sessionId none, sessionId :: b.freeSessions⟩
  | none => b

end Backend

/-- A datagram on its way to the backend, and the session that its client belongs to, if that is known. -/
structure Datagram where
  sender : Address
  sessionId : Int
  data : Payload
  owner : Option SessionRef
deriving DecidableEq, Repr

/-- A `SignedEnvelop` in the mailbox of a session. -/
structure SignedEnvelop where
  sender : Address
  data : Payload
  owner : Option SessionRef
deriving DecidableEq, Repr

/-- A `CloseSession` on its way, and the session that sent it. -/
structure CloseSession where
  sessionId : Nat
  sender : SessionRef
deriving DecidableEq, Repr

/-- The actor of a session with its mailbox. `due` is when its keep-alive task runs next, `startedAt` when it
    started, and `handled` lists what it has handled so far, each with the mode it was handled in. -/
structure Instance where
  players : List String
  actor : SessionActor
  mailbox : List SignedEnvelop
  due : Int
  startedAt : Int
  handled : List (SessionState × Event)

/-- The sessions from `created` on are not created yet. -/
structure Sessions where
  backend : Backend
  instances : SessionRef → Instance
  created : SessionRef
  wire : List Datagram
  closing : List CloseSession
  clock : Int

/-- A session is asked for, a client or somebody else sends a datagram, the network delivers or loses one, a session
    handles a message or has its task run, the backend handles a `CloseSession`, or time passes. -/
inductive Sessions.Action where
  | create (sessionName : String) (players : List String)
  | send (i : SessionRef) (sender : Address) (data : Payload)
  | inject (sender : Address) (sessionId : Int) (data : Payload)
  | deliver (k : Nat) (keep : Bool)
  | lose (k : Nat)
  | handle (i : SessionRef)
  | tick (i : SessionRef)
  | close (k : Nat)
  | elapse (d : Nat)
deriving DecidableEq, Repr

/-- The id of the session that an effect closes. -/
def Effect.closes : Effect → Option Nat
  | .closeSession sessionId => some sessionId
  | _ => none

namespace Instance

/-- A session that has handled nothing. -/
def create (id : Nat) (players : List String) : Instance := ⟨players, .create id players, [], 0, 0, []⟩

/-- The actor handles an event at `clock`: the session after it, and the ids it closes. The task runs an interval
    after the session starts, and an interval after each of its runs. -/
def react (accepts : Int → Bool) (inst : Instance) (clock : Int) (e : Event) : Instance × List Nat :=
  let r := inst.actor.react accepts e
  let starts : Bool := inst.actor.state = .waiting ∧ r.1.state = .running
  let runs : Bool := match e with
    | .keepAlive _ => inst.actor.keepAliveTask = some true
    | .receive .. => false
  ({ inst with
      actor := r.1
      due := if starts then clock + keepAliveInterval else if runs then inst.due + keepAliveInterval else inst.due
      startedAt := if starts then clock else inst.startedAt
      handled := inst.handled ++ [(inst.actor.state, e)] },
    r.2.filterMap Effect.closes)

end Instance

namespace Sessions

/-- No session has been created. -/
def start (clock : Int) : Sessions := ⟨.create, fun _ => .create 0 [], 0, [], [], clock⟩

variable (σ : Sessions)

/-- The session `i`, with the mailbox that is left to it, handles an event. -/
def react (accepts : Int → Bool) (i : SessionRef) (mailbox : List SignedEnvelop) (e : Event) : Sessions :=
  let r := { σ.instances i with mailbox }.react accepts σ.clock e
  { σ with
    instances := Function.update σ.instances i r.1
    closing := σ.closing ++ r.2.map fun sessionId => ⟨sessionId, i⟩ }

/-- The backend gets a datagram. -/
def receive (d : Datagram) : Sessions :=
  match σ.backend.envelop d.sessionId with
  | .forward handler =>
    { σ with
      instances := Function.update σ.instances handler { σ.instances handler with
        mailbox := (σ.instances handler).mailbox ++ [⟨d.sender, d.data, d.owner⟩] } }
  | _ => σ

/-- One action; an action that is not possible changes nothing. A client sends with the id of its session. -/
def step (accepts : Int → Bool) (σ : Sessions) : Action → Sessions
  | .create sessionName players =>
    match σ.backend.createSession sessionName σ.created with
    | (backend, .ofNat id) =>
      { σ with
        backend
        instances := Function.update σ.instances σ.created (.create id players)
        created := σ.created + 1 }
    | (backend, _) => { σ with backend }
  | .send i sender data =>
    if i < σ.created then { σ with wire := σ.wire ++ [⟨sender, (σ.instances i).actor.id, data, some i⟩] } else σ
  | .inject sender sessionId data => { σ with wire := σ.wire ++ [⟨sender, sessionId, data, none⟩] }
  | .deliver k keep =>
    match σ.wire[k]? with
    | some d => { σ with wire := if keep then σ.wire else σ.wire.eraseIdx k }.receive d
    | none => σ
  | .lose k => { σ with wire := σ.wire.eraseIdx k }
  | .handle i =>
    match (σ.instances i).mailbox with
    | m :: rest => σ.react accepts i rest (.receive σ.clock m.sender m.data)
    | [] => σ
  | .tick i => if i < σ.created then σ.react accepts i (σ.instances i).mailbox (.keepAlive σ.clock) else σ
  | .close k =>
    match σ.closing[k]? with
    | some c => { σ with backend := σ.backend.closeSession c.sessionId, closing := σ.closing.eraseIdx k }
    | none => σ
  | .elapse d => { σ with clock := σ.clock + d }

end Sessions

end MultiSlider
