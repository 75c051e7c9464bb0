import MultiSlider.Session.Net
import MultiSlider.Session.Steps

/-! What the clients make of the datagrams of the server. `receive` has a branch for each class of message that the
    server sends, and none for the plain answers: `SUCC` and `SUCK` are read by `startup` only. A client that has
    started gets one where a `SUCC` comes late, and where the server answers an exception. -/

namespace MultiSlider

/-- What the server can send to a client. -/
inductive Payload.FromServer : Payload → Prop
  | start : FromServer (.json .start)
  | sessionState {data : List PlayerData} {sharedData : String} {sharedTimestamp : Int} :
    FromServer (.json (.sessionState data sharedData sharedTimestamp))
  | sync {syncId seqIdx : Int} : FromServer (.json (.sync syncId seqIdx))
  | keepAlive {playerName : Option String} {timestamp : Int} : FromServer (.json (.keepAlive playerName timestamp))
  | ack {seqIdx : Int} : FromServer (.json (.ack seqIdx))
  | clockSync {id requestTime responseTime : Int} : FromServer (.json (.clockSync id requestTime responseTime))
  | quit {playerName : String} : FromServer (.json (.quit playerName))
  | message {sender data : String} : FromServer (.json (.message sender data))
  | succ : FromServer (.text responseSucc)
  | suck : FromServer (.text responseSuck)

/-- `receive` does not know the datagram. -/
def Fault.unknownDatagram : Fault := .runtimeError "Session[receive]: Unknown datagram type!"

namespace SessionActor

variable {accepts : Int → Bool} {a : SessionActor} {now : Int} {senderAddress address : Address} {payload : Payload}

theorem receive_fromServer {raw : Payload} (h : .send payload address ∈ (a.receive accepts now senderAddress raw).2) :
    payload.FromServer := by
  rcases receive_causes h with heq | ⟨message, rfl, hcauses⟩
  · cases heq
    exact .suck
  · cases message with
    | message sender data =>
      cases hcauses with
      | relay => exact .message
    | update =>
      cases hcauses with
      | state => exact .sessionState
    | ready =>
      cases hcauses with
      | unknown => exact .suck
      | awaiting => exact .succ
      | start => exact .start
    | requestSync =>
      cases hcauses with
      | ack => exact .ack
    | clockSync =>
      cases hcauses with
      | clock => exact .clockSync
    | quit =>
      cases hcauses with
      | quit => exact .quit
    | _ => cases hcauses

theorem keepAlive_fromServer (h : .send payload address ∈ (a.keepAlive now).2) : payload.FromServer := by
  rcases keepAlive_effects h with ⟨sessionId, heq⟩ | ⟨address', heq⟩
  · cases heq
  · cases heq
    exact .keepAlive

/-- Where a plain answer comes from: a `Ready` while the session waits, or a message that raises. -/
theorem plain_answer_cause {text : String} {raw : Payload}
    (h : .send (.text text) address ∈ (a.receive accepts now senderAddress raw).2) : address = senderAddress ∧
      (text = responseSuck ∨ ∃ playerName, raw = .json (.ready playerName) ∧ a.state = .waiting) := by
  rcases receive_causes h with heq | ⟨message, rfl, hcauses⟩
  · cases heq
    exact ⟨rfl, Or.inl rfl⟩
  · cases message with
    | ready playerName =>
      cases hcauses with
      | unknown => exact ⟨rfl, Or.inl rfl⟩
      | awaiting waiting => exact ⟨rfl, Or.inr ⟨playerName, rfl, waiting⟩⟩
    | _ => cases hcauses

end SessionActor

namespace Session

variable {s : Session} {now : Nat}

theorem returns_known {sent : List Envelop} {callbacks : List Callback} :
    (s.returns sent callbacks).fault ≠ some .unknownDatagram := by simp [returns]

theorem assertion_known : (s.throws .assertion).fault ≠ some .unknownDatagram := by
  simp [throws, Fault.unknownDatagram]

/-- Every class of message that the server sends has a branch. -/
theorem receiveDatagram_known {payload : Payload} (h : payload.FromServer) :
    (s.receiveDatagram now payload).fault ≠ some .unknownDatagram ↔
      payload ≠ .text responseSucc ∧ payload ≠ .text responseSuck := by
  have hsame : (s.receiveDatagram now payload).fault = (s.dispatch now payload).fault := by
    unfold receiveDatagram
    dsimp only
    split
    · rfl
    · rfl
  rw [hsame]
  cases h with
  | succ => simp [dispatch, throws, Fault.unknownDatagram]
  | suck => simp [dispatch, throws, Fault.unknownDatagram]
  | sync =>
    refine iff_of_true ?_ (by simp)
    simp only [dispatch, receiveSync]
    split
    · exact assertion_known
    · split
      · exact returns_known
      · split
        · exact assertion_known
        · exact returns_known
  | keepAlive =>
    refine iff_of_true ?_ (by simp)
    simp only [dispatch]
    split
    · split
      · exact assertion_known
      · exact returns_known
    · exact returns_known
  | ack =>
    refine iff_of_true ?_ (by simp)
    simp only [dispatch, receiveAck]
    split
    · exact assertion_known
    · exact returns_known
  | clockSync =>
    refine iff_of_true ?_ (by simp)
    simp only [dispatch, receiveClockSync]
    split
    · exact assertion_known
    · split
      · split
        · exact assertion_known
        · split
          · exact returns_known
          · exact assertion_known
      · exact returns_known
  | _ => exact iff_of_true returns_known (by simp)

end Session

namespace Net

/-- The datagram that a started client takes has a branch in `receive`. -/
def Understands (σ : Net) : Action → Prop
  | .toClient k now _ => ∀ d ∈ σ.down[k]?, (σ.clients d.receiver).started = true →
    ((σ.clients d.receiver).receiveDatagram now d.payload).fault ≠ some .unknownDatagram
  | _ => True

/-- The datagram that a started client takes is no plain answer. -/
def NoPlainAnswer (σ : Net) : Action → Prop
  | .toClient k _ _ => ∀ d ∈ σ.down[k]?, (σ.clients d.receiver).started = true →
    d.payload ≠ .text responseSucc ∧ d.payload ≠ .text responseSuck
  | _ => True

instance (σ : Net) (a : Action) : Decidable (Understands σ a) :=
  match a with
  | .toClient k now _ => inferInstanceAs (Decidable (∀ d ∈ σ.down[k]?, (σ.clients d.receiver).started = true →
    ((σ.clients d.receiver).receiveDatagram now d.payload).fault ≠ some .unknownDatagram))
  | .startup .. | .startupTimeout .. | .sync .. | .syncSimple .. | .broadcast .. | .say .. | .keepAlive .. | .quit ..
  | .poll .. | .toServer .. | .loseUp .. | .loseDown .. | .fire .. | .tick .. => inferInstanceAs (Decidable True)

/-- What is on its way to the clients can be sent by the server. -/
def Genuine (σ : Net) : Prop := ∀ d ∈ σ.down, d.payload.FromServer

variable {accepts : Int → Bool} {σ : Net}

theorem genuine_posted {origin : Option Request} {effects : List Effect}
    (h : ∀ payload address, .send payload address ∈ effects → payload.FromServer) :
    ∀ d ∈ posted origin effects, d.payload.FromServer := by
  intro d hd
  obtain ⟨e, he, hposted⟩ := List.mem_filterMap.mp hd
  cases e with
  | send payload address =>
    cases hposted
    exact h payload address he
  | _ => cases hposted

theorem genuine_fireSync (a : SessionActor) (origin : Option Request) (syncId msgIdx : Int) :
    ∀ d ∈ posted origin (a.fireSync syncId msgIdx), d.payload.FromServer := by
  refine genuine_posted fun payload address h => ?_
  obtain ⟨player, -, heq⟩ := List.mem_map.mp h
  cases heq
  exact .sync

theorem Genuine.serve (h : σ.Genuine) (now : Int) (atOnce : Bool) (u : Uplink) :
    (σ.serve accepts now atOnce u).Genuine := by
  refine List.forall_mem_append.mpr ⟨h, fun d hd => ?_⟩
  obtain ⟨e, he, hd⟩ := List.mem_flatMap.mp hd
  unfold outgoing at hd
  split at hd
  · split at hd
    · exact genuine_fireSync _ _ _ _ d hd
    · cases hd
  · refine genuine_posted (fun payload address hsend => ?_) d hd
    rw [← List.mem_singleton.mp hsend] at he
    exact SessionActor.receive_fromServer he

theorem Genuine.step (h : σ.Genuine) (accepts : Int → Bool) (a : Action) : (σ.step accepts a).Genuine := by
  cases a with
  | startup c timeout =>
    simp only [Net.step]
    split
    · exact h
    · exact h
  | toServer k now keep atOnce =>
    simp only [Net.step]
    split
    · exact Genuine.serve (σ := { σ with up := _ }) h now atOnce _
    · exact h
  | toClient k now keep =>
    simp only [Net.step]
    split
    · split
      · have hrest : ∀ d ∈ if keep then σ.down else σ.down.eraseIdx k, d.payload.FromServer := by
          split
          · exact h
          · exact fun d hd => h d (List.mem_of_mem_eraseIdx hd)
        simp only [deliver]
        split
        · exact hrest
        · exact hrest
      · exact h
    · exact h
  | loseDown k => exact fun d hd => h d (List.mem_of_mem_eraseIdx hd)
  | fire k =>
    simp only [Net.step]
    split
    · exact List.forall_mem_append.mpr ⟨h, genuine_fireSync _ _ _ _⟩
    · exact h
  | tick now =>
    refine List.forall_mem_append.mpr ⟨h, genuine_posted fun payload address hsend => ?_⟩
    exact SessionActor.keepAlive_fromServer hsend
  | _ => exact h

/-- In every run of a session and its clients, over any network: every datagram that a started client takes has a
    branch in `receive` exactly if none is a plain answer. -/
theorem understands_iff (accepts : Int → Bool) (id : Nat) (players : List String) (name : Address ↪ String)
    (as : List Action) : Machine.Along (step accepts) Understands (start id players name) as ↔
      Machine.Along (step accepts) NoPlainAnswer (start id players name) as := by
  refine Machine.along_congr (I := Genuine) (fun _ a h => h.step accepts a) (fun σ a h => ?_) (List.forall_mem_nil _)
  cases a with
  | toClient k now keep =>
    refine forall₃_congr fun d hd _ => Session.receiveDatagram_known (h d ?_)
    exact List.mem_of_getElem? hd
  | _ => exact Iff.rfl

/-- On a network without a fault: the other player has quit, and what the one says is answered with `SUCK`, which
    its `receive` does not know. -/
theorem suck_not_understood :
    let as := duel ++ [.quit 1, .toServer 0 0 false false, .toClient 0 10 false, .say 0 "hi", .toServer 0 0 false false,
      .toClient 0 20 false]
    ¬Machine.Along (step anyDelay) Understands (start 0 ["a", "aa"] letters) as ∧
      (∀ a ∈ as, NoLoss a ∧ NoDup a) ∧ Machine.Along (step anyDelay) InOrder (start 0 ["a", "aa"] letters) as := by
  decide +kernel

end Net

end MultiSlider
