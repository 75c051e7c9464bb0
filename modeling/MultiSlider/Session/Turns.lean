import MultiSlider.Session.Filter

/-! What a call of the client's object can do, as far as the numbering of requests goes. Only a reliable
    `sync` that is not refused takes a number and queues an entry, and only an `Ack` or `Sync` that passes
    the filter removes one; every other call is `Quiet`. -/

namespace MultiSlider

/-- A datagram that no reliable `sync` call built. -/
def Envelop.Plain (player : String) (e : Envelop) : Prop :=
  e.request = none ∧ match e.data with
    | .json (.ready playerName) => playerName = player
    | .json (.requestSync _ _ _ seqIdx) => seqIdx = 1025
    | _ => True

/-- The number that the filter of `receive` is asked about. -/
def Payload.seqIdx : Payload → Option Int
  | .json (.ack seqIdx) => some seqIdx
  | .json (.sync _ seqIdx) => if seqIdx < 1024 then some seqIdx else none
  | _ => none

/-- A `Sync` numbered by the server. -/
def Payload.isSync : Payload → Bool
  | .json (.sync _ seqIdx) => seqIdx < 1024
  | _ => false

/-- The delay that a request asks for. -/
def Payload.delay : Payload → Option Int
  | .json (.requestSync _ delay _ _) => some delay
  | _ => none

namespace Session

/-- The queued entries but for the times they were sent at. -/
def pending (s : Session) : List (Nat × Envelop) := s.outputQueue.map fun msg => (msg.seqIdx, msg.msgData)

/-- `startup` has failed, or the session is over. -/
def gone (s : Session) : Prop := s.started = false ∧ s.startupPhase = .finished

/-- A turn that takes no number, moves no filter and keeps the entries. It starts the session only if
    `start` holds. -/
structure Quiet (s : Session) (start : Prop) (t : Turn) : Prop where
  playerName : t.session.playerName = s.playerName
  calls : t.session.calls = s.calls
  localSeqIdx : t.session.localSeqIdx = s.localSeqIdx
  remoteSeqIdx : t.session.remoteSeqIdx = s.remoteSeqIdx
  pending : t.session.pending = s.pending
  started : t.session.started = true → s.started = true ∨ start
  gone : s.gone → t.session.gone
  sent : ∀ e ∈ t.sent, e.Plain s.playerName ∨ ∃ seqIdx, (seqIdx, e) ∈ s.pending

/-- The entry that a reliable `sync` call builds. -/
def newEntry (s : Session) (syncId delay : Nat) : Nat × Envelop :=
  (s.localSeqIdx, s.makeEnvelop (.requestSync s.playerName delay syncId s.localSeqIdx)
    (some ⟨s.playerName, s.calls + 1, syncId⟩))

variable {s : Session} {now : Nat} {start : Prop}

/-! ### Quiet turns -/

theorem Quiet.returns_self {callbacks : List Callback} : s.Quiet start (s.returns [] callbacks) where
  playerName := rfl
  calls := rfl
  localSeqIdx := rfl
  remoteSeqIdx := rfl
  pending := rfl
  started := Or.inl
  gone h := h
  sent := by simp [returns]

theorem Quiet.throws_self {fault : Fault} : s.Quiet start (s.throws fault) where
  playerName := rfl
  calls := rfl
  localSeqIdx := rfl
  remoteSeqIdx := rfl
  pending := rfl
  started := Or.inl
  gone h := h
  sent := by simp [throws]

theorem plain_clockSync : (s.sendClockSync now).2.Plain s.playerName := ⟨rfl, trivial⟩

theorem Quiet.startup (h : s.startupPhase = .notCalled) {timeout : Nat} : s.Quiet start (s.startup timeout) where
  playerName := rfl
  calls := rfl
  localSeqIdx := rfl
  remoteSeqIdx := rfl
  pending := rfl
  started := Or.inl
  gone hgone := by cases h.symm.trans hgone.2
  sent e he := by
    rw [List.mem_singleton.mp he]
    exact Or.inl ⟨rfl, rfl⟩

theorem Quiet.startupTimeout : s.Quiet start s.startupTimeout := by
  have resend {phase : StartupPhase} (hphase : s.startupPhase ≠ .finished) :
      s.Quiet start ({ s with startupPhase := phase }.returns [s.readyMessage] []) := by
    refine ⟨rfl, rfl, rfl, rfl, rfl, Or.inl, fun h => absurd h.2 hphase, fun e he => ?_⟩
    rw [List.mem_singleton.mp he]
    exact Or.inl ⟨rfl, rfl⟩
  have expired {what : String} : s.Quiet start ({ s with startupPhase := .finished }.throws (.runtimeError what)) :=
    ⟨rfl, rfl, rfl, rfl, rfl, Or.inl, fun h => ⟨h.1, rfl⟩, fun e he => absurd he List.not_mem_nil⟩
  unfold Session.startupTimeout
  split
  · rename_i hphase
    dsimp only
    split
    · exact expired
    · exact resend (by simp [hphase])
  · rename_i hphase
    dsimp only
    split
    · exact expired
    · exact resend (by simp [hphase])
  · exact Quiet.returns_self

theorem Quiet.finishStartup (h : s.startupPhase ≠ .finished) {received : Payload} :
    s.Quiet (received = .json .start) (s.finishStartup now received) := by
  unfold Session.finishStartup
  split
  · refine ⟨rfl, rfl, rfl, rfl, rfl, fun _ => Or.inr rfl, fun hgone => absurd hgone.2 h, fun e he => ?_⟩
    rw [List.mem_singleton.mp he]
    exact Or.inl plain_clockSync
  · exact ⟨rfl, rfl, rfl, rfl, rfl, Or.inl, fun hgone => ⟨hgone.1, rfl⟩, fun e he => absurd he List.not_mem_nil⟩

theorem Quiet.startupReceive {received : Payload} :
    s.Quiet (received = .json .start) (s.startupReceive now received) := by
  unfold Session.startupReceive
  split
  · rename_i hphase
    have hnot : s.startupPhase ≠ .finished := by simp [hphase]
    split
    · exact ⟨rfl, rfl, rfl, rfl, rfl, Or.inl, fun h => absurd h.2 hnot, fun e he => absurd he List.not_mem_nil⟩
    · exact Quiet.finishStartup hnot
  · rename_i hphase
    exact Quiet.finishStartup (by simp [hphase])
  · exact Quiet.returns_self

theorem Quiet.sends {method : String} {message : BackendMessage}
    (hplain : (s.makeEnvelop message none).Plain s.playerName) : s.Quiet start (s.sends method message) := by
  unfold Session.sends
  split
  · refine ⟨rfl, rfl, rfl, rfl, rfl, Or.inl, fun h => h, fun e he => ?_⟩
    rw [List.mem_singleton.mp he]
    exact Or.inl hplain
  · exact Quiet.throws_self

theorem Quiet.broadcast {data sharedData : String} {forced : Bool} :
    s.Quiet start (s.broadcast now data sharedData forced) := Quiet.sends ⟨rfl, trivial⟩

theorem Quiet.say {message : String} : s.Quiet start (s.say message) := Quiet.sends ⟨rfl, trivial⟩

theorem Quiet.keepAlive : s.Quiet start (s.keepAlive now) := Quiet.sends ⟨rfl, trivial⟩

theorem Quiet.syncSimple {syncId delay : Nat} : s.Quiet start (s.syncSimple syncId delay) := Quiet.sends ⟨rfl, rfl⟩

theorem Quiet.quit : s.Quiet start s.quit := by
  unfold Session.quit
  split
  · refine ⟨rfl, rfl, rfl, rfl, rfl, nofun, fun h => ⟨rfl, h.2⟩, fun e he => ?_⟩
    rw [List.mem_singleton.mp he]
    exact Or.inl ⟨rfl, trivial⟩
  · exact Quiet.returns_self

theorem pending_resend {currentTime : Nat} :
    ({ s with outputQueue := (resend currentTime s.outputQueue).1 } : Session).pending = s.pending := by
  unfold resend Session.pending
  rw [List.map_map]
  refine List.map_congr_left fun msg _ => ?_
  simp only [Function.comp_apply]
  split <;> rfl

theorem mem_pending_of_resend {currentTime : Nat} {e : Envelop} (he : e ∈ (resend currentTime s.outputQueue).2) :
    ∃ seqIdx, (seqIdx, e) ∈ s.pending := by
  obtain ⟨msg, hmsg, rfl⟩ := List.mem_map.mp he
  exact ⟨msg.seqIdx, List.mem_map.mpr ⟨msg, (List.mem_filter.mp hmsg).1, rfl⟩⟩

theorem Quiet.periodic : s.Quiet start (s.periodic now) := by
  unfold Session.periodic
  dsimp only
  split
  · split
    · exact ⟨rfl, rfl, rfl, rfl, rfl, nofun, fun h => ⟨rfl, h.2⟩, fun e he => absurd he List.not_mem_nil⟩
    · split
      · refine ⟨rfl, rfl, rfl, rfl, pending_resend, Or.inl, fun h => h, fun e he => ?_⟩
        rcases List.mem_append.mp he with he | he
        · exact Or.inr (mem_pending_of_resend he)
        · rw [List.mem_singleton.mp he]
          exact Or.inl ⟨rfl, trivial⟩
      · exact ⟨rfl, rfl, rfl, rfl, pending_resend, Or.inl, fun h => h, fun e he => Or.inr (mem_pending_of_resend he)⟩
  · exact Quiet.returns_self

/-! ### A reliable call -/

/-- `getNextSeqIdx` issues the number of the call modulo 1024. -/
theorem getNextSeqIdx_eq {n : Nat} (h : s.localSeqIdx = n % 1024) :
    s.getNextSeqIdx = (n % 1024, (n + 1) % 1024) := by
  unfold getNextSeqIdx idxWrapModulo
  rw [h]
  split <;> simp only [Prod.mk.injEq, true_and] <;> omega

/-- A reliable `sync` call is refused, or it sends and queues one new entry. -/
theorem sync_cases (s : Session) (now syncId delay : Nat) : s.Quiet False (s.sync now syncId delay).1 ∨
    s.started = true ∧ s.outputQueue.length < 32 ∧ (s.sync now syncId delay).1.fault = none ∧
      (s.sync now syncId delay).1.callbacks = [] ∧
      (s.sync now syncId delay).1.sent = [(s.newEntry syncId delay).2] ∧
      ∃ sentTime, (s.sync now syncId delay).1.session = { s with
        localSeqIdx := s.getNextSeqIdx.2
        outputQueue := s.outputQueue ++ [⟨(s.newEntry syncId delay).1, sentTime, (s.newEntry syncId delay).2⟩]
        calls := s.calls + 1 } := by
  unfold sync
  split
  · rename_i hstarted
    split
    · exact Or.inl Quiet.returns_self
    · rename_i hroom
      exact Or.inr ⟨hstarted, not_le.mp hroom, rfl, rfl, rfl, _, rfl⟩
  · exact Or.inl Quiet.throws_self

/-! ### Receiving -/

/-- The object after the entry numbered `ackIdx` was acknowledged; the history bits do not matter. -/
structure Acknowledged (s : Session) (ackIdx : Nat) (t : Turn) : Prop where
  playerName : t.session.playerName = s.playerName
  calls : t.session.calls = s.calls
  localSeqIdx : t.session.localSeqIdx = s.localSeqIdx
  remoteSeqIdx : t.session.remoteSeqIdx = ackIdx
  outputQueue : t.session.outputQueue = s.outputQueue.eraseP fun msg => msg.seqIdx = ackIdx
  started : t.session.started = true → s.started = true
  sent : t.sent = []

theorem acknowledged_of_check {s' : Session} {ackIdx : Nat} (h : s.checkAcknowledgement ackIdx = some s')
    {callbacks : List Callback} {fault : Option Fault} : s.Acknowledged ackIdx ⟨s', [], callbacks, fault⟩ := by
  obtain ⟨bits, rfl⟩ := checkAcknowledgement_some h
  exact ⟨rfl, rfl, rfl, rfl, rfl, id, rfl⟩

theorem getTimeSyncronizedMS_eq (hlow : 0 ≤ now + s.timeShift) (hhigh : now + s.timeShift < 2 ^ 64) :
    (s.getTimeSyncronizedMS now : Int) = now + s.timeShift := by
  unfold getTimeSyncronizedMS
  rw [Int.emod_eq_of_lt hlow hhigh, Int.toNat_of_nonneg hlow]

/-- The number of a `ClockSync` fits into the type that it is cast to. -/
theorem narrowCast_clockSyncId : narrowCast 8 ((s.sendClockSync now).1.clockSyncId : Int) =
    some (s.sendClockSync now).1.clockSyncId := by
  refine narrowCast_natCast ?_
  unfold sendClockSync
  dsimp only
  split <;> omega

/-- The number for which the filter returns true, if the datagram has one. -/
def passes (s : Session) (received : Payload) : Option Nat :=
  (received.seqIdx.bind (narrowCast 32)).filter fun ackIdx => (s.checkAcknowledgement ackIdx).isSome

/-- On indices, what passes is what lies ahead. -/
theorem passes_eq_some_iff (hr : s.remoteSeqIdx < 1024) {received : Payload}
    (hidx : ∀ seqIdx, received.seqIdx = some seqIdx → IsIdx seqIdx) {ackIdx : Nat} :
    s.passes received = some ackIdx ↔ received.seqIdx = some (ackIdx : Int) ∧ AheadIdx s.remoteSeqIdx ackIdx := by
  unfold passes
  cases hseq : received.seqIdx with
  | none => simp
  | some seqIdx =>
    have hrange := hidx seqIdx hseq
    obtain ⟨n, rfl⟩ := Int.eq_ofNat_of_zero_le hrange.1
    have hn : n < 1024 := by
      have := hrange.2
      omega
    rw [Option.bind_some, narrowCast_natCast (lt_trans hn (by decide)), Option.filter_eq_some_iff]
    have hcheck := checkAcknowledgement_isSome (s := s) ⟨by omega, by omega⟩ hrange
    constructor
    · rintro ⟨heq, hsome⟩
      cases heq
      exact ⟨rfl, hcheck.mp hsome⟩
    · rintro ⟨heq, hahead⟩
      cases Int.ofNat.inj (Option.some.inj heq)
      exact ⟨rfl, hcheck.mpr hahead⟩

theorem receiveSync_cases {syncId seqIdx : Int} :
    (s.passes (.json (.sync syncId seqIdx)) = none ∧ s.Quiet start (s.receiveSync syncId seqIdx)) ∨
      ∃ ackIdx, s.passes (.json (.sync syncId seqIdx)) = some ackIdx ∧
        s.Acknowledged ackIdx (s.receiveSync syncId seqIdx) := by
  unfold receiveSync passes Payload.seqIdx
  cases hidx : narrowCast 32 seqIdx with
  | none =>
    refine Or.inl ⟨?_, Quiet.throws_self⟩
    dsimp only
    split <;> simp [hidx]
  | some ackIdx =>
    obtain ⟨hcast, -⟩ := narrowCast_eq_some_iff.mp hidx
    dsimp only
    by_cases hlt : ackIdx ≥ idxWrapModulo
    · rw [if_pos hlt, if_neg (by unfold idxWrapModulo at hlt; omega)]
      refine Or.inl ⟨rfl, ?_⟩
      dsimp only
      split
      · exact Quiet.throws_self
      · exact Quiet.returns_self
    · rw [if_neg hlt, if_pos (by unfold idxWrapModulo at hlt; omega)]
      cases hcheck : s.checkAcknowledgement ackIdx with
      | none => exact Or.inl ⟨by simp [hidx, hcheck], Quiet.returns_self⟩
      | some s' =>
        refine Or.inr ⟨ackIdx, by simp [hidx, hcheck], ?_⟩
        dsimp only
        split
        · exact acknowledged_of_check hcheck
        · exact acknowledged_of_check hcheck

theorem receiveAck_cases {seqIdx : Int} :
    (s.passes (.json (.ack seqIdx)) = none ∧ s.Quiet start (s.receiveAck seqIdx)) ∨
      ∃ ackIdx, s.passes (.json (.ack seqIdx)) = some ackIdx ∧ s.Acknowledged ackIdx (s.receiveAck seqIdx) := by
  unfold receiveAck passes Payload.seqIdx
  cases hidx : narrowCast 32 seqIdx with
  | none => exact Or.inl ⟨by simp [hidx], Quiet.throws_self⟩
  | some ackIdx =>
    dsimp only
    cases hcheck : s.checkAcknowledgement ackIdx with
    | none => exact Or.inl ⟨by simp [hidx, hcheck], Quiet.returns_self⟩
    | some s' => exact Or.inr ⟨ackIdx, by simp [hidx, hcheck], acknowledged_of_check hcheck⟩

theorem Quiet.receiveClockSync {id requestTime responseTime : Int} :
    s.Quiet start (s.receiveClockSync now id requestTime responseTime) := by
  unfold Session.receiveClockSync
  split
  · exact Quiet.throws_self
  · split
    · split
      · exact Quiet.throws_self
      · dsimp only
        split
        · exact ⟨rfl, rfl, rfl, rfl, rfl, Or.inl, fun h => h, fun e he => absurd he List.not_mem_nil⟩
        · exact ⟨rfl, rfl, rfl, rfl, rfl, Or.inl, fun h => h, fun e he => absurd he List.not_mem_nil⟩
    · exact Quiet.returns_self

theorem Quiet.updatePing {timestamp : Nat} : s.Quiet start ((s.updatePing now timestamp).returns [] []) := by
  unfold Session.updatePing
  split
  · dsimp only
    split
    · exact ⟨rfl, rfl, rfl, rfl, rfl, Or.inl, fun h => h, fun e he => absurd he List.not_mem_nil⟩
    · exact Quiet.returns_self
  · exact Quiet.returns_self

/-- One datagram is received quietly, or its number passes the filter. -/
theorem dispatch_cases (s : Session) (now : Nat) (received : Payload) :
    (s.passes received = none ∧ s.Quiet False (s.dispatch now received)) ∨
      ∃ ackIdx, s.passes received = some ackIdx ∧ s.Acknowledged ackIdx (s.dispatch now received) := by
  cases received with
  | text raw => exact Or.inl ⟨rfl, Quiet.throws_self⟩
  | json message =>
    cases message with
    | start => exact Or.inl ⟨rfl, Quiet.returns_self⟩
    | sessionState data sharedData sharedTimestamp => exact Or.inl ⟨rfl, Quiet.returns_self⟩
    | sync syncId seqIdx => exact receiveSync_cases
    | keepAlive playerName timestamp =>
      refine Or.inl ⟨rfl, ?_⟩
      simp only [dispatch]
      split
      · split
        · exact Quiet.throws_self
        · exact Quiet.updatePing
      · exact Quiet.returns_self
    | ack seqIdx => exact receiveAck_cases
    | clockSync id requestTime responseTime => exact Or.inl ⟨rfl, Quiet.receiveClockSync⟩
    | quit player =>
      refine Or.inl ⟨rfl, rfl, rfl, rfl, rfl, rfl, fun h => Or.inl ?_, fun h => ⟨?_, h.2⟩,
        fun e he => absurd he List.not_mem_nil⟩
      · exact (Bool.and_eq_true_iff.mp h).1
      · exact Bool.and_eq_false_iff.mpr (Or.inl h.1)
    | message sender message => exact Or.inl ⟨rfl, Quiet.returns_self⟩
    | _ => exact Or.inl ⟨rfl, Quiet.throws_self⟩

theorem receiveDatagram_cases (s : Session) (now : Nat) (received : Payload) :
    (s.passes received = none ∧ s.Quiet False (s.receiveDatagram now received)) ∨
      ∃ ackIdx, s.passes received = some ackIdx ∧ s.Acknowledged ackIdx (s.receiveDatagram now received) := by
  unfold receiveDatagram
  rcases dispatch_cases s now received with ⟨hno, h⟩ | ⟨ackIdx, hyes, h⟩
  · refine Or.inl ⟨hno, ?_⟩
    dsimp only
    split
    · exact ⟨h.playerName, h.calls, h.localSeqIdx, h.remoteSeqIdx, h.pending, h.started, h.gone, h.sent⟩
    · exact h
  · refine Or.inr ⟨ackIdx, hyes, ?_⟩
    dsimp only
    split
    · exact ⟨h.playerName, h.calls, h.localSeqIdx, h.remoteSeqIdx, h.outputQueue, h.started, h.sent⟩
    · exact h

/-! ### The calls of `onSync` -/

/-- The identifiers that `onSync` is called with. -/
def syncs (callbacks : List Callback) : List Nat :=
  callbacks.filterMap fun
    | .onSync syncId _ => some syncId
    | _ => none

@[simp] theorem receiveDatagram_callbacks {received : Payload} :
    (s.receiveDatagram now received).callbacks = (s.dispatch now received).callbacks := by
  unfold receiveDatagram
  dsimp only
  split <;> rfl

/-- Only a `Sync` leads to `onSync`. -/
theorem syncs_receiveDatagram {received : Payload} (h : ∀ syncId seqIdx, received ≠ .json (.sync syncId seqIdx)) :
    syncs (s.receiveDatagram now received).callbacks = [] := by
  rw [receiveDatagram_callbacks]
  cases received with
  | text raw => rfl
  | json message =>
    cases message with
    | sync syncId seqIdx => exact absurd rfl (h syncId seqIdx)
    | keepAlive playerName timestamp =>
      simp only [dispatch]
      split
      · split <;> rfl
      · rfl
    | ack seqIdx =>
      simp only [dispatch, receiveAck]
      split <;> rfl
    | clockSync id requestTime responseTime =>
      simp only [dispatch, receiveClockSync]
      split
      · rfl
      · split
        · split
          · rfl
          · split <;> rfl
        · rfl
    | _ => rfl

/-- `onSync` is called with the identifier of the `Sync` received. -/
theorem mem_syncs_receiveDatagram {received : Payload} {id : Nat}
    (h : id ∈ syncs (s.receiveDatagram now received).callbacks) :
    ∃ syncId seqIdx, received = .json (.sync syncId seqIdx) ∧ narrowCast 32 syncId = some id := by
  by_cases hsync : ∃ syncId seqIdx, received = .json (.sync syncId seqIdx)
  · obtain ⟨syncId, seqIdx, rfl⟩ := hsync
    rw [receiveDatagram_callbacks] at h
    simp only [dispatch, receiveSync] at h
    refine ⟨syncId, seqIdx, rfl, ?_⟩
    split at h
    · cases h
    · split at h
      · cases h
      · split at h
        · cases h
        · rename_i hid
          rw [List.mem_singleton.mp h]
          exact hid
  · rw [syncs_receiveDatagram fun syncId seqIdx heq => hsync ⟨syncId, seqIdx, heq⟩] at h
    cases h

theorem syncs_startupReceive {received : Payload} : syncs (s.startupReceive now received).callbacks = [] := by
  have finish : syncs (s.finishStartup now received).callbacks = [] := by
    unfold finishStartup
    split <;> rfl
  unfold startupReceive
  split
  · split
    · rfl
    · exact finish
  · exact finish
  · rfl

theorem receiveSync_taken {s' : Session} {syncId seqIdx : Int} {idx id : Nat} (hidx : narrowCast 32 seqIdx = some idx)
    (hid : narrowCast 32 syncId = some id) (hlt : idx < idxWrapModulo) (hcheck : s.checkAcknowledgement idx = some s') :
    s.receiveSync syncId seqIdx = s'.returns [] [.onSync id false] := by
  unfold receiveSync
  rw [hidx]
  dsimp only
  rw [if_neg (not_le.mpr hlt), hcheck]
  dsimp only
  rw [hid]

theorem receiveDatagram_ack {seqIdx : Int} {idx : Nat} (hidx : narrowCast 32 seqIdx = some idx) {s' : Session}
    (hcheck : (s.checkAcknowledgement idx).getD s = s') : s.receiveDatagram now (.json (.ack seqIdx)) =
      { s' with lastTimestamp := s'.getTimeSyncronizedMS now }.returns [] [] := by
  have hdispatch : s.dispatch now (.json (.ack seqIdx)) = s'.returns [] [] := by
    show s.receiveAck seqIdx = s'.returns [] []
    unfold receiveAck
    rw [hidx]
    dsimp only
    rw [hcheck]
  unfold receiveDatagram
  rw [hdispatch]
  rfl

/-- A `Sync` whose number passes the filter is reported once. -/
theorem syncs_receiveDatagram_sync {syncId seqIdx : Nat} (hr : IsIdx s.remoteSeqIdx) (hidx : seqIdx < 1024)
    (hid : syncId < 2 ^ 32) (hahead : AheadIdx s.remoteSeqIdx seqIdx) :
    syncs (s.receiveDatagram now (.json (.sync syncId seqIdx))).callbacks = [syncId] := by
  obtain ⟨s', hs'⟩ := Option.isSome_iff_exists.mp
    ((checkAcknowledgement_isSome hr (show IsIdx seqIdx from ⟨by omega, by omega⟩)).mpr hahead)
  rw [receiveDatagram_callbacks]
  show syncs (s.receiveSync syncId seqIdx).callbacks = [syncId]
  rw [receiveSync_taken (narrowCast_natCast (lt_trans hidx (by decide))) (narrowCast_natCast hid) hidx hs']
  rfl

end Session

end MultiSlider
