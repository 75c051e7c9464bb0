import MultiSlider.Session.Calls
import MultiSlider.Session.Wire

/-! What a session writes to its socket, over its whole life. Each method builds one message and has `makeEnvelop` write
    it into an `Envelop`; the resend loop of `receive` writes the texts of its queue again. -/

namespace MultiSlider

open JsonText Jsonxx

/-- The text of an `Envelop`, as `makeEnvelop` writes it: the data is a text itself. -/
def Envelop.text (N : NumberFormat Int) (e : Envelop) : Bytes :=
  match e.data with
  | .json m => datagram N e.sessionId m
  | .text raw => json N (envelopObject e.sessionId (utf8 raw))

/-- A message of this session that is no `SessionState`, with numbers that are written without rounding. -/
structure Envelop.Writes (N : NumberFormat Int) (id : Nat) (e : Envelop) : Prop where
  sessionId : e.sessionId = id
  message : ∃ m, e.data = .json m ∧
    (∀ data sharedData sharedTimestamp, m ≠ .sessionState data sharedData sharedTimestamp) ∧ ∀ x ∈ m.numbers, N.Exact x

namespace Session

/-- The numbers that a call may write are written without rounding: the readings of both clocks, and what the program
    gives to `sync`. -/
def WritesExactly (N : NumberFormat Int) (s : Session) (e : Nat × Call) : Prop :=
  N.Exact e.1 ∧ N.Exact (s.getTimeSyncronizedMS e.1) ∧ match e.2 with
    | .syncSimple syncId delay | .sync syncId delay => N.Exact syncId ∧ N.Exact delay
    | _ => True

/-- The session and the entries of its queue are ready to be written. -/
structure Writing (N : NumberFormat Int) (id : Nat) (s : Session) : Prop where
  sessionId : s.sessionId = id
  localSeqIdx : s.localSeqIdx < idxWrapModulo
  queue : ∀ msg ∈ s.outputQueue, msg.msgData.Writes N id

/-- The session stays so, and all that the turn has sent can be written. -/
structure Written (N : NumberFormat Int) (id : Nat) (t : Turn) : Prop where
  session : t.session.Writing N id
  sent : ∀ e ∈ t.sent, e.Writes N id

variable {N : NumberFormat Int} {id now : Nat} {s : Session} {t : Turn}

/-! ### What is kept -/

theorem writing_create (playerName : String) (id : Nat) : (create playerName id).Writing N id :=
  ⟨rfl, (by decide : 1 < 1024), List.forall_mem_nil _⟩

/-- The entries of the queue may be fewer, and sent at other times. -/
theorem Writing.congr (h : s.Writing N id) {s' : Session} (hid : s'.sessionId = s.sessionId)
    (hlocal : s'.localSeqIdx = s.localSeqIdx)
    (hqueue : ∀ msg ∈ s'.outputQueue, ∃ msg' ∈ s.outputQueue, msg.msgData = msg'.msgData) : s'.Writing N id where
  sessionId := hid.trans h.sessionId
  localSeqIdx := by
    rw [hlocal]
    exact h.localSeqIdx
  queue msg hmsg := by
    obtain ⟨msg', hmsg', hdata⟩ := hqueue msg hmsg
    rw [hdata]
    exact h.queue msg' hmsg'

theorem Writing.same (h : s.Writing N id) {s' : Session} (hid : s'.sessionId = s.sessionId)
    (hlocal : s'.localSeqIdx = s.localSeqIdx) (hqueue : s'.outputQueue = s.outputQueue) : s'.Writing N id :=
  h.congr hid hlocal fun msg hmsg => ⟨msg, hqueue ▸ hmsg, rfl⟩

/-- Nothing is sent, and the queue is left alone. -/
theorem Writing.silent (h : s.Writing N id) (hid : t.session.sessionId = s.sessionId)
    (hlocal : t.session.localSeqIdx = s.localSeqIdx) (hqueue : t.session.outputQueue = s.outputQueue)
    (hsent : t.sent = []) : Written N id t where
  session := h.same hid hlocal hqueue
  sent := by
    rw [hsent]
    exact List.forall_mem_nil _

/-! ### The messages -/

/-- What `makeEnvelop` builds of a message. -/
theorem Writing.makeEnvelop (h : s.Writing N id) {m : BackendMessage} {request : Option Request}
    (hrequest : ∀ data sharedData sharedTimestamp, m ≠ .sessionState data sharedData sharedTimestamp)
    (hexact : ∀ x ∈ m.numbers, N.Exact x) : (s.makeEnvelop m request).Writes N id :=
  ⟨h.sessionId, m, rfl, hrequest, hexact⟩

theorem Writing.sends (h : s.Writing N id) {m : BackendMessage} {method : String}
    (hrequest : ∀ data sharedData sharedTimestamp, m ≠ .sessionState data sharedData sharedTimestamp)
    (hexact : ∀ x ∈ m.numbers, N.Exact x) : Written N id (s.sends method m) := by
  unfold Session.sends
  split
  · exact ⟨h, List.forall_mem_singleton.mpr (h.makeEnvelop hrequest hexact)⟩
  · exact h.silent rfl rfl rfl rfl

theorem Writing.readyMessage (h : s.Writing N id) : s.readyMessage.Writes N id :=
  h.makeEnvelop (by simp) (List.forall_mem_nil _)

theorem Writing.clockSync (h : s.Writing N id) (hsmall : ∀ n : Nat, n < 2 ^ 32 → N.Exact n) (now : Nat)
    (hnow : N.Exact (s.getTimeSyncronizedMS now)) :
    (s.sendClockSync now).1.Writing N id ∧ (s.sendClockSync now).2.Writes N id := by
  have hid : (s.sendClockSync now).1.clockSyncId < 2 ^ 32 := by
    unfold sendClockSync
    dsimp only
    split <;> omega
  refine ⟨h.same rfl rfl rfl, h.sessionId, _, rfl, by simp, ?_⟩
  refine List.forall_mem_cons.mpr ⟨hsmall _ hid, List.forall_mem_cons.mpr ⟨hnow, ?_⟩⟩
  exact List.forall_mem_singleton.mpr (hsmall 0 (by decide))

/-! ### The calls -/

theorem Writing.startupTimeout (h : s.Writing N id) : Written N id s.startupTimeout := by
  have resend (phase : StartupPhase) : Written N id ({ s with startupPhase := phase }.returns [s.readyMessage] []) :=
    ⟨h.same rfl rfl rfl, List.forall_mem_singleton.mpr h.readyMessage⟩
  have expired (fault : Fault) : Written N id ({ s with startupPhase := .finished }.throws fault) :=
    h.silent rfl rfl rfl rfl
  unfold Session.startupTimeout
  dsimp only
  split
  · split
    · exact expired _
    · exact resend _
  · split
    · exact expired _
    · exact resend _
  · exact h.silent rfl rfl rfl rfl

theorem Writing.startupReceive (h : s.Writing N id) (hsmall : ∀ n : Nat, n < 2 ^ 32 → N.Exact n)
    (hnow : N.Exact (s.getTimeSyncronizedMS now)) (received : Payload) :
    Written N id (s.startupReceive now received) := by
  have finish : Written N id (s.finishStartup now received) := by
    unfold finishStartup
    split
    -- The first `ClockSync` is sent at once.
    · have hstarted : ({ s with started := true, startupPhase := .finished } : Session).Writing N id :=
        h.same rfl rfl rfl
      obtain ⟨hsession, hsent⟩ := hstarted.clockSync hsmall now hnow
      exact ⟨hsession.same rfl rfl rfl, List.forall_mem_singleton.mpr hsent⟩
    · exact h.silent rfl rfl rfl rfl
  unfold Session.startupReceive
  split
  · split
    · exact h.silent rfl rfl rfl rfl
    · exact finish
  · exact finish
  · exact h.silent rfl rfl rfl rfl

theorem Writing.quit (h : s.Writing N id) : Written N id s.quit := by
  unfold Session.quit
  split
  · exact ⟨h.same rfl rfl rfl, List.forall_mem_singleton.mpr (h.makeEnvelop (by simp) (List.forall_mem_nil _))⟩
  · exact h.silent rfl rfl rfl rfl

/-- A request is sent, and queued as it is sent. -/
theorem Writing.sync (h : s.Writing N id) (hsmall : ∀ n : Nat, n < 2 ^ 32 → N.Exact n) {syncId delay : Nat}
    (hsyncId : N.Exact syncId) (hdelay : N.Exact delay) : Written N id (s.sync now syncId delay).1 := by
  unfold Session.sync
  split
  · split
    · exact h.silent rfl rfl rfl rfl
    · have hlocal := h.localSeqIdx
      have hmessage : (s.makeEnvelop (.requestSync s.playerName delay syncId s.localSeqIdx)
          (some ⟨s.playerName, s.calls + 1, syncId⟩)).Writes N id := by
        refine h.makeEnvelop (by simp) ?_
        refine List.forall_mem_cons.mpr ⟨hdelay, List.forall_mem_cons.mpr ⟨hsyncId, ?_⟩⟩
        exact List.forall_mem_singleton.mpr (hsmall _ (hlocal.trans (by decide)))
      refine ⟨⟨h.sessionId, ?_, ?_⟩, List.forall_mem_singleton.mpr hmessage⟩
      -- The next number stays on the circle.
      · have hnext : s.getNextSeqIdx.2 < 1024 := by
          rw [getNextSeqIdx_eq (Nat.mod_eq_of_lt hlocal).symm]
          exact Nat.mod_lt _ (by decide)
        exact hnext
      · exact List.forall_mem_append.mpr ⟨h.queue, List.forall_mem_singleton.mpr hmessage⟩
  · exact h.silent rfl rfl rfl rfl

/-- No branch of the loop of `receive` sends anything. -/
theorem dispatch_silent (s : Session) (now : Nat) (received : Payload) :
    (s.dispatch now received).session.sessionId = s.sessionId ∧ (s.dispatch now received).sent = [] := by
  -- The filter changes the queue and the numbers only.
  have checked (ackIdx : Nat) {s' : Session} (hcheck : s.checkAcknowledgement ackIdx = some s') :
      s'.sessionId = s.sessionId := by
    obtain ⟨bits, rfl⟩ := checkAcknowledgement_some hcheck
    rfl
  cases received with
  | text raw => exact ⟨rfl, rfl⟩
  | json message =>
    cases message with
    | sync syncId seqIdx =>
      simp only [dispatch, receiveSync]
      split
      · exact ⟨rfl, rfl⟩
      · split
        · exact ⟨rfl, rfl⟩
        · rename_i s' hcheck
          have hid : s'.sessionId = s.sessionId := by
            split at hcheck
            · cases hcheck
              rfl
            · exact checked _ hcheck
          split
          · exact ⟨hid, rfl⟩
          · exact ⟨hid, rfl⟩
    | ack seqIdx =>
      simp only [dispatch, receiveAck]
      split
      · exact ⟨rfl, rfl⟩
      · rename_i ackIdx _
        refine ⟨?_, rfl⟩
        cases hcheck : s.checkAcknowledgement ackIdx with
        | none => rfl
        | some s' => exact checked ackIdx hcheck
    | keepAlive playerName timestamp =>
      simp only [dispatch, updatePing]
      split
      · split
        · exact ⟨rfl, rfl⟩
        · refine ⟨?_, rfl⟩
          split
          · rfl
          · rfl
      · exact ⟨rfl, rfl⟩
    | clockSync id requestTime responseTime =>
      simp only [dispatch, receiveClockSync]
      split
      · exact ⟨rfl, rfl⟩
      · split
        · split
          · exact ⟨rfl, rfl⟩
          · split
            · exact ⟨rfl, rfl⟩
            · exact ⟨rfl, rfl⟩
        · exact ⟨rfl, rfl⟩
    | _ => exact ⟨rfl, rfl⟩

/-- A round of the loop removes an entry from the queue at most. -/
theorem Writing.receiveDatagram (h : s.Writing N id) (received : Payload) :
    Written N id (s.receiveDatagram now received) := by
  obtain ⟨hid, hsent⟩ := s.dispatch_silent now received
  have hsent' : (s.receiveDatagram now received).sent = [] := by
    unfold Session.receiveDatagram
    dsimp only
    split
    · exact hsent
    · exact hsent
  have hid' : (s.receiveDatagram now received).session.sessionId = s.sessionId := by
    rw [receiveDatagram_session]
    split
    · exact hid
    · exact hid
  refine ⟨?_, hsent' ▸ List.forall_mem_nil _⟩
  rcases receiveDatagram_cases s now received with ⟨-, hquiet⟩ | ⟨ackIdx, -, hack⟩
  · refine h.congr hid' hquiet.localSeqIdx fun msg hmsg => ?_
    -- Without an acknowledgement the queue holds the same texts.
    have hpending : (msg.seqIdx, msg.msgData) ∈ s.pending := hquiet.pending ▸ List.mem_map.mpr ⟨msg, hmsg, rfl⟩
    obtain ⟨msg', hmsg', heq⟩ := List.mem_map.mp hpending
    exact ⟨msg', hmsg', (congrArg Prod.snd heq).symm⟩
  · refine h.congr hid' hack.localSeqIdx fun msg hmsg => ⟨msg, ?_, rfl⟩
    rw [hack.outputQueue] at hmsg
    exact List.mem_of_mem_eraseP hmsg

/-- The resend loop sends what is queued, as it is. -/
theorem Writing.resend (h : s.Writing N id) (currentTime : Nat) :
    ({ s with outputQueue := (resend currentTime s.outputQueue).1 } : Session).Writing N id ∧
      ∀ e ∈ (resend currentTime s.outputQueue).2, e.Writes N id := by
  constructor
  · refine h.congr rfl rfl fun msg hmsg => ?_
    obtain ⟨msg', hmsg', rfl⟩ := List.mem_map.mp hmsg
    refine ⟨msg', hmsg', ?_⟩
    split
    · rfl
    · rfl
  · intro e he
    obtain ⟨msg, hmsg, rfl⟩ := List.mem_map.mp he
    exact h.queue msg (List.mem_of_mem_filter hmsg)

theorem Writing.periodic (h : s.Writing N id) (hsmall : ∀ n : Nat, n < 2 ^ 32 → N.Exact n)
    (hnow : N.Exact (s.getTimeSyncronizedMS now)) : Written N id (s.periodic now) := by
  obtain ⟨hqueue, hcopies⟩ := h.resend (s.getTimeSyncronizedMS now)
  unfold Session.periodic
  dsimp only
  split
  · split
    · exact h.silent rfl rfl rfl rfl
    · split
      · obtain ⟨hsession, hsent⟩ := hqueue.clockSync hsmall now hnow
        exact ⟨hsession, List.forall_mem_append.mpr ⟨hcopies, List.forall_mem_singleton.mpr hsent⟩⟩
      · exact ⟨hqueue, hcopies⟩
  · exact h.silent rfl rfl rfl rfl

/-! ### The whole life -/

theorem Writing.act (h : s.Writing N id) (hsmall : ∀ n : Nat, n < 2 ^ 32 → N.Exact n) {e : Nat × Call}
    (hexact : s.WritesExactly N e) : Written N id (s.act e.1 e.2) := by
  obtain ⟨now, call⟩ := e
  obtain ⟨hlocal, hnow, hcall⟩ := hexact
  cases call with
  | startup timeout => exact ⟨h.same rfl rfl rfl, List.forall_mem_singleton.mpr h.readyMessage⟩
  | startupTimeout => exact h.startupTimeout
  | startupReceive received => exact h.startupReceive hsmall hnow received
  | broadcast data sharedData forced => exact h.sends (by simp) (List.forall_mem_singleton.mpr hlocal)
  | say message => exact h.sends (by simp) (List.forall_mem_nil _)
  | keepAlive => exact h.sends (by simp) (List.forall_mem_singleton.mpr hnow)
  | quit => exact h.quit
  | syncSimple syncId delay =>
    refine h.sends (by simp) ?_
    refine List.forall_mem_cons.mpr ⟨hcall.2, List.forall_mem_cons.mpr ⟨hcall.1, ?_⟩⟩
    exact List.forall_mem_singleton.mpr (hsmall _ (by decide))
  | sync syncId delay => exact h.sync hsmall hcall.1 hcall.2
  | datagram received =>
    simp only [Session.act]
    split
    · exact h.receiveDatagram received
    · exact h.silent rfl rfl rfl rfl
  | poll => exact h.periodic hsmall hnow

/-- In every life of a session: each datagram that it sends, whether for the first time or again, is JSON, an `Envelop`
    with exactly its fields and the number of the session, and its data is JSON again, which carries a message. -/
theorem sent_texts (N : NumberFormat Int) (hsmall : ∀ n : Nat, n < 2 ^ 32 → N.Exact n) (playerName : String) {id : Nat}
    (hid : id < 2 ^ 32) {es : List (Nat × Call)}
    (hexact : Machine.Along step (WritesExactly N) (create playerName id) es) :
    ∀ e ∈ Machine.outputs step sendsOf (create playerName id) es, ∃ m packed t w fields, e.data = .json m ∧
      e.text N = t ++ w ∧ Blank w ∧ fields.Perm (classFields backend.envelop
        [(messageKeySessionId, Value.number (id : Int)), (messageKeyData, .string packed)]) ∧
      Spells asciiUnit N.Spelled (.value (.object fields)) t ∧ Carries N (.json m) packed := by
  intro e he
  have hwrites : e.Writes N id := Machine.Along.outputs (P := Writing N id)
    (fun _ _ hs hcall => ⟨(hs.act hsmall hcall).session, (hs.act hsmall hcall).sent⟩) (writing_create playerName id)
    hexact e he
  obtain ⟨hsession, m, hdata, hrequest, hnumbers⟩ := hwrites
  obtain ⟨packed, t, w, fields, htext, hblank, order, hspells, hcarries⟩ :=
    datagram_spells hrequest hnumbers (hsmall id hid)
  refine ⟨m, packed, t, w, fields, hdata, ?_, hblank, order, hspells, hcarries⟩
  rw [Envelop.text, hdata, hsession]
  exact htext

/-- A session that starts and broadcasts, and that sends a request twice. -/
def resending : List (Nat × Call) :=
  [(0, .startup 10000), (5, .startupReceive (.json .start)), (10, .broadcast "x" "" false), (20, .sync 7 100),
    (2000, .poll)]

example : (Machine.outputs step sendsOf (create "Ann" 3) resending).map (·.data) =
    [.json (.ready "Ann"), .json (.clockSync 1 5 0), .json (.update "Ann" 10 false "x" (some "")),
      .json (.requestSync "Ann" 100 7 1), .json (.requestSync "Ann" 100 7 1)] := by
  decide

/-- The request that `resending` sends twice. -/
def resent : Envelop := ⟨3, .json (.requestSync "Ann" 100 7 1), some ⟨"Ann", 1, 7⟩⟩

theorem sent_texts_resending : ∃ m packed t w fields, resent.data = .json m ∧ resent.text integers = t ++ w ∧ Blank w ∧
    fields.Perm (classFields backend.envelop
      [(messageKeySessionId, Value.number ((3 : Nat) : Int)), (messageKeyData, .string packed)]) ∧
    Spells asciiUnit integers.Spelled (.value (.object fields)) t ∧ Carries integers (.json m) packed := by
  have exact {n : Nat} (h : n < 10 ^ 19) : integers.Exact n := h
  have hexact : Machine.Along step (WritesExactly integers) (create "Ann" 3) resending := by
    refine ⟨⟨exact ?_, exact ?_, trivial⟩, ⟨exact ?_, exact ?_, trivial⟩, ⟨exact ?_, exact ?_, trivial⟩,
      ⟨exact ?_, exact ?_, exact ?_, exact ?_⟩, ⟨exact ?_, exact ?_, trivial⟩, trivial⟩ <;> decide
  exact sent_texts integers (fun n hn => exact (by omega)) "Ann" (by decide) hexact resent (by decide)

end Session

end MultiSlider
