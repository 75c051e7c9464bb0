import MultiSlider.Session.Relay
import MultiSlider.Session.Invariant

/-! One loss-free round between a client and the actor: the client resends its whole queue, the actor
    handles the copies in order, and the client handles the answers. The actor answers only the requests
    that it takes, so an entry that it has accepted before, or has passed over, is not answered again; and
    the client drops an answer that its own filter has passed. -/

namespace MultiSlider

/-- The datagrams that effects send to `address`. -/
def answersTo (address : Address) (effects : List Effect) : List Payload :=
  effects.filterMap fun
    | .send payload address' => if address' = address then some payload else none
    | _ => none

/-- The actor handles datagrams from `address`, each at its time; what it sends back at once. -/
def SessionActor.receiveAll (accepts : Int → Bool) (address : Address) :
    SessionActor → List (Int × Envelop) → SessionActor × List Payload
  | a, [] => (a, [])
  | a, (now, e) :: rest =>
    let r := a.receive accepts now address e.data
    let r' := receiveAll accepts address r.1 rest
    (r'.1, answersTo address r.2 ++ r'.2)

/-- The session is not timed out at `now`, and every entry is due for resending. -/
def Session.AllDue (s : Session) (now : Nat) : Prop :=
  ¬s.getTimeSyncronizedMS now > (s.lastTimestamp + clientKeepAliveLimit) % 2 ^ 64 ∧
    ∀ msg ∈ s.outputQueue, s.getTimeSyncronizedMS now > (msg.sentTime + resendInterval) % 2 ^ 64

/-- A loss-free round takes the client at `c` from `s` to the last argument: `receive` resends the queue, all
    copies reach the actor in order, and all answers come back to a second call of `receive`. -/
inductive Round (accepts : Int → Bool) (a : SessionActor) (c : Address) (s : Session) : Session → Prop where
  | intro (limit limit' now later : Nat) (copies : List (Int × Envelop)) (arrivals : List (Nat × Payload))
    (due : s.AllDue now) (resent : copies.map (·.2) = (s.receive limit [] now).sent)
    (answered : arrivals.map (·.2) = (a.receiveAll accepts c copies).2) (room : arrivals.length ≤ limit') :
    Round accepts a c s ((s.receive limit [] now).session.receive limit' arrivals later).session

/-- From the oldest to the newest, each entry lies ahead of the one before it, and the oldest of the indices
    stored at the server and at the client; and the scheduler takes all delays. -/
structure Clears (accepts : Int → Bool) (stored remote : Int) (entries : List MsgInfo) : Prop where
  server : (stored :: entries.map fun msg => (msg.seqIdx : Int)).IsChain AheadIdx
  client : (remote :: entries.map fun msg => (msg.seqIdx : Int)).IsChain AheadIdx
  delays : ∀ msg ∈ entries, ∀ delay ∈ msg.msgData.data.delay, accepts (toLong delay) = true

instance (s : Session) (now : Nat) : Decidable (s.AllDue now) := by unfold Session.AllDue; infer_instance

instance (accepts : Int → Bool) (stored remote : Int) (entries : List MsgInfo) :
    Decidable (Clears accepts stored remote entries) :=
  decidable_of_iff (_ ∧ _ ∧ _) ⟨fun ⟨hserver, hclient, hdelays⟩ => ⟨hserver, hclient, hdelays⟩,
    fun h => ⟨h.server, h.client, h.delays⟩⟩

/-- An entry holds the request of its player with its own index. -/
def MsgInfo.IsRequestOf (player : String) (msg : MsgInfo) : Prop :=
  msg.seqIdx < 1024 ∧ ∃ delay syncId : Int, msg.msgData.data = .json (.requestSync player delay syncId msg.seqIdx)

variable {accepts : Int → Bool} {a : SessionActor} {s : Session} {c : Address} {player : String}

theorem clears_cons {stored remote : Int} {msg : MsgInfo} {entries : List MsgInfo} :
    Clears accepts stored remote (msg :: entries) ↔ AheadIdx stored msg.seqIdx ∧ AheadIdx remote msg.seqIdx ∧
      (∀ delay ∈ msg.msgData.data.delay, accepts (toLong delay) = true) ∧
      Clears accepts msg.seqIdx msg.seqIdx entries := by
  constructor
  · rintro ⟨hserver, hclient, hdelays⟩
    rw [List.map_cons, List.isChain_cons_cons] at hserver hclient
    exact ⟨hserver.1, hclient.1, hdelays msg List.mem_cons_self, hserver.2, hclient.2,
      fun msg' hmsg' => hdelays msg' (List.mem_cons_of_mem msg hmsg')⟩
  · rintro ⟨hserver, hclient, hdelay, h⟩
    refine ⟨?_, ?_, fun msg' hmsg' => ?_⟩
    · rw [List.map_cons, List.isChain_cons_cons]
      exact ⟨hserver, h.server⟩
    · rw [List.map_cons, List.isChain_cons_cons]
      exact ⟨hclient, h.client⟩
    · rcases List.mem_cons.mp hmsg' with rfl | hmsg'
      · exact hdelay
      · exact h.delays msg' hmsg'

/-! ### One copy -/

/-- The session runs and has stored `stored` for the player. -/
structure SessionActor.Serving (a : SessionActor) (player : String) (stored : Int) : Prop where
  running : a.state = .running
  stopped : a.stopped = false
  seqStats : ∃ info, a.seqStats player = some info ∧ info.remoteSeqIdx = stored
  range : IsIdx stored

/-- A copy is dropped, or it is taken and answered. -/
theorem SessionActor.Serving.receive {stored : Int} (h : a.Serving player stored) {msg : MsgInfo} {delay syncId : Int}
    (hidx : msg.seqIdx < 1024) (hdata : msg.msgData.data = .json (.requestSync player delay syncId msg.seqIdx))
    (now : Int) :
    let r := a.receive accepts now c msg.msgData.data
    (¬AheadIdx stored msg.seqIdx ∧ r = (a, [])) ∨
      AheadIdx stored msg.seqIdx ∧ r.1.Serving player msg.seqIdx ∧
        answersTo c r.2 = [if accepts (toLong delay) then .json (.ack msg.seqIdx) else .text responseSuck] := by
  obtain ⟨info, hinfo, hstored⟩ := h.seqStats
  have hrange : ∀ info, a.seqStats player = some info → IsIdx info.remoteSeqIdx := by
    intro info' hinfo'
    cases hinfo.symm.trans hinfo'
    exact hstored ▸ h.range
  have htakes := takes_requestSync_iff hrange delay syncId hidx
  have hlt : toInt (msg.seqIdx : Int) < idxWrapModule := by
    rw [toInt_idx hidx]
    unfold idxWrapModule
    omega
  rw [hdata]
  -- Whether the filter takes the copy is a matter of the stored index alone.
  cases hyes : a.takes (.json (.requestSync player delay syncId msg.seqIdx)) with
  | false =>
    refine Or.inl ⟨fun hahead => ?_, receive_refused hlt hyes⟩
    rw [htakes.mpr ⟨h.stopped, h.running, info, hinfo, hstored ▸ hahead⟩] at hyes
    cases hyes
  | true =>
    obtain ⟨-, -, info'', hinfo'', hahead⟩ := htakes.mp hyes
    cases hinfo.symm.trans hinfo''
    obtain ⟨info', htaken⟩ := receive_taken accepts now c hyes
    obtain ⟨next, hseq, hnext, -⟩ := htaken.seqStats
    rw [toInt_idx hidx] at hnext
    refine Or.inr ⟨hstored ▸ hahead, ⟨htaken.state, htaken.stopped.trans h.stopped, ⟨next, ?_, hnext⟩, ?_⟩, ?_⟩
    · rw [hseq, Function.update_self]
    · exact ⟨by omega, by omega⟩
    · rw [htaken.effects, toInt_idx hidx]
      split <;> simp [answersTo]

/-- An `Ack` is dropped, or it removes the first entry with its index. -/
theorem Session.receiveDatagram_ack_cases {n : Nat} (hn : n < 1024) (hremote : IsIdx s.remoteSeqIdx) (now : Nat) :
    let t := s.receiveDatagram now (.json (.ack n))
    t.fault = none ∧ t.session.started = s.started ∧
      ((¬AheadIdx s.remoteSeqIdx n ∧ t.session.outputQueue = s.outputQueue ∧ t.session.remoteSeqIdx = s.remoteSeqIdx) ∨
        AheadIdx s.remoteSeqIdx n ∧ t.session.outputQueue = (s.outputQueue.eraseP fun msg => msg.seqIdx = n) ∧
          t.session.remoteSeqIdx = n) := by
  have hcast : narrowCast 32 (n : Int) = some n := narrowCast_natCast (lt_trans hn (by decide))
  have hpass := checkAcknowledgement_isSome hremote (show IsIdx n from ⟨by omega, by omega⟩)
  cases hcheck : s.checkAcknowledgement n with
  | none =>
    rw [hcheck] at hpass
    rw [receiveDatagram_ack hcast (congrArg (·.getD s) hcheck)]
    exact ⟨rfl, rfl, Or.inl ⟨by simpa using hpass, rfl, rfl⟩⟩
  | some s' =>
    rw [hcheck] at hpass
    rw [receiveDatagram_ack hcast (congrArg (·.getD s) hcheck)]
    obtain ⟨bits, rfl⟩ := checkAcknowledgement_some hcheck
    exact ⟨rfl, rfl, Or.inr ⟨by simpa using hpass, rfl, rfl⟩⟩

/-! ### All copies -/

namespace Session

/-- One round of the loop, for a datagram that raises nothing and counts against the limit. -/
theorem receiveLoop_cons {received : Payload} {limit now : Nat} {rest : List (Nat × Payload)}
    (hstarted : s.started = true) (hfault : (s.receiveDatagram now received).fault = none)
    (hvisible : ∀ playerName timestamp, received ≠ .json (.keepAlive playerName timestamp)) :
    (receiveLoop (limit + 1) ((now, received) :: rest) s).session =
      (receiveLoop limit rest (s.receiveDatagram now received).session).session := by
  have hne : received ≠ .text "" := by
    rintro rfl
    cases hfault
  rw [receiveLoop.eq_def]
  dsimp only
  rw [if_pos ⟨hstarted, hne⟩, hfault]
  dsimp only
  split
  · exact absurd rfl (hvisible _ _)
  · rfl

/-- The answer to an exception ends the loop. -/
theorem receiveLoop_text {raw : String} {limit now : Nat} {rest : List (Nat × Payload)} :
    (receiveLoop (limit + 1) ((now, .text raw) :: rest) s).session = s := by
  rw [receiveLoop.eq_def]
  dsimp only
  split <;> rfl

/-- Datagrams without a number keep the queue. -/
theorem pending_receiveLoop {arrivals : List (Nat × Payload)} (h : ∀ x ∈ arrivals, x.2.seqIdx = none)
    (limit : Nat) :
    (receiveLoop limit arrivals s).session.pending = s.pending := by
  induction arrivals generalizing limit s with
  | nil => rfl
  | cons x rest ih =>
    obtain ⟨now, received⟩ := x
    have hrest : ∀ x ∈ rest, x.2.seqIdx = none := fun x hx => h x (List.mem_cons_of_mem _ hx)
    have hno : s.passes received = none := by
      unfold passes
      rw [h (now, received) List.mem_cons_self]
      rfl
    cases limit with
    | zero => rfl
    | succ limit =>
      rcases receiveDatagram_cases s now received with ⟨-, hquiet⟩ | ⟨ackIdx, hyes, -⟩
      · rw [receiveLoop.eq_def]
        dsimp only
        split
        · split
          · exact (ih hrest _).trans hquiet.pending
          · exact hquiet.pending
        · rfl
      · cases hno.symm.trans hyes

end Session

/-- A clock request is answered by a clock response. -/
theorem SessionActor.seqIdx_receiveAll {copies : List (Int × Envelop)}
    (h : ∀ x ∈ copies, ∃ id requestTime responseTime : Int, x.2.data = .json (.clockSync id requestTime responseTime)) :
    ∀ p ∈ (a.receiveAll accepts c copies).2, p.seqIdx = none := by
  induction copies generalizing a with
  | nil => exact fun p hp => absurd hp List.not_mem_nil
  | cons x rest ih =>
    obtain ⟨now, e⟩ := x
    obtain ⟨id, requestTime, responseTime, hdata⟩ := h (now, e) List.mem_cons_self
    intro p hp
    rw [receiveAll] at hp
    rcases List.mem_append.mp hp with hp | hp
    · obtain ⟨effect, heffect, hsend⟩ := List.mem_filterMap.mp hp
      rcases receive_cases accepts a now c e.data with ⟨-, hquiet | ⟨name, hraw, -⟩⟩ | ⟨-, name, _, _, _, _, hraw, -⟩
      · have hq := hquiet.effects effect heffect
        cases effect with
        | send payload address =>
          simp only [Option.ite_none_right_eq_some, Option.some.injEq] at hsend
          obtain ⟨-, rfl⟩ := hsend
          unfold Payload.seqIdx
          split
          · exact hq.elim
          · exact hq.elim
          · rfl
        | _ => cases hsend
      · rw [hdata] at hraw
        cases hraw
      · rw [hdata] at hraw
        cases hraw
    · exact ih (fun x hx => h x (List.mem_cons_of_mem _ hx)) p hp

/-- What the copies of `entries` do to a queue: each removes at most one entry, and all entries go exactly if
    they clear both filters. -/
structure Shortens (accepts : Int → Bool) (stored remote : Int) (entries queue queue' : List MsgInfo) : Prop where
  le : queue.length ≤ queue'.length + entries.length
  clears : queue'.length + entries.length = queue.length → Clears accepts stored remote entries
  empty : Clears accepts stored remote entries → queue.map (·.seqIdx) = entries.map (·.seqIdx) → queue' = []

section Shortens
variable {stored remote : Int} {msg : MsgInfo} {entries queue queue' : List MsgInfo}

/-- A copy that comes to nothing leaves too few to empty the queue. -/
theorem Shortens.of_not_clears (hle : queue.length ≤ queue'.length + entries.length)
    (hno : ¬Clears accepts stored remote (msg :: entries)) :
    Shortens accepts stored remote (msg :: entries) queue queue' where
  le := by
    simp only [List.length_cons]
    omega
  clears hlength := by
    simp only [List.length_cons] at hlength
    omega
  empty hclears := absurd hclears hno

/-- A copy that is taken, and whose answer is, removes the oldest entry. -/
theorem Shortens.cons (hserver : AheadIdx stored msg.seqIdx) (hclient : AheadIdx remote msg.seqIdx)
    (hdelay : ∀ delay ∈ msg.msgData.data.delay, accepts (toLong delay) = true)
    (h : Shortens accepts msg.seqIdx msg.seqIdx entries (queue.eraseP fun m => m.seqIdx = msg.seqIdx) queue') :
    Shortens accepts stored remote (msg :: entries) queue queue' where
  le := by
    have := List.le_length_eraseP (p := fun m : MsgInfo => decide (m.seqIdx = msg.seqIdx)) (l := queue)
    have := h.le
    simp only [List.length_cons]
    omega
  clears hlength := by
    have := List.le_length_eraseP (p := fun m : MsgInfo => decide (m.seqIdx = msg.seqIdx)) (l := queue)
    have := h.le
    simp only [List.length_cons] at hlength
    exact clears_cons.mpr ⟨hserver, hclient, hdelay, h.clears (by omega)⟩
  empty hclears hidxs := by
    refine h.empty (clears_cons.mp hclears).2.2.2 ?_
    cases queue with
    | nil => cases hidxs
    | cons m queue =>
      simp only [List.map_cons, List.cons.injEq] at hidxs
      rw [List.eraseP_cons_of_pos (by simpa using hidxs.1)]
      exact hidxs.2

end Shortens

/-- The answers to the copies of `entries`, and to the clock requests sent after them. -/
theorem receiveLoop_copies {tail : List Envelop}
    (htail : ∀ e ∈ tail, ∃ id requestTime responseTime : Int, e.data = .json (.clockSync id requestTime responseTime))
    {entries : List MsgInfo} (hentries : ∀ msg ∈ entries, msg.IsRequestOf player) {a : SessionActor} {s : Session}
    {stored : Int} (hserving : a.Serving player stored) (hstarted : s.started = true) (hremote : IsIdx s.remoteSeqIdx)
    {copies : List (Int × Envelop)} (hcopies : copies.map (·.2) = entries.map (·.msgData) ++ tail)
    {arrivals : List (Nat × Payload)} (harrivals : arrivals.map (·.2) = (a.receiveAll accepts c copies).2) {limit : Nat}
    (hroom : arrivals.length ≤ limit) :
    Shortens accepts stored s.remoteSeqIdx entries s.outputQueue
      (s.receiveLoop limit arrivals).session.outputQueue := by
  induction entries generalizing a s stored copies arrivals limit with
  | nil =>
    -- What is left are answers to clock requests, which do not touch the queue.
    have hclock : ∀ x ∈ arrivals, x.2.seqIdx = none := by
      intro x hx
      refine SessionActor.seqIdx_receiveAll (fun y hy => htail y.2 ?_) x.2 (harrivals ▸ List.mem_map_of_mem hx)
      have := List.mem_map_of_mem (f := Prod.snd) hy
      rwa [hcopies] at this
    have hlength := congrArg List.length (Session.pending_receiveLoop (s := s) hclock limit)
    simp only [Session.pending, List.length_map] at hlength
    refine ⟨hlength.ge, fun _ => ⟨List.isChain_singleton _, List.isChain_singleton _, List.forall_mem_nil _⟩,
      fun _ hnil => ?_⟩
    rw [← List.length_eq_zero_iff, hlength]
    simpa using hnil
  | cons msg entries ih =>
    obtain ⟨hidx, delay, syncId, hdata⟩ := hentries msg List.mem_cons_self
    have hrest : ∀ msg' ∈ entries, msg'.IsRequestOf player := fun msg' hmsg' =>
      hentries msg' (List.mem_cons_of_mem msg hmsg')
    obtain ⟨⟨now, e⟩, copies, rfl⟩ : ∃ copy rest, copies = copy :: rest := by
      cases copies with
      | nil => simp at hcopies
      | cons copy rest => exact ⟨copy, rest, rfl⟩
    simp only [List.map_cons, List.cons_append, List.cons.injEq] at hcopies
    obtain ⟨rfl, hcopies⟩ := hcopies
    rw [SessionActor.receiveAll] at harrivals
    dsimp only at harrivals
    rcases hserving.receive hidx hdata now with ⟨hbehind, hdropped⟩ | ⟨hahead, hserving', hanswer⟩
    · -- The server drops the copy.
      rw [hdropped] at harrivals
      exact .of_not_clears (ih hrest hserving hstarted hremote hcopies harrivals hroom).le
        fun hclears => hbehind (clears_cons.mp hclears).1
    · rw [hanswer] at harrivals
      obtain ⟨⟨later, received⟩, arrivals, rfl⟩ : ∃ arrival rest, arrivals = arrival :: rest := by
        cases arrivals with
        | nil => simp at harrivals
        | cons arrival rest => exact ⟨arrival, rest, rfl⟩
      obtain ⟨limit, rfl⟩ : ∃ limit', limit = limit' + 1 := ⟨limit - 1, by simp at hroom; omega⟩
      simp only [List.map_cons, List.cons_append, List.nil_append, List.cons.injEq] at harrivals
      obtain ⟨rfl, harrivals⟩ := harrivals
      have hdelay : (∀ delay' ∈ msg.msgData.data.delay, accepts (toLong delay') = true) ↔
          accepts (toLong delay) = true := by simp [hdata, Payload.delay]
      -- The server has taken the copy; if it could not schedule it, there is no `Ack`.
      cases haccepts : accepts (toLong delay) with
      | false =>
        simp only [Bool.false_eq_true, if_false, Session.receiveLoop_text]
        refine .of_not_clears (Nat.le_add_right _ _) fun hclears => ?_
        rw [hdelay.mp (clears_cons.mp hclears).2.2.1] at haccepts
        cases haccepts
      | true =>
        rw [if_pos rfl]
        obtain ⟨hfault, hstarted', hack⟩ := Session.receiveDatagram_ack_cases hidx hremote later
        rw [Session.receiveLoop_cons hstarted hfault fun _ _ heq => by cases heq]
        generalize s.receiveDatagram later (.json (.ack msg.seqIdx)) = t at hstarted' hack ⊢
        have hremote' : IsIdx t.session.remoteSeqIdx := by
          rcases hack with ⟨-, -, hsame⟩ | ⟨-, -, hnext⟩
          · rwa [hsame]
          · rw [hnext]
            exact ⟨by omega, by omega⟩
        have hshorter := ih hrest hserving' (hstarted'.trans hstarted) hremote' hcopies harrivals
          (show arrivals.length ≤ limit by simpa using hroom)
        -- The queue of the client is shorter by this entry, and the other copies clear theirs.
        rcases hack with ⟨hbehind, hqueue, -⟩ | ⟨hfresh, hqueue, hnext⟩
        · -- The client drops the answer.
          exact .of_not_clears (hqueue ▸ hshorter.le) fun hclears => hbehind (clears_cons.mp hclears).2.1
        · rw [hqueue, hnext] at hshorter
          exact .cons hahead hfresh (hdelay.mpr haccepts) hshorter

/-! ### The round -/

/-- Where every entry is due, `receive` resends them all. -/
theorem Session.AllDue.receive {now : Nat} (hdue : s.AllDue now) (hstarted : s.started = true) (limit : Nat) :
    let t := s.receive limit [] now
    t.session.started = true ∧ t.session.remoteSeqIdx = s.remoteSeqIdx ∧ t.session.pending = s.pending ∧
      ∃ tail, t.sent = s.outputQueue.map (·.msgData) ++ tail ∧
        ∀ e ∈ tail, ∃ id requestTime responseTime : Int, e.data = .json (.clockSync id requestTime responseTime) := by
  have hreceive : s.receive limit [] now = ⟨(s.periodic now).session, [] ++ (s.periodic now).sent,
      [] ++ (s.periodic now).callbacks, (s.periodic now).fault⟩ := by
    simp only [Session.receive, receiveLoop]
    rfl
  have hquiet : s.Quiet False (s.periodic now) := Quiet.periodic
  have hsent : (resend (s.getTimeSyncronizedMS now) s.outputQueue).2 = s.outputQueue.map (·.msgData) := by
    unfold resend
    dsimp only
    rw [List.filter_eq_self.mpr fun msg hmsg => decide_eq_true (hdue.2 msg hmsg)]
  simp only [hreceive, List.nil_append]
  refine ⟨?_, hquiet.remoteSeqIdx, hquiet.pending, ?_⟩
  · unfold periodic
    dsimp only
    rw [if_pos hstarted, if_neg hdue.1]
    split <;> exact hstarted
  · unfold periodic
    dsimp only
    rw [if_pos hstarted, if_neg hdue.1, hsent]
    split
    · refine ⟨_, rfl, fun e he => ?_⟩
      rw [List.mem_singleton.mp he]
      exact ⟨_, _, _, rfl⟩
    · exact ⟨[], (List.append_nil _).symm, nofun⟩

theorem Session.pending_receive {limit now : Nat} {arrivals : List (Nat × Payload)} :
    (s.receive limit arrivals now).session.pending = (s.receiveLoop limit arrivals).session.pending := by
  have hquiet : (s.receiveLoop limit arrivals).session.Quiet False
      ((s.receiveLoop limit arrivals).session.periodic now) :=
    Quiet.periodic
  unfold Session.receive
  dsimp only
  split
  · exact hquiet.pending
  · rfl

theorem Session.pending_eq_nil : s.pending = [] ↔ s.outputQueue = [] := List.map_eq_nil_iff

/-- A round empties the queue exactly if its entries clear both filters. -/
theorem Round.empty_iff {s' : Session} (h : Round accepts a c s s') {stored : Int} (hserving : a.Serving player stored)
    (hstarted : s.started = true) (hremote : IsIdx s.remoteSeqIdx)
    (hentries : ∀ msg ∈ s.outputQueue, msg.IsRequestOf player) :
    s'.outputQueue = [] ↔ Clears accepts stored s.remoteSeqIdx s.outputQueue := by
  obtain ⟨limit, limit', now, later, copies, arrivals, hdue, hresent, hanswered, hroom⟩ := h
  obtain ⟨hstarted', hsame, hpending, tail, hsent, htail⟩ := hdue.receive hstarted limit
  rw [← Session.pending_eq_nil, Session.pending_receive, Session.pending_eq_nil]
  have hshorter := receiveLoop_copies htail hentries hserving hstarted' (by rwa [hsame]) (hresent.trans hsent) hanswered
    hroom
  generalize s.receive limit [] now = t at hsame hpending hshorter ⊢
  rw [hsame] at hshorter
  have hlength := congrArg List.length hpending
  have hidxs := congrArg (List.map Prod.fst) hpending
  simp only [Session.pending, List.length_map, List.map_map, Function.comp_def] at hlength hidxs
  constructor
  · intro hempty
    refine hshorter.clears ?_
    rw [hempty, hlength]
    exact Nat.zero_add _
  · exact fun hclears => hshorter.empty hclears hidxs

namespace Net

variable {name : Address ↪ String} {Q : Request → Prop} {σ : Net}

/-- The actor of a session goes through nothing but messages and rounds of its task. -/
theorem reachable_step (h : SessionActor.Reachable accepts σ.actor) (a : Action) :
    SessionActor.Reachable accepts (σ.step accepts a).actor := by
  cases a with
  | startup c timeout =>
    simp only [step]
    split <;> exact h
  | toServer k now keep atOnce =>
    simp only [step]
    split
    · exact h.receive _ _ _
    · exact h
  | toClient k now keep =>
    simp only [step]
    split
    · split
      · unfold deliver
        dsimp only
        split <;> exact h
      · exact h
    · exact h
  | fire k =>
    simp only [step]
    split <;> exact h
  | tick now => exact h.keepAlive now
  | _ => exact h

theorem reachable_run (accepts : Int → Bool) (id : Nat) (players : List String) (name : Address ↪ String)
    (as : List Action) : SessionActor.Reachable accepts (Machine.run (step accepts) (start id players name) as).actor :=
  Machine.run_keeps (P := fun σ : Net => SessionActor.Reachable accepts σ.actor) (fun _ a h => reachable_step h a)
    (.create id players) as

theorem isRequestOf_of_inv (h : Inv name Q σ) (c : Address) :
    ∀ msg ∈ (σ.clients c).outputQueue, msg.IsRequestOf (name c) := by
  intro msg hmsg
  obtain ⟨r, hreq, hidx⟩ := (h.clients c).queue (msg.seqIdx, msg.msgData) (List.mem_map.mpr ⟨msg, hmsg, rfl⟩)
  obtain ⟨delay, hdata⟩ := hreq.data
  dsimp only at hidx hdata
  refine ⟨hidx ▸ Nat.mod_lt _ (by decide), delay, r.syncId, ?_⟩
  rw [hdata, hidx]

/-- In every state that a session reaches over any network, a loss-free round empties the queue of a live
    player if and only if the entries, from the oldest to the newest, clear the two filters. -/
theorem round_empties_queue_iff (accepts : Int → Bool) (id : Nat) (players : List String) (name : Address ↪ String)
    (as : List Action) (c : Address) (s' : Session) :
    let σ := Machine.run (step accepts) (start id players name) as
    σ.actor.LiveAt (name c) c → (σ.clients c).started = true → Round accepts σ.actor c (σ.clients c) s' →
      (s'.outputQueue = [] ↔ ∃ info ∈ σ.actor.seqStats (name c),
        Clears accepts info.remoteSeqIdx (σ.clients c).remoteSeqIdx (σ.clients c).outputQueue) := by
  intro σ hlive hstarted hround
  have hinv : Inv name (fun _ => True) σ := Inv.run accepts id players as
    (Machine.along_of_forall fun a _ σ => callHas_trivial σ a)
  obtain ⟨hrunning, hknown⟩ := (hinv.clients c).started hstarted
  obtain ⟨info, hinfo⟩ := Option.isSome_iff_exists.mp hknown
  have hstopped : σ.actor.stopped = false := by
    obtain ⟨player, hlookup, -⟩ := hlive
    by_contra hstopped
    exact ((reachable_run accepts id players name as).stoppedEmpty (by simpa using hstopped)).1 _ _ hlookup
  have hstored : IsIdx info.remoteSeqIdx := by
    rw [hinv.actor.remoteSeqIdx _ _ hinfo]
    exact isIdx_emod (lastCall σ.accepted (name c))
  have hremote : IsIdx (σ.clients c).remoteSeqIdx := by
    have := (hinv.clients c).remoteSeqIdx
    exact ⟨by omega, by omega⟩
  rw [hround.empty_iff ⟨hrunning, hstopped, ⟨info, hinfo, rfl⟩, hstored⟩ hstarted hremote (isRequestOf_of_inv hinv c)]
  simp [hinfo]

/-- The first call of a player, whose request is lost. -/
def lostRequest : List Action := duel ++ [.sync 0 10 7 60000, .loseUp 0]

/-- The first call of a player; its request is accepted, and its `Ack` and its `Sync` are lost. -/
def lostAnswers : List Action :=
  duel ++ [.sync 0 10 7 60000, .toServer 0 0 false false, .loseDown 0, .fire 0, .loseDown 0]

/-- The copy of the first call. -/
def firstCopy : Envelop := ⟨0, .json (.requestSync "a" 60000 7 1), some ⟨"a", 1, 7⟩⟩

theorem round_empties_queue_lost_request :
    (((Machine.run (step anyDelay) (start 0 ["a", "aa"] letters) lostRequest).clients 0 |>.receive
      10 [] 2000).session.receive 10 [(2000, .json (.ack 1))] 2000).session.outputQueue = [] :=
  (round_empties_queue_iff anyDelay 0 ["a", "aa"] letters lostRequest 0 _ (by decide +kernel) (by decide +kernel)
    (.intro 10 10 2000 2000 [(0, firstCopy)] [(2000, .json (.ack 1))] (by decide +kernel) (by decide +kernel)
      (by decide +kernel) (by decide +kernel))).mpr (by decide +kernel)

/-- An entry whose request was accepted is not answered any more. -/
theorem round_leaves_queue :
    ¬∀ (accepts : Int → Bool) (id : Nat) (players : List String) (name : Address ↪ String) (as : List Action)
      (c : Address) (s' : Session),
      Machine.Along (step accepts) (fun σ a => InOrder σ a ∧ NoDup a) (start id players name) as →
      let σ := Machine.run (step accepts) (start id players name) as
      σ.actor.LiveAt (name c) c → (σ.clients c).started = true → Round accepts σ.actor c (σ.clients c) s' →
        s'.outputQueue = [] := by
  intro h
  have hend := h anyDelay 0 ["a", "aa"] letters lostAnswers 0 _ (by decide +kernel) (by decide +kernel)
    (by decide +kernel) (.intro 10 10 2000 2000 [(0, firstCopy)] [] (by decide +kernel) (by decide +kernel)
      (by decide +kernel) (by decide +kernel))
  exact absurd hend (by decide +kernel)

end Net

end MultiSlider
