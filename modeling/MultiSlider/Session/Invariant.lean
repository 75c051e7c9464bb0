import MultiSlider.Session.Arrivals
import MultiSlider.Session.Net

/-! What holds of a session in every state it reaches, over any network. A request is found in its
    client's queue, in its copies under way, and, once the server has accepted it, in the answers and
    timers it led to; the filters stand where the requests taken last have put them. -/

namespace MultiSlider

/-- The property `Q` of requests is one that every reliable `sync` call of a run has. -/
structure IsRequest (name : Address → String) (Q : Request → Prop) (c : Address) (calls : Nat) (e : Envelop)
    (r : Request) : Prop where
  request : e.request = some r
  player : r.player = name c
  pos : 1 ≤ r.call
  le : r.call ≤ calls
  property : Q r
  data : ∃ delay : Nat, e.data = .json (.requestSync (name c) delay r.syncId (r.call % 1024 : Nat))

/-- The actor has not gone back on what it told its players. -/
structure SessionActor.Grows (a a' : SessionActor) : Prop where
  running : a.state = .running → a'.state = .running
  known : ∀ n, (a.seqStats n).isSome → (a'.seqStats n).isSome

/-- The client at `c` numbers its calls in order and queues what they built. -/
structure ClientOk (name : Address → String) (Q : Request → Prop) (actor : SessionActor) (c : Address)
    (s : Session) : Prop where
  playerName : s.playerName = name c
  localSeqIdx : s.localSeqIdx = (s.calls + 1) % 1024
  remoteSeqIdx : s.remoteSeqIdx < 1024
  queue : ∀ m ∈ s.pending, ∃ r, IsRequest name Q c s.calls m.2 r ∧ m.1 = r.call % 1024
  sorted : s.requests.Pairwise (·.call < ·.call)
  started : s.started = true → actor.state = .running ∧ (actor.seqStats (name c)).isSome

/-- A datagram under way to the server is a request of its sender, or numbers nothing. -/
def UpOk (name : Address → String) (Q : Request → Prop) (calls : Address → Nat) (u : Uplink) : Prop :=
  u.envelop.Plain (name u.sender) ∨ ∃ r, IsRequest name Q u.sender (calls u.sender) u.envelop r

/-- A numbered `Sync` comes from an accepted request. -/
def SyncOk (accepted : List Request) (syncId msgIdx : Int) (origin : Option Request) : Prop :=
  (msgIdx = 1025 ∧ origin = none) ∨
    IsIdx msgIdx ∧ ∃ r ∈ accepted, origin = some r ∧ syncId = toInt r.syncId

/-- A `Sync` or `Ack` under way to a client comes from an accepted request, and a `Start` from a session
    that runs and knows the player. -/
def DownOk (name : Address → String) (actor : SessionActor) (accepted : List Request) (d : Downlink) : Prop :=
  match d.payload with
  | .json (.sync syncId msgIdx) => SyncOk accepted syncId msgIdx d.origin
  | .json (.ack ackIdx) =>
    ∃ r ∈ accepted, d.origin = some r ∧ r.player = name d.receiver ∧ ackIdx = (r.call % 1024 : Nat)
  | .json .start => actor.state = .running ∧ (actor.seqStats (name d.receiver)).isSome
  | _ => True

/-- The number of the request of `player` that was accepted last. -/
def lastCall (accepted : List Request) (player : String) : Nat :=
  ((accepted.filter (·.player = player)).getLast?.map (·.call)).getD 0

/-- The actor knows its live players, and its filters stand at the requests accepted last. -/
structure ActorOk (name : Address → String) (Q : Request → Prop) (actor : SessionActor) (accepted : List Request) :
    Prop where
  live : ∀ n c, actor.LiveAt n c → n = name c ∧ (actor.seqStats n).isSome
  localSeqIdx : ∀ n info, actor.seqStats n = some info → IsIdx info.localSeqIdx
  remoteSeqIdx : ∀ n info, actor.seqStats n = some info → info.remoteSeqIdx = (lastCall accepted n % 1024 : Nat)
  idle : actor.state ≠ .running → accepted = []
  accepted : ∀ r ∈ accepted, Q r ∧ (actor.seqStats r.player).isSome

section Parts
variable {name : Address → String} {Q : Request → Prop} {actor actor' : SessionActor} {c : Address} {s : Session}
  {t : Turn} {accepted accepted' : List Request} {start : Prop}

/-! ### What grows -/

theorem SessionActor.Grows.refl : actor.Grows actor := ⟨fun h => h, fun _ h => h⟩

theorem IsRequest.mono {calls calls' : Nat} {e : Envelop} {r : Request} (h : IsRequest name Q c calls e r)
    (hle : calls ≤ calls') : IsRequest name Q c calls' e r :=
  { h with le := h.le.trans hle }

theorem UpOk.mono {calls calls' : Address → Nat} {u : Uplink} (h : UpOk name Q calls u)
    (hle : calls u.sender ≤ calls' u.sender) : UpOk name Q calls' u := by
  rcases h with hplain | ⟨r, hr⟩
  · exact Or.inl hplain
  · exact Or.inr ⟨r, hr.mono hle⟩

theorem SyncOk.mono {syncId msgIdx : Int} {origin : Option Request} (h : SyncOk accepted syncId msgIdx origin)
    (hsub : accepted ⊆ accepted') : SyncOk accepted' syncId msgIdx origin := by
  rcases h with hsimple | ⟨hidx, r, hr, heq⟩
  · exact Or.inl hsimple
  · exact Or.inr ⟨hidx, r, hsub hr, heq⟩

theorem DownOk.mono {d : Downlink} (h : DownOk name actor accepted d) (hsub : accepted ⊆ accepted')
    (hgrows : actor.Grows actor') : DownOk name actor' accepted' d := by
  unfold DownOk at h ⊢
  split
  · rename_i hd
    rw [hd] at h
    exact SyncOk.mono h hsub
  · rename_i hd
    rw [hd] at h
    obtain ⟨r, hr, heq⟩ := h
    exact ⟨r, hsub hr, heq⟩
  · rename_i hd
    rw [hd] at h
    exact ⟨hgrows.running h.1, hgrows.known _ h.2⟩
  · trivial

theorem ClientOk.mono (h : ClientOk name Q actor c s) (hgrows : actor.Grows actor') : ClientOk name Q actor' c s :=
  { h with started := fun hs => ⟨hgrows.running (h.started hs).1, hgrows.known _ (h.started hs).2⟩ }

/-! ### A client's turn -/

theorem Session.requests_eq : s.requests = s.pending.filterMap (·.2.request) := by
  simp [Session.requests, Session.pending, List.filterMap_map]

theorem ClientOk.mem_requests (h : ClientOk name Q actor c s) {r : Request} (hr : r ∈ s.requests) :
    ∃ m ∈ s.pending, IsRequest name Q c s.calls m.2 r ∧ m.1 = r.call % 1024 := by
  rw [Session.requests_eq] at hr
  obtain ⟨m, hm, hreq⟩ := List.mem_filterMap.mp hr
  obtain ⟨r', hr', hidx⟩ := h.queue m hm
  cases hr'.request.symm.trans hreq
  exact ⟨m, hm, hr', hidx⟩

theorem ClientOk.quiet (h : ClientOk name Q actor c s) (hquiet : s.Quiet start t)
    (hstart : start → actor.state = .running ∧ (actor.seqStats (name c)).isSome) :
    ClientOk name Q actor c t.session where
  playerName := hquiet.playerName.trans h.playerName
  localSeqIdx := by
    rw [hquiet.localSeqIdx, hquiet.calls]
    exact h.localSeqIdx
  remoteSeqIdx := by
    rw [hquiet.remoteSeqIdx]
    exact h.remoteSeqIdx
  queue m hm := by
    rw [hquiet.pending] at hm
    rw [hquiet.calls]
    exact h.queue m hm
  sorted := by
    rw [Session.requests_eq, hquiet.pending, ← Session.requests_eq]
    exact h.sorted
  started hs := (hquiet.started hs).elim h.started hstart

theorem ClientOk.sent_quiet (h : ClientOk name Q actor c s) (hquiet : s.Quiet start t) :
    ∀ e ∈ t.sent, UpOk name Q (fun _ => t.session.calls) ⟨c, e⟩ := by
  intro e he
  rcases hquiet.sent e he with hplain | ⟨seqIdx, hmem⟩
  · exact Or.inl (h.playerName ▸ hplain)
  · obtain ⟨r, hr, -⟩ := h.queue _ hmem
    exact Or.inr ⟨r, hr.mono hquiet.calls.ge⟩

/-- The new entry of a reliable call is a request. -/
theorem ClientOk.newEntry (h : ClientOk name Q actor c s) {syncId : Nat} (delay : Nat)
    (hQ : Q ⟨name c, s.calls + 1, syncId⟩) : (s.newEntry syncId delay).1 = (s.calls + 1) % 1024 ∧
      IsRequest name Q c (s.calls + 1) (s.newEntry syncId delay).2 ⟨name c, s.calls + 1, syncId⟩ := by
  refine ⟨h.localSeqIdx, ?_, rfl, by simp, le_refl _, hQ, delay, ?_⟩
  · simp [Session.newEntry, Session.makeEnvelop, h.playerName]
  · simp [Session.newEntry, Session.makeEnvelop, h.playerName, h.localSeqIdx]

theorem ClientOk.sync (h : ClientOk name Q actor c s) (now delay : Nat) {syncId : Nat}
    (hQ : Q ⟨name c, s.calls + 1, syncId⟩) :
    let t := (s.sync now syncId delay).1
    ClientOk name Q actor c t.session ∧ s.calls ≤ t.session.calls ∧
      (∀ e ∈ t.sent, UpOk name Q (fun _ => t.session.calls) ⟨c, e⟩) := by
  rcases Session.sync_cases s now syncId delay with hquiet | ⟨hstarted, -, -, -, hsent, sentTime, hsession⟩
  · exact ⟨h.quiet hquiet False.elim, hquiet.calls.ge, h.sent_quiet hquiet⟩
  · obtain ⟨hidx, hnew⟩ := h.newEntry delay hQ
    simp only [hsession, hsent]
    refine ⟨?_, Nat.le_succ _, fun e he => ?_⟩
    · exact {
        playerName := h.playerName
        localSeqIdx := by
          rw [Session.getNextSeqIdx_eq h.localSeqIdx]
        remoteSeqIdx := h.remoteSeqIdx
        queue := fun m hm => by
          rw [Session.pending, List.map_append] at hm
          rcases List.mem_append.mp hm with hm | hm
          · obtain ⟨r, hr, hm⟩ := h.queue m hm
            exact ⟨r, hr.mono (Nat.le_succ _), hm⟩
          · rw [List.mem_singleton.mp hm]
            exact ⟨_, hnew, hidx⟩
        sorted := by
          rw [Session.requests, List.filterMap_append, List.pairwise_append]
          refine ⟨h.sorted, by simp [hnew.request], fun r hr r' hr' => ?_⟩
          -- The queued calls are earlier ones.
          have hr'' : r' = ⟨name c, s.calls + 1, syncId⟩ := by simpa [hnew.request] using hr'
          obtain ⟨m, -, hreq, -⟩ := h.mem_requests hr
          rw [hr'']
          exact Nat.lt_succ_of_le hreq.le
        started := fun _ => h.started hstarted }
    · rw [List.mem_singleton.mp he]
      exact Or.inr ⟨_, hnew⟩

theorem ClientOk.acknowledged (h : ClientOk name Q actor c s) {ackIdx : Nat} (hidx : ackIdx < 1024)
    (hack : s.Acknowledged ackIdx t) : ClientOk name Q actor c t.session := by
  have hsub : t.session.outputQueue.Sublist s.outputQueue := by
    rw [hack.outputQueue]
    exact List.eraseP_sublist
  exact {
    playerName := hack.playerName.trans h.playerName
    localSeqIdx := by
      rw [hack.localSeqIdx, hack.calls]
      exact h.localSeqIdx
    remoteSeqIdx := by
      rw [hack.remoteSeqIdx]
      exact hidx
    queue := fun m hm => by
      rw [hack.calls]
      exact h.queue m ((hsub.map _).subset hm)
    sorted := h.sorted.sublist (hsub.filterMap _)
    started := fun hs => h.started (hack.started hs) }

/-! ### The actor -/

theorem not_takes_of_plain {player : String} {e : Envelop} (h : e.Plain player) : actor.takes e.data = false := by
  obtain ⟨-, hdata⟩ := h
  unfold SessionActor.takes
  split
  · rename_i message hmessage
    split
    · rename_i heq
      cases message with
      | requestSync name delay syncId seqIdx =>
        simp only [hmessage] at hdata
        cases heq
        rw [hdata, show toInt 1025 = 1025 from by decide]
        simp [idxWrapModule]
      | _ => cases heq
    · rfl
  · rfl

theorem lastCall_append {r : Request} {player : String} :
    lastCall (accepted ++ [r]) player = if r.player = player then r.call else lastCall accepted player := by
  unfold lastCall
  rw [List.filter_append]
  split
  · rename_i heq
    simp [heq]
  · rename_i hne
    simp [hne]

theorem ActorOk.quiet (h : ActorOk name Q actor accepted) {effects : List Effect}
    (hquiet : actor.Quiet actor' effects) : ActorOk name Q actor' accepted where
  live n c hlive := by
    rw [hquiet.seqStats]
    exact h.live n c (hquiet.live n c hlive)
  localSeqIdx n info := by
    rw [hquiet.seqStats]
    exact h.localSeqIdx n info
  remoteSeqIdx n info := by
    rw [hquiet.seqStats]
    exact h.remoteSeqIdx n info
  idle := by
    rw [hquiet.state]
    exact h.idle
  accepted := by
    rw [hquiet.seqStats]
    exact h.accepted

theorem SessionActor.Quiet.grows {effects : List Effect} (h : actor.Quiet actor' effects) : actor.Grows actor' where
  running hrun := h.state.trans hrun
  known n hn := by rwa [h.seqStats]

theorem ActorOk.joined (h : ActorOk name Q actor accepted) {effects : List Effect}
    (hjoined : actor.Joined (name c) c actor' effects) (hnone : accepted = []) :
    ActorOk name Q actor' accepted where
  live n c' hlive := by
    rw [hjoined.seqStats]
    rcases hjoined.live n c' hlive with ⟨rfl, rfl⟩ | ⟨hne, hold⟩
    · exact ⟨rfl, by simp⟩
    · rw [Function.update_of_ne hne]
      exact h.live n c' hold
  localSeqIdx n info hinfo := by
    rw [hjoined.seqStats] at hinfo
    by_cases hn : n = name c
    · subst hn
      cases (Function.update_self ..).symm.trans hinfo
      exact ⟨by decide, by decide⟩
    · rw [Function.update_of_ne hn] at hinfo
      exact h.localSeqIdx n info hinfo
  remoteSeqIdx n info hinfo := by
    rw [hjoined.seqStats] at hinfo
    by_cases hn : n = name c
    · subst hn
      cases (Function.update_self ..).symm.trans hinfo
      rw [hnone]
      rfl
    · rw [Function.update_of_ne hn] at hinfo
      exact h.remoteSeqIdx n info hinfo
  idle _ := hnone
  accepted r hr := by
    rw [hnone] at hr
    cases hr

theorem SessionActor.Joined.grows {player : String} {effects : List Effect}
    (h : actor.Joined player c actor' effects) : actor.Grows actor' where
  running hrun := by
    rw [h.waiting] at hrun
    cases hrun
  known n hn := by
    rw [h.seqStats]
    by_cases heq : n = player
    · rw [heq, Function.update_self]
      rfl
    · rwa [Function.update_of_ne heq]

variable {accepts : Int → Bool} {r : Request} {delay : Int} {info : MessagesSequenceInfo} {effects : List Effect}

theorem SessionActor.Taken.grows {player : String} {syncId seqIdx : Int}
    (h : actor.Taken accepts c player delay syncId seqIdx info actor' effects) : actor.Grows actor' where
  running _ := h.state
  known n hn := by
    obtain ⟨info', hseq, -⟩ := h.seqStats
    rw [hseq]
    by_cases heq : n = player
    · rw [heq, Function.update_self]
      rfl
    · rwa [Function.update_of_ne heq]

theorem ActorOk.taken (h : ActorOk name Q actor accepted) (hplayer : r.player = name c) (hQ : Q r)
    (htaken : actor.Taken accepts c (name c) delay r.syncId (r.call % 1024 : Nat) info actor' effects) :
    ActorOk name Q actor' (accepted ++ [r]) := by
  obtain ⟨info', hseq, hremote, hlocal⟩ := htaken.seqStats
  have hidx := h.localSeqIdx _ _ htaken.found
  exact {
    live := fun n c' hlive => by
      -- Only the sequence state of the sender changes.
      have hold := htaken.live hlive
      refine ⟨(h.live n c' hold).1, ?_⟩
      rw [hseq]
      by_cases heq : n = name c
      · rw [heq, Function.update_self]
        rfl
      · rw [Function.update_of_ne heq]
        exact (h.live n c' hold).2
    localSeqIdx := fun n info'' hinfo => by
      -- The own index is the next one on the circle.
      rw [hseq] at hinfo
      by_cases heq : n = name c
      · subst heq
        cases (Function.update_self ..).symm.trans hinfo
        unfold IsIdx at hidx ⊢
        rw [hlocal]
        split <;> omega
      · rw [Function.update_of_ne heq] at hinfo
        exact h.localSeqIdx n info'' hinfo
    remoteSeqIdx := fun n info'' hinfo => by
      rw [hseq] at hinfo
      -- The stored index is that of the request accepted last.
      rw [lastCall_append]
      by_cases heq : n = name c
      · subst heq
        cases (Function.update_self ..).symm.trans hinfo
        rw [if_pos hplayer, hremote]
        exact toInt_idx (Nat.mod_lt _ (by decide))
      · rw [Function.update_of_ne heq] at hinfo
        rw [if_neg fun h => heq (h.symm.trans hplayer)]
        exact h.remoteSeqIdx n info'' hinfo
    idle := fun hidle => absurd htaken.state hidle
    accepted := fun r' hr' => by
      have hknown : (actor'.seqStats (name c)).isSome := by
        rw [hseq, Function.update_self]
        rfl
      rcases List.mem_append.mp hr' with hr' | hr'
      · exact ⟨(h.accepted r' hr').1, htaken.grows.known _ (h.accepted r' hr').2⟩
      · rw [List.mem_singleton.mp hr', hplayer]
        exact ⟨hQ, hknown⟩ }

/-- The server takes a request that lies ahead of the one of its player accepted last. -/
theorem IsRequest.takes_iff (h : ActorOk name Q actor accepted) {calls : Nat} {e : Envelop}
    (hreq : IsRequest name Q c calls e r) : actor.takes e.data = true ↔
      actor.stopped = false ∧ actor.state = .running ∧ (actor.seqStats r.player).isSome ∧
        AheadIdx (lastCall accepted r.player) r.call := by
  obtain ⟨delay, hdata⟩ := hreq.data
  have hcast (n : Nat) : ((n % 1024 : Nat) : Int) = (n : Int) % 1024 := by omega
  have hidx : ∀ info, actor.seqStats (name c) = some info → IsIdx info.remoteSeqIdx := by
    intro info hinfo
    rw [h.remoteSeqIdx _ _ hinfo]
    exact isIdx_emod (lastCall accepted (name c))
  rw [hdata, SessionActor.takes_requestSync_iff hidx _ _ (Nat.mod_lt _ (by decide)), hreq.player]
  refine and_congr_right fun _ => and_congr_right fun _ => ?_
  cases hinfo : actor.seqStats (name c) with
  | none => simp
  | some info =>
    simp [h.remoteSeqIdx _ _ hinfo, hcast, AheadIdx]

/-- The server drops a request that it does not take. -/
theorem IsRequest.receive_refused {calls : Nat} {e : Envelop} (hreq : IsRequest name Q c calls e r)
    (accepts : Int → Bool) (now : Int) (senderAddress : Address) (hno : actor.takes e.data = false) :
    actor.receive accepts now senderAddress e.data = (actor, []) := by
  obtain ⟨delay, hdata⟩ := hreq.data
  rw [hdata] at hno ⊢
  refine SessionActor.receive_refused ?_ hno
  rw [toInt_idx (Nat.mod_lt _ (by decide))]
  have hlt := Nat.mod_lt r.call (show 0 < 1024 by decide)
  unfold idxWrapModule
  omega

theorem IsRequest.receive_taken {calls : Nat} {e : Envelop} (hreq : IsRequest name Q c calls e r)
    (accepts : Int → Bool) (now : Int) (senderAddress : Address) (hyes : actor.takes e.data = true) :
    let result := actor.receive accepts now senderAddress e.data
    ∃ delay info, e.data = .json (.requestSync (name c) delay r.syncId (r.call % 1024 : Nat)) ∧
      actor.Taken accepts senderAddress (name c) delay r.syncId (r.call % 1024 : Nat) info result.1 result.2 := by
  obtain ⟨delay, hdata⟩ := hreq.data
  rw [hdata] at hyes ⊢
  obtain ⟨info, htaken⟩ := SessionActor.receive_taken accepts now senderAddress hyes
  exact ⟨delay, info, rfl, htaken⟩

end Parts

namespace Net

/-- Every part is as it should be for the requests accepted so far. -/
structure Inv (name : Address ↪ String) (Q : Request → Prop) (σ : Net) : Prop where
  clients : ∀ c, ClientOk name Q σ.actor c (σ.clients c)
  up : ∀ u ∈ σ.up, UpOk name Q (fun c => (σ.clients c).calls) u
  down : ∀ d ∈ σ.down, DownOk name σ.actor σ.accepted d
  timers : ∀ t ∈ σ.timers, SyncOk σ.accepted t.syncId t.msgIdx t.origin
  actor : ActorOk name Q σ.actor σ.accepted
  synced : ∀ d ∈ σ.synced, ∀ r, d.origin = some r → r ∈ σ.accepted ∧ narrowCast 32 (toInt r.syncId) = some d.syncId

variable {name : Address ↪ String} {Q : Request → Prop} {σ σ' : Net}

/-! ### What a datagram carries -/

theorem mem_posted {origin : Option Request} {effects : List Effect} {d : Downlink}
    (hd : d ∈ posted origin effects) :
    ∃ payload address, Effect.send payload address ∈ effects ∧ d = ⟨address, payload, origin⟩ := by
  obtain ⟨e, he, hsome⟩ := List.mem_filterMap.mp hd
  cases e with
  | send payload address =>
    cases hsome
    exact ⟨payload, address, he, rfl⟩
  | _ => cases hsome

theorem downOk_fireSync {actor : SessionActor} {accepted : List Request} {syncId msgIdx : Int}
    {origin : Option Request} (h : SyncOk accepted syncId msgIdx origin) :
    ∀ d ∈ posted origin (actor.fireSync syncId msgIdx), DownOk name actor accepted d := by
  intro d hd
  obtain ⟨payload, address, he, rfl⟩ := mem_posted hd
  obtain ⟨player, -, heq⟩ := List.mem_map.mp he
  cases heq
  exact h

theorem downOk_of_quiet {actor : SessionActor} {accepted : List Request} {origin : Option Request}
    {payload : Payload} {address : Address} (h : (Effect.send payload address).Quiet) :
    DownOk name actor accepted ⟨address, payload, origin⟩ := by
  unfold DownOk
  cases payload with
  | text raw => trivial
  | json message =>
    cases message with
    | start => exact h.elim
    | sync syncId msgIdx => exact h.elim
    | ack ackIdx => exact h.elim
    | _ => trivial

/-- A number that the filter of a client is asked about is an index, and stems from an accepted request. -/
theorem seqIdx_of_downOk {actor : SessionActor} {accepted : List Request} {d : Downlink}
    (h : DownOk name actor accepted d) {seqIdx : Int} (hseq : d.payload.seqIdx = some seqIdx) :
    IsIdx seqIdx ∧ ∃ r ∈ accepted, d.origin = some r := by
  unfold DownOk at h
  unfold Payload.seqIdx at hseq
  split at hseq
  · rename_i hpayload
    cases hseq
    simp only [hpayload] at h
    obtain ⟨r, hr, horigin, -, rfl⟩ := h
    exact ⟨isIdx_emod r.call, r, hr, horigin⟩
  · rename_i syncId msgIdx hpayload
    split at hseq
    · rename_i hlt
      cases hseq
      simp only [hpayload] at h
      rcases h with ⟨rfl, -⟩ | ⟨hidx, r, hr, horigin, -⟩
      · omega
      · exact ⟨hidx, r, hr, horigin⟩
    · cases hseq
  · cases hseq

/-! ### The parts of a step -/

theorem Inv.start (id : Nat) (players : List String) : Inv name Q (start id players name) where
  clients c := ⟨rfl, rfl, Nat.zero_lt_succ 1023, fun m hm => absurd hm List.not_mem_nil, List.Pairwise.nil, nofun⟩
  up u hu := absurd hu List.not_mem_nil
  down d hd := absurd hd List.not_mem_nil
  timers t ht := absurd ht List.not_mem_nil
  actor := by
    refine ⟨fun n c hlive => ?_, nofun, nofun, fun _ => rfl, fun r hr => absurd hr List.not_mem_nil⟩
    obtain ⟨player, hlookup, -⟩ := hlive
    rw [Net.start, SessionActor.create, AList.lookup_ofKeys] at hlookup
    split at hlookup <;> cases hlookup
  synced d hd := absurd hd List.not_mem_nil

/-- Losing datagrams keeps the invariant. -/
theorem Inv.of_subset (h : Inv name Q σ) {up : List Uplink} {down : List Downlink} {timers : List Timer}
    (hup : up ⊆ σ.up) (hdown : down ⊆ σ.down) (htimers : timers ⊆ σ.timers) :
    Inv name Q { σ with up, down, timers } :=
  { h with
    up := fun u hu => h.up u (hup hu)
    down := fun d hd => h.down d (hdown hd)
    timers := fun t ht => h.timers t (htimers ht) }

/-- A client's turn keeps the invariant if the client numbers its calls in order, sends what it may, and
    reports only accepted requests. -/
theorem Inv.turn (h : Inv name Q σ) {c : Address} {t : Turn} {origin : Option Request}
    (hclient : ClientOk name Q σ.actor c t.session) (hcalls : (σ.clients c).calls ≤ t.session.calls)
    (hsent : ∀ e ∈ t.sent, UpOk name Q (fun _ => t.session.calls) ⟨c, e⟩)
    (hsyncs : ∀ id ∈ Session.syncs t.callbacks, ∀ r, origin = some r →
      r ∈ σ.accepted ∧ narrowCast 32 (toInt r.syncId) = some id) : Inv name Q (σ.turn c t origin) where
  clients c' := by
    by_cases hc : c' = c
    · subst hc
      simpa [Net.turn] using hclient
    · simpa [Net.turn, hc] using h.clients c'
  up u hu := by
    rcases List.mem_append.mp hu with hu | hu
    · refine (h.up u hu).mono ?_
      by_cases hc : u.sender = c
      · simpa [Net.turn, hc] using hcalls
      · simp [Net.turn, hc]
    · obtain ⟨e, he, rfl⟩ := List.mem_map.mp hu
      refine (hsent e he).mono ?_
      simp [Net.turn]
  down := h.down
  timers := h.timers
  actor := h.actor
  synced d hd r hr := by
    rcases List.mem_append.mp hd with hd | hd
    · exact h.synced d hd r hr
    · obtain ⟨id, hid, rfl⟩ := List.mem_map.mp hd
      exact hsyncs id hid r hr

theorem Inv.turn_quiet (h : Inv name Q σ) {c : Address} {t : Turn} (hquiet : (σ.clients c).Quiet False t) :
    Inv name Q (σ.turn c t none) :=
  h.turn ((h.clients c).quiet hquiet False.elim) hquiet.calls.ge ((h.clients c).sent_quiet hquiet)
    (fun _ _ _ => nofun)

theorem Inv.turn_sync (h : Inv name Q σ) {c : Address} {now syncId delay : Nat}
    (hQ : Q ⟨(σ.clients c).playerName, (σ.clients c).calls + 1, syncId⟩) :
    Inv name Q (σ.turn c ((σ.clients c).sync now syncId delay).1 none) := by
  obtain ⟨hclient, hcalls, hsent⟩ := (h.clients c).sync now delay
    (show Q ⟨name c, (σ.clients c).calls + 1, syncId⟩ from (h.clients c).playerName ▸ hQ)
  exact h.turn hclient hcalls hsent (fun _ _ _ => nofun)

theorem Inv.deliver (h : Inv name Q σ) {d : Downlink} (hd : DownOk name σ.actor σ.accepted d) {now : Nat} :
    Inv name Q (σ.deliver now d) := by
  have hc := h.clients d.receiver
  unfold Net.deliver
  dsimp only
  split
  -- An `onSync` that goes back to a request has its `syncId`.
  · have hsyncs : ∀ id ∈ Session.syncs ((σ.clients d.receiver).receiveDatagram now d.payload).callbacks, ∀ r,
        d.origin = some r → r ∈ σ.accepted ∧ narrowCast 32 (toInt r.syncId) = some id := by
      intro id hid r hr
      obtain ⟨syncId, seqIdx, hpayload, hcast⟩ := Session.mem_syncs_receiveDatagram hid
      unfold DownOk at hd
      simp only [hpayload] at hd
      rcases hd with ⟨-, horigin⟩ | ⟨-, r', hr', horigin, hid'⟩
      · cases horigin.symm.trans hr
      · cases horigin.symm.trans hr
        exact ⟨hr', hid' ▸ hcast⟩
    rcases Session.receiveDatagram_cases (σ.clients d.receiver) now d.payload with ⟨-, hquiet⟩ | ⟨ackIdx, hpasses, hack⟩
    · exact h.turn (hc.quiet hquiet False.elim) hquiet.calls.ge (hc.sent_quiet hquiet) hsyncs
    · have hidx : ∀ seqIdx, d.payload.seqIdx = some seqIdx → IsIdx seqIdx := fun _ hseq => (seqIdx_of_downOk hd hseq).1
      have hseq := ((Session.passes_eq_some_iff hc.remoteSeqIdx hidx).mp hpasses).1
      have hrange : ackIdx < 1024 := by
        have := (hidx _ hseq).2
        omega
      refine h.turn (hc.acknowledged hrange hack) hack.calls.ge (fun e he => ?_) hsyncs
      rw [hack.sent] at he
      cases he
  -- In `startup` nothing is acknowledged.
  · have hquiet : (σ.clients d.receiver).Quiet _ ((σ.clients d.receiver).startupReceive now d.payload) :=
      Session.Quiet.startupReceive
    refine h.turn (hc.quiet hquiet fun hstart => ?_) hquiet.calls.ge (hc.sent_quiet hquiet) fun id hid => ?_
    · unfold DownOk at hd
      simpa only [hstart] using hd
    · rw [Session.syncs_startupReceive] at hid
      cases hid

/-- A step of the actor keeps the invariant if what it sends and schedules fits what is accepted then. -/
theorem Inv.act (h : Inv name Q σ) {actor : SessionActor} {accepted : List Request} (down : List Downlink)
    (timers : List Timer) (hgrows : σ.actor.Grows actor) (hsub : σ.accepted ⊆ accepted)
    (hactor : ActorOk name Q actor accepted) (hdown : ∀ d ∈ down, DownOk name actor accepted d)
    (htimers : ∀ t ∈ timers, SyncOk accepted t.syncId t.msgIdx t.origin) :
    Inv name Q { σ with actor, accepted, down := σ.down ++ down, timers := σ.timers ++ timers } where
  clients c := (h.clients c).mono hgrows
  up := h.up
  down d hd := (List.mem_append.mp hd).elim (fun hd => (h.down d hd).mono hsub hgrows) (hdown d)
  timers t ht := (List.mem_append.mp ht).elim (fun ht => (h.timers t ht).mono hsub) (htimers t)
  actor := hactor
  synced d hd r hr := ⟨hsub (h.synced d hd r hr).1, (h.synced d hd r hr).2⟩

/-- The answers and the timer of an accepted request. -/
theorem outgoing_taken {accepts : Int → Bool} {actor actor' : SessionActor} {c : Address} {delay : Int}
    {r : Request} {info : MessagesSequenceInfo} {effects : List Effect} (accepted : List Request) (atOnce : Bool)
    (htaken : actor.Taken accepts c (name c) delay r.syncId (r.call % 1024 : Nat) info actor' effects)
    (hplayer : r.player = name c) (hidx : IsIdx info.localSeqIdx) (hr : r ∈ accepted) :
    (∀ d ∈ effects.flatMap (outgoing actor' atOnce (some r)), DownOk name actor' accepted d) ∧
      ∀ t ∈ effects.flatMap (scheduled atOnce (some r)), SyncOk accepted t.syncId t.msgIdx t.origin := by
  have hsync : SyncOk accepted (toInt r.syncId) info.localSeqIdx (some r) := Or.inr ⟨hidx, r, hr, rfl, rfl⟩
  have hack : DownOk name actor' accepted ⟨c, .json (.ack (toInt (r.call % 1024 : Nat))), some r⟩ :=
    ⟨r, hr, rfl, hplayer, toInt_idx (Nat.mod_lt _ (by decide))⟩
  rw [htaken.effects]
  split
  · constructor
    · intro d hd
      simp only [List.flatMap_cons, List.flatMap_nil, List.append_nil, List.mem_append] at hd
      -- The `Sync`s, where the timer fires at once, and the `Ack`.
      rcases hd with hd | hd
      · unfold outgoing at hd
        dsimp only at hd
        split at hd
        · exact downOk_fireSync hsync d hd
        · cases hd
      · obtain ⟨payload, address, he, rfl⟩ := mem_posted hd
        simp only [List.mem_singleton, Effect.send.injEq] at he
        rw [he.1, he.2]
        exact hack
    · intro t ht
      simp only [List.flatMap_cons, List.flatMap_nil, List.append_nil, List.mem_append] at ht
      rcases ht with ht | ht
      · unfold scheduled at ht
        dsimp only at ht
        split at ht
        · cases ht
        · rw [List.mem_singleton.mp ht]
          dsimp only
          exact hsync
      · exact absurd ht List.not_mem_nil
  · constructor
    · intro d hd
      obtain ⟨payload, address, he, rfl⟩ := mem_posted (by simpa [outgoing] using hd)
      cases List.mem_singleton.mp he
      trivial
    · intro t ht
      simp [scheduled] at ht

/-- What a plain datagram leads to carries no request. -/
theorem outgoing_plain {actor : SessionActor} {accepted : List Request} {atOnce : Bool} {e : Effect}
    (he : e.Quiet ∨ actor.state = .running ∧ ∃ n c, actor.LiveAt n c ∧ e = .send (.json .start) c)
    (hactor : ActorOk name Q actor accepted) :
    (∀ d ∈ outgoing actor atOnce none e, DownOk name actor accepted d) ∧
      ∀ t ∈ scheduled atOnce none e, SyncOk accepted t.syncId t.msgIdx t.origin := by
  rcases he with hquiet | ⟨hrunning, n, c, hlive, rfl⟩
  · cases e with
    | send payload address =>
      refine ⟨fun d hd => ?_, nofun⟩
      obtain ⟨payload', address', he, rfl⟩ := mem_posted hd
      cases List.mem_singleton.mp he
      exact downOk_of_quiet hquiet
    | schedule delay syncId msgIdx =>
      have hsync : SyncOk accepted syncId msgIdx none := Or.inl ⟨hquiet, rfl⟩
      unfold outgoing scheduled
      cases atOnce with
      | true => exact ⟨fun d hd => downOk_fireSync hsync d hd, nofun⟩
      | false =>
        refine ⟨nofun, fun t ht => ?_⟩
        rw [List.mem_singleton.mp ht]
        exact hsync
    | closeSession sessionId => exact ⟨nofun, nofun⟩
  · refine ⟨fun d hd => ?_, nofun⟩
    obtain ⟨payload, address, he, rfl⟩ := mem_posted hd
    cases List.mem_singleton.mp he
    obtain ⟨rfl, hknown⟩ := hactor.live n c hlive
    exact ⟨hrunning, hknown⟩

theorem Inv.serve (h : Inv name Q σ) {accepts : Int → Bool} {now : Int} {atOnce : Bool} {u : Uplink}
    (hu : UpOk name Q (fun c => (σ.clients c).calls) u) : Inv name Q (σ.serve accepts now atOnce u) := by
  rcases hu with hplain | ⟨r, hreq⟩
  · have hno : σ.actor.takes u.envelop.data = false := not_takes_of_plain hplain
    obtain ⟨hrequest, hdata⟩ := hplain
    -- What comes of a message that is no numbered request goes back to none.
    have step (actor : SessionActor) (effects : List Effect) (hgrows : σ.actor.Grows actor)
        (hactor : ActorOk name Q actor σ.accepted) (heffects : ∀ e ∈ effects, e.Quiet ∨
          actor.state = .running ∧ ∃ n c, actor.LiveAt n c ∧ e = .send (.json .start) c) :
        Inv name Q { σ with
          actor
          down := σ.down ++ effects.flatMap (outgoing actor atOnce none)
          timers := σ.timers ++ effects.flatMap (scheduled atOnce none) } := by
      refine h.act _ _ hgrows (List.Subset.refl _) hactor (fun d hd => ?_) (fun t ht => ?_)
      · obtain ⟨e, he, hd⟩ := List.mem_flatMap.mp hd
        exact (outgoing_plain (heffects e he) hactor).1 d hd
      · obtain ⟨e, he, ht⟩ := List.mem_flatMap.mp ht
        exact (outgoing_plain (heffects e he) hactor).2 t ht
    simp only [Net.serve, hno, hrequest, Bool.false_eq_true, if_false]
    rcases SessionActor.receive_untaken accepts now u.sender hno with hquiet | ⟨player, hraw, hjoined⟩
    · exact step _ _ hquiet.grows (h.actor.quiet hquiet) fun e he => Or.inl (hquiet.effects e he)
    · simp only [hraw] at hdata
      subst hdata
      exact step _ _ hjoined.grows (h.actor.joined hjoined (h.actor.idle (by simp [hjoined.waiting]))) hjoined.effects
  · cases hyes : σ.actor.takes u.envelop.data with
    | false =>
      have hrefused := hreq.receive_refused accepts now u.sender hyes
      simpa [Net.serve, hrefused, hyes] using h
    | true =>
      obtain ⟨delay, info, -, htaken⟩ := hreq.receive_taken accepts now u.sender hyes
      simp only [Net.serve, hyes, if_true, hreq.request, Option.toList_some]
      have hmem : r ∈ σ.accepted ++ [r] := by simp
      obtain ⟨hdown, htimers⟩ := outgoing_taken (σ.accepted ++ [r]) atOnce htaken hreq.player
        (h.actor.localSeqIdx _ _ htaken.found) hmem
      exact h.act _ _ htaken.grows (List.subset_append_left _ _) (h.actor.taken hreq.player hreq.property htaken)
        hdown htimers

theorem Inv.tick (h : Inv name Q σ) (now : Int) :
    Inv name Q { σ with
      actor := (σ.actor.keepAlive now).1, down := σ.down ++ posted none (σ.actor.keepAlive now).2 } := by
  have hquiet : σ.actor.Quiet (σ.actor.keepAlive now).1 (σ.actor.keepAlive now).2 := SessionActor.Quiet.keepAlive
  have := h.act (posted none (σ.actor.keepAlive now).2) [] hquiet.grows (List.Subset.refl _) (h.actor.quiet hquiet)
    (fun d hd => ?_) (fun t ht => absurd ht List.not_mem_nil)
  · simpa using this
  · obtain ⟨payload, address, he, rfl⟩ := mem_posted hd
    exact downOk_of_quiet (hquiet.effects _ he)

theorem Inv.fire (h : Inv name Q σ) {k : Nat} {t : Timer} (ht : σ.timers[k]? = some t) :
    Inv name Q { σ with
      timers := σ.timers.eraseIdx k
      down := σ.down ++ posted t.origin (σ.actor.fireSync t.syncId t.msgIdx) } := by
  have hsub : Inv name Q { σ with timers := σ.timers.eraseIdx k } :=
    h.of_subset (List.Subset.refl _) (List.Subset.refl _) (List.eraseIdx_sublist _ _).subset
  have := hsub.act _ [] SessionActor.Grows.refl (List.Subset.refl _) h.actor
    (downOk_fireSync (h.timers t (List.mem_of_getElem? ht))) (fun t ht => absurd ht List.not_mem_nil)
  simpa using this

/-- The call that an action makes, if it is a reliable one, has the property `Q`. -/
def CallHas (Q : Request → Prop) (σ : Net) : Action → Prop
  | .sync c _ syncId _ => Q ⟨(σ.clients c).playerName, (σ.clients c).calls + 1, syncId⟩
  | _ => True

instance [DecidablePred Q] (σ : Net) : (a : Action) → Decidable (CallHas Q σ a)
  | .sync c _ syncId _ => inferInstanceAs (Decidable (Q ⟨(σ.clients c).playerName, (σ.clients c).calls + 1, syncId⟩))
  | .startup .. | .startupTimeout .. | .syncSimple .. | .broadcast .. | .say .. | .keepAlive .. | .quit .. | .poll ..
  | .toServer .. | .loseUp .. | .toClient .. | .loseDown .. | .fire .. | .tick .. => inferInstanceAs (Decidable True)

theorem callHas_trivial (σ : Net) (a : Action) : CallHas (fun _ => True) σ a := by
  cases a <;> trivial

theorem Inv.step (h : Inv name Q σ) {accepts : Int → Bool} {a : Action} (hQ : CallHas Q σ a) :
    Inv name Q (σ.step accepts a) := by
  -- A datagram that is left on its way was on its way before.
  have remove {α : Type} (l : List α) (k : Nat) (keep : Bool) : (if keep then l else l.eraseIdx k) ⊆ l := by
    split
    · exact List.Subset.refl l
    · exact (List.eraseIdx_sublist l k).subset
  cases hcaller : caller a with
  | some c =>
    rcases step_of_caller accepts hcaller with heq | ⟨t, heq, hquiet | ⟨now, syncId, delay, rfl, rfl⟩⟩
    · exact heq ▸ h
    · exact heq ▸ h.turn_quiet hquiet
    · exact heq ▸ h.turn_sync hQ
  | none =>
    cases a with
    | toServer k now keep atOnce =>
      simp only [Net.step]
      split
      · rename_i u hu
        exact (h.of_subset (remove _ _ _) (List.Subset.refl _) (List.Subset.refl _)).serve
          (h.up u (List.mem_of_getElem? hu))
      · exact h
    | loseUp k =>
      exact h.of_subset (List.eraseIdx_sublist _ _).subset (List.Subset.refl _) (List.Subset.refl _)
    | toClient k now keep =>
      simp only [Net.step]
      split
      · rename_i d hd
        split
        · exact (h.of_subset (List.Subset.refl _) (remove _ _ _) (List.Subset.refl _)).deliver
            (h.down d (List.mem_of_getElem? hd))
        · exact h
      · exact h
    | loseDown k =>
      exact h.of_subset (List.Subset.refl _) (List.eraseIdx_sublist _ _).subset (List.Subset.refl _)
    | fire k =>
      simp only [Net.step]
      split
      · rename_i t ht
        exact h.fire ht
      · exact h
    | tick now => exact h.tick now
    | _ => cases hcaller

/-- Every state of a run from the start satisfies the invariant. -/
theorem Inv.run (accepts : Int → Bool) (id : Nat) (players : List String) (as : List Action)
    (hQ : Machine.Along (Net.step accepts) (CallHas Q) (Net.start id players name) as) :
    Inv name Q (Machine.run (Net.step accepts) (Net.start id players name) as) :=
  Machine.run_invariant (fun _ _ h hQ => h.step hQ) (Inv.start id players) hQ

end Net

end MultiSlider
