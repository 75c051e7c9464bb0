import Mathlib.Data.List.Perm.Basic
import MultiSlider.Session.AtMostOnce

/-! Delivery of reliable calls. Each accepted request owes one `onSync` to each client in the session: it is
    a timer, a `Sync` on its way to the client, or done. What is owed stays owed as long as each `Sync`
    passes the filter of its client, which serves the `Ack`s and the `Sync`s of all players at once. -/

namespace MultiSlider

/-- The timer will send the `Sync` of `r`. -/
def Timer.carries (r : Request) (t : Timer) : Bool := t.origin = some r

/-- The datagram is the `Sync` of `r` on its way to `c`. -/
def Downlink.carries (c : Address) (r : Request) (d : Downlink) : Bool :=
  d.receiver = c && d.payload.isSync && d.origin = some r

/-- The call of `onSync` at `c` reports `r`. -/
def Delivery.carries (c : Address) (r : Request) (d : Delivery) : Bool := d.client = c && d.origin = some r

theorem Payload.seqIdx_of_isSync {payload : Payload} (h : payload.isSync = true) :
    ∃ seqIdx, payload.seqIdx = some seqIdx := by
  unfold Payload.isSync at h
  unfold Payload.seqIdx
  split at h
  · exact ⟨_, if_pos (of_decide_eq_true h)⟩
  · cases h

namespace Net

/-- All that answers reliable requests has been handled: no timer is left, and no `Ack` or numbered `Sync`
    is on its way to a client in the session. -/
def Settled (σ : Net) : Prop :=
  σ.timers = [] ∧ ∀ d ∈ σ.down, (σ.clients d.receiver).started = true → d.payload.seqIdx = none

/-- Each live client has called `onSync` once, with the right identifier, for each accepted request. -/
def Delivered (name : Address → String) (σ : Net) : Prop :=
  ∀ c, σ.actor.LiveAt (name c) c → (σ.clients c).started = true → ∀ r ∈ σ.accepted,
    (σ.synced.filter fun d => d.client = c ∧ d.origin = some r) = [⟨c, r.syncId, some r⟩]

/-- The condition on a step: a request that lies ahead of its player's last accepted one when it reaches the
    server is new, and the scheduler takes its delay; a numbered `Sync` that reaches a client lies ahead of
    the client's filter. -/
def Met (accepts : Int → Bool) (σ : Net) : Action → Prop
  | .toServer k _ _ _ =>
    ∀ u ∈ σ.up[k]?, ∀ r ∈ u.envelop.request, σ.actor.stopped = false →
      AheadIdx (lastCall σ.accepted r.player) r.call →
        r ∉ σ.accepted ∧ ∀ delay ∈ u.envelop.data.delay, accepts (toLong delay) = true
  | .toClient k _ _ =>
    ∀ d ∈ σ.down[k]?, (σ.clients d.receiver).started = true → d.payload.isSync = true →
      ∀ seqIdx ∈ d.payload.seqIdx, AheadIdx (σ.clients d.receiver).remoteSeqIdx seqIdx
  | _ => True

/-- A reliable call finds room in the output queue. -/
def HasRoom (σ : Net) : Action → Prop
  | .sync c _ _ _ => (σ.clients c).outputQueue.length < messsagesBufferSize
  | _ => True

instance (σ : Net) : Decidable (Settled σ) := by unfold Settled; infer_instance

instance (accepts : Int → Bool) (σ : Net) : (a : Action) → Decidable (Met accepts σ a)
  | .toServer k _ _ _ => inferInstanceAs (Decidable (∀ u ∈ σ.up[k]?, _))
  | .toClient k _ _ => inferInstanceAs (Decidable (∀ d ∈ σ.down[k]?, _))
  | .startup .. | .startupTimeout .. | .sync .. | .syncSimple .. | .broadcast .. | .say .. | .keepAlive .. | .quit ..
  | .poll .. | .loseUp .. | .loseDown .. | .fire .. | .tick .. => inferInstanceAs (Decidable True)

instance (σ : Net) : (a : Action) → Decidable (HasRoom σ a)
  | .sync c _ _ _ => inferInstanceAs (Decidable ((σ.clients c).outputQueue.length < messsagesBufferSize))
  | .startup .. | .startupTimeout .. | .syncSimple .. | .broadcast .. | .say .. | .keepAlive .. | .quit .. | .poll ..
  | .toServer .. | .loseUp .. | .toClient .. | .loseDown .. | .fire .. | .tick .. => inferInstanceAs (Decidable True)

/-- What the request `r` has come to for the client at `c`. -/
def due (σ : Net) (c : Address) (r : Request) : Nat :=
  σ.timers.countP (·.carries r) + σ.down.countP (·.carries c r) + σ.synced.countP (·.carries c r)

/-- Each client that is or may get in the session is owed, or has got, what was accepted. -/
def Account (name : Address → String) (σ : Net) : Prop :=
  ∀ c, σ.actor.LiveAt (name c) c → ¬(σ.clients c).gone → ∀ r, σ.due c r = σ.accepted.count r

variable {name : Address ↪ String} {Q : Request → Prop} {σ : Net} {accepts : Int → Bool}

/-! ### Counting -/

theorem countP_eraseIdx {α : Type} {p : α → Bool} {l : List α} {k : Nat} {x : α} (h : l[k]? = some x) :
    (l.eraseIdx k).countP p + (if p x then 1 else 0) = l.countP p := by
  obtain ⟨hk, rfl⟩ := List.getElem?_eq_some_iff.mp h
  rw [← List.Perm.countP_eq p (List.getElem_cons_eraseIdx_perm hk), List.countP_cons]

theorem due_turn {c c' : Address} {t : Turn} {origin : Option Request} {r : Request} :
    (σ.turn c t origin).due c' r =
      σ.due c' r + if c = c' ∧ origin = some r then (Session.syncs t.callbacks).length else 0 := by
  have hnew : (((Session.syncs t.callbacks).map fun syncId => (⟨c, syncId, origin⟩ : Delivery)).countP
      (·.carries c' r)) = if c = c' ∧ origin = some r then (Session.syncs t.callbacks).length else 0 := by
    rw [List.countP_map]
    split
    · rename_i hboth
      rw [List.countP_eq_length]
      intro syncId _
      simp [Delivery.carries, hboth]
    · rename_i hnot
      rw [List.countP_eq_zero]
      intro syncId _
      simpa [Delivery.carries] using hnot
  simp only [due, turn, List.countP_append, hnew]
  omega

/-- Datagrams that no request led to carry none. -/
theorem countP_of_origin {down : List Downlink} (h : ∀ d ∈ down, d.origin = none) (c : Address) (r : Request) :
    down.countP (·.carries c r) = 0 := by
  rw [List.countP_eq_zero]
  intro d hd
  simp [Downlink.carries, h d hd]

theorem countP_timers_of_origin {timers : List Timer} (h : ∀ t ∈ timers, t.origin = none) (r : Request) :
    timers.countP (·.carries r) = 0 := by
  rw [List.countP_eq_zero]
  intro t ht
  simp [Timer.carries, h t ht]

/-- The entry of the client's own name is the only one at its address. -/
theorem countP_livePlayers {actor : SessionActor} {c : Address} (hlive : actor.LiveAt (name c) c)
    (hnames : ∀ n c', actor.LiveAt n c' → n = name c') :
    actor.livePlayers.countP (fun player => decide (player.address = c)) = 1 := by
  obtain ⟨player, hlookup, haddress⟩ := hlive
  rw [AList.lookup_eq_some_iff] at hlookup
  have hcount : actor.livePlayers.countP (fun player => decide (player.address = c)) =
      actor.stats.entries.count ⟨name c, some player⟩ := by
    rw [SessionActor.livePlayers, AList.values, List.reduceOption, List.countP_filterMap, List.countP_map, List.count]
    refine List.countP_congr fun e he => ?_
    obtain ⟨n, entry⟩ := e
    cases entry with
    | none => simp
    | some player' =>
      simp only [Function.comp_apply, id_eq, Option.map_some, Option.getD_some, decide_eq_true_eq, beq_iff_eq,
        Sigma.mk.injEq]
      constructor
      · intro haddress'
        have hn := hnames n c ⟨player', AList.lookup_eq_some_iff.mpr he, haddress'⟩
        subst hn
        have hsame := (AList.lookup_eq_some_iff.mpr he).symm.trans (AList.lookup_eq_some_iff.mpr hlookup)
        exact ⟨rfl, heq_of_eq (Option.some.inj hsame)⟩
      · rintro ⟨rfl, heq⟩
        cases Option.some.inj (eq_of_heq heq)
        exact haddress
  rw [hcount, List.count_eq_one_of_mem (List.NodupKeys.nodup actor.stats.nodupKeys) hlookup]

/-- A timer sends one `Sync` to each live player. -/
theorem countP_fireSync {actor : SessionActor} {c : Address} (hlive : actor.LiveAt (name c) c)
    (hnames : ∀ n c', actor.LiveAt n c' → n = name c') {syncId msgIdx : Int} (hidx : msgIdx < 1024)
    (origin : Option Request) (r : Request) :
    (posted origin (actor.fireSync syncId msgIdx)).countP (·.carries c r) = if origin = some r then 1 else 0 := by
  have hposted : posted origin (actor.fireSync syncId msgIdx) =
      actor.livePlayers.map fun player => ⟨player.address, .json (.sync syncId msgIdx), origin⟩ := by
    simp [posted, SessionActor.fireSync, List.filterMap_map]
  rw [hposted, List.countP_map]
  split
  · rename_i horigin
    rw [← countP_livePlayers hlive hnames]
    refine List.countP_congr fun player _ => ?_
    simp [Downlink.carries, Payload.isSync, horigin, hidx]
  · rename_i horigin
    rw [List.countP_eq_zero]
    intro player _
    simp [Downlink.carries, horigin]

/-- Before anything is accepted nothing is owed. -/
theorem due_of_nothing_accepted (h : Inv name Q σ) (hnone : σ.accepted = []) (c : Address) (r : Request) :
    σ.due c r = 0 := by
  have hno : ∀ origin, (∃ r' ∈ σ.accepted, origin = some r') → origin ≠ some r := by
    rintro origin ⟨r', hr', -⟩
    rw [hnone] at hr'
    cases hr'
  have htimers : σ.timers.countP (·.carries r) = 0 := by
    rw [List.countP_eq_zero]
    intro t ht
    have horigin : t.origin ≠ some r := by
      rcases h.timers t ht with ⟨-, heq⟩ | ⟨-, r', hr', heq, -⟩
      · simp [heq]
      · exact hno _ ⟨r', hr', heq⟩
    simp [Timer.carries, horigin]
  have hdown : σ.down.countP (·.carries c r) = 0 := by
    rw [List.countP_eq_zero]
    intro d hd
    simp only [Downlink.carries, Bool.and_eq_true, decide_eq_true_eq, not_and]
    rintro ⟨-, hsync⟩ horigin
    obtain ⟨seqIdx, hseq⟩ := Payload.seqIdx_of_isSync hsync
    obtain ⟨-, r', hr', heq⟩ := seqIdx_of_downOk (h.down d hd) hseq
    exact hno _ ⟨r', hr', heq⟩ horigin
  have hsynced : σ.synced.countP (·.carries c r) = 0 := by
    rw [List.countP_eq_zero]
    intro d hd
    simp only [Delivery.carries, Bool.and_eq_true, decide_eq_true_eq, not_and]
    rintro - horigin
    exact hno _ ⟨r, (h.synced d hd r horigin).1, horigin⟩ horigin
  simp only [due, htimers, hdown, hsynced]

/-! ### The steps -/

theorem Account.turn (h : Account name σ) {c : Address} {t : Turn} {origin : Option Request}
    (hgone : (σ.clients c).gone → t.session.gone)
    (hnone : origin = none ∨ Session.syncs t.callbacks = []) : Account name (σ.turn c t origin) := by
  intro c' hlive hin r
  have hin' : ¬(σ.clients c').gone := by
    intro hgone'
    refine hin ?_
    by_cases hc : c' = c
    · subst hc
      simpa [Net.turn] using hgone hgone'
    · simpa [Net.turn, hc] using hgone'
  have hzero : (if c = c' ∧ origin = some r then (Session.syncs t.callbacks).length else 0) = 0 := by
    rcases hnone with horigin | hsyncs
    · simp [horigin]
    · simp [hsyncs]
  rw [due_turn, hzero]
  exact h c' hlive hin' r

/-- A step of the actor keeps the account if each newly accepted request is owed to all who are live. -/
theorem Account.act (h : Account name σ) {actor : SessionActor} {accepted : List Request} (down : List Downlink)
    (timers : List Timer) (hlive : ∀ c, actor.LiveAt (name c) c → σ.actor.LiveAt (name c) c)
    (hdue : ∀ c, actor.LiveAt (name c) c → ∀ r,
      σ.accepted.count r + (timers.countP (·.carries r) + down.countP (·.carries c r)) = accepted.count r) :
    Account name { σ with actor, accepted, down := σ.down ++ down, timers := σ.timers ++ timers } := by
  intro c hc hin r
  have hold := h c (hlive c hc) hin r
  rw [← hdue c hc r, ← hold]
  simp only [due, List.countP_append]
  omega

theorem due_take {k : Nat} {d : Downlink} (hd : σ.down[k]? = some d) (c : Address) (r : Request) :
    due { σ with down := σ.down.eraseIdx k } c r + (if d.carries c r then 1 else 0) = σ.due c r := by
  have := countP_eraseIdx (p := (·.carries c r)) hd
  simp only [due]
  omega

/-- A datagram that settles nothing may be taken. -/
theorem Account.take (h : Account name σ) {k : Nat} {d : Downlink} (hd : σ.down[k]? = some d)
    (hno : d.payload.isSync = false) : Account name { σ with down := σ.down.eraseIdx k } := by
  intro c hlive hin r
  have hcarries : d.carries c r = false := by simp [Downlink.carries, hno]
  have := due_take hd c r
  rw [hcarries, if_neg Bool.false_ne_true] at this
  exact this.trans (h c hlive hin r)

/-- A client that waits in `startup` gives up on a `Sync`. -/
theorem gone_of_startupReceive {s : Session} {now : Nat} {received : Payload} (hstarted : s.started = false)
    (hawaits : s.awaits = true) (hsync : received.isSync = true) : (s.startupReceive now received).session.gone := by
  have finish : (s.finishStartup now received).session.gone := by
    unfold Session.finishStartup
    split
    · cases hsync
    · exact ⟨hstarted, rfl⟩
  unfold Session.startupReceive
  cases hphase : s.startupPhase with
  | awaitingResponse time timeout =>
    dsimp only
    rw [if_neg (by rintro rfl; cases hsync)]
    exact finish
  | awaitingStart time timeout => exact finish
  | notCalled => simp [Session.awaits, hphase] at hawaits
  | finished => simp [Session.awaits, hphase] at hawaits

/-- A client takes a `Sync` that lies ahead of its filter, and calls back. -/
theorem Account.deliver_sync (hinv : Inv name (fun r => r.syncId < 2 ^ 31) σ) (h : Account name σ) {k : Nat}
    {d : Downlink} (hd : σ.down[k]? = some d) (hstarted : (σ.clients d.receiver).started = true)
    (hsync : d.payload.isSync = true)
    (hahead : ∀ seqIdx ∈ d.payload.seqIdx, AheadIdx (σ.clients d.receiver).remoteSeqIdx seqIdx) (now : Nat) :
    Account name ({ σ with down := σ.down.eraseIdx k }.turn d.receiver
      ((σ.clients d.receiver).receiveDatagram now d.payload) d.origin) := by
  have hok := hinv.down d (List.mem_of_getElem? hd)
  -- The client calls `onSync` once: the number is ahead, and the `syncId` fits into 32 bits.
  have hsyncs : (Session.syncs ((σ.clients d.receiver).receiveDatagram now d.payload).callbacks).length = 1 := by
    obtain ⟨seqIdx, hseq⟩ := Payload.seqIdx_of_isSync hsync
    obtain ⟨hidx, -⟩ := seqIdx_of_downOk hok hseq
    have hahead := hahead seqIdx hseq
    unfold Payload.isSync at hsync
    split at hsync
    · rename_i syncId msgIdx hpayload
      have hseq' : msgIdx = seqIdx := by
        unfold Payload.seqIdx at hseq
        simpa [hpayload, of_decide_eq_true hsync] using hseq
      subst hseq'
      unfold DownOk at hok
      simp only [hpayload] at hok
      rcases hok with ⟨rfl, -⟩ | ⟨-, r, hr, -, hid⟩
      · cases hsync
      · have hrange := (hinv.actor.accepted r hr).1
        have hid' : syncId = (r.syncId : Int) := hid.trans (toInt_of_range (by omega) (by omega))
        obtain ⟨n, rfl⟩ := Int.eq_ofNat_of_zero_le hidx.1
        rw [hpayload, hid', Session.syncs_receiveDatagram_sync]
        · rfl
        · have := (hinv.clients d.receiver).remoteSeqIdx
          exact ⟨by omega, by omega⟩
        · have := hidx.2
          omega
        · omega
        · exact hahead
    · cases hsync
  intro c hlive hin r
  -- One `Sync` less is on its way, and one call more has been made.
  rw [due_turn, hsyncs]
  have htake := due_take hd c r
  have hin' : ¬(σ.clients c).gone := by
    rintro ⟨hstopped, hphase⟩
    by_cases hc : c = d.receiver
    · subst hc
      cases hstarted.symm.trans hstopped
    · exact hin (by simpa [Net.turn, hc] using ⟨hstopped, hphase⟩)
  have hcarries : d.carries c r = true ↔ d.receiver = c ∧ d.origin = some r := by
    simp [Downlink.carries, hsync]
  simp only [hcarries] at htake
  exact htake.trans (h c hlive hin' r)

theorem Account.deliver (hinv : Inv name (fun r => r.syncId < 2 ^ 31) σ) (h : Account name σ) {k : Nat}
    {d : Downlink} (hd : σ.down[k]? = some d) (hreads : σ.reads d.receiver = true)
    (hahead : (σ.clients d.receiver).started = true → d.payload.isSync = true →
      ∀ seqIdx ∈ d.payload.seqIdx, AheadIdx (σ.clients d.receiver).remoteSeqIdx seqIdx) (now : Nat) :
    Account name ({ σ with down := σ.down.eraseIdx k }.deliver now d) := by
  unfold Net.deliver
  dsimp only
  cases hstarted : (σ.clients d.receiver).started with
  | true =>
    rw [if_pos rfl]
    cases hsync : d.payload.isSync with
    | true => exact h.deliver_sync hinv hd hstarted hsync (hahead hstarted hsync) now
    | false =>
      refine (h.take hd hsync).turn (fun hgone => ?_) ?_
      · cases hstarted.symm.trans hgone.1
      -- Only a `Sync` without a number can call `onSync` here, and that is no answer to a numbered request.
      · by_cases hsimple : ∃ syncId msgIdx, d.payload = .json (.sync syncId msgIdx)
        · obtain ⟨syncId, msgIdx, hpayload⟩ := hsimple
          have hok := hinv.down d (List.mem_of_getElem? hd)
          unfold DownOk at hok
          simp only [hpayload] at hok
          rcases hok with ⟨-, horigin⟩ | ⟨hidx, -⟩
          · exact Or.inl horigin
          · have hno : ¬msgIdx < 1024 := by simpa [Payload.isSync, hpayload] using hsync
            exact absurd hidx.2 hno
        · exact Or.inr (Session.syncs_receiveDatagram fun syncId msgIdx heq => hsimple ⟨syncId, msgIdx, heq⟩)
  | false =>
    rw [if_neg Bool.false_ne_true]
    have hquiet : (σ.clients d.receiver).Quiet _ ((σ.clients d.receiver).startupReceive now d.payload) :=
      Session.Quiet.startupReceive
    cases hsync : d.payload.isSync with
    | true =>
      -- A `Sync` that comes before `Start` ends the `startup`, so the client is gone.
      have hawaits : (σ.clients d.receiver).awaits = true := by simpa [reads, hstarted] using hreads
      intro c hlive hin r
      have hne : c ≠ d.receiver := by
        rintro rfl
        exact hin (by simpa [Net.turn] using gone_of_startupReceive hstarted hawaits hsync)
      have hcarries : d.carries c r = false := by simp [Downlink.carries, Ne.symm hne]
      have htake := due_take hd c r
      rw [hcarries, if_neg Bool.false_ne_true] at htake
      rw [due_turn, Session.syncs_startupReceive]
      simp only [List.length_nil, ite_self]
      exact htake.trans (h c hlive (by simpa [Net.turn, hne] using hin) r)
    | false => exact (h.take hd hsync).turn hquiet.gone (Or.inr Session.syncs_startupReceive)

theorem origin_of_posted {origin : Option Request} {effects : List Effect} {d : Downlink}
    (hd : d ∈ posted origin effects) : d.origin = origin := by
  obtain ⟨payload, address, -, rfl⟩ := mem_posted hd
  rfl

theorem origin_of_outgoing {actor : SessionActor} {atOnce : Bool} {origin : Option Request} {effects : List Effect} :
    (∀ d ∈ effects.flatMap (outgoing actor atOnce origin), d.origin = origin) ∧
      ∀ t ∈ effects.flatMap (scheduled atOnce origin), t.origin = origin := by
  constructor
  · intro d hd
    obtain ⟨e, -, hd⟩ := List.mem_flatMap.mp hd
    unfold outgoing at hd
    split at hd
    · split at hd
      · exact origin_of_posted hd
      · cases hd
    · exact origin_of_posted hd
  · intro t ht
    obtain ⟨e, -, ht⟩ := List.mem_flatMap.mp ht
    unfold scheduled at ht
    split at ht
    · split at ht
      · cases ht
      · rw [List.mem_singleton.mp ht]
    · cases ht

/-- An accepted request is owed to everybody live, as a timer or as datagrams under way. -/
theorem countP_taken {actor actor' : SessionActor} {c c' : Address} {delay : Int} {r : Request}
    {info : MessagesSequenceInfo} {effects : List Effect} (atOnce : Bool)
    (htaken : actor.Taken accepts c (name c) delay r.syncId (r.call % 1024 : Nat) info actor' effects)
    (haccepts : accepts (toLong delay) = true) (hidx : IsIdx info.localSeqIdx)
    (hlive : actor'.LiveAt (name c') c') (hnames : ∀ n c', actor'.LiveAt n c' → n = name c') (r' : Request) :
    (effects.flatMap (scheduled atOnce (some r))).countP (·.carries r') +
      (effects.flatMap (outgoing actor' atOnce (some r))).countP (·.carries c' r') =
      if some r = some r' then 1 else 0 := by
  have hack (payload : Payload) (hno : payload.isSync = false) :
      (posted (some r) [.send payload c]).countP (·.carries c' r') = 0 := by
    rw [List.countP_eq_zero]
    intro d hd
    obtain ⟨payload', address, he, rfl⟩ := mem_posted hd
    cases List.mem_singleton.mp he
    simp [Downlink.carries, hno]
  rw [htaken.effects, if_pos haccepts]
  simp only [List.flatMap_cons, List.flatMap_nil, List.append_nil, List.countP_append, outgoing, scheduled]
  rw [hack _ rfl]
  cases atOnce with
  | true => simpa using countP_fireSync hlive hnames hidx.2 (some r) r'
  | false => simp [List.countP_singleton, Timer.carries]

theorem Account.serve (hinv : Inv name Q σ) (h : Account name σ) {now : Int} {atOnce : Bool} {u : Uplink}
    (hu : UpOk name Q (fun c => (σ.clients c).calls) u)
    (hnew : ∀ r ∈ u.envelop.request, σ.actor.stopped = false → AheadIdx (lastCall σ.accepted r.player) r.call →
      r ∉ σ.accepted ∧ ∀ delay ∈ u.envelop.data.delay, accepts (toLong delay) = true) :
    Account name (σ.serve accepts now atOnce u) := by
  rcases hu with hplain | ⟨r, hreq⟩
  · have hno : σ.actor.takes u.envelop.data = false := not_takes_of_plain hplain
    simp only [Net.serve, hno, hplain.1, Bool.false_eq_true, if_false]
    have hzero (c : Address) (r : Request) (actor : SessionActor) (effects : List Effect) :
        (effects.flatMap (scheduled atOnce none)).countP (·.carries r) +
          (effects.flatMap (outgoing actor atOnce none)).countP (·.carries c r) = 0 := by
      rw [countP_timers_of_origin (@origin_of_outgoing actor _ _ _).2, countP_of_origin origin_of_outgoing.1]
    rcases SessionActor.receive_untaken accepts now u.sender hno with hquiet | ⟨player, -, hjoined⟩
    · refine h.act _ _ (fun c hlive => hquiet.live _ _ hlive) fun c _ r => ?_
      rw [hzero, Nat.add_zero]
    · -- Only a waiting session lets players join, and it has accepted nothing.
      have hnone : σ.accepted = [] := hinv.actor.idle (by simp [hjoined.waiting])
      intro c _ _ r
      have hdue := due_of_nothing_accepted hinv hnone c r
      have hzero := hzero c r (σ.actor.receive accepts now u.sender u.envelop.data).1
        (σ.actor.receive accepts now u.sender u.envelop.data).2
      simp only [due, List.countP_append, hnone, List.count_nil] at hdue ⊢
      omega
  -- A request that the filter refuses has no effect; one that it takes schedules a `Sync` for each live player.
  · cases hyes : σ.actor.takes u.envelop.data with
    | false =>
      have hrefused := hreq.receive_refused accepts now u.sender hyes
      simpa [Net.serve, hrefused, hyes] using h
    | true =>
      obtain ⟨hstopped, -, -, hahead⟩ := (hreq.takes_iff hinv.actor).mp hyes
      obtain ⟨-, haccepts⟩ := hnew r hreq.request hstopped hahead
      obtain ⟨delay, info, hdata, htaken⟩ := hreq.receive_taken accepts now u.sender hyes
      simp only [Net.serve, hyes, if_true, hreq.request, Option.toList_some]
      refine h.act _ _ (fun c => htaken.live) fun c hc r' => ?_
      rw [countP_taken atOnce htaken (haccepts _ (by rw [hdata]; rfl)) (hinv.actor.localSeqIdx _ _ htaken.found) hc
        (fun n c' hn => (hinv.actor.live n c' (htaken.live hn)).1), List.count_append, List.count_singleton]
      simp

theorem Account.fire (hinv : Inv name Q σ) (h : Account name σ) {k : Nat} {t : Timer} (ht : σ.timers[k]? = some t) :
    Account name { σ with
      timers := σ.timers.eraseIdx k
      down := σ.down ++ posted t.origin (σ.actor.fireSync t.syncId t.msgIdx) } := by
  intro c hlive hin r
  have htake := countP_eraseIdx (p := (·.carries r)) ht
  have hsent : (posted t.origin (σ.actor.fireSync t.syncId t.msgIdx)).countP (·.carries c r) =
      if t.carries r then 1 else 0 := by
    rcases hinv.timers t (List.mem_of_getElem? ht) with ⟨-, horigin⟩ | ⟨hidx, -⟩
    · rw [horigin, countP_of_origin fun d hd => origin_of_posted hd]
      simp [Timer.carries, horigin]
    · rw [countP_fireSync hlive (fun n c' hn => (hinv.actor.live n c' hn).1) hidx.2]
      simp [Timer.carries]
  rw [← h c hlive hin r]
  simp only [due, List.countP_append, hsent]
  omega

theorem Account.tick (h : Account name σ) (now : Int) :
    Account name { σ with
      actor := (σ.actor.keepAlive now).1, down := σ.down ++ posted none (σ.actor.keepAlive now).2 } := by
  have hquiet : σ.actor.Quiet (σ.actor.keepAlive now).1 (σ.actor.keepAlive now).2 := SessionActor.Quiet.keepAlive
  have hdue (c : Address) (r : Request) : σ.accepted.count r + (([] : List Timer).countP (·.carries r) +
      (posted none (σ.actor.keepAlive now).2).countP (·.carries c r)) = σ.accepted.count r := by
    rw [countP_of_origin fun d hd => origin_of_posted hd]
    rfl
  simpa using h.act _ [] (fun c => hquiet.live _ c) fun c _ => hdue c

theorem Account.step (hinv : Inv name (fun r => r.syncId < 2 ^ 31) σ) (h : Account name σ) {a : Action}
    (hnet : NoLoss a ∧ NoDup a) (hmet : Met accepts σ a) : Account name (σ.step accepts a) := by
  cases hcaller : caller a with
  | some c =>
    rcases step_of_caller accepts hcaller with heq | ⟨t, heq, hquiet | ⟨now, syncId, delay, rfl, rfl⟩⟩
    · exact heq ▸ h
    · exact heq ▸ h.turn hquiet.gone (Or.inl rfl)
    · rw [heq]
      refine h.turn (fun hgone => ?_) (Or.inl rfl)
      rcases Session.sync_cases (σ.clients c) now syncId delay with hquiet | ⟨hstarted, -⟩
      · exact hquiet.gone hgone
      · cases hstarted.symm.trans hgone.1
  | none =>
    cases a with
    | toServer k now keep atOnce =>
      simp only [Net.step]
      split
      · rename_i u hu
        -- The invariant holds with the datagram taken off its way or left on it.
        have hup : Inv name (fun r => r.syncId < 2 ^ 31) { σ with up := if keep then σ.up else σ.up.eraseIdx k } := by
          refine hinv.of_subset ?_ (List.Subset.refl _) (List.Subset.refl _)
          split
          · exact List.Subset.refl _
          · exact (List.eraseIdx_sublist _ _).subset
        exact Account.serve hup h (hinv.up u (List.mem_of_getElem? hu)) (hmet u hu)
      · exact h
    | toClient k now keep =>
      -- Without duplicates the datagram leaves the network.
      have hkeep : keep = false := hnet.2
      subst hkeep
      simp only [Net.step]
      split
      · rename_i d hd
        split
        · rename_i hreads
          exact h.deliver hinv hd hreads (hmet d hd) now
        · exact h
      · exact h
    | fire k =>
      simp only [Net.step]
      split
      · rename_i t ht
        exact h.fire hinv ht
      · exact h
    | tick now => exact h.tick now
    | loseUp k => exact hnet.1.elim
    | loseDown k => exact hnet.1.elim
    | _ => cases hcaller

/-! ### Whole runs -/

theorem notAgain_of_met {a : Action} (hmet : Met accepts σ a) : NotAgain σ a := by
  cases a with
  | toServer k now keep atOnce =>
    exact fun u hu r hr hstopped hold hahead => (hmet u hu r hr hstopped hahead).1 hold
  | _ => trivial

/-- Where nothing is left to come, what was owed has been delivered. -/
theorem delivered_of_account (hinv : Inv name (fun r => r.syncId < 2 ^ 31) σ) (honce : Once σ)
    (h : Account name σ) (hsettled : Settled σ) : Delivered name σ := by
  intro c hlive hstarted r hr
  have hdown : σ.down.countP (·.carries c r) = 0 := by
    rw [List.countP_eq_zero]
    intro d hd
    simp only [Downlink.carries, Bool.and_eq_true, decide_eq_true_eq, not_and]
    rintro ⟨rfl, hsync⟩
    obtain ⟨seqIdx, hseq⟩ := Payload.seqIdx_of_isSync hsync
    cases (hsettled.2 d hd hstarted).symm.trans hseq
  have hdue := h c hlive (fun hgone => by cases hstarted.symm.trans hgone.1) r
  rw [due, hsettled.1, hdown, List.count_eq_one_of_mem honce hr] at hdue
  have hlength : (σ.synced.filter fun d => d.client = c ∧ d.origin = some r).length = 1 := by
    rw [← List.countP_eq_length_filter]
    simpa [Delivery.carries] using hdue
  obtain ⟨d, hone⟩ := List.length_eq_one_iff.mp hlength
  obtain ⟨hd, hmatch⟩ := List.mem_filter.mp (hone ▸ List.mem_singleton_self d)
  obtain ⟨hclient, horigin⟩ := of_decide_eq_true hmatch
  obtain ⟨hacc, hid⟩ := hinv.synced d hd r horigin
  have hrange := (hinv.actor.accepted r hacc).1
  rw [toInt_of_range (by omega) (by omega), narrowCast_natCast (by omega)] at hid
  obtain ⟨client, syncId, origin⟩ := d
  cases hclient
  cases horigin
  cases hid
  exact hone

/-- Over a network that loses and duplicates nothing: in every run whose steps meet the condition, whenever
    all answers have been handled, each live client has called `onSync` exactly once, with the right
    identifier, for each request that the server accepted. -/
theorem delivered_of_met (accepts : Int → Bool) (id : Nat) (players : List String) (name : Address ↪ String)
    (as : List Action)
    (hids : Machine.Along (step accepts) (CallHas fun r => r.syncId < 2 ^ 31) (start id players name) as)
    (hnet : Machine.Along (step accepts) (fun _ a => NoLoss a ∧ NoDup a) (start id players name) as)
    (hmet : Machine.Along (step accepts) (Met accepts) (start id players name) as) :
    Machine.Always (step accepts) (fun σ => Settled σ → Delivered name σ) (start id players name) as := by
  have halways : Machine.Always (step accepts)
      (fun σ => Inv name (fun r => r.syncId < 2 ^ 31) σ ∧ Once σ ∧ Account name σ) (start id players name) as := by
    refine Machine.always_of_along ?_ ⟨Inv.start id players, List.nodup_nil, ?_⟩ ((hids.and hnet).and hmet)
    · rintro σ a ⟨hinv, honce, h⟩ ⟨⟨hid, hnet⟩, hmet⟩
      exact ⟨hinv.step hid, (once_step_iff hinv honce).mpr (notAgain_of_met hmet), h.step hinv hnet hmet⟩
    · intro c _ _ r
      rfl
  exact halways.imp fun σ ⟨hinv, honce, h⟩ hsettled => delivered_of_account hinv honce h hsettled

/-- The `Sync` of a call without delay comes before its `Ack`. -/
def promptCall : List Action :=
  duel ++ [.sync 0 10 7 0, .toServer 0 0 false true, .toClient 0 20 false, .toClient 0 20 false, .toClient 0 20 false]

/-- The `Ack` of a call comes before its `Sync`. -/
def call : List Action :=
  duel ++ [.sync 0 10 7 0, .toServer 0 0 false false, .toClient 0 20 false, .fire 0, .toClient 0 20 false,
    .toClient 0 20 false]

theorem delivered_of_met_prompt : Settled (Machine.run (step anyDelay) (start 0 ["a", "aa"] letters) promptCall) ∧
    Delivered letters (Machine.run (step anyDelay) (start 0 ["a", "aa"] letters) promptCall) := by
  have hsettled : Settled (Machine.run (step anyDelay) (start 0 ["a", "aa"] letters) promptCall) := by decide +kernel
  exact ⟨hsettled, Machine.always_iff_prefix.mp (delivered_of_met anyDelay 0 ["a", "aa"] letters promptCall
    (by decide +kernel) (by decide +kernel) (by decide +kernel)) promptCall (List.prefix_refl _) hsettled⟩

/-- The requester's filter, moved by the `Ack` of its first call, drops the first `Sync`, which has the same
    number. -/
theorem requester_misses_sync :
    ¬∀ (accepts : Int → Bool) (id : Nat) (players : List String) (name : Address ↪ String) (as : List Action),
      2 ≤ players.length →
      Machine.Along (step accepts) (fun σ a => CallHas (fun r => r.syncId < 2 ^ 31) σ a ∧ HasRoom σ a)
        (start id players name) as →
      Machine.Along (step accepts) (fun σ a => InOrder σ a ∧ NoLoss a ∧ NoDup a) (start id players name) as →
        Machine.Always (step accepts) (fun σ => Settled σ → Delivered name σ) (start id players name) as := by
  intro h
  have hend := Machine.always_iff_prefix.mp (h anyDelay 0 ["a", "aa"] letters call (by decide) (by decide +kernel)
    (by decide +kernel)) call (List.prefix_refl _) (by decide +kernel) 0 (by decide +kernel) (by decide +kernel)
    ⟨"a", 1, 7⟩ (by decide +kernel)
  exact absurd hend (by decide +kernel)

end Net

end MultiSlider
