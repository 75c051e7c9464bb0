import Mathlib.Data.List.Perm.Basic
import MultiSlider.Lib.Slots
import MultiSlider.Session.Backend

/-! Which session has which id. A session closes itself once, when its last player departs, and until the backend
    has seen that its id is its own; so each `CloseSession` frees the session that sent it. -/

namespace MultiSlider

/-- The ids that the effects close. -/
def closed (effects : List Effect) : List Nat := effects.filterMap Effect.closes

theorem closed_eq_nil {effects : List Effect} (h : ∀ sessionId, Effect.closeSession sessionId ∉ effects) :
    closed effects = [] := by
  refine List.filterMap_eq_nil_iff.mpr fun e he => ?_
  cases e with
  | closeSession sessionId => exact absurd he (h sessionId)
  | _ => rfl

theorem closed_append (effects effects' : List Effect) :
    closed (effects ++ effects') = closed effects ++ closed effects' :=
  List.filterMap_append

namespace SessionActor

variable {accepts : Int → Bool} {a : SessionActor}

/-! ### When a session closes itself -/

/-- Only `Quit` of a running session closes. -/
theorem not_closes_handle {now : Int} {senderAddress : Address} {raw : Payload} {message : BackendMessage}
    (hquit : a.state = .running → ∀ playerName, message ≠ .quit playerName) (sessionId : Nat) :
    Effect.closeSession sessionId ∉ (a.handle accepts now senderAddress raw message).effects := by
  intro h
  cases handle_causes _ h with
  | close running => exact hquit running _ rfl

/-- What leaves the session as it is does not stop it. -/
theorem not_stops : ¬(a.stopped = false ∧ a.stopped = true) :=
  fun ⟨hno, hyes⟩ => Bool.false_ne_true (hno.symm.trans hyes)

/-- A departure closes the session if it stops it. -/
theorem quitImpl_closed (h : a.StoppedEmpty) (playerName : String) : closed (a.quitImpl playerName).2 =
    if a.stopped = false ∧ (a.quitImpl playerName).1.stopped = true then [a.id] else [] := by
  unfold quitImpl
  split
  · rename_i player hlive
    have hstopped := h.not_stopped hlive
    dsimp only
    split
    · simp [closed, Effect.closes, hstopped]
    · simp [closed, hstopped]
  · rw [if_neg not_stops]
    rfl

theorem Change.stopped {now : Int} {senderAddress : Address} {message : BackendMessage} {a' : SessionActor}
    (h : a.Change now senderAddress message a')
    (hquit : a.state = .running → ∀ playerName, message ≠ .quit playerName) :
    a'.stopped = a.stopped := by
  cases h with
  | departed running => exact absurd rfl (hquit running _)
  | _ => rfl

theorem receive_closed (h : a.StoppedEmpty) (now : Int) (senderAddress : Address) (raw : Payload) :
    closed (a.receive accepts now senderAddress raw).2 =
      if a.stopped = false ∧ (a.receive accepts now senderAddress raw).1.stopped = true then [a.id] else [] := by
  -- A message that closes nothing and stops nobody.
  have silent (hclosed : closed (a.receive accepts now senderAddress raw).2 = [])
      (hsame : (a.receive accepts now senderAddress raw).1.stopped = a.stopped) :
      closed (a.receive accepts now senderAddress raw).2 =
        if a.stopped = false ∧ (a.receive accepts now senderAddress raw).1.stopped = true then [a.id] else [] := by
    rw [hclosed, hsame, if_neg not_stops]
  by_cases hstopped : a.stopped = true
  · exact silent (by simp [receive, hstopped, closed]) (by simp [receive, hstopped])
  · have hlive := Bool.eq_false_iff.mpr hstopped
    cases raw with
    | text raw =>
      refine silent (closed_eq_nil fun sessionId => ?_) ?_
      · simp [receive, hstopped, raise]
      · simp [receive, hstopped, raise]
    | json message =>
      have heffects : closed (a.receive accepts now senderAddress (.json message)).2 =
          closed (a.handle accepts now senderAddress (.json message) message.extract).effects := by
        simp only [receive, hlive, Bool.false_eq_true, if_false]
        split
        · exact (closed_append _ _).trans (List.append_nil _)
        · rfl
      -- Only a `Quit` in a running session can close it.
      by_cases hquit : a.state = .running ∧ ∃ playerName, message.extract = .quit playerName
      · obtain ⟨hrunning, playerName, hquit⟩ := hquit
        rw [heffects, receive_actor hlive, hquit]
        simp only [handle, hrunning, handleRunning, quit, done, closed_append]
        rw [quitImpl_closed h, closed_eq_nil (fun sessionId => by simp), List.append_nil]
      · have hnot : a.state = .running → ∀ playerName, message.extract ≠ .quit playerName :=
          fun hrunning playerName heq => hquit ⟨hrunning, playerName, heq⟩
        refine silent ?_ ?_
        · rw [heffects]
          exact closed_eq_nil (not_closes_handle hnot)
        · rw [receive_actor hlive]
          exact (Change.handle accepts a now senderAddress (.json message) message.extract).stopped hnot

/-- One round for an entry that is in the map. -/
theorem checkPlayer_closed (h : a.StoppedEmpty) {now : Int} {name : String} {entry : Option PlayerStatistics}
    (hentry : a.stats.lookup name = some entry) : closed (checkPlayer now a name entry).2 =
      if a.stopped = false ∧ (checkPlayer now a name entry).1.stopped = true then [a.id] else [] := by
  unfold checkPlayer
  split
  · split
    · split
      · exact quitImpl_closed h name
      · exact (if_neg not_stops).symm
    · exact (if_neg not_stops).symm
  · exact (if_neg not_stops).symm

theorem checkPlayer_id {now : Int} {name : String} {entry : Option PlayerStatistics} :
    (checkPlayer now a name entry).1.id = a.id := by
  unfold checkPlayer
  split
  · split
    · split
      · exact quitImpl_id name
      · rfl
    · rfl
  · rfl

theorem checkPlayer_stopped {now : Int} {name : String} {entry : Option PlayerStatistics} (h : a.stopped = true) :
    (checkPlayer now a name entry).1.stopped = true := by
  unfold checkPlayer
  split
  · split
    · split
      · unfold quitImpl
        split
        · dsimp only
          split
          · rfl
          · exact h
        · exact h
      · exact h
    · exact h
  · exact h

/-- A round of the task closes the session if it stops it. -/
theorem checkConnection_closed (h : a.StoppedEmpty) (hstopped : a.stopped = false) (now : Int) :
    closed (a.checkConnection now).2 = if (a.checkConnection now).1.stopped = true then [a.id] else [] := by
  suffices hall : (a.checkConnection now).1.StoppedEmpty ∧ (a.checkConnection now).1.id = a.id ∧
      closed (a.checkConnection now).2 = if (a.checkConnection now).1.stopped = true then [a.id] else [] from hall.2.2
  refine checkConnection_induct (P := fun b effects => b.StoppedEmpty ∧ b.id = a.id ∧
    closed effects = if b.stopped = true then [a.id] else []) ⟨h, rfl, by simp [closed, hstopped]⟩ ?_
  rintro b effects name entry hentry ⟨hb, hid, hclosed⟩
  refine ⟨hb.checkPlayer hentry, checkPlayer_id.trans hid, ?_⟩
  rw [closed_append, hclosed, checkPlayer_closed hb hentry, hid]
  by_cases hstop : b.stopped = true
  · simp [hstop, checkPlayer_stopped hstop]
  · simp [Bool.eq_false_iff.mpr hstop]

theorem keepAlive_closed (h : a.StoppedEmpty) (now : Int) : closed (a.keepAlive now).2 =
    if a.stopped = false ∧ (a.keepAlive now).1.stopped = true then [a.id] else [] := by
  unfold keepAlive
  split
  · rename_i htask
    have hstopped : a.stopped = false := by
      refine Bool.eq_false_iff.mpr fun hstop => ?_
      have htask' := (h hstop).2
      rw [htask] at htask'
      cases htask'
    rw [closed_append, checkConnection_closed h hstopped, closed_eq_nil (fun sessionId => by simp), List.append_nil]
    simp [hstopped]
  · rw [if_neg not_stops]
    rfl

/-- An event closes the session if it stops it, and only then. -/
theorem react_closed (accepts : Int → Bool) (h : a.StoppedEmpty) (e : Event) : closed (a.react accepts e).2 =
    if a.stopped = false ∧ (a.step accepts e).stopped = true then [a.id] else [] := by
  cases e with
  | receive now senderAddress raw => exact receive_closed h now senderAddress raw
  | keepAlive now => exact keepAlive_closed h now

/-- A session that has stopped does nothing. -/
theorem react_of_stopped (h : a.StoppedEmpty) (hstopped : a.stopped = true) (e : Event) :
    a.react accepts e = (a, []) := by
  cases e with
  | receive now senderAddress raw => simp [react, receive, hstopped]
  | keepAlive now => simp [react, keepAlive, (h hstopped).2]

theorem step_stopped (h : a.StoppedEmpty) (hstopped : a.stopped = true) (e : Event) :
    (a.step accepts e).stopped = true := by
  unfold step
  rw [react_of_stopped h hstopped]
  exact hstopped

end SessionActor

namespace Sessions

/-- The backend's entry for an id is the session that has it. A session that has not stopped, or whose
    `CloseSession` is on its way, has its entry; every other has none. -/
structure Placed (σ : Sessions) : Prop where
  slots : Slots.Partition maxSessionsNumber σ.backend.freeSessions σ.backend.sessions
  stopped : ∀ i, (σ.instances i).actor.StoppedEmpty
  future : ∀ i, σ.created ≤ i → (σ.instances i).mailbox = []
  bound : ∀ i < σ.created, (σ.instances i).actor.id < maxSessionsNumber
  entry : ∀ id info, σ.backend.sessions id = some info →
    info.handler < σ.created ∧ (σ.instances info.handler).actor.id = id
  own : ∀ i < σ.created, (σ.instances i).actor.stopped = false →
    ∃ info, σ.backend.sessions (σ.instances i).actor.id = some info ∧ info.handler = i
  closing : ∀ c ∈ σ.closing, (σ.instances c.sender).actor.stopped = true ∧
    ∃ info, σ.backend.sessions c.sessionId = some info ∧ info.handler = c.sender
  once : (σ.closing.map (·.sender)).Nodup
  released : ∀ i < σ.created, (σ.instances i).actor.stopped = true → (∃ c ∈ σ.closing, c.sender = i) ∨
    ∀ info, σ.backend.sessions (σ.instances i).actor.id = some info → info.handler ≠ i

/-- The sessions whose `CloseSession` a step puts on its way. -/
def closes (accepts : Int → Bool) (σ : Sessions) (a : Action) : List SessionRef :=
  ((σ.step accepts a).closing.drop σ.closing.length).map (·.sender)

variable {accepts : Int → Bool} {σ : Sessions} {i : SessionRef}

theorem Placed.start (clock : Int) : (start clock).Placed where
  slots := by
    unfold Sessions.start Backend.create
    dsimp only
    exact Slots.Partition.init maxSessionsNumber
  stopped i hstop := Bool.noConfusion hstop
  future i _ := rfl
  bound i hi := absurd hi (Nat.not_lt_zero i)
  entry id info h := by cases h
  own i hi := absurd hi (Nat.not_lt_zero i)
  closing c hc := absurd hc List.not_mem_nil
  once := List.nodup_nil
  released i hi := absurd hi (Nat.not_lt_zero i)

theorem react_self (accepts : Int → Bool) (mailbox : List SignedEnvelop) (e : Event) :
    ((σ.react accepts i mailbox e).instances i).actor = (σ.instances i).actor.step accepts e := by
  simp only [react, Function.update_self]
  rfl

theorem react_other {j : SessionRef} (hj : j ≠ i) (accepts : Int → Bool) (mailbox : List SignedEnvelop) (e : Event) :
    (σ.react accepts i mailbox e).instances j = σ.instances j := by
  simp only [react, Function.update_of_ne hj]

theorem react_closing (h : σ.Placed) (accepts : Int → Bool) (mailbox : List SignedEnvelop) (e : Event) :
    (σ.react accepts i mailbox e).closing = σ.closing ++
      if (σ.instances i).actor.stopped = false ∧ ((σ.instances i).actor.step accepts e).stopped = true then
        [⟨(σ.instances i).actor.id, i⟩]
      else [] := by
  change σ.closing ++ (closed ((σ.instances i).actor.react accepts e).2).map _ = _
  rw [SessionActor.react_closed accepts (h.stopped i) e]
  split
  · rfl
  · rfl

/-- A property of each actor: of the one that handles an event, and of the others as they were. -/
theorem forall_react {P : SessionRef → SessionActor → Prop} {mailbox : List SignedEnvelop} {e : Event}
    (hself : P i ((σ.instances i).actor.step accepts e)) (hother : ∀ j ≠ i, P j (σ.instances j).actor)
    (j : SessionRef) :
    P j ((σ.react accepts i mailbox e).instances j).actor := by
  by_cases hj : j = i
  · subst hj
    rw [react_self]
    exact hself
  · rw [react_other hj]
    exact hother j hj

theorem Placed.react (h : σ.Placed) (accepts : Int → Bool) (hi : i < σ.created) (mailbox : List SignedEnvelop)
    (e : Event) : (σ.react accepts i mailbox e).Placed where
  slots := h.slots
  stopped := forall_react ((h.stopped i).step accepts e) fun j _ => h.stopped j
  future j hj := by
    rw [react_other (Nat.ne_of_gt (lt_of_lt_of_le hi hj))]
    exact h.future j hj
  bound j hj := by
    refine forall_react (P := fun j b => j < σ.created → b.id < maxSessionsNumber) ?_ (fun j _ => h.bound j) j hj
    rw [SessionActor.step_id]
    exact h.bound i
  entry id info hinfo := by
    obtain ⟨hcreated, hid⟩ := h.entry id info hinfo
    refine ⟨hcreated, ?_⟩
    refine forall_react (P := fun j b => info.handler = j → b.id = id) ?_ (fun j _ heq => heq ▸ hid) info.handler rfl
    rintro rfl
    rw [SessionActor.step_id]
    exact hid
  own j hj := by
    refine forall_react (P := fun j b => j < σ.created → b.stopped = false →
      ∃ info, σ.backend.sessions b.id = some info ∧ info.handler = j) ?_ (fun j _ => h.own j) j hj
    intro _ hlive
    rw [SessionActor.step_id]
    -- An actor that lives after the step lived before it.
    refine h.own i hi (Bool.eq_false_iff.mpr fun hstopped => ?_)
    exact absurd (hlive.symm.trans (SessionActor.step_stopped (h.stopped i) hstopped e)) (by decide)
  closing c hc := by
    rw [react_closing h] at hc
    rcases List.mem_append.mp hc with hc | hc
    · obtain ⟨hstopped, hentry⟩ := h.closing c hc
      refine ⟨?_, hentry⟩
      refine forall_react (P := fun j b => c.sender = j → b.stopped = true) ?_ (fun j _ heq => heq ▸ hstopped)
        c.sender rfl
      rintro rfl
      exact SessionActor.step_stopped (h.stopped c.sender) hstopped e
    -- The new `CloseSession` is that of the actor, if this step has stopped it.
    · split at hc
      · rename_i hstops
        rw [List.mem_singleton.mp hc]
        exact ⟨by rw [react_self]; exact hstops.2, h.own i hi hstops.1⟩
      · cases hc
  once := by
    rw [react_closing h, List.map_append]
    split
    · rename_i hstops
      -- It has not been sent before, since its senders have stopped.
      refine List.nodup_append.mpr ⟨h.once, List.nodup_singleton _, ?_⟩
      intro j hj j' hj'
      obtain ⟨c, hc, rfl⟩ := List.mem_map.mp hj
      rw [List.mem_singleton.mp hj']
      intro heq
      have hstopped := (h.closing c hc).1
      rw [heq, hstops.1] at hstopped
      cases hstopped
    · rw [List.map_nil, List.append_nil]
      exact h.once
  released j hj := by
    rw [react_closing h]
    refine forall_react (P := fun j b => j < σ.created → b.stopped = true →
      (∃ c ∈ σ.closing ++ _, c.sender = j) ∨ ∀ info, σ.backend.sessions b.id = some info → info.handler ≠ j)
      ?_ (fun j _ hj hstopped => ?_) j hj
    · intro _ hstops
      rw [SessionActor.step_id]
      cases hlive : (σ.instances i).actor.stopped with
      | false =>
        -- The actor has stopped just now, so its `CloseSession` is on the way.
        rw [if_pos ⟨rfl, hstops⟩]
        exact Or.inl ⟨_, List.mem_append_right _ (List.mem_singleton_self _), rfl⟩
      | true =>
        rcases h.released i hi hlive with ⟨c, hc, hsender⟩ | hnone
        · exact Or.inl ⟨c, List.mem_append_left _ hc, hsender⟩
        · exact Or.inr hnone
    · rcases h.released j hj hstopped with ⟨c, hc, hsender⟩ | hnone
      · exact Or.inl ⟨c, List.mem_append_left _ hc, hsender⟩
      · exact Or.inr hnone

/-- The backend and what is on its way to it change; the sessions and the `CloseSession`s do not. -/
theorem Placed.of_same (h : σ.Placed) {wire : List Datagram} {clock : Int} : Placed { σ with wire, clock } :=
  ⟨h.slots, h.stopped, h.future, h.bound, h.entry, h.own, h.closing, h.once, h.released⟩

/-- A session is created if an id is free. -/
theorem step_create (accepts : Int → Bool) (sessionName : String) (players : List String) :
    σ.step accepts (.create sessionName players) = match σ.backend.freeSessions with
      | id :: free =>
        { σ with
          backend := ⟨Function.update σ.backend.sessions id (some ⟨id, sessionName, σ.created⟩), free⟩
          instances := Function.update σ.instances σ.created (.create id players)
          created := σ.created + 1 }
      | [] => σ := by
  unfold Sessions.step Backend.createSession
  cases σ.backend.freeSessions with
  | nil => rfl
  | cons id free => rfl

/-- What an action makes of the sessions. -/
inductive Happens (accepts : Int → Bool) (σ : Sessions) : Action → Sessions → Prop
  | dropped {a : Action} {wire : List Datagram} (hwire : wire ⊆ σ.wire) : Happens accepts σ a { σ with wire }
  | created {sessionName : String} {players : List String} {id : Nat} {free : List Nat}
    (hfree : σ.backend.freeSessions = id :: free) : Happens accepts σ (.create sessionName players) { σ with
      backend := ⟨Function.update σ.backend.sessions id (some ⟨id, sessionName, σ.created⟩), free⟩
      instances := Function.update σ.instances σ.created (.create id players)
      created := σ.created + 1 }
  | posted {a : Action} {d : Datagram} (howner : d.owner = none ∨
      ∃ i < σ.created, d.owner = some i ∧ d.sessionId = (σ.instances i).actor.id) :
    Happens accepts σ a { σ with wire := σ.wire ++ [d] }
  | delivered {a : Action} {d : Datagram} {wire : List Datagram} (hwire : wire ⊆ σ.wire) :
    Happens accepts σ a ({ σ with wire }.receive d)
  | handled {i : SessionRef} {m : SignedEnvelop} {rest : List SignedEnvelop} (hi : i < σ.created)
    (hmailbox : (σ.instances i).mailbox = m :: rest) :
    Happens accepts σ (.handle i) (σ.react accepts i rest (.receive σ.clock m.sender m.data))
  | ticked {i : SessionRef} (hi : i < σ.created) :
    Happens accepts σ (.tick i) (σ.react accepts i (σ.instances i).mailbox (.keepAlive σ.clock))
  | closed {k : Nat} {c : CloseSession} (hc : σ.closing[k]? = some c) : Happens accepts σ (.close k) { σ with
      backend := σ.backend.closeSession c.sessionId
      closing := σ.closing.eraseIdx k }
  | elapsed {d : Nat} : Happens accepts σ (.elapse d) { σ with clock := σ.clock + d }

theorem happens (h : σ.Placed) (accepts : Int → Bool) (a : Action) : Happens accepts σ a (σ.step accepts a) := by
  have nothing {a : Action} : Happens accepts σ a σ := .dropped (List.Subset.refl _)
  cases a with
  | create sessionName players =>
    rw [step_create]
    split
    · next hfree => exact .created hfree
    · exact nothing
  | send i sender data =>
    simp only [Sessions.step]
    split
    · next hi => exact .posted (Or.inr ⟨i, hi, rfl, rfl⟩)
    · exact nothing
  | inject sender sessionId data => exact .posted (Or.inl rfl)
  | deliver k keep =>
    simp only [Sessions.step]
    split
    · refine .delivered ?_
      split
      · exact List.Subset.refl _
      · exact (List.eraseIdx_sublist _ _).subset
    · exact nothing
  | lose k => exact .dropped (List.eraseIdx_sublist _ _).subset
  | handle i =>
    simp only [Sessions.step]
    split
    · next hmailbox =>
      refine .handled (not_le.mp fun hi => ?_) hmailbox
      rw [h.future i hi] at hmailbox
      cases hmailbox
    · exact nothing
  | tick i =>
    simp only [Sessions.step]
    split
    · next hi => exact .ticked hi
    · exact nothing
  | close k =>
    simp only [Sessions.step]
    split
    · next hc => exact .closed hc
    · exact nothing
  | elapse d => exact .elapsed

/-! ### Each action -/

theorem Placed.created (h : σ.Placed) {id : Nat} {free : List Nat} (hfree : σ.backend.freeSessions = id :: free)
    (sessionName : String) (players : List String) : Placed { σ with
      backend := ⟨Function.update σ.backend.sessions id (some ⟨id, sessionName, σ.created⟩), free⟩
      instances := Function.update σ.instances σ.created (.create id players)
      created := σ.created + 1 } := by
  have hslots : Slots.Partition maxSessionsNumber (id :: free) σ.backend.sessions := hfree ▸ h.slots
  -- The id has been free, so no other session loses its entry.
  have hnone : σ.backend.sessions id = none := ((hslots.mem_free id).mp List.mem_cons_self).2
  have occupied {id' : Nat} {info : SessionInfo} (hinfo : σ.backend.sessions id' = some info) : id' ≠ id := by
    rintro rfl
    rw [hnone] at hinfo
    cases hinfo
  refine ⟨hslots.pop _, fun i => ?_, fun i hi => ?_, fun i hi => ?_, fun id' info hinfo => ?_, fun i hi hlive => ?_,
    fun c hc => ?_, h.once, fun i hi hstopped => ?_⟩
  · by_cases hi : i = σ.created
    · subst hi
      simp only [Function.update_self]
      exact fun hstop => Bool.noConfusion hstop
    · simp only [Function.update_of_ne hi]
      exact h.stopped i
  · have hne : i ≠ σ.created := Nat.ne_of_gt hi
    simp only [Function.update_of_ne hne]
    exact h.future i (Nat.le_of_succ_le hi)
  · by_cases hnew : i = σ.created
    · subst hnew
      simp only [Function.update_self]
      exact ((hslots.mem_free id).mp List.mem_cons_self).1
    · simp only [Function.update_of_ne hnew]
      exact h.bound i (lt_of_le_of_ne (Nat.le_of_lt_succ hi) hnew)
  · by_cases hid : id' = id
    · subst hid
      simp only [Function.update_self, Option.some.injEq] at hinfo
      subst hinfo
      exact ⟨Nat.lt_succ_self _, by simp only [Function.update_self]; rfl⟩
    · simp only [Function.update_of_ne hid] at hinfo
      obtain ⟨hcreated, heq⟩ := h.entry id' info hinfo
      refine ⟨Nat.lt_succ_of_lt hcreated, ?_⟩
      simp only [Function.update_of_ne (Nat.ne_of_lt hcreated)]
      exact heq
  · by_cases hnew : i = σ.created
    · subst hnew
      simp only [Function.update_self]
      exact ⟨_, Function.update_self _ _ _, rfl⟩
    · simp only [Function.update_of_ne hnew] at hlive ⊢
      obtain ⟨info, hinfo, hhandler⟩ := h.own i (lt_of_le_of_ne (Nat.le_of_lt_succ hi) hnew) hlive
      exact ⟨info, (Function.update_of_ne (occupied hinfo) _ _).trans hinfo, hhandler⟩
  · obtain ⟨hstopped, info, hinfo, hhandler⟩ := h.closing c hc
    have hne : c.sender ≠ σ.created := hhandler ▸ Nat.ne_of_lt (h.entry _ info hinfo).1
    simp only [Function.update_of_ne hne]
    exact ⟨hstopped, info, (Function.update_of_ne (occupied hinfo) _ _).trans hinfo, hhandler⟩
  -- A session that has stopped and given back its id is not the one that gets it now.
  · by_cases hnew : i = σ.created
    · subst hnew
      simp only [Function.update_self] at hstopped
      cases hstopped
    · simp only [Function.update_of_ne hnew] at hstopped ⊢
      rcases h.released i (lt_of_le_of_ne (Nat.le_of_lt_succ hi) hnew) hstopped with hclosing | hnone'
      · exact Or.inl hclosing
      · refine Or.inr fun info hinfo => ?_
        by_cases hid : (σ.instances i).actor.id = id
        · rw [hid, Function.update_self] at hinfo
          cases hinfo
          exact Ne.symm hnew
        · rw [Function.update_of_ne hid] at hinfo
          exact hnone' info hinfo

theorem receive_actor (d : Datagram) (i : SessionRef) : ((σ.receive d).instances i).actor = (σ.instances i).actor := by
  unfold Sessions.receive
  split
  · rename_i handler _
    dsimp only
    by_cases hi : i = handler
    · subst hi
      rw [Function.update_self]
    · rw [Function.update_of_ne hi]
  · rfl

theorem receive_closing (d : Datagram) : (σ.receive d).closing = σ.closing := by
  unfold Sessions.receive
  split <;> rfl

theorem receive_backend (d : Datagram) : (σ.receive d).backend = σ.backend := by
  unfold Sessions.receive
  split <;> rfl

theorem receive_created (d : Datagram) : (σ.receive d).created = σ.created := by
  unfold Sessions.receive
  split <;> rfl

/-- A datagram is handed to a session that has been created. -/
theorem Placed.mailbox (h : σ.Placed) (d : Datagram) (hi : σ.created ≤ i) :
    (σ.receive d).instances i = σ.instances i := by
  unfold Sessions.receive
  split
  · rename_i handler henvelop
    have hcreated : handler < σ.created := by
      unfold Backend.envelop at henvelop
      split at henvelop
      · split at henvelop
        · rename_i info hinfo
          cases henvelop
          exact (h.entry _ info hinfo).1
        · cases henvelop
      · cases henvelop
    exact Function.update_of_ne (Nat.ne_of_gt (lt_of_lt_of_le hcreated hi)) _ _
  · rfl

theorem Placed.receive (h : σ.Placed) (d : Datagram) : (σ.receive d).Placed where
  slots := by
    rw [receive_backend]
    exact h.slots
  stopped i := by
    rw [receive_actor]
    exact h.stopped i
  future i hi := by
    rw [receive_created] at hi
    rw [h.mailbox d hi]
    exact h.future i hi
  bound i hi := by
    rw [receive_created] at hi
    rw [receive_actor]
    exact h.bound i hi
  entry id info hinfo := by
    rw [receive_backend] at hinfo
    rw [receive_created, receive_actor]
    exact h.entry id info hinfo
  own i hi hlive := by
    rw [receive_created] at hi
    rw [receive_actor] at hlive ⊢
    rw [receive_backend]
    exact h.own i hi hlive
  closing c hc := by
    rw [receive_closing] at hc
    rw [receive_actor, receive_backend]
    exact h.closing c hc
  once := by
    rw [receive_closing]
    exact h.once
  released i hi hstopped := by
    rw [receive_created] at hi
    rw [receive_actor] at hstopped ⊢
    rw [receive_closing, receive_backend]
    exact h.released i hi hstopped

/-- What is taken from the way, and what is left. -/
theorem perm_eraseIdx {closing : List CloseSession} {k : Nat} {c : CloseSession} (h : closing[k]? = some c) :
    (c :: closing.eraseIdx k).Perm closing := by
  obtain ⟨hlt, rfl⟩ := List.getElem?_eq_some_iff.mp h
  exact List.getElem_cons_eraseIdx_perm hlt

/-- A `CloseSession` frees the session that sent it. -/
theorem Placed.closeSession (h : σ.Placed) {c : CloseSession} (hc : c ∈ σ.closing) :
    σ.backend.closeSession c.sessionId =
      ⟨Function.update σ.backend.sessions c.sessionId none, c.sessionId :: σ.backend.freeSessions⟩ := by
  obtain ⟨-, info, hinfo, -⟩ := h.closing c hc
  simp only [Backend.closeSession, hinfo]

theorem Placed.closed (h : σ.Placed) {k : Nat} {c : CloseSession} (hk : σ.closing[k]? = some c) : Placed { σ with
    backend := σ.backend.closeSession c.sessionId
    closing := σ.closing.eraseIdx k } := by
  have hc := List.mem_of_getElem? hk
  obtain ⟨hstopped, info, hinfo, hhandler⟩ := h.closing c hc
  have honly : c.sender ∉ (σ.closing.eraseIdx k).map (·.sender) := by
    have honce := ((perm_eraseIdx hk).map (·.sender)).nodup_iff.mpr h.once
    rw [List.map_cons] at honce
    exact (List.nodup_cons.mp honce).1
  -- An entry of another session is not the one that is freed.
  have kept {id : Nat} {info' : SessionInfo} (hinfo' : σ.backend.sessions id = some info')
      (hne : info'.handler ≠ c.sender) : Function.update σ.backend.sessions c.sessionId none id = some info' := by
    refine (Function.update_of_ne ?_ _ _).trans hinfo'
    rintro rfl
    rw [hinfo] at hinfo'
    cases hinfo'
    exact hne hhandler
  rw [h.closeSession hc]
  refine ⟨h.slots.push hinfo, h.stopped, h.future, h.bound, fun id info' hinfo' => ?_, fun i hi hlive => ?_,
    fun c' hc' => ?_, ?_, fun i hi hstop => ?_⟩
  · by_cases hid : id = c.sessionId
    · subst hid
      simp only [Function.update_self] at hinfo'
      cases hinfo'
    · simp only [Function.update_of_ne hid] at hinfo'
      exact h.entry id info' hinfo'
  · obtain ⟨info', hinfo', rfl⟩ := h.own i hi hlive
    refine ⟨info', kept hinfo' fun heq => ?_, rfl⟩
    rw [heq, hstopped] at hlive
    cases hlive
  · obtain ⟨hstopped', info', hinfo', hhandler'⟩ := h.closing c' ((List.eraseIdx_sublist _ _).subset hc')
    refine ⟨hstopped', info', kept hinfo' fun heq => ?_, hhandler'⟩
    exact honly (heq ▸ hhandler' ▸ List.mem_map_of_mem hc')
  · exact h.once.sublist ((List.eraseIdx_sublist _ _).map _)
  · have hless : ∀ info', Function.update σ.backend.sessions c.sessionId none (σ.instances i).actor.id = some info' →
        σ.backend.sessions (σ.instances i).actor.id = some info' := by
      intro info' hinfo'
      by_cases hid : (σ.instances i).actor.id = c.sessionId
      · rw [hid, Function.update_self] at hinfo'
        cases hinfo'
      · rwa [Function.update_of_ne hid] at hinfo'
    rcases h.released i hi hstop with ⟨c', hc', rfl⟩ | hnone
    · by_cases hsame : c'.sender = c.sender
      · refine Or.inr fun info' hinfo' => ?_
        rw [hsame] at hinfo'
        have hid : (σ.instances c.sender).actor.id = c.sessionId := hhandler ▸ (h.entry _ info hinfo).2
        simp only [hid, Function.update_self] at hinfo'
        cases hinfo'
      · refine Or.inl ⟨c', ?_, rfl⟩
        have hmem := (perm_eraseIdx hk).mem_iff.mpr hc'
        exact (List.mem_cons.mp hmem).resolve_left fun heq => hsame (congrArg (·.sender) heq)
    · exact Or.inr fun info' hinfo' => hnone info' (hless info' hinfo')

theorem Placed.step (h : σ.Placed) (accepts : Int → Bool) (a : Action) : (σ.step accepts a).Placed := by
  have hstep := happens h accepts a
  generalize σ.step accepts a = σ' at hstep ⊢
  cases hstep with
  | dropped => exact h.of_same
  | created hfree => exact h.created hfree _ _
  | posted => exact h.of_same
  | delivered => exact h.of_same.receive _
  | handled hi => exact h.react accepts hi _ _
  | ticked hi => exact h.react accepts hi _ _
  | closed hk => exact h.closed hk
  | elapsed => exact h.of_same

/-- In a step one session handles an event, or all actors stay as they are and no `CloseSession` is sent. -/
theorem step_cases (h : σ.Placed) (accepts : Int → Bool) (a : Action) :
    (∃ i < σ.created, ∃ mailbox e, σ.step accepts a = σ.react accepts i mailbox e) ∨
      (∀ i < σ.created, ((σ.step accepts a).instances i).actor = (σ.instances i).actor) ∧
        (σ.step accepts a).closing.length ≤ σ.closing.length := by
  have hstep := happens h accepts a
  generalize σ.step accepts a = σ' at hstep ⊢
  cases hstep with
  | dropped => exact Or.inr ⟨fun _ _ => rfl, le_refl _⟩
  | created => exact Or.inr ⟨fun i hi => by simp only [Function.update_of_ne (Nat.ne_of_lt hi)], le_refl _⟩
  | posted => exact Or.inr ⟨fun _ _ => rfl, le_refl _⟩
  | delivered => exact Or.inr ⟨fun i _ => receive_actor _ i, le_of_eq (congrArg List.length (receive_closing _))⟩
  | handled hi => exact Or.inl ⟨_, hi, _, _, rfl⟩
  | ticked hi => exact Or.inl ⟨_, hi, _, _, rfl⟩
  | closed => exact Or.inr ⟨fun _ _ => rfl, (List.eraseIdx_sublist _ _).length_le⟩
  | elapsed => exact Or.inr ⟨fun _ _ => rfl, le_refl _⟩

/-- What a step puts on its way comes from a session that stops in it. -/
theorem closes_cases (h : σ.Placed) (accepts : Int → Bool) (a : Action) : closes accepts σ a = [] ∨
    ∃ i < σ.created, closes accepts σ a = [i] ∧ (σ.instances i).actor.stopped = false ∧
      ((σ.step accepts a).instances i).actor.stopped = true := by
  unfold closes
  rcases step_cases h accepts a with ⟨i, hi, mailbox, e, hstep⟩ | ⟨-, hlength⟩
  · rw [hstep, react_closing h, List.drop_left]
    split
    · rename_i hstops
      refine Or.inr ⟨i, hi, rfl, hstops.1, ?_⟩
      rw [react_self]
      exact hstops.2
    · exact Or.inl rfl
  · rw [List.drop_of_length_le hlength]
    exact Or.inl rfl

/-- A session that has stopped stays stopped. -/
theorem stopped_step (h : σ.Placed) (accepts : Int → Bool) (a : Action) (hi : i < σ.created)
    (hstopped : (σ.instances i).actor.stopped = true) : ((σ.step accepts a).instances i).actor.stopped = true := by
  rcases step_cases h accepts a with ⟨j, -, mailbox, e, hstep⟩ | ⟨hactor, -⟩
  · rw [hstep]
    refine forall_react (P := fun j b => i = j → b.stopped = true) ?_ (fun j _ heq => heq ▸ hstopped) i rfl
    rintro rfl
    exact SessionActor.step_stopped (h.stopped i) hstopped e
  · rw [hactor i hi]
    exact hstopped

theorem id_step (h : σ.Placed) (accepts : Int → Bool) (a : Action) (hi : i < σ.created) :
    ((σ.step accepts a).instances i).actor.id = (σ.instances i).actor.id := by
  rcases step_cases h accepts a with ⟨j, -, mailbox, e, hstep⟩ | ⟨hactor, -⟩
  · rw [hstep]
    refine forall_react (P := fun j b => i = j → b.id = (σ.instances i).actor.id) ?_ (fun j _ heq => heq ▸ rfl) i rfl
    rintro rfl
    exact SessionActor.step_id accepts _ e
  · rw [hactor i hi]

theorem created_step (h : σ.Placed) (accepts : Int → Bool) (a : Action) : σ.created ≤ (σ.step accepts a).created := by
  have hstep := happens h accepts a
  generalize σ.step accepts a = σ' at hstep ⊢
  cases hstep with
  | created => exact Nat.le_succ _
  | delivered => rw [receive_created]
  | _ => exact le_refl _

theorem placed_run (accepts : Int → Bool) (clock : Int) (as : List Action) :
    (Machine.run (step accepts) (start clock) as).Placed :=
  Machine.run_keeps (fun _ a h => h.step accepts a) (.start clock) as

/-- No session sends two `CloseSession`s; those that have sent one have stopped. -/
theorem closes_run (accepts : Int → Bool) (clock : Int) (as : List Action) :
    (Machine.outputs (step accepts) (closes accepts) (start clock) as).Nodup ∧
      ∀ i ∈ Machine.outputs (step accepts) (closes accepts) (start clock) as,
        i < (Machine.run (step accepts) (start clock) as).created ∧
          ((Machine.run (step accepts) (start clock) as).instances i).actor.stopped = true := by
  induction as using List.reverseRecOn with
  | nil => exact ⟨List.nodup_nil, fun i hi => absurd hi List.not_mem_nil⟩
  | append_singleton as a ih =>
    obtain ⟨hnodup, hstopped⟩ := ih
    have hplaced := placed_run accepts clock as
    rw [Machine.run_append, Machine.outputs_append]
    simp only [Machine.run_cons, Machine.run_nil, Machine.outputs, List.append_nil]
    have kept : ∀ i ∈ Machine.outputs (step accepts) (closes accepts) (start clock) as,
        i < ((Machine.run (step accepts) (start clock) as).step accepts a).created ∧
          (((Machine.run (step accepts) (start clock) as).step accepts a).instances i).actor.stopped = true :=
      fun i hi => ⟨lt_of_lt_of_le (hstopped i hi).1 (created_step hplaced accepts a),
        stopped_step hplaced accepts a (hstopped i hi).1 (hstopped i hi).2⟩
    rcases closes_cases hplaced accepts a with hnone | ⟨j, hj, hone, hlive, hstop⟩
    · rw [hnone, List.append_nil]
      exact ⟨hnodup, kept⟩
    · rw [hone]
      constructor
      · refine List.nodup_append.mpr ⟨hnodup, List.nodup_singleton j, fun i hi i' hi' heq => ?_⟩
        rw [List.mem_singleton.mp hi'] at heq
        rw [heq] at hi
        exact absurd ((hstopped j hi).2.symm.trans hlive) (by decide)
      · intro i hi
        rcases List.mem_append.mp hi with hi | hi
        · exact kept i hi
        · rw [List.mem_singleton.mp hi]
          exact ⟨lt_of_lt_of_le hj (created_step hplaced accepts a), hstop⟩

/-- In every state of every run the stack of free ids has no duplicates, and with the ids in use it makes up all
    ids below the limit; no session has sent two `CloseSession`s; and each `CloseSession` on its way frees the
    session that sent it. -/
theorem slots_sound (accepts : Int → Bool) (clock : Int) (as : List Action) :
    let σ := Machine.run (step accepts) (start clock) as
    σ.backend.freeSessions.Nodup ∧
      (∀ id, id ∈ σ.backend.freeSessions ↔ id < maxSessionsNumber ∧ σ.backend.sessions id = none) ∧
      (∀ id info, σ.backend.sessions id = some info → id < maxSessionsNumber) ∧
      (Machine.outputs (step accepts) (closes accepts) (start clock) as).Nodup ∧
      ∀ k c, σ.closing[k]? = some c → ∃ info, σ.backend.sessions c.sessionId = some info ∧ info.handler = c.sender ∧
        (σ.step accepts (.close k)).backend =
          ⟨Function.update σ.backend.sessions c.sessionId none, c.sessionId :: σ.backend.freeSessions⟩ := by
  intro σ
  have hplaced : σ.Placed := placed_run accepts clock as
  refine ⟨hplaced.slots.nodup, hplaced.slots.mem_free, hplaced.slots.bound, (closes_run accepts clock as).1, ?_⟩
  intro k c hk
  have hc := List.mem_of_getElem? hk
  obtain ⟨-, info, hinfo, hhandler⟩ := hplaced.closing c hc
  refine ⟨info, hinfo, hhandler, ?_⟩
  simp only [Sessions.step, hk]
  exact hplaced.closeSession hc

end Sessions

end MultiSlider
