import MultiSlider.Site.Launch

/-! What is true of the whole server at any time: which sessions have been created for which rooms, which of them the
    players have been told of, and which ones a lobby actor is still to tell them of. -/

namespace MultiSlider

/-- The players that a session can be created for. -/
def Crew (players : List String) : Prop := players ≠ [] ∧ players.Nodup

namespace Site

/-- The session that the actor of room `l` has been answered, with its id, but has not told the players of yet. -/
def promised (σ : Site) (l : LobbyRef) : Option (Int × SessionRef) :=
  ((σ.asks l).bind (·.answer)).filter (0 ≤ ·.1)

/-- The players of room `l`, by their names. -/
abbrev names (σ : Site) (l : LobbyRef) : List String := (σ.server.rooms l).actor.players.map (·.name)

/-- The session `i` has been created for these players, and has this id. -/
structure CreatedFor (σ : Sessions) (i : SessionRef) (players : List String) (sessionId : Int) : Prop where
  created : i < σ.created
  players : (σ.instances i).players = players
  id : ((σ.instances i).actor.id : Int) = sessionId

/-- The session that an action has the players told of: the one that was promised. -/
def launches (σ : Site) : SiteAction → List Launch
  | .answered l =>
    let lobby := (σ.server.rooms l).actor
    match σ.promised l, (σ.server.rooms l).mailbox with
    | some (sessionId, handler), ⟨_, .json (some (.startSession data))⟩ :: _ =>
      [⟨lobby.players, lobby.name, data, sessionId, handler⟩]
    | _, _ => []
  | _ => []

/-- `launches` lists the sessions that players have been told of. -/
structure Launching (accepts : Int → Bool) (ipBackend : String) (portBackend : Int) (launches : List Launch)
    (σ : Site) : Prop where
  registry : σ.server.Registry
  manned : σ.server.Manned
  address : σ.server.depot.ipBackend = ipBackend ∧ σ.server.depot.portBackend = portBackend
  placed : σ.sessions.Placed
  lived : σ.sessions.Lived accepts
  crew : ∀ i < σ.sessions.created, Crew (σ.sessions.instances i).players
  waiting : ∀ l ask, σ.asks l = some ask → (σ.server.rooms l).startsSession = true ∧ ask.ticket < σ.asked
  tickets : ∀ request ∈ σ.requests, request.ticket < σ.asked
  once : (σ.requests.map (·.ticket)).Nodup
  manning : ∀ request ∈ σ.requests, Crew request.players
  requested : ∀ request ∈ σ.requests, ∀ answer, σ.asks request.sender = some ⟨request.ticket, answer⟩ →
    answer = none ∧ request.players = σ.names request.sender
  promises : ∀ l sessionId i, σ.promised l = some (sessionId, i) →
    CreatedFor σ.sessions i (σ.names l) sessionId ∧ i ∉ launches.map (·.handler)
  apart : ∀ l l' sessionId sessionId' i,
    σ.promised l = some (sessionId, i) → σ.promised l' = some (sessionId', i) → l = l'
  launched : ∀ launch ∈ launches, CreatedFor σ.sessions launch.handler (launch.players.map (·.name)) launch.sessionId
  fresh : (launches.map (·.handler)).Nodup
  sent : σ.server.sent.filter Write.starts = launches.flatMap (Launch.writes ipBackend portBackend)

variable {accepts : Int → Bool} {ipBackend : String} {portBackend clock : Int} {launches : List Launch} {σ : Site}

theorem Launching.start : Launching accepts ipBackend portBackend [] (start ipBackend portBackend clock) where
  registry := .start ipBackend portBackend
  manned := .start ipBackend portBackend
  address := ⟨rfl, rfl⟩
  placed := .start clock
  lived i hi := absurd hi (Nat.not_lt_zero i)
  crew i hi := absurd hi (Nat.not_lt_zero i)
  waiting _ _ hask := nomatch hask
  tickets _ hrequest := absurd hrequest List.not_mem_nil
  once := List.nodup_nil
  manning _ hrequest := absurd hrequest List.not_mem_nil
  requested _ hrequest := absurd hrequest List.not_mem_nil
  promises _ _ _ hpromised := nomatch hpromised
  apart _ _ _ _ _ hpromised := nomatch hpromised
  launched _ hlaunch := absurd hlaunch List.not_mem_nil
  fresh := List.nodup_nil
  sent := rfl

theorem asks_of_promised {l : LobbyRef} {p : Int × SessionRef} (h : σ.promised l = some p) :
    ∃ ticket, σ.asks l = some ⟨ticket, some p⟩ ∧ 0 ≤ p.1 := by
  obtain ⟨hanswer, hnonneg⟩ := Option.filter_eq_some_iff.mp h
  obtain ⟨⟨ticket, answer⟩, hask, hsome⟩ := Option.bind_eq_some_iff.mp hanswer
  obtain rfl : answer = some p := hsome
  exact ⟨ticket, hask, of_decide_eq_true hnonneg⟩

/-! ### The frontend -/

/-- A step of the frontend that the rooms which wait are left alone by, and that tells of no session. -/
theorem Launching.frontend (h : Launching accepts ipBackend portBackend launches σ) {server : Server}
    (hregistry : server.Registry) (hmanned : server.Manned)
    (haddress : server.depot.ipBackend = σ.server.depot.ipBackend ∧
      server.depot.portBackend = σ.server.depot.portBackend)
    (hkeep : ∀ l, σ.asks l ≠ none → (server.rooms l).actor = (σ.server.rooms l).actor ∧
      (server.rooms l).startsSession = true)
    (hsent : server.sent.filter Write.starts = σ.server.sent.filter Write.starts) :
    Launching accepts ipBackend portBackend launches { σ with server } := by
  have hnames {l : LobbyRef} (hask : σ.asks l ≠ none) : names { σ with server } l = σ.names l := by
    unfold names
    rw [(hkeep l hask).1]
  exact {
    h with
    registry := hregistry
    manned := hmanned
    address := ⟨haddress.1.trans h.address.1, haddress.2.trans h.address.2⟩
    waiting := fun l ask hask => ⟨(hkeep l (by rw [hask]; nofun)).2, (h.waiting l ask hask).2⟩
    requested := fun request hrequest answer hask => by
      rw [hnames (by rw [hask]; nofun)]
      exact h.requested request hrequest answer hask
    promises := fun l sessionId i hpromised => by
      obtain ⟨ticket, hask, -⟩ := asks_of_promised hpromised
      have hask' : σ.asks l ≠ none := by
        rw [hask]
        nofun
      rw [hnames hask']
      exact h.promises l sessionId i hpromised
    sent := hsent.trans h.sent }

/-- A client handles a message. -/
theorem Launching.turn (h : Launching accepts ipBackend portBackend launches σ) {c : Connection} {o : ClientOutcome}
    (hwrites : ∀ payload ∈ o.writes, ∃ raw, payload = .text raw) :
    Launching accepts ipBackend portBackend launches { σ with server := σ.server.turn c o } := by
  refine h.frontend h.registry.turn h.manned.turn ⟨rfl, rfl⟩ (fun l hask => ?_) (Server.turn_silent hwrites)
  obtain ⟨ask, hsome⟩ := Option.ne_none_iff_exists'.mp hask
  exact ⟨Server.turn_actor, Room.startsSession_append (h.waiting l ask hsome).1 Server.turn_actor Server.turn_mailbox⟩

/-- A lobby actor that does not wait handles a message other than a `StartSession`. -/
theorem Launching.handle (h : Launching accepts ipBackend portBackend launches σ) {l : LobbyRef}
    (hidle : σ.asks l = none) (hquiet : (σ.server.rooms l).startsSession = false) (answer : Option Int) :
    Launching accepts ipBackend portBackend launches { σ with server := σ.server.handle l answer } := by
  refine h.frontend h.registry.handle (h.manned.handle h.registry) Server.handle_address (fun l' hask => ?_)
    (Server.handle_silent hquiet)
  have hne : l' ≠ l := fun heq => hask (heq ▸ hidle)
  obtain ⟨ask, hsome⟩ := Option.ne_none_iff_exists'.mp hask
  rw [Server.handle_other hne]
  exact ⟨rfl, (h.waiting l' ask hsome).1⟩

/-- The room of an actor that is about to start a session is open. -/
theorem Launching.open (h : Launching accepts ipBackend portBackend launches σ) {l : LobbyRef}
    (hstarts : (σ.server.rooms l).startsSession = true) : (σ.server.rooms l).Open := by
  obtain ⟨hrunning, sender, data, rest, hmailbox⟩ := Room.startsSession_iff.mp hstarts
  exact ⟨hrunning, h.registry.live hmailbox⟩

theorem Launching.ask (h : Launching accepts ipBackend portBackend launches σ) {l : LobbyRef} (hidle : σ.asks l = none)
    (hstarts : (σ.server.rooms l).startsSession = true) :
    Launching accepts ipBackend portBackend launches (σ.ask l) := by
  have hcrew : Crew (σ.names l) := by
    have hopen := h.open hstarts
    exact ⟨fun hnil => h.registry.inhabited l hopen (List.map_eq_nil_iff.mp hnil), h.manned.names l hopen⟩
  have hasks (l' : LobbyRef) : (σ.ask l).asks l' = if l' = l then some ⟨σ.asked, none⟩ else σ.asks l' :=
    Function.update_apply σ.asks l _ l'
  have hpromised (l' : LobbyRef) : (σ.ask l).promised l' = σ.promised l' := by
    unfold promised
    rw [hasks]
    split
    · rename_i heq
      rw [heq, hidle]
      rfl
    · rfl
  exact {
    registry := h.registry
    manned := h.manned
    address := h.address
    placed := h.placed
    lived := h.lived
    crew := h.crew
    launched := h.launched
    fresh := h.fresh
    sent := h.sent
    waiting := fun l' ask hask => by
      rw [hasks] at hask
      split at hask
      · rename_i heq
        cases hask
        exact ⟨heq ▸ hstarts, Nat.lt_succ_self _⟩
      · obtain ⟨hstarts', hless⟩ := h.waiting l' ask hask
        exact ⟨hstarts', Nat.lt_succ_of_lt hless⟩
    tickets := fun request hrequest => by
      rcases List.mem_append.mp hrequest with hrequest | hrequest
      · exact Nat.lt_succ_of_lt (h.tickets request hrequest)
      · rw [List.mem_singleton.mp hrequest]
        exact Nat.lt_succ_self _
    once := by
      have hnew : σ.asked ∉ σ.requests.map (·.ticket) := fun hmem => by
        obtain ⟨request, hrequest, heq⟩ := List.mem_map.mp hmem
        exact absurd (h.tickets request hrequest) (heq ▸ Nat.lt_irrefl _)
      simp only [Site.ask, List.map_append, List.map_cons, List.map_nil]
      exact List.nodup_append.mpr ⟨h.once, List.nodup_singleton _, fun t ht t' ht' heq =>
        hnew (by rwa [← List.mem_singleton.mp ht', ← heq])⟩
    manning := fun request hrequest => by
      rcases List.mem_append.mp hrequest with hrequest | hrequest
      · exact h.manning request hrequest
      · rw [List.mem_singleton.mp hrequest]
        exact hcrew
    requested := fun request hrequest answer hask => by
      rw [hasks] at hask
      rcases List.mem_append.mp hrequest with hrequest | hrequest
      · split at hask
        -- The new number has been given to no request before.
        · obtain ⟨hticket, -⟩ := Ask.mk.inj (Option.some.inj hask)
          exact absurd (h.tickets request hrequest) (hticket ▸ Nat.lt_irrefl _)
        · exact h.requested request hrequest answer hask
      · rw [List.mem_singleton.mp hrequest] at hask ⊢
        rw [if_pos rfl] at hask
        cases hask
        exact ⟨rfl, rfl⟩
    promises := fun l' sessionId i hsome => h.promises l' sessionId i ((hpromised l').symm.trans hsome)
    apart := fun l₁ l₂ sessionId sessionId' i hsome hsome' =>
      h.apart l₁ l₂ sessionId sessionId' i ((hpromised l₁).symm.trans hsome) ((hpromised l₂).symm.trans hsome') }

/-! ### The backend -/

/-- What a session was created for stays. -/
theorem CreatedFor.step {σ : Sessions} (hplaced : σ.Placed) {i : SessionRef} {players : List String} {sessionId : Int}
    (h : CreatedFor σ i players sessionId) (accepts : Int → Bool) (a : Sessions.Action) :
    CreatedFor (σ.step accepts a) i players sessionId where
  created := Nat.lt_of_lt_of_le h.created (Sessions.created_step hplaced accepts a)
  players := (Sessions.players_step hplaced accepts a h.created).trans h.players
  id := by
    rw [Sessions.id_step hplaced accepts a h.created]
    exact h.id

/-- A step of the backend other than a `CreateSession` creates nothing. -/
theorem created_step_eq {σ : Sessions} (hplaced : σ.Placed) (accepts : Int → Bool) {a : Sessions.Action}
    (ha : ∀ sessionName players, a ≠ .create sessionName players) : (σ.step accepts a).created = σ.created := by
  have hstep := Sessions.happens hplaced accepts a
  generalize σ.step accepts a = σ' at hstep ⊢
  cases hstep with
  | created => exact absurd rfl (ha _ _)
  | delivered => exact Sessions.receive_created _
  | _ => rfl

theorem Launching.session (h : Launching accepts ipBackend portBackend launches σ) {a : Sessions.Action}
    (ha : ∀ sessionName players, a ≠ .create sessionName players) :
    Launching accepts ipBackend portBackend launches { σ with sessions := σ.sessions.step accepts a } :=
  { h with
    placed := h.placed.step accepts a
    lived := h.lived.step h.placed a
    crew := fun i hi => by
      dsimp only at hi ⊢
      rw [created_step_eq h.placed accepts ha] at hi
      rw [Sessions.players_step h.placed accepts a hi]
      exact h.crew i hi
    promises := fun l sessionId i hpromised => by
      obtain ⟨hcreated, hnew⟩ := h.promises l sessionId i hpromised
      exact ⟨hcreated.step h.placed accepts a, hnew⟩
    launched := fun launch hlaunch => (h.launched launch hlaunch).step h.placed accepts a }

/-- The session that is created for a request, if an id is free. -/
theorem createdFor_create {σ : Sessions} (accepts : Int → Bool) (sessionName : String) (players : List String)
    (hnonneg : 0 ≤ (σ.backend.createSession sessionName σ.created).2) :
    CreatedFor (σ.step accepts (.create sessionName players)) σ.created players
      (σ.backend.createSession sessionName σ.created).2 := by
  rw [Sessions.step_create]
  unfold Backend.createSession at hnonneg ⊢
  cases hfree : σ.backend.freeSessions with
  | nil =>
    rw [hfree] at hnonneg
    dsimp only at hnonneg
    exact absurd hnonneg (by decide)
  | cons id free =>
    refine ⟨Nat.lt_succ_self _, ?_, ?_⟩
    · simp only [Function.update_self]
      rfl
    · simp only [Function.update_self]
      rfl

theorem crew_create {σ : Sessions} (hplaced : σ.Placed) (hcrew : ∀ i < σ.created, Crew (σ.instances i).players)
    (accepts : Int → Bool) (sessionName : String) {players : List String} (hplayers : Crew players) :
    ∀ i < (σ.step accepts (.create sessionName players)).created,
      Crew ((σ.step accepts (.create sessionName players)).instances i).players := by
  intro i hi
  by_cases hold : i < σ.created
  · rw [Sessions.players_step hplaced accepts _ hold]
    exact hcrew i hold
  · rw [Sessions.step_create] at hi ⊢
    cases hfree : σ.backend.freeSessions with
    | nil =>
      rw [hfree] at hi
      exact absurd hi hold
    | cons id free =>
      rw [hfree] at hi
      obtain rfl : i = σ.created := Nat.le_antisymm (Nat.le_of_lt_succ hi) (Nat.le_of_not_lt hold)
      dsimp only
      rw [Function.update_self]
      exact hplayers

theorem Launching.createSession (h : Launching accepts ipBackend portBackend launches σ) {request : CreateSession}
    {rest : List CreateSession} (hrequests : σ.requests = request :: rest) :
    Launching accepts ipBackend portBackend launches (σ.step accepts .createSession) := by
  have hmem : request ∈ σ.requests := hrequests ▸ List.mem_cons_self
  have hrest {r : CreateSession} (hr : r ∈ rest) : r ∈ σ.requests := hrequests ▸ List.mem_cons_of_mem _ hr
  have honce := h.once
  rw [hrequests] at honce
  have hother {r : CreateSession} (hr : r ∈ rest) : r.ticket ≠ request.ticket := fun heq =>
    (List.nodup_cons.mp honce).1 (List.mem_map.mpr ⟨r, hr, heq⟩)
  obtain ⟨answer, hanswer⟩ : ∃ answer, answer =
      (σ.sessions.backend.createSession request.sessionName σ.sessions.created).2 := ⟨_, rfl⟩
  have hstep : σ.step accepts .createSession = { σ with
      sessions := σ.sessions.step accepts (.create request.sessionName request.players)
      requests := rest
      asks := σ.reply request (answer, σ.sessions.created) } := by
    simp only [Site.step, hrequests, hanswer]
  rw [hstep]
  -- The ask of the request gets the answer if it is still there, and every other ask is as before.
  have hasks (l : LobbyRef) : σ.reply request (answer, σ.sessions.created) l = σ.asks l ∨
      (l = request.sender ∧ σ.asks l = some ⟨request.ticket, none⟩ ∧
        σ.reply request (answer, σ.sessions.created) l =
          some ⟨request.ticket, some (answer, σ.sessions.created)⟩) := by
    unfold reply
    split
    · rename_i hask
      by_cases hl : l = request.sender
      · subst hl
        exact Or.inr ⟨rfl, hask, Function.update_self ..⟩
      · exact Or.inl (Function.update_of_ne hl ..)
    · exact Or.inl rfl
  have hpromised {l : LobbyRef} {sessionId : Int} {i : SessionRef}
      (hsome : promised { σ with
        sessions := σ.sessions.step accepts (.create request.sessionName request.players)
        requests := rest
        asks := σ.reply request (answer, σ.sessions.created) } l = some (sessionId, i)) :
      σ.promised l = some (sessionId, i) ∨
        (l = request.sender ∧ σ.asks l = some ⟨request.ticket, none⟩ ∧ sessionId = answer ∧ i = σ.sessions.created ∧
          0 ≤ sessionId) := by
    obtain ⟨ticket, hask, hnonneg⟩ := asks_of_promised hsome
    dsimp only at hask hnonneg
    rcases hasks l with hsame | ⟨hl, hbefore, hreplied⟩
    · left
      rw [hsame] at hask
      unfold promised
      rw [hask]
      simp [hnonneg]
    · rw [hreplied] at hask
      cases hask
      exact Or.inr ⟨hl, hbefore, rfl, rfl, hnonneg⟩
  have hnew (hnonneg : 0 ≤ answer) : CreatedFor (σ.sessions.step accepts
      (.create request.sessionName request.players)) σ.sessions.created request.players answer := by
    subst hanswer
    exact createdFor_create accepts _ _ hnonneg
  exact {
    h with
    placed := h.placed.step accepts (.create request.sessionName request.players)
    lived := h.lived.step h.placed (.create request.sessionName request.players)
    crew := crew_create h.placed h.crew accepts _ (h.manning request hmem)
    waiting := fun l ask hask => by
      rcases hasks l with hsame | ⟨-, hbefore, hreplied⟩
      · exact h.waiting l ask (hsame ▸ hask)
      · cases hreplied.symm.trans hask
        obtain ⟨hstarts, hless⟩ := h.waiting l _ hbefore
        exact ⟨hstarts, hless⟩
    tickets := fun r hr => h.tickets r (hrest hr)
    once := (List.nodup_cons.mp honce).2
    manning := fun r hr => h.manning r (hrest hr)
    requested := fun r hr answer' hask => by
      rcases hasks r.sender with hsame | ⟨-, -, hreplied⟩
      · exact h.requested r (hrest hr) answer' (hsame ▸ hask)
      · obtain ⟨hticket, -⟩ := Ask.mk.inj (Option.some.inj (hreplied.symm.trans hask))
        exact absurd hticket.symm (hother hr)
    promises := fun l sessionId i hsome => by
      rcases hpromised hsome with hold | ⟨rfl, hbefore, rfl, rfl, hnonneg⟩
      · obtain ⟨hcreated, hfresh⟩ := h.promises l sessionId i hold
        exact ⟨hcreated.step h.placed accepts (.create request.sessionName request.players), hfresh⟩
      · refine ⟨?_, fun hmem' => ?_⟩
        · have hplayers := (h.requested request hmem none hbefore).2
          have hcreated := hnew hnonneg
          rw [hplayers] at hcreated ⊢
          exact hcreated
        · obtain ⟨launch, hlaunch, heq⟩ := List.mem_map.mp hmem'
          exact absurd (h.launched launch hlaunch).created (heq ▸ Nat.lt_irrefl _)
    apart := fun l l' sessionId sessionId' i hsome hsome' => by
      have hless {l : LobbyRef} {sessionId : Int} (hold : σ.promised l = some (sessionId, i)) :
          i ≠ σ.sessions.created := Nat.ne_of_lt (h.promises l sessionId i hold).1.created
      rcases hpromised hsome with hold | ⟨hl, -, -, hi, -⟩
      · rcases hpromised hsome' with hold' | ⟨-, -, -, hi', -⟩
        · exact h.apart l l' sessionId sessionId' i hold hold'
        · exact absurd hi' (hless hold)
      · rcases hpromised hsome' with hold' | ⟨hl', -, -, -, -⟩
        · exact absurd hi (hless hold')
        · rw [hl, hl']
    launched := fun launch hlaunch =>
      (h.launched launch hlaunch).step h.placed accepts (.create request.sessionName request.players) }

/-! ### The end of the wait -/

theorem resume_asks {l : LobbyRef} {answer : Option Int} (l' : LobbyRef) :
    (σ.resume l answer).asks l' = if l' = l then none else σ.asks l' := Function.update_apply σ.asks l _ l'

theorem promised_of_resume {l l' : LobbyRef} {answer : Option Int} {p : Int × SessionRef}
    (h : (σ.resume l answer).promised l' = some p) : σ.promised l' = some p ∧ l' ≠ l := by
  unfold promised at h ⊢
  rw [resume_asks] at h
  split at h
  · cases h
  · rename_i hl
    exact ⟨h, hl⟩

/-- The room that waited goes on, and its players are told of `more`, which nobody else was promised. -/
theorem Launching.resumed (h : Launching accepts ipBackend portBackend launches σ) {l : LobbyRef} {answer : Option Int}
    {more : List Launch} (hactor : ((σ.server.handle l answer).rooms l).actor = (σ.server.rooms l).actor)
    (hsent : (σ.server.handle l answer).sent.filter Write.starts =
      σ.server.sent.filter Write.starts ++ more.flatMap (Launch.writes ipBackend portBackend))
    (hmore : ∀ launch ∈ more, σ.promised l = some (launch.sessionId, launch.handler) ∧
      launch.players.map (·.name) = σ.names l) (hone : more.length ≤ 1) :
    Launching accepts ipBackend portBackend (launches ++ more) (σ.resume l answer) := by
  -- The players have not changed while the room waited.
  have hnames (l' : LobbyRef) : (σ.resume l answer).names l' = σ.names l' := by
    unfold names
    by_cases hl : l' = l
    · rw [hl]
      exact congrArg (fun a : LobbyActor2 => a.players.map (·.name)) hactor
    · exact congrArg (fun r : Room => r.actor.players.map (·.name)) (Server.handle_other hl)
  have hhandlers {i : SessionRef} (hi : i ∈ more.map (·.handler)) :
      ∃ sessionId, σ.promised l = some (sessionId, i) := by
    obtain ⟨launch, hlaunch, rfl⟩ := List.mem_map.mp hi
    exact ⟨launch.sessionId, (hmore launch hlaunch).1⟩
  exact {
    registry := h.registry.handle
    manned := h.manned.handle h.registry
    address := ⟨Server.handle_address.1.trans h.address.1, Server.handle_address.2.trans h.address.2⟩
    placed := h.placed
    lived := h.lived
    crew := h.crew
    tickets := h.tickets
    once := h.once
    manning := h.manning
    waiting := fun l' ask' hask' => by
      rw [resume_asks] at hask'
      split at hask'
      · cases hask'
      · rename_i hl
        obtain ⟨hstarts, hless⟩ := h.waiting l' ask' hask'
        exact ⟨(congrArg Room.startsSession (Server.handle_other hl)).trans hstarts, hless⟩
    requested := fun request hrequest answer' hask' => by
      rw [hnames]
      rw [resume_asks] at hask'
      split at hask'
      · cases hask'
      · exact h.requested request hrequest answer' hask'
    promises := fun l' sessionId i hsome => by
      obtain ⟨hsome', hl⟩ := promised_of_resume hsome
      obtain ⟨hcreated, hfresh⟩ := h.promises l' sessionId i hsome'
      refine ⟨by rw [hnames]; exact hcreated, fun hmem => ?_⟩
      rw [List.map_append] at hmem
      rcases List.mem_append.mp hmem with hmem | hmem
      · exact hfresh hmem
      -- A session promised to another room has not been launched here.
      · obtain ⟨sessionId', hself⟩ := hhandlers hmem
        exact hl (h.apart l' l sessionId sessionId' i hsome' hself)
    apart := fun l₁ l₂ sessionId sessionId' i hsome hsome' =>
      h.apart l₁ l₂ sessionId sessionId' i (promised_of_resume hsome).1 (promised_of_resume hsome').1
    launched := fun launch hlaunch => by
      rcases List.mem_append.mp hlaunch with hlaunch | hlaunch
      · exact h.launched launch hlaunch
      · obtain ⟨hself, hplayers⟩ := hmore launch hlaunch
        rw [hplayers]
        exact (h.promises l _ _ hself).1
    fresh := by
      rw [List.map_append]
      refine List.nodup_append.mpr ⟨h.fresh, ?_, fun i hi i' hi' heq => ?_⟩
      · match more, hone with
        | [], _ => exact List.nodup_nil
        | [launch], _ => exact List.nodup_singleton _
      · obtain ⟨sessionId, hself⟩ := hhandlers hi'
        exact (h.promises l sessionId i' hself).2 (heq ▸ hi)
    sent := by
      rw [List.flatMap_append, ← h.sent]
      exact hsent }

/-- The wait ends with the answer of the backend. -/
theorem Launching.answered (h : Launching accepts ipBackend portBackend launches σ) {l : LobbyRef} {ticket : Nat}
    {sessionId : Int} {i : SessionRef} (hask : σ.asks l = some ⟨ticket, some (sessionId, i)⟩) :
    Launching accepts ipBackend portBackend (launches ++ σ.launches (.answered l)) (σ.resume l (some sessionId)) := by
  obtain ⟨hrunning, sender, data, rest, hmailbox⟩ := Room.startsSession_iff.mp (h.waiting l _ hask).1
  obtain ⟨hactor, hsent⟩ := Server.handle_start hrunning hmailbox (some sessionId)
  have hpromised : σ.promised l = if 0 ≤ sessionId then some (sessionId, i) else none := by
    unfold promised
    rw [hask]
    simp [Option.filter]
  rw [LobbyActor2.told, h.address.1, h.address.2] at hsent
  unfold Site.launches
  dsimp only
  rw [hpromised, hmailbox]
  by_cases hnonneg : 0 ≤ sessionId
  · rw [if_pos hnonneg] at hsent hpromised ⊢
    refine h.resumed hactor ?_ (fun launch hlaunch => ?_) (Nat.le_refl _)
    · rw [hsent, List.flatMap_singleton]
      rfl
    · rw [List.mem_singleton.mp hlaunch]
      exact ⟨hpromised, rfl⟩
  · rw [if_neg hnonneg] at hsent ⊢
    exact h.resumed hactor hsent (List.forall_mem_nil _) (Nat.zero_le _)

/-- The wait ends without an answer. -/
theorem Launching.expired (h : Launching accepts ipBackend portBackend launches σ) {l : LobbyRef} {ticket : Nat}
    (hask : σ.asks l = some ⟨ticket, none⟩) :
    Launching accepts ipBackend portBackend launches (σ.resume l none) := by
  obtain ⟨hrunning, sender, data, rest, hmailbox⟩ := Room.startsSession_iff.mp (h.waiting l _ hask).1
  obtain ⟨hactor, hsent⟩ := Server.handle_start hrunning hmailbox none
  have hresumed : Launching accepts ipBackend portBackend (launches ++ []) (σ.resume l none) :=
    h.resumed hactor hsent (List.forall_mem_nil _) (Nat.zero_le _)
  rwa [List.append_nil] at hresumed

/-! ### Runs -/

theorem Launching.step (h : Launching accepts ipBackend portBackend launches σ) (action : SiteAction) :
    Launching accepts ipBackend portBackend (launches ++ σ.launches action) (σ.step accepts action) := by
  have none {σ' : Site} (h' : Launching accepts ipBackend portBackend launches σ') :
      Launching accepts ipBackend portBackend (launches ++ []) σ' := by rwa [List.append_nil]
  cases action with
  | received c raw => exact none (h.turn (Server.client_writes raw))
  | closed c =>
    refine none (h.turn ?_)
    rw [Server.shutdown_writes]
    exact List.forall_mem_nil _
  | handle l =>
    refine none ?_
    simp only [Site.step]
    cases hask : σ.asks l with
    | some ask => exact h
    | none =>
      dsimp only
      split
      · rename_i hstarts
        exact h.ask hask hstarts
      · rename_i hquiet
        exact h.handle hask (Bool.eq_false_iff.mpr hquiet) _
  | answered l =>
    simp only [Site.step]
    split
    · rename_i hask
      exact h.answered hask
    · rename_i hnone
      -- Without an answer for it the room goes on waiting, and nobody is told anything.
      have hpromised : σ.promised l = Option.none := Option.eq_none_iff_forall_ne_some.mpr fun p hsome => by
        obtain ⟨ticket, hask, -⟩ := asks_of_promised hsome
        exact hnone ticket p.1 p.2 hask
      unfold Site.launches
      dsimp only
      rw [hpromised]
      exact none h
  | expired l =>
    refine none ?_
    simp only [Site.step]
    split
    · rename_i hask
      exact h.expired hask
    · exact h
  | createSession =>
    refine none ?_
    cases hrequests : σ.requests with
    | nil =>
      simp only [Site.step, hrequests]
      exact h
    | cons request rest => exact h.createSession hrequests
  | session a =>
    refine none ?_
    cases a with
    | create sessionName players => exact h
    | _ => exact h.session nofun

theorem launching_run (accepts : Int → Bool) (ipBackend : String) (portBackend clock : Int) (as : List SiteAction) :
    Launching accepts ipBackend portBackend
      (Machine.outputs (step accepts) Site.launches (start ipBackend portBackend clock) as)
      (Machine.run (step accepts) (start ipBackend portBackend clock) as) := by
  induction as using List.reverseRecOn with
  | nil => exact .start
  | append_singleton as a ih =>
    have hstep := ih.step a
    rw [Machine.run_append, Machine.outputs_append]
    simp only [Machine.outputs, List.append_nil]
    exact hstep

/-- The sessions that players are told of. In every run the `SessionStarted`s that have been written are those of the
    launches, each of them to all who were in the room then, once and in order; no session is launched twice; and each
    one has been created for just these players. As long as it has not ended, the id that they were told leads to it. -/
theorem launches_sound (accepts : Int → Bool) (ipBackend : String) (portBackend clock : Int) (as : List SiteAction) :
    let σ := Machine.run (step accepts) (start ipBackend portBackend clock) as
    let launches := Machine.outputs (step accepts) Site.launches (start ipBackend portBackend clock) as
    σ.server.sent.filter Write.starts = launches.flatMap (Launch.writes ipBackend portBackend) ∧
      (launches.map (·.handler)).Nodup ∧
      ∀ launch ∈ launches, launch.handler < σ.sessions.created ∧
        (σ.sessions.instances launch.handler).actor.stats.keys = launch.players.map (·.name) ∧
        ((σ.sessions.instances launch.handler).actor.stopped = false →
          σ.sessions.backend.envelop launch.sessionId = .forward launch.handler) := by
  intro σ launches
  have h : Launching accepts ipBackend portBackend launches σ := launching_run accepts ipBackend portBackend clock as
  refine ⟨h.sent, h.fresh, fun launch hlaunch => ?_⟩
  obtain ⟨hcreated, hplayers, hid⟩ := h.launched launch hlaunch
  refine ⟨hcreated, ?_, fun hlive => ?_⟩
  · rw [h.lived.keys hcreated (h.crew _ hcreated).2, hplayers]
  · rw [← hid]
    exact h.placed.forward hcreated hlive

/-- Every session that the backend has ever created is one of distinct players, at least one; and it does not begin to
    run, nor end, before it has handled a `Ready` of each of them. -/
theorem sessions_manned (accepts : Int → Bool) (ipBackend : String) (portBackend clock : Int) (as : List SiteAction) :
    let σ := (Machine.run (step accepts) (start ipBackend portBackend clock) as).sessions
    ∀ i < σ.created, Crew (σ.instances i).players ∧ (σ.instances i).actor.stats.keys = (σ.instances i).players ∧
      ((σ.instances i).actor.state ≠ .waiting ∨ (σ.instances i).actor.stopped = true →
        ∀ name ∈ (σ.instances i).players, ∃ p ∈ (σ.instances i).handled, (p.2.readyAddress name).isSome) := by
  intro σ i hi
  have h := launching_run accepts ipBackend portBackend clock as
  have hcrew := h.crew i hi
  exact ⟨hcrew, h.lived.keys hi hcrew.2, fun hstarted name hname => h.lived.ready hi hcrew.2 hstarted hname⟩

end Site

end MultiSlider
