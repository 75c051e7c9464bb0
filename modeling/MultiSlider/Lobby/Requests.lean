import MultiSlider.Lobby.Lifecycle

/-! The requests of the clients to create or to join a room. Each is numbered when a client actor handles it, and
    waits in the mailbox of a lobby actor; what the actor writes when it handles it is its response. -/

namespace MultiSlider

/-- The requests in the mailbox. -/
def Room.asking (r : Room) : List Mail := r.mailbox.filter (·.message.asks)

namespace Room

variable {r : Room} {mail : Mail}

theorem asking_post (r : Room) (mail : Mail) : (r.post mail).asking = r.asking ∨
    (mail.message.asks = true ∧ (r.post mail).asking = r.asking ++ [mail]) := by
  unfold asking
  rcases post_mailbox r mail with hmailbox | hmailbox
  · rw [hmailbox]
    exact Or.inl rfl
  · rw [hmailbox, List.filter_append]
    cases hasks : mail.message.asks with
    | false => exact Or.inl (by simp [hasks])
    | true => exact Or.inr ⟨rfl, by simp [hasks]⟩

theorem asking_post_live (hlive : r.actor.stopped = false) (hasks : mail.message.asks = true) :
    (r.post mail).asking = r.asking ++ [mail] := by
  unfold asking post
  rw [hlive]
  simp [hasks]

end Room

/-- The server, with the connection that made each request, the numbers of those that wait for each lobby actor,
    and what was written in response to each. -/
structure Docket where
  server : Server
  requests : List Connection
  waiting : LobbyRef → List Nat
  responses : List (Nat × Write)

namespace Docket

/-- Nobody has asked for anything. -/
def start (ipBackend : String) (portBackend : Int) : Docket := ⟨.start ipBackend portBackend, [], fun _ => [], []⟩

/-- A request comes in: it is numbered, and waits for the actor that it was forwarded to. -/
def request (v : Docket) (c : Connection) (σ : Server) : Docket where
  server := σ
  requests := v.requests ++ [c]
  waiting := fun l =>
    if (σ.rooms l).asking = (v.server.rooms l).asking then v.waiting l else v.waiting l ++ [v.requests.length]
  responses := v.responses ++ (σ.sent.drop v.server.sent.length).map fun w => (v.requests.length, w)

/-- How many requests are handled with a message. -/
def served (mail : Mail) : Nat := if mail.message.asks then 1 else 0

/-- The actor `l` has handled a message, the first of those that wait if it is a request. -/
def serve (v : Docket) (l : LobbyRef) (mail : Mail) (σ : Server) : Docket :=
  { v with
    server := σ
    waiting := Function.update v.waiting l (if (σ.rooms l).actor.stopped then [] else (v.waiting l).drop (served mail))
    responses := v.responses ++ ((v.waiting l).take (served mail)).flatMap fun n =>
      (σ.sent.drop v.server.sent.length).map fun w => (n, w) }

/-- One action of the server, with what it asks for and what it answers. -/
def step (v : Docket) (action : ServerAction) : Docket :=
  let σ := v.server.step action
  match action with
  | .received c (some message) =>
    if message.asks ∧ (v.server.clients c).stopped = false then v.request c σ else { v with server := σ }
  | .handle l _ =>
    match (v.server.rooms l).mailbox with
    | mail :: _ => v.serve l mail σ
    | [] => { v with server := σ }
  | _ => { v with server := σ }

/-- What was written in response to the request of this number. -/
def responsesTo (v : Docket) (n : Nat) : List Write := (v.responses.filter (·.1 = n)).map (·.2)

/-- Each request that no longer waits has had one response, on its connection. -/
def Settled (v : Docket) : Prop := ∀ n c, v.requests[n]? = some c → (∀ l, n ∉ v.waiting l) →
  ∃ payload, v.responsesTo n = [⟨c, payload⟩] ∧ payload.isResponse = true

/-- A room does not end while a request waits behind the message that ends it. -/
def KeepsRequests (v : Docket) : ServerAction → Prop
  | .handle l _ =>
    match (v.server.rooms l).mailbox with
    | mail :: rest => (v.server.rooms l).Open → (v.server.rooms l).actor.Ends mail.sender mail.message →
      ∀ mail ∈ rest, mail.message.asks = false
    | [] => True
  | _ => True

/-- The requests that wait are those in the mailboxes, in order; each waits once and has had no response. -/
structure Filed (v : Docket) : Prop where
  registry : v.server.Registry
  lives : v.server.Lives
  queued : ∀ l, (v.waiting l).map (v.requests[·]?) = (v.server.rooms l).asking.map (some ·.sender)
  distinct : ∀ l, (v.waiting l).Nodup
  apart : ∀ l l' n, n ∈ v.waiting l → n ∈ v.waiting l' → l = l'
  unanswered : ∀ l, ∀ n ∈ v.waiting l, v.responsesTo n = []
  numbered : ∀ p ∈ v.responses, p.1 < v.requests.length

variable {v : Docket} {c : Connection} {l : LobbyRef} {answer : Option Int}

theorem Filed.start (ipBackend : String) (portBackend : Int) : Filed (start ipBackend portBackend) where
  registry := .start ipBackend portBackend
  lives := .start ipBackend portBackend
  queued _ := rfl
  distinct _ := List.nodup_nil
  apart _ _ _ hn := nomatch hn
  unanswered _ _ hn := nomatch hn
  numbered _ hp := nomatch hp

/-- A request that waits has a number. -/
theorem Filed.lt (h : Filed v) {n : Nat} (hn : n ∈ v.waiting l) : n < v.requests.length := by
  have hmem : v.requests[n]? ∈ (v.waiting l).map (v.requests[·]?) := List.mem_map_of_mem hn
  rw [h.queued l] at hmem
  obtain ⟨mail, -, hmail⟩ := List.mem_map.mp hmem
  exact (List.getElem?_eq_some_iff.mp hmail.symm).1

theorem responsesTo_append {n : Nat} {more : List (Nat × Write)} {w : Docket}
    (hresponses : w.responses = v.responses ++ more) :
    w.responsesTo n = v.responsesTo n ++ (more.filter (·.1 = n)).map (·.2) := by
  simp only [responsesTo, hresponses, List.filter_append, List.map_append]

theorem Filed.no_responses (h : Filed v) : v.responsesTo v.requests.length = [] := by
  unfold responsesTo
  rw [List.filter_eq_nil_iff.mpr fun p hp heq => Nat.ne_of_lt (h.numbered p hp) (of_decide_eq_true heq)]
  rfl

/-! ### A request comes in -/

theorem turn_asking {σ : Server} {o : ClientOutcome} : ((σ.turn c o).rooms l).asking = (σ.rooms l).asking ∨
    ∃ message, o.forward = some (l, message) ∧
      ((σ.turn c o).rooms l).asking = (σ.rooms l).asking ++ [⟨c, message⟩] := by
  rcases Server.turn_room (σ := σ) (c := c) (o := o) (l := l) with hroom | ⟨message, hforward, hroom⟩
  · rw [hroom]
    exact Or.inl rfl
  · rw [hroom]
    rcases Room.asking_post (σ.rooms l) ⟨c, message⟩ with hsame | ⟨-, hmore⟩
    · exact Or.inl hsame
    · exact Or.inr ⟨message, hforward, hmore⟩

/-- The new request waits for one actor at most, and only there. -/
theorem mem_request_waiting {σ : Server} {n : Nat} (hn : n ∈ (v.request c σ).waiting l) :
    n ∈ v.waiting l ∨ (n = v.requests.length ∧ (σ.rooms l).asking ≠ (v.server.rooms l).asking) := by
  simp only [request] at hn
  split at hn
  · exact Or.inl hn
  · rename_i hmore
    rcases List.mem_append.mp hn with hn | hn
    · exact Or.inl hn
    · exact Or.inr ⟨List.mem_singleton.mp hn, hmore⟩

theorem request_responsesTo {σ : Server} {n : Nat} (hn : n ≠ v.requests.length) :
    (v.request c σ).responsesTo n = v.responsesTo n := by
  rw [responsesTo_append (v := v) (w := v.request c σ) rfl, List.filter_eq_nil_iff.mpr, List.map_nil, List.append_nil]
  intro p hp heq
  obtain ⟨w, -, rfl⟩ := List.mem_map.mp hp
  exact hn (of_decide_eq_true heq).symm

theorem Filed.request_responses (h : Filed v) {o : ClientOutcome} :
    (v.request c (v.server.turn c o)).responsesTo v.requests.length = o.writes.map fun payload => ⟨c, payload⟩ := by
  rw [responsesTo_append (v := v) (w := v.request c (v.server.turn c o)) rfl, h.no_responses, List.nil_append]
  have hwritten : (v.server.turn c o).sent.drop v.server.sent.length = o.writes.map fun payload => ⟨c, payload⟩ :=
    List.drop_left
  rw [hwritten, List.filter_eq_self.mpr]
  · simp [Function.comp_def]
  · intro p hp
    obtain ⟨w, -, rfl⟩ := List.mem_map.mp hp
    exact decide_eq_true rfl

theorem Filed.request (h : Filed v) {o : ClientOutcome} (hregistry : (v.server.turn c o).Registry)
    (hlives : (v.server.turn c o).Lives) (hwrites : ∀ f, o.forward = some f → o.writes = []) :
    Filed (v.request c (v.server.turn c o)) where
  registry := hregistry
  lives := hlives
  queued l := by
    -- The numbers that wait have the same senders; the new one is the last of all requests.
    have hold : (v.waiting l).map ((v.requests ++ [c])[·]?) = (v.server.rooms l).asking.map (some ·.sender) := by
      rw [← h.queued l]
      exact List.map_congr_left fun n hn => List.getElem?_append_left (h.lt hn)
    have hnew : (v.requests ++ [c])[v.requests.length]? = some c := List.getElem?_concat_length
    simp only [Docket.request]
    split
    · rename_i hsame
      rw [hsame]
      exact hold
    · rename_i hmore
      rcases turn_asking (σ := v.server) (c := c) (o := o) (l := l) with hsame | ⟨message, -, hasking⟩
      · exact absurd hsame hmore
      · rw [hasking, List.map_append, List.map_append, hold, List.map_singleton, List.map_singleton, hnew]
  distinct l := by
    simp only [Docket.request]
    split
    · exact h.distinct l
    · rw [List.nodup_append_comm, List.singleton_append, List.nodup_cons]
      exact ⟨fun hmem => Nat.lt_irrefl _ (h.lt hmem), h.distinct l⟩
  apart l l' n hn hn' := by
    rcases mem_request_waiting hn with hn | ⟨rfl, hmore⟩
    · rcases mem_request_waiting hn' with hn' | ⟨rfl, -⟩
      · exact h.apart l l' n hn hn'
      · exact absurd (h.lt hn) (Nat.lt_irrefl _)
    · rcases mem_request_waiting hn' with hn' | ⟨-, hmore'⟩
      · exact absurd (h.lt hn') (Nat.lt_irrefl _)
      · -- The client forwards to one actor.
        rcases turn_asking (σ := v.server) (c := c) (o := o) (l := l) with hsame | ⟨message, hforward, -⟩
        · exact absurd hsame hmore
        · rcases turn_asking (σ := v.server) (c := c) (o := o) (l := l') with hsame | ⟨message', hforward', -⟩
          · exact absurd hsame hmore'
          · cases hforward.symm.trans hforward'
            rfl
  unanswered l n hn := by
    rcases mem_request_waiting hn with hn | ⟨rfl, hmore⟩
    · rw [request_responsesTo (Nat.ne_of_lt (h.lt hn))]
      exact h.unanswered l n hn
    · rcases turn_asking (σ := v.server) (c := c) (o := o) (l := l) with hsame | ⟨message, hforward, -⟩
      · exact absurd hsame hmore
      · rw [h.request_responses, hwrites _ hforward]
        rfl
  numbered p hp := by
    simp only [Docket.request, List.length_append, List.length_singleton]
    rcases List.mem_append.mp hp with hp | hp
    · exact Nat.lt_succ_of_lt (h.numbered p hp)
    · obtain ⟨w, -, rfl⟩ := List.mem_map.mp hp
      exact Nat.lt_succ_self _

/-- The new request waits, or has had its response. -/
theorem Settled.request (h : Settled v) (hfiled : Filed v) {o : ClientOutcome}
    (hnew : (∃ l, ((v.server.turn c o).rooms l).asking ≠ (v.server.rooms l).asking) ∨
      ∃ payload, o.writes = [payload] ∧ payload.isResponse = true) : Settled (v.request c (v.server.turn c o)) := by
  intro n c' hn hgone
  have hkept (l : LobbyRef) : v.waiting l ⊆ (v.request c (v.server.turn c o)).waiting l := by
    simp only [Docket.request]
    split
    · exact List.Subset.refl _
    · exact List.subset_append_left _ _
  have hn' : (v.requests ++ [c])[n]? = some c' := hn
  rcases Nat.lt_or_ge n v.requests.length with hless | hge
  · rw [List.getElem?_append_left hless] at hn'
    rw [request_responsesTo (Nat.ne_of_lt hless)]
    exact h n c' hn' fun l hmem => hgone l (hkept l hmem)
  · have hlength := (List.getElem?_eq_some_iff.mp hn').1
    rw [List.length_append, List.length_singleton] at hlength
    obtain rfl : n = v.requests.length := Nat.le_antisymm (Nat.le_of_lt_succ hlength) hge
    rw [List.getElem?_concat_length] at hn'
    cases hn'
    rcases hnew with ⟨l, hmore⟩ | ⟨payload, hwrites, hresponse⟩
    · refine absurd ?_ (hgone l)
      simp only [Docket.request]
      rw [if_neg hmore]
      exact List.mem_append_right _ (List.mem_singleton_self _)
    · exact ⟨payload, by rw [hfiled.request_responses, hwrites]; rfl, hresponse⟩

/-! ### Other turns of a client -/

/-- Only a request has something forwarded that asks for a response. -/
theorem receive_asks {client : Client} {d : Depot} {created : LobbyRef} {raw : Option FrontendMessage}
    {message : LobbyMessage} (hforward : (client.receive d created raw).forward = some (l, message))
    (hasks : message.asks = true) : client.stopped = false ∧ ∃ request, raw = some request ∧ request.asks = true := by
  cases hstopped : client.stopped with
  | true =>
    rw [Client.receive_of_stopped hstopped] at hforward
    cases hforward
  | false =>
    refine ⟨rfl, ?_⟩
    have hhandled := Client.receive_handled d created hstopped raw
    generalize client.receive d created raw = o at hforward hhandled
    cases hhandled with
    | creates => exact ⟨_, rfl, rfl⟩
    | joins => exact ⟨_, rfl, rfl⟩
    | passes =>
      cases hforward
      cases hasks
    | closes =>
      cases hforward
      cases hasks
    | _ => cases hforward

theorem silent_turn {o : ClientOutcome} (hsilent : ∀ l message, o.forward = some (l, message) → message.asks = false) :
    ((v.server.turn c o).rooms l).asking = (v.server.rooms l).asking := by
  rcases Server.turn_room (σ := v.server) (c := c) (o := o) (l := l) with hroom | ⟨message, hforward, hroom⟩
  · rw [hroom]
  · rw [hroom]
    rcases Room.asking_post (v.server.rooms l) ⟨c, message⟩ with hsame | ⟨hasks, -⟩
    · exact hsame
    · cases hasks.symm.trans (hsilent l message hforward)

/-- Nothing that the docket is about has changed. -/
theorem Filed.silent (h : Filed v) {σ : Server} (hregistry : σ.Registry) (hlives : σ.Lives)
    (hasking : ∀ l, (σ.rooms l).asking = (v.server.rooms l).asking) : Filed { v with server := σ } where
  registry := hregistry
  lives := hlives
  queued l := by
    rw [hasking l]
    exact h.queued l
  distinct := h.distinct
  apart := h.apart
  unanswered := h.unanswered
  numbered := h.numbered

/-! ### A lobby actor handles a message -/

/-- The mailbox after a message. -/
theorem handle_asking {σ : Server} {mail : Mail} {rest : List Mail} (hmailbox : (σ.rooms l).mailbox = mail :: rest) :
    ((σ.handle l answer).rooms l).asking =
      if ((σ.handle l answer).rooms l).actor.stopped then [] else rest.filter (·.message.asks) := by
  have hroom := Server.handle_room hmailbox answer
  have hsilent := Room.receive_forwards_silent σ.depot l answer (σ.rooms l).actor
    mail.sender mail.message
  dsimp only at hroom
  have hnone : (((σ.rooms l).actor.receive σ.depot mail.sender l answer mail.message).forwards.map
      fun message => (⟨mail.sender, message⟩ : Mail)).filter (·.message.asks) = [] := by
    rw [List.filter_eq_nil_iff]
    intro mail' hmail' hasks
    obtain ⟨message, hmessage, rfl⟩ := List.mem_map.mp hmail'
    cases hasks.symm.trans (hsilent message hmessage)
  rw [hroom]
  unfold Room.asking
  dsimp only
  split
  · rfl
  · rw [List.filter_append, hnone, List.append_nil]

/-- The first of those that wait is the one that is handled, and the others are those in the rest of the mailbox. -/
theorem Filed.remaining (h : Filed v) {mail : Mail} {rest : List Mail}
    (hmailbox : (v.server.rooms l).mailbox = mail :: rest) :
    ((v.waiting l).drop (served mail)).map (v.requests[·]?) = (rest.filter (·.message.asks)).map (some ·.sender) ∧
      ∀ n ∈ (v.waiting l).take (served mail), mail.message.asks = true ∧ v.requests[n]? = some mail.sender ∧
        (v.waiting l).take (served mail) = [n] := by
  have hqueued := h.queued l
  unfold Room.asking at hqueued
  rw [hmailbox] at hqueued
  unfold served
  cases hasks : mail.message.asks with
  | false =>
    have hfilter : (mail :: rest).filter (·.message.asks) = rest.filter (·.message.asks) := by simp [hasks]
    rw [hfilter] at hqueued
    exact ⟨hqueued, nofun⟩
  | true =>
    have hfilter : (mail :: rest).filter (·.message.asks) = mail :: rest.filter (·.message.asks) := by simp [hasks]
    rw [hfilter, List.map_cons] at hqueued
    obtain ⟨n, later, hwaiting, hn, hlater⟩ := List.map_eq_cons_iff.mp hqueued
    rw [hwaiting]
    refine ⟨hlater, fun n' hn' => ?_⟩
    rw [List.mem_singleton.mp hn']
    exact ⟨rfl, hn, rfl⟩

/-- Nobody else's responses grow. -/
theorem serve_responsesTo {mail : Mail} {σ : Server} {n : Nat} (hn : n ∉ (v.waiting l).take (served mail)) :
    (v.serve l mail σ).responsesTo n = v.responsesTo n := by
  rw [responsesTo_append (v := v) (w := v.serve l mail σ) rfl, List.filter_eq_nil_iff.mpr, List.map_nil,
    List.append_nil]
  intro p hp heq
  obtain ⟨n', hn', hp⟩ := List.mem_flatMap.mp hp
  obtain ⟨w, -, rfl⟩ := List.mem_map.mp hp
  exact hn (of_decide_eq_true heq ▸ hn')

/-- Who waits after the message has waited before it, and was not handled with it. -/
theorem Filed.serve_waiting (h : Filed v) {mail : Mail} {σ : Server} {l' : LobbyRef} {n : Nat}
    (hn : n ∈ (v.serve l mail σ).waiting l') : n ∈ v.waiting l' ∧ n ∉ (v.waiting l).take (served mail) := by
  simp only [serve] at hn
  by_cases hl : l' = l
  · subst hl
    rw [Function.update_self] at hn
    split at hn
    · cases hn
    · have hdistinct := h.distinct l'
      rw [← List.take_append_drop (served mail) (v.waiting l')] at hdistinct
      exact ⟨List.mem_of_mem_drop hn, fun hmem => List.disjoint_of_nodup_append hdistinct hmem hn⟩
  · rw [Function.update_of_ne hl] at hn
    exact ⟨hn, fun hmem => hl (h.apart l' l n hn (List.mem_of_mem_take hmem))⟩

theorem Filed.serve (h : Filed v) {mail : Mail} {rest : List Mail}
    (hmailbox : (v.server.rooms l).mailbox = mail :: rest) :
    Filed (v.serve l mail (v.server.handle l answer)) where
  registry := h.registry.handle
  lives := h.lives.step h.registry (.handle l answer)
  queued l' := by
    simp only [Docket.serve]
    by_cases hl : l' = l
    · subst hl
      rw [Function.update_self, handle_asking hmailbox]
      split
      · rfl
      · exact (h.remaining hmailbox).1
    · rw [Function.update_of_ne hl, Server.handle_other hl]
      exact h.queued l'
  distinct l' := by
    simp only [Docket.serve]
    by_cases hl : l' = l
    · subst hl
      rw [Function.update_self]
      split
      · exact List.nodup_nil
      · exact (h.distinct l').sublist (List.drop_sublist _ _)
    · rw [Function.update_of_ne hl]
      exact h.distinct l'
  apart l' l'' n hn hn' := h.apart l' l'' n (h.serve_waiting hn).1 (h.serve_waiting hn').1
  unanswered l' n hn := by
    obtain ⟨hbefore, hother⟩ := h.serve_waiting hn
    rw [serve_responsesTo hother]
    exact h.unanswered l' n hbefore
  numbered p hp := by
    rcases List.mem_append.mp hp with hp | hp
    · exact h.numbered p hp
    · obtain ⟨n, hn, hp⟩ := List.mem_flatMap.mp hp
      obtain ⟨w, -, rfl⟩ := List.mem_map.mp hp
      exact h.lt (List.mem_of_mem_take hn)

/-- The request that is handled gets its response. -/
theorem Filed.serve_response (h : Filed v) (answer : Option Int) {mail : Mail} {rest : List Mail}
    (hmailbox : (v.server.rooms l).mailbox = mail :: rest) {n : Nat} (hn : n ∈ (v.waiting l).take (served mail)) :
    ∃ payload, (v.serve l mail (v.server.handle l answer)).responsesTo n = [⟨mail.sender, payload⟩] ∧
      payload.isResponse = true := by
  obtain ⟨hasks, -, hone⟩ := (h.remaining hmailbox).2 n hn
  have hcreated : l < v.server.created := by
    by_contra hnot
    rw [h.lives.fresh l (Nat.le_of_not_lt hnot)] at hmailbox
    cases hmailbox
  obtain ⟨payload, hwrites, hresponse⟩ :=
    (h.lives.staged l hcreated).response v.server.depot l answer hmailbox hasks
  refine ⟨payload, ?_, hresponse⟩
  have hwritten : (v.server.handle l answer).sent.drop v.server.sent.length = [⟨mail.sender, payload⟩] := by
    rw [Server.handle_sent hmailbox, List.drop_left, hwrites]
  have hnone := h.unanswered l n (List.mem_of_mem_take hn)
  rw [responsesTo_append (v := v) (w := v.serve l mail (v.server.handle l answer)) rfl, hnone, hwritten]
  rw [hone]
  simp

/-- All requests are still accounted for exactly if the actor goes on, or nobody waits for it. -/
theorem settled_serve_iff (h : Filed v) (hsettled : Settled v) {mail : Mail} {rest : List Mail}
    (hmailbox : (v.server.rooms l).mailbox = mail :: rest) :
    Settled (v.serve l mail (v.server.handle l answer)) ↔
      (((v.server.handle l answer).rooms l).actor.stopped = true → (v.waiting l).drop (served mail) = []) := by
  constructor
  · intro hsettled' hstopped
    by_contra hsome
    -- One that waits behind the message would be lost with the mailbox, unanswered.
    obtain ⟨n, hn⟩ := List.exists_mem_of_ne_nil _ hsome
    have hbefore : n ∈ v.waiting l := List.mem_of_mem_drop hn
    have hother : n ∉ (v.waiting l).take (served mail) := by
      have hdistinct := h.distinct l
      rw [← List.take_append_drop (served mail) (v.waiting l)] at hdistinct
      exact fun hmem => List.disjoint_of_nodup_append hdistinct hmem hn
    obtain ⟨payload, hresponse, -⟩ := hsettled' n _ (List.getElem?_eq_getElem (h.lt hbefore)) fun l' hmem => by
      simp only [Docket.serve] at hmem
      by_cases hl : l' = l
      · subst hl
        rw [Function.update_self, if_pos hstopped] at hmem
        cases hmem
      · rw [Function.update_of_ne hl] at hmem
        exact hl (h.apart l' l n hmem hbefore)
    rw [serve_responsesTo hother, h.unanswered l n hbefore] at hresponse
    cases hresponse
  · intro hkeeps n c hn hgone
    -- The request that the message makes is answered now; the others are as they were.
    by_cases hserved : n ∈ (v.waiting l).take (served mail)
    · obtain ⟨payload, hresponse, his⟩ := h.serve_response answer hmailbox hserved
      cases hn.symm.trans ((h.remaining hmailbox).2 n hserved).2.1
      exact ⟨payload, hresponse, his⟩
    · rw [serve_responsesTo hserved]
      refine hsettled n c hn fun l' hmem => hgone l' ?_
      simp only [Docket.serve]
      by_cases hl : l' = l
      · subst hl
        rw [Function.update_self]
        rw [← List.take_append_drop (served mail) (v.waiting l')] at hmem
        have hdrop := (List.mem_append.mp hmem).resolve_left hserved
        split
        · rename_i hstopped
          rw [hkeeps hstopped] at hdrop
          cases hdrop
        · exact hdrop
      · rw [Function.update_of_ne hl]
        exact hmem

/-- An actor that goes on, or leaves nobody waiting, is one that handles no message that ends the room before a
    request. -/
theorem Filed.keeps_iff (h : Filed v) {mail : Mail} {rest : List Mail}
    (hmailbox : (v.server.rooms l).mailbox = mail :: rest) :
    (((v.server.handle l answer).rooms l).actor.stopped = true → (v.waiting l).drop (served mail) = []) ↔
      KeepsRequests v (.handle l answer) := by
  have hempty : (v.waiting l).drop (served mail) = [] ↔ ∀ mail ∈ rest, mail.message.asks = false := by
    rw [← List.map_eq_nil_iff, (h.remaining hmailbox).1, List.map_eq_nil_iff, List.filter_eq_nil_iff]
    exact forall₂_congr fun mail' _ => iff_of_eq (Bool.not_eq_true _)
  have hlive := h.registry.live hmailbox
  simp only [KeepsRequests, hmailbox]
  rw [hempty]
  by_cases hrunning : (v.server.rooms l).actor.behaviour = .running
  · have hroom := Server.handle_room hmailbox answer
    dsimp only at hroom
    rw [hroom]
    rcases LobbyActor2.receive_cases (v.server.rooms l).actor v.server.depot mail.sender l answer mail.message with
      ⟨-, hhandled⟩ | ⟨hinitial, -⟩ | ⟨hnot, -⟩
    · rw [hhandled.ends hlive]
      exact ⟨fun hkeeps _ => hkeeps, fun hkeeps => hkeeps ⟨hrunning, hlive⟩⟩
    · cases hrunning.symm.trans hinitial
    · exact absurd hrunning hnot
  · have hcreated : l < v.server.created := by
      by_contra hnot
      rw [h.lives.fresh l (Nat.le_of_not_lt hnot)] at hmailbox
      cases hmailbox
    have hrest := (h.lives.staged l hcreated).rest_silent hrunning hmailbox
    exact ⟨fun _ hopen => absurd hopen.1 hrunning, fun _ _ => hrest⟩

/-! ### Runs -/

/-- What a client makes of a request. -/
theorem Filed.received (h : Filed v) {message : FrontendMessage} (hasks : message.asks = true)
    (hlive : (v.server.clients c).stopped = false) :
    let o := (v.server.clients c).receive v.server.depot v.server.created (some message)
    (∀ f, o.forward = some f → o.writes = []) ∧
      ((∃ l, ((v.server.turn c o).rooms l).asking ≠ (v.server.rooms l).asking) ∨
      ∃ payload, o.writes = [payload] ∧ payload.isResponse = true) := by
  have hhandled := Client.receive_handled v.server.depot v.server.created hlive (some message)
  dsimp only
  generalize (v.server.clients c).receive v.server.depot v.server.created (some message) = o at hhandled
  have hposted {l : LobbyRef} {m : LobbyMessage} (hroom : (v.server.rooms l).actor.stopped = false)
      (hm : m.asks = true) (hforward : o.forward = some (l, m)) :
      ((v.server.turn c o).rooms l).asking ≠ (v.server.rooms l).asking := by
    have hturn : (v.server.turn c o).rooms l = (v.server.rooms l).post ⟨c, m⟩ := by
      simp only [Server.turn, hforward, Server.forward, Function.update_self]
    rw [hturn, Room.asking_post_live hroom hm]
    exact fun heq => List.cons_ne_nil _ _ (List.append_right_eq_self.mp heq)
  cases hhandled with
  | creates =>
    refine ⟨fun _ _ => rfl, Or.inl ⟨_, hposted ?_ rfl rfl⟩⟩
    rw [h.lives.fresh _ (Nat.le_refl _)]
    rfl
  | joins hget => exact ⟨fun _ _ => rfl, Or.inl ⟨_, hposted (h.registry.own _ _ hget).1.2 rfl rfl⟩⟩
  | missing => exact ⟨fun _ hforward => absurd hforward (Option.some_ne_none _).symm, Or.inr ⟨_, rfl, rfl⟩⟩
  | _ => cases hasks

theorem step_silent (h : Filed v) {action : ServerAction}
    (hstep : v.step action = { v with server := v.server.step action })
    (hasking : ∀ l, ((v.server.step action).rooms l).asking = (v.server.rooms l).asking) : Filed (v.step action) := by
  rw [hstep]
  exact h.silent (h.registry.step action) (h.lives.step h.registry action) hasking

/-- Every step keeps the docket in order, and leaves all requests accounted for exactly if no room ends before a
    request that waits for it. -/
theorem Filed.step (h : Filed v) (action : ServerAction) :
    Filed (v.step action) ∧ (Settled v → (Settled (v.step action) ↔ KeepsRequests v action)) := by
  cases action with
  | received c raw =>
    -- What makes no request leaves the docket as it is, and what the rooms are asked for.
    have hsilent
        (hnone : ∀ message, raw = some message → ¬(message.asks = true ∧ (v.server.clients c).stopped = false)) :
        v.step (.received c raw) = { v with server := v.server.step (.received c raw) } ∧
          ∀ l, ((v.server.step (.received c raw)).rooms l).asking = (v.server.rooms l).asking := by
      refine ⟨?_, fun l => silent_turn fun l' message hforward => ?_⟩
      · cases raw with
        | none => rfl
        | some message =>
          simp only [Docket.step]
          rw [if_neg (hnone message rfl)]
      · by_contra hasks
        obtain ⟨hlive, request, hraw, hrequest⟩ := receive_asks hforward (Bool.not_eq_false _ ▸ hasks)
        exact hnone request hraw ⟨hrequest, hlive⟩
    by_cases hrequest : ∃ message, raw = some message ∧ message.asks = true ∧ (v.server.clients c).stopped = false
    · obtain ⟨message, rfl, hasks, hlive⟩ := hrequest
      have hstep : v.step (.received c (some message)) = v.request c (v.server.turn c
          ((v.server.clients c).receive v.server.depot v.server.created (some message))) := if_pos ⟨hasks, hlive⟩
      obtain ⟨hwrites, hnew⟩ := h.received hasks hlive
      rw [hstep]
      exact ⟨h.request (h.registry.step (.received c (some message)))
        (h.lives.step h.registry (.received c (some message))) hwrites,
        fun hsettled => iff_of_true (hsettled.request h hnew) trivial⟩
    · obtain ⟨hstep, hasking⟩ := hsilent fun message hraw hboth => hrequest ⟨message, hraw, hboth⟩
      exact ⟨step_silent h hstep hasking, fun hsettled => iff_of_true (by rw [hstep]; exact hsettled) trivial⟩
  | closed c =>
    -- A connection that closes tells its room that it has left, which is no request.
    have hasking (l : LobbyRef) : ((v.server.step (.closed c)).rooms l).asking = (v.server.rooms l).asking := by
      refine silent_turn fun l' message hforward => ?_
      unfold Client.shutdown at hforward
      split at hforward
      · cases hforward
      · obtain ⟨handler, -, heq⟩ := Option.map_eq_some_iff.mp hforward
        cases heq
        rfl
    exact ⟨step_silent h rfl hasking, fun hsettled => iff_of_true hsettled trivial⟩
  | handle l answer =>
    cases hmailbox : (v.server.rooms l).mailbox with
    | nil =>
      have hstep : v.step (.handle l answer) = v := by
        simp only [Docket.step, hmailbox, Server.step, Server.handle_idle hmailbox]
      rw [hstep]
      exact ⟨h, fun hsettled => iff_of_true hsettled (by simp only [KeepsRequests, hmailbox])⟩
    | cons mail rest =>
      have hstep : v.step (.handle l answer) = v.serve l mail (v.server.handle l answer) := by
        simp only [Docket.step, hmailbox, Server.step]
      rw [hstep]
      exact ⟨h.serve hmailbox, fun hsettled => (settled_serve_iff h hsettled hmailbox).trans (h.keeps_iff hmailbox)⟩

/-- In every run, each request that no longer waits has had exactly one response, in every state, exactly if no room
    ends while a request waits behind the message that ends it. -/
theorem settled_iff (ipBackend : String) (portBackend : Int) (as : List ServerAction) :
    Machine.Always step Settled (start ipBackend portBackend) as ↔
      Machine.Along step KeepsRequests (start ipBackend portBackend) as :=
  Machine.always_iff_along (fun _ action h => (h.step action).1) (fun _ action h => (h.step action).2)
    (Filed.start ipBackend portBackend) fun _ _ hn => nomatch hn

/-- The last player goes away while a `Join` waits, and all mailboxes are empty in the end. -/
theorem join_unanswered :
    let as : List ServerAction := [.received 0 (some (.createRoom "a" "R" "" 2 0 "")), .handle 0 none, .closed 0,
      .received 1 (some (.joinRoom "b" "R")), .handle 0 none]
    let v := Machine.run step (start "localhost" 8700) as
    ¬Settled v ∧ v.requests = [0, 1] ∧ (v.server.rooms 0).mailbox = [] ∧ v.responsesTo 1 = [] ∧
      v.server.sent.map (·.receiver) = [0] := by
  intro as v
  have hrequests : v.requests = [0, 1] := by decide +kernel
  have hresponses : v.responsesTo 1 = [] := by decide +kernel
  refine ⟨fun hsettled => ?_, hrequests, by decide +kernel, hresponses, by decide +kernel⟩
  obtain ⟨payload, hresponse, -⟩ := hsettled 1 1 (by rw [hrequests]; rfl) fun l => by
    match l with
    | 0 => decide +kernel
    | l + 1 => exact List.not_mem_nil
  rw [hresponses] at hresponse
  cases hresponse

end Docket

end MultiSlider
