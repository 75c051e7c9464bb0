import MultiSlider.Lib.Fairness
import MultiSlider.Lobby.Lifecycle
import MultiSlider.Site.Launches

/-! When the clients fall silent the server comes to rest: the lobby actors handle all that is in their mailboxes and
    what they forward to themselves on the way, and none of them waits for ever. -/

namespace MultiSlider

/-- How many messages a lobby actor can have to handle because of this one. -/
def LobbyMessage.weight : LobbyMessage → Nat
  | .json (some .leaveRoom) => 3
  | .json (some (.update ..)) => 2
  | .json (some (.ejectPlayer _)) => 2
  | .disconnected => 2
  | .join _ => 2
  | _ => 1

theorem LobbyMessage.weight_pos (m : LobbyMessage) : 0 < m.weight := by
  unfold weight
  split <;> exact Nat.succ_pos _

namespace LobbyActor2

variable {a : LobbyActor2} {d : Depot} {sender : Connection} {self : LobbyRef} {answer : Option Int}

theorem Handled.forwards_weight {m : LobbyMessage} {o : LobbyOutcome} (h : Handled a d sender m o) :
    (o.forwards.map LobbyMessage.weight).sum < m.weight := by
  cases h with
  | joined | left | forwarded | ejected => exact Nat.one_lt_two
  | leaving => exact Nat.lt_succ_self 2
  | _ => exact LobbyMessage.weight_pos _

/-- What a message leaves to be handled weighs less than the message. -/
theorem receive_forwards_weight (a : LobbyActor2) (d : Depot) (sender : Connection) (self : LobbyRef)
    (answer : Option Int) (m : LobbyMessage) :
    ((a.receive d sender self answer m).forwards.map LobbyMessage.weight).sum < m.weight := by
  rcases receive_cases a d sender self answer m with ⟨-, hhandled⟩ | ⟨-, -, hopened⟩ | ⟨-, -, hforwards, -⟩
  · exact hhandled.forwards_weight
  · rw [hopened.forwards]
    exact m.weight_pos
  · rw [hforwards]
    exact m.weight_pos

end LobbyActor2

/-- The weight of a mailbox. -/
def Room.weight (r : Room) : Nat := (r.mailbox.map fun mail => mail.message.weight).sum

namespace Server

variable {σ : Server} {l : LobbyRef} {answer : Option Int}

/-- A message that is handled takes its weight from the room. -/
theorem room_weight {mail : Mail} {rest : List Mail} (h : (σ.rooms l).mailbox = mail :: rest) (answer : Option Int) :
    ((σ.handle l answer).rooms l).weight < (σ.rooms l).weight := by
  have hforwards := LobbyActor2.receive_forwards_weight (σ.rooms l).actor σ.depot mail.sender l answer mail.message
  have hbefore : (σ.rooms l).weight = mail.message.weight + (rest.map fun mail => mail.message.weight).sum := by
    unfold Room.weight
    rw [h, List.map_cons, List.sum_cons]
  rw [handle_room h, hbefore]
  unfold Room.weight
  dsimp only
  split
  · exact Nat.lt_of_lt_of_le mail.message.weight_pos (Nat.le_add_right _ _)
  · rw [List.map_append, List.sum_append, List.map_map]
    have hmap : (fun mail : Mail => mail.message.weight) ∘ (fun message => ⟨mail.sender, message⟩) =
        LobbyMessage.weight := rfl
    rw [hmap]
    omega

end Server

/-- A step of the server itself, with no message of a client. -/
def SiteAction.isInternal : SiteAction → Bool
  | .received .. | .closed _ => false
  | _ => true

namespace Site

variable (σ : Site)

/-- A turn of a lobby actor that has been created, or of the backend. -/
def HasTurn : SiteAction → Prop
  | .handle l | .answered l | .expired l => l < σ.server.created
  | .createSession => True
  | _ => False

/-- Every message has been handled, nothing is asked, and nobody waits. -/
structure AtRest : Prop where
  mailboxes : ∀ l, (σ.server.rooms l).mailbox = []
  asks : ∀ l, σ.asks l = none
  requests : σ.requests = []

/-- Two steps are to come for an actor that may ask. -/
def asking (l : LobbyRef) : Nat := if σ.asks l = none then 2 else 0

/-- How many steps can be left of a room. A message stands for three, so that the one that starts a session pays for the
    ask. -/
def due (l : LobbyRef) : Nat := 3 * (σ.server.rooms l).weight + σ.asking l

/-- How many steps can be left. -/
def weight : Nat := ∑ l ∈ Finset.range σ.server.created, σ.due l + σ.requests.length

/-- What the steps of the sessions leave alone. -/
def front : Server × List CreateSession × (LobbyRef → Option Ask) × Nat := (σ.server, σ.requests, σ.asks, σ.asked)

variable {σ} {σ' : Site} {accepts : Int → Bool} {l : LobbyRef}

theorem AtRest.of_front (h : σ.AtRest) (heq : σ'.front = σ.front) : σ'.AtRest := by
  obtain ⟨hserver, hrequests, hasks, -⟩ : σ'.server = σ.server ∧ σ'.requests = σ.requests ∧ σ'.asks = σ.asks ∧
      σ'.asked = σ.asked := by simpa [front] using heq
  refine ⟨fun l => ?_, fun l => ?_, ?_⟩
  · rw [hserver]
    exact h.mailboxes l
  · rw [hasks]
    exact h.asks l
  · rw [hrequests]
    exact h.requests

theorem reply_eq_none_iff {request : CreateSession} {answer : Int × SessionRef} :
    σ.reply request answer l = none ↔ σ.asks l = none := by
  unfold reply
  split
  · rename_i hask
    by_cases hl : l = request.sender
    · subst hl
      rw [Function.update_self, hask]
      exact iff_of_false nofun nofun
    · rw [Function.update_of_ne hl]
  · exact Iff.rfl

/-- The weight of a state that has the same rooms and requests, and in which the same actors wait. -/
theorem weight_eq (hserver : σ'.server = σ.server) (hrequests : σ'.requests = σ.requests)
    (hasks : ∀ l, σ'.asks l = none ↔ σ.asks l = none) : σ'.weight = σ.weight := by
  have hdue : σ'.due = σ.due := by
    funext l
    unfold due asking
    simp only [hserver, hasks]
  unfold weight
  rw [hserver, hrequests, hdue]

/-- What an action does to the weight does not depend on the sessions. -/
theorem weight_step_congr (heq : σ'.front = σ.front) (a : SiteAction) :
    (σ'.step accepts a).weight = (σ.step accepts a).weight := by
  obtain ⟨server, sessions, requests, asks, asked⟩ := σ
  obtain ⟨server', sessions', requests', asks', asked'⟩ := σ'
  obtain ⟨rfl, rfl, rfl, rfl⟩ : server' = server ∧ requests' = requests ∧ asks' = asks ∧ asked' = asked := by
    simpa [front] using heq
  cases a with
  | received c raw => exact weight_eq rfl rfl fun _ => Iff.rfl
  | closed c => exact weight_eq rfl rfl fun _ => Iff.rfl
  | handle l =>
    simp only [step]
    split
    · exact weight_eq rfl rfl fun _ => Iff.rfl
    · split
      · exact weight_eq rfl rfl fun _ => Iff.rfl
      · exact weight_eq rfl rfl fun _ => Iff.rfl
  | answered l =>
    simp only [step]
    split
    · exact weight_eq rfl rfl fun _ => Iff.rfl
    · exact weight_eq rfl rfl fun _ => Iff.rfl
  | expired l =>
    simp only [step]
    split
    · exact weight_eq rfl rfl fun _ => Iff.rfl
    · exact weight_eq rfl rfl fun _ => Iff.rfl
  | createSession =>
    cases requests' with
    | nil => exact weight_eq rfl rfl fun _ => Iff.rfl
    | cons request rest =>
      refine weight_eq rfl rfl fun l => ?_
      exact reply_eq_none_iff.trans reply_eq_none_iff.symm
  | session a => cases a <;> exact weight_eq rfl rfl fun _ => Iff.rfl

/-- A sum of which one term changes. -/
theorem sum_lt_sum_of_one {f g : Nat → Nat} {n i k k' : Nat} (hi : i < n) (hothers : ∀ j ≠ i, g j = f j)
    (hless : g i + k' < f i + k) : ∑ j ∈ Finset.range n, g j + k' < ∑ j ∈ Finset.range n, f j + k := by
  have hsum := sum_of_one hi hothers
  omega

/-- A step of one room. -/
theorem weight_lt (hcreated : σ'.server.created = σ.server.created) (hl : l < σ.server.created)
    (hothers : ∀ l' ≠ l, σ'.due l' = σ.due l')
    (hless : σ'.due l + σ'.requests.length < σ.due l + σ.requests.length) : σ'.weight < σ.weight := by
  unfold weight
  rw [hcreated]
  exact sum_lt_sum_of_one hl hothers hless

variable {ipBackend : String} {portBackend : Int} {launches : List Launch}

/-- The wait of an actor ends. -/
theorem weight_resume (h : Launching accepts ipBackend portBackend launches σ) (hlives : σ.server.Lives) {ask : Ask}
    (hask : σ.asks l = some ask) (answer : Option Int) : (σ.resume l answer).weight < σ.weight := by
  obtain ⟨-, sender, data, rest, hmailbox⟩ := Room.startsSession_iff.mp (h.waiting l ask hask).1
  have hless := Server.room_weight hmailbox answer
  have hasking : σ.asking l = 0 := if_neg (by rw [hask]; nofun)
  have hasking' : (σ.resume l answer).asking l = 2 := if_pos (by rw [resume_asks, if_pos rfl])
  have hroom : (σ.resume l answer).server.rooms l = (σ.server.handle l answer).rooms l := rfl
  refine weight_lt rfl (hlives.created (h.open (h.waiting l ask hask).1)) (fun l' hl' => ?_) ?_
  · unfold due asking
    rw [resume_asks, if_neg hl']
    exact congrArg (fun r : Room => 3 * r.weight + _) (Server.handle_other hl')
  · have hrequests : (σ.resume l answer).requests = σ.requests := rfl
    rw [due, due, hasking, hasking', hroom, hrequests]
    omega

/-- An actor asks for a session. -/
theorem weight_ask (hl : l < σ.server.created) (hidle : σ.asks l = none) : (σ.ask l).weight < σ.weight := by
  have hasks (l' : LobbyRef) : (σ.ask l).asks l' = if l' = l then some ⟨σ.asked, none⟩ else σ.asks l' :=
    Function.update_apply σ.asks l _ l'
  have hasking : σ.asking l = 2 := if_pos hidle
  have hasking' : (σ.ask l).asking l = 0 := if_neg (by rw [hasks, if_pos rfl]; nofun)
  have hserver : (σ.ask l).server = σ.server := rfl
  refine weight_lt rfl hl (fun l' hl' => ?_) ?_
  · unfold due asking
    rw [hasks, if_neg hl', hserver]
  · have hlength : (σ.ask l).requests.length = σ.requests.length + 1 := List.length_append
    rw [due, due, hasking, hasking', hserver, hlength]
    omega

/-- An actor handles a message. -/
theorem weight_handle (hl : l < σ.server.created) {mail : Mail} {rest : List Mail}
    (hmailbox : (σ.server.rooms l).mailbox = mail :: rest) (answer : Option Int) :
    weight { σ with server := σ.server.handle l answer } < σ.weight := by
  have hless := Server.room_weight hmailbox answer
  refine weight_lt rfl hl (fun l' hl' => ?_) ?_
  · exact congrArg (fun r : Room => 3 * r.weight + σ.asking l') (Server.handle_other hl')
  · have hasking : asking { σ with server := σ.server.handle l answer } l = σ.asking l := rfl
    unfold due
    rw [hasking]
    dsimp only
    omega

theorem weight_createSession {request : CreateSession} {rest : List CreateSession}
    (hrequests : σ.requests = request :: rest) : (σ.step accepts .createSession).weight < σ.weight := by
  have hstep : (σ.step accepts .createSession).server = σ.server ∧ (σ.step accepts .createSession).requests = rest ∧
      ∀ l, (σ.step accepts .createSession).asks l = none ↔ σ.asks l = none := by
    simp only [step, hrequests, true_and]
    exact fun _ => reply_eq_none_iff
  obtain ⟨hserver, hrest, hasks⟩ := hstep
  have hdue : (σ.step accepts .createSession).due = σ.due := by
    funext l
    unfold due asking
    simp only [hserver, hasks]
  unfold weight
  rw [hserver, hdue, hrest, hrequests, List.length_cons]
  exact Nat.lt_succ_self _

/-- A step of the server itself leaves fewer steps, or leaves the rooms and the requests alone. -/
theorem step_front (h : Launching accepts ipBackend portBackend launches σ) (hlives : σ.server.Lives) {a : SiteAction}
    (hinternal : a.isInternal = true) : (σ.step accepts a).front = σ.front ∨ (σ.step accepts a).weight < σ.weight := by
  cases a with
  | received c raw => cases hinternal
  | closed c => cases hinternal
  | handle l =>
    cases hask : σ.asks l with
    | some ask =>
      left
      simp only [step, hask]
    | none =>
      cases hmailbox : (σ.server.rooms l).mailbox with
      | nil =>
        left
        have hquiet : (σ.server.rooms l).startsSession = false := Bool.eq_false_iff.mpr fun hstarts => by
          obtain ⟨-, _, _, _, hfirst⟩ := Room.startsSession_iff.mp hstarts
          cases hmailbox.symm.trans hfirst
        simp only [step, hask, hquiet, Server.step, Server.handle_idle hmailbox]
        rfl
      | cons mail rest =>
        right
        -- A room that has a message has been created, so it counts.
        have hl : l < σ.server.created := by
          by_contra hnot
          rw [hlives.fresh l (Nat.le_of_not_lt hnot)] at hmailbox
          cases hmailbox
        simp only [step, hask]
        split
        · exact weight_ask hl hask
        · exact weight_handle hl hmailbox none
  | answered l =>
    simp only [step]
    split
    · rename_i hask
      exact Or.inr (weight_resume h hlives hask _)
    · exact Or.inl rfl
  | expired l =>
    simp only [step]
    split
    · rename_i hask
      exact Or.inr (weight_resume h hlives hask _)
    · exact Or.inl rfl
  | createSession =>
    cases hrequests : σ.requests with
    | nil =>
      left
      simp only [step, hrequests]
    | cons request rest => exact Or.inr (weight_createSession hrequests)
  | session a => cases a <;> exact Or.inl rfl

/-! ### Schedules -/

/-- A server that is not at rest has a turn to take that leaves fewer steps. -/
theorem exists_turn (h : Launching accepts ipBackend portBackend launches σ) (hlives : σ.server.Lives)
    (hbusy : ¬σ.AtRest) : ∃ a, σ.HasTurn a ∧ (σ.step accepts a).weight < σ.weight := by
  -- The backend comes first, then a room that waits for it, then a room with a message.
  by_cases hrequests : σ.requests = []
  · by_cases hasks : ∀ l, σ.asks l = none
    · by_cases hmailboxes : ∀ l, (σ.server.rooms l).mailbox = []
      · exact absurd ⟨hmailboxes, hasks, hrequests⟩ hbusy
      · obtain ⟨l, hl⟩ := not_forall.mp hmailboxes
        obtain ⟨mail, rest, hmailbox⟩ := List.exists_cons_of_ne_nil hl
        have hless : l < σ.server.created := by
          by_contra hnot
          rw [hlives.fresh l (Nat.le_of_not_lt hnot)] at hl
          exact hl rfl
        refine ⟨.handle l, hless, ?_⟩
        simp only [step, hasks l]
        split
        · exact weight_ask hless (hasks l)
        · exact weight_handle hless hmailbox none
    · obtain ⟨l, hl⟩ := not_forall.mp hasks
      obtain ⟨⟨ticket, answer⟩, hask⟩ := Option.ne_none_iff_exists'.mp hl
      have hless := hlives.created (h.open (h.waiting l _ hask).1)
      cases answer with
      | none =>
        refine ⟨.expired l, hless, ?_⟩
        simp only [step, hask]
        exact weight_resume h hlives hask none
      | some answer =>
        refine ⟨.answered l, hless, ?_⟩
        simp only [step, hask]
        exact weight_resume h hlives hask (some answer.1)
  · obtain ⟨request, rest, hcons⟩ := List.exists_cons_of_ne_nil hrequests
    exact ⟨.createSession, trivial, weight_createSession hcons⟩

/-- What is true of every state of a run, with the number of lobby actors. -/
def Running (accepts : Int → Bool) (ipBackend : String) (portBackend : Int) (created : LobbyRef) (σ : Site) : Prop :=
  (∃ launches, Launching accepts ipBackend portBackend launches σ) ∧ σ.server.Lives ∧ σ.server.created = created

theorem lives_step (h : Launching accepts ipBackend portBackend launches σ) (hlives : σ.server.Lives) (a : SiteAction) :
    (σ.step accepts a).server.Lives := by
  cases a with
  | received c raw => exact hlives.step h.registry (.received c raw)
  | closed c => exact hlives.step h.registry (.closed c)
  | handle l =>
    simp only [step]
    split
    · exact hlives
    · split
      · exact hlives
      · exact hlives.step h.registry (.handle l none)
  | answered l =>
    simp only [step]
    split
    · exact hlives.step h.registry (.handle l _)
    · exact hlives
  | expired l =>
    simp only [step]
    split
    · exact hlives.step h.registry (.handle l none)
    · exact hlives
  | createSession =>
    simp only [step]
    split <;> exact hlives
  | session a => cases a <;> exact hlives

theorem created_internal {a : SiteAction} (hinternal : a.isInternal = true) :
    (σ.step accepts a).server.created = σ.server.created := by
  cases a with
  | received c raw => cases hinternal
  | closed c => cases hinternal
  | handle l =>
    simp only [step]
    split
    · rfl
    · split <;> rfl
  | answered l =>
    simp only [step]
    split <;> rfl
  | expired l =>
    simp only [step]
    split <;> rfl
  | createSession =>
    simp only [step]
    split <;> rfl
  | session a => cases a <;> rfl

theorem atRest_step (h : σ.AtRest) {a : SiteAction} (hinternal : a.isInternal = true) : (σ.step accepts a).AtRest := by
  refine h.of_front ?_
  cases a with
  | received c raw => cases hinternal
  | closed c => cases hinternal
  | handle l =>
    have hquiet : (σ.server.rooms l).startsSession = false := Bool.eq_false_iff.mpr fun hstarts => by
      obtain ⟨-, _, _, _, hfirst⟩ := Room.startsSession_iff.mp hstarts
      cases (h.mailboxes l).symm.trans hfirst
    simp only [step, h.asks l, hquiet, Server.step, Server.handle_idle (h.mailboxes l)]
    rfl
  | answered l => simp only [step, h.asks l]
  | expired l => simp only [step, h.asks l]
  | createSession => simp only [step, h.requests]
  | session a => cases a <;> rfl

theorem lessens (accepts : Int → Bool) (ipBackend : String) (portBackend : Int) (created : LobbyRef) :
    Machine.Lessens (step accepts) (Running accepts ipBackend portBackend created) AtRest
      (fun a => a.isInternal = true) weight where
  keeps σ a hσ hinternal := by
    obtain ⟨⟨launches, h⟩, hlives, hcreated⟩ := hσ
    exact ⟨⟨_, h.step a⟩, lives_step h hlives a, (created_internal hinternal).trans hcreated⟩
  le σ a hσ hinternal := by
    obtain ⟨⟨launches, h⟩, hlives, -⟩ := hσ
    rcases step_front h hlives hinternal with hfront | hless
    · obtain ⟨hserver, hrequests, hasks, -⟩ : (σ.step accepts a).server = σ.server ∧ (σ.step accepts a).requests =
          σ.requests ∧ (σ.step accepts a).asks = σ.asks ∧ (σ.step accepts a).asked = σ.asked := by
        simpa [front] using hfront
      exact Nat.le_of_eq (weight_eq hserver hrequests fun l => by rw [hasks])
    · exact Nat.le_of_lt hless
  persists σ a b hσ hinternal _ hless hsame := by
    obtain ⟨⟨launches, h⟩, hlives, -⟩ := hσ
    rcases step_front h hlives hinternal with hfront | hless'
    · rw [weight_step_congr hfront, hsame]
      exact hless
    · exact absurd hsame (Nat.ne_of_lt hless')
  done σ a _ hinternal hrest := atRest_step hrest hinternal

/-- When the clients are silent, and every lobby actor and the backend get their turns again and again, the server comes
    to rest, whatever it was doing, and stays so: no message is left, nothing is asked, and nobody waits. -/
theorem comes_to_rest (accepts : Int → Bool) (ipBackend : String) (portBackend clock : Int) (as : List SiteAction)
    (turns : Nat → SiteAction) (hsilent : ∀ n, (turns n).isInternal = true)
    (hfair : ∀ a, HasTurn (Machine.run (step accepts) (start ipBackend portBackend clock) as) a →
      ∀ n, ∃ d, turns (n + d) = a) :
    ∃ n, ∀ m, n ≤ m → AtRest (Machine.trace (step accepts)
      (Machine.run (step accepts) (start ipBackend portBackend clock) as) turns m) := by
  have hlives : (Machine.run (step accepts) (start ipBackend portBackend clock) as).server.Lives := by
    have hboth : (∃ launches, Launching accepts ipBackend portBackend launches
        (Machine.run (step accepts) (start ipBackend portBackend clock) as)) ∧
        (Machine.run (step accepts) (start ipBackend portBackend clock) as).server.Lives :=
      Machine.run_keeps
        (P := fun σ => (∃ launches, Launching accepts ipBackend portBackend launches σ) ∧ σ.server.Lives)
        (fun σ a hσ => by
          obtain ⟨⟨launches, h⟩, hlives⟩ := hσ
          exact ⟨⟨_, h.step a⟩, lives_step h hlives a⟩) ⟨⟨[], .start⟩, .start ipBackend portBackend⟩ as
    exact hboth.2
  have hrunning : Running accepts ipBackend portBackend _
      (Machine.run (step accepts) (start ipBackend portBackend clock) as) :=
    ⟨⟨_, launching_run accepts ipBackend portBackend clock as⟩, hlives, rfl⟩
  refine (lessens accepts ipBackend portBackend _).eventually_done hrunning hsilent fun n hbusy => ?_
  obtain ⟨⟨launches, h⟩, hlives, hcreated⟩ :=
    (lessens accepts ipBackend portBackend _).invariant hrunning hsilent n
  obtain ⟨a, hturn, hless⟩ := exists_turn h hlives hbusy
  have hdue : HasTurn (Machine.run (step accepts) (start ipBackend portBackend clock) as) a := by
    cases a with
    | handle l => exact Nat.lt_of_lt_of_eq hturn hcreated
    | answered l => exact Nat.lt_of_lt_of_eq hturn hcreated
    | expired l => exact Nat.lt_of_lt_of_eq hturn hcreated
    | createSession => trivial
    | _ => exact hturn.elim
  obtain ⟨d, hd⟩ := hfair a hdue n
  exact ⟨d, by rw [hd]; exact hless⟩

/-- One lobby actor and the backend, one after the other. -/
def inTurn (n : Nat) : SiteAction :=
  match n % 4 with
  | 0 => .handle 0
  | 1 => .answered 0
  | 2 => .expired 0
  | _ => .createSession

theorem inTurn_again {k : Nat} (hk : k < 4) (n : Nat) : ∃ d, (n + d) % 4 = k := ⟨(k + 4 - n % 4) % 4, by omega⟩

/-- A room is opened, and its host starts a session. -/
def starting : List SiteAction :=
  [.received 0 (some (.createRoom "Ann" "room" "" 2 0 "")), .handle 0,
    .received 0 (some (.envelop "room" (some (.startSession "data"))))]

theorem comes_to_rest_starting : ∃ n, ∀ m, n ≤ m → AtRest (Machine.trace (step fun _ => true)
    (Machine.run (step fun _ => true) (start "localhost" 8700 0) starting) inTurn m) := by
  refine comes_to_rest (fun _ => true) "localhost" 8700 0 starting inTurn (fun n => ?_) fun a hturn n => ?_
  · unfold inTurn
    split <;> rfl
  · have hcreated : (Machine.run (step fun _ => true) (start "localhost" 8700 0) starting).server.created = 1 := rfl
    cases a with
    | handle l =>
      obtain rfl : l = 0 := Nat.lt_one_iff.mp (Nat.lt_of_lt_of_eq hturn hcreated)
      obtain ⟨d, hd⟩ := inTurn_again (k := 0) (by decide) n
      exact ⟨d, by simp only [inTurn, hd]⟩
    | answered l =>
      obtain rfl : l = 0 := Nat.lt_one_iff.mp (Nat.lt_of_lt_of_eq hturn hcreated)
      obtain ⟨d, hd⟩ := inTurn_again (k := 1) (by decide) n
      exact ⟨d, by simp only [inTurn, hd]⟩
    | expired l =>
      obtain rfl : l = 0 := Nat.lt_one_iff.mp (Nat.lt_of_lt_of_eq hturn hcreated)
      obtain ⟨d, hd⟩ := inTurn_again (k := 2) (by decide) n
      exact ⟨d, by simp only [inTurn, hd]⟩
    | createSession =>
      obtain ⟨d, hd⟩ := inTurn_again (k := 3) (by decide) n
      exact ⟨d, by simp only [inTurn, hd]⟩
    | _ => exact hturn.elim

end Site

end MultiSlider
