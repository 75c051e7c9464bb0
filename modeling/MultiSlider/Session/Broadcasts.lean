import MultiSlider.Session.Registers
import MultiSlider.Session.Session

/-! Clients that broadcast to one session over links that neither lose nor reorder. A broadcast is stamped
    with the reading of its client's own clock; what the session makes of the stamps depends on how the
    clocks run against each other and against themselves. -/

namespace MultiSlider

open LastWriter (Registers)

/-- A call of `broadcast` at a real time, in milliseconds. -/
structure Call where
  client : Address
  time : Nat
  data : String
  sharedData : String
  forced : Bool
deriving DecidableEq, Repr

/-- The session, and for each client the calls whose datagrams are on their way, oldest first. -/
structure Broadcasts where
  actor : SessionActor
  links : Address → List (Call × Payload)

/-- A client calls `broadcast`, the session gets the next datagram of a client, or anything happens to it that
    is no `Update`. -/
inductive Broadcasts.Action where
  | call (k : Call)
  | arrive (c : Address) (now : Int)
  | other (e : Event)
deriving DecidableEq, Repr

namespace Broadcasts

/-- A session of `players`; nothing is on its way. -/
def start (id : Nat) (players : List String) : Broadcasts := ⟨.create id players, fun _ => []⟩

/-- The clients of the session, and what their clocks read at a real time. -/
structure Group where
  client : Address → Session
  clock : Address → Nat → Nat
  names : Function.Injective fun c => (client c).playerName

variable (accepts : Int → Bool) (g : Group)

/-- The datagrams that a call sends; a session that is not started sends none. -/
def Group.sent (k : Call) : List Payload :=
  ((g.client k.client).broadcast (g.clock k.client k.time) k.data k.sharedData k.forced).sent.map (·.data)

/-- One action. -/
def step (σ : Broadcasts) : Action → Broadcasts
  | .call k => { σ with links := Function.update σ.links k.client (σ.links k.client ++ (g.sent k).map fun p => (k, p)) }
  | .arrive c now =>
    match σ.links c with
    | (_, payload) :: rest =>
      { actor := σ.actor.step accepts (.receive now c payload), links := Function.update σ.links c rest }
    | [] => σ
  | .other e => if e.write = none then { σ with actor := σ.actor.step accepts e } else σ

/-- The stamp of a call. -/
@[irreducible] def Group.stamp (k : Call) : Int := toLong (g.clock k.client k.time)

/-- The name that the client plays under. -/
def Group.name (c : Address) : String := (g.client c).playerName

/-- The write that a call asks the session for. -/
def Group.write (k : Call) : LastWriter.Write String Int String :=
  ⟨g.name k.client, g.stamp k, (some k.sharedData).filter (· ≠ "")⟩

/-- The calls whose datagrams the session gets while it runs and their players are live in it. -/
def heard (σ : Broadcasts) : Action → List Call
  | .arrive c _ =>
    match σ.links c with
    | (k, _) :: _ => if σ.actor.Plays (g.name c) then [k] else []
    | [] => []
  | _ => []

/-- The session accepts the `Update` that it gets from the client, and takes it for a sign of life. -/
def Accepted (c : Address) (σ : Broadcasts) : Action → Prop
  | .arrive c' now => c' = c → ∀ k payload rest, σ.links c = (k, payload) :: rest →
    (∃ player, σ.actor.stats.lookup (g.name c) = some (some player) ∧ player.updateTimestamp < g.stamp k) ∧
    ∃ player, (step accepts g σ (.arrive c now)).actor.stats.lookup (g.name c) = some (some player) ∧
      player.updateTimestamp = g.stamp k ∧ player.lastPingTime = now
  | _ => True

/-- The session runs, and the player of the client is live in it, whenever it gets a datagram of the client. -/
def StaysLive (c : Address) (σ : Broadcasts) : Action → Prop
  | .arrive c' _ => c' = c → σ.actor.Plays (g.name c)
  | _ => True

instance (c : Address) (σ : Broadcasts) : (a : Action) → Decidable (StaysLive g c σ a)
  | .call _ => isTrue trivial
  | .arrive c' _ => inferInstanceAs (Decidable (c' = c → σ.actor.Plays (g.name c)))
  | .other _ => isTrue trivial

/-- The calls of a client among the actions. -/
def callsOf (c : Address) (as : List Action) : List Call :=
  as.filterMap fun
    | .call k => if k.client = c then some k else none
    | _ => none

/-- What is on the links, and what the registers of the session are. -/
structure Good (σ : Broadcasts) (r : Registers String Int String) : Prop where
  stopped : σ.actor.StoppedEmpty
  holds : σ.actor.Holds r
  links : ∀ c, ∀ l ∈ σ.links c, l.1.client = c ∧
    l.2 = .json (.update (g.name c) (g.clock c l.1.time) l.1.forced l.1.data (some l.1.sharedData))

variable {accepts g} {σ : Broadcasts} {r : Registers String Int String}

theorem Good.start (id : Nat) (players : List String) : (start id players).Good g SessionActor.noWrites where
  stopped := fun hstop => absurd hstop (by simp [Broadcasts.start, SessionActor.create])
  holds := .create id players
  links c l hl := by cases hl

/-- A call sends one `Update` if its session is started, and nothing otherwise. -/
theorem Group.sent_eq (g : Group) (k : Call) : g.sent k = if (g.client k.client).started then
    [.json (.update (g.name k.client) (g.clock k.client k.time) k.forced k.data (some k.sharedData))] else [] := by
  unfold sent Session.broadcast Session.sends
  split
  · rfl
  · rfl

theorem Group.stamp_eq (g : Group) (k : Call) : g.stamp k = toLong (g.clock k.client k.time) := by
  unfold stamp
  rfl

theorem Group.write_stamp (g : Group) (k : Call) : (g.write k).stamp = g.stamp k := by
  simp only [write]

theorem writes_arrive {c : Address} (now : Int) {k : Call} (hk : k.client = c) :
    σ.actor.writes (.receive now c
      (.json (.update (g.name c) (g.clock c k.time) k.forced k.data (some k.sharedData)))) =
      if σ.actor.Plays (g.name c) then [g.write k] else [] := by
  subst hk
  have hwrite : (Event.receive now k.client (.json (.update (g.name k.client) (g.clock k.client k.time) k.forced k.data
      (some k.sharedData)))).write = some (g.write k) := by
    unfold Group.write
    rw [Group.stamp_eq]
    rfl
  have hwriter : (g.write k).writer = g.name k.client := rfl
  unfold SessionActor.writes
  rw [hwrite, Option.toList_some]
  split
  · rename_i hplays
    exact List.filter_cons_of_pos (by rw [hwriter, decide_eq_true hplays])
  · rename_i hplays
    exact List.filter_cons_of_neg (by rw [hwriter, decide_eq_false hplays]; decide)

/-- What a call puts on the link of its client. -/
theorem Good.call (accepts : Int → Bool) (h : σ.Good g r) (k : Call) : (step accepts g σ (.call k)).Good g r := by
  refine ⟨h.stopped, h.holds, fun c l hl => ?_⟩
  change l ∈ Function.update σ.links k.client (σ.links k.client ++ (g.sent k).map fun p => (k, p)) c at hl
  by_cases hc : c = k.client
  · subst hc
    rw [Function.update_self] at hl
    rcases List.mem_append.mp hl with hl | hl
    · exact h.links _ l hl
    · obtain ⟨payload, hpayload, rfl⟩ := List.mem_map.mp hl
      rw [Group.sent_eq] at hpayload
      split at hpayload
      · exact ⟨rfl, List.mem_singleton.mp hpayload⟩
      · cases hpayload
  · rw [Function.update_of_ne hc] at hl
    exact h.links c l hl

/-- What the session takes from a link. -/
theorem Good.arrive (accepts : Int → Bool) (h : σ.Good g r) (c : Address) (now : Int) :
    (step accepts g σ (.arrive c now)).Good g
      (Machine.run Registers.write r ((heard g σ (.arrive c now)).map g.write)) := by
  cases hlink : σ.links c with
  | nil =>
    simp only [Broadcasts.step, heard, hlink]
    exact h
  | cons l rest =>
    obtain ⟨k, payload⟩ := l
    obtain ⟨hk, hpayload⟩ := h.links c (k, payload) (hlink ▸ List.mem_cons_self)
    simp only at hk hpayload
    subst hpayload
    have hholds := h.holds.step accepts h.stopped
      (.receive now c (.json (.update (g.name c) (g.clock c k.time) k.forced k.data (some k.sharedData))))
    rw [writes_arrive now hk] at hholds
    simp only [Broadcasts.step, heard, hlink]
    refine ⟨?_, ?_, fun c' l hl => ?_⟩
    · exact h.stopped.step accepts _
    · split
      · next hplays =>
        rw [if_pos hplays] at hholds
        exact hholds
      · next hplays =>
        rw [if_neg hplays] at hholds
        exact hholds
    · by_cases hc : c' = c
      · subst hc
        simp only [Function.update_self] at hl
        exact h.links c' l (hlink ▸ List.mem_cons_of_mem _ hl)
      · simp only [Function.update_of_ne hc] at hl
        exact h.links c' l hl

/-- What has been heard is what the session has written. -/
theorem Good.step (accepts : Int → Bool) (h : σ.Good g r) (a : Action) :
    (step accepts g σ a).Good g (Machine.run Registers.write r ((heard g σ a).map g.write)) := by
  cases a with
  | call k => exact h.call accepts k
  | arrive c now => exact h.arrive accepts c now
  | other e =>
    simp only [Broadcasts.step, heard]
    split
    · next hnone =>
      have hholds := h.holds.step accepts h.stopped e
      have hwrites : σ.actor.writes e = [] := by simp [SessionActor.writes, hnone]
      rw [hwrites] at hholds
      exact ⟨h.stopped.step accepts e, hholds, h.links⟩
    · exact h

end Broadcasts

end MultiSlider
