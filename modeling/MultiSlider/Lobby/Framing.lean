import MultiSlider.Lib.Framing
import MultiSlider.Lobby.Lobby
import MultiSlider.Lobby.Server

/-! The pieces in which the stream of a TCP connection arrives, and what the two ends make of them. `tryReceive`
    and `Tcp.Received` each hand over what has come in by then, and it is taken for one message. The parsers are
    parameters. -/

namespace MultiSlider

/-- What one `tryReceive` returns, or one `Tcp.Received` carries. -/
abbrev Text := List UInt8

/-- White space between the tokens of JSON. -/
def isBlank (b : UInt8) : Bool := b == 0x20 || b == 0x09 || b == 0x0A || b == 0x0D

/-- The message ends the loop of `receive`. -/
def RoomMessage.isEjected : RoomMessage → Bool
  | .ejected _ => true
  | _ => false

/-- What calls of `receive` leave: the object, what they make of each text that they take (`none` where the call
    throws), and the texts that they do not take. -/
structure Receipt where
  lobby : Lobby
  handled : List (Option RoomMessage)
  rest : List Text

/-- The same after these have been handled. -/
def Receipt.after (r : Receipt) (handled : List (Option RoomMessage)) : Receipt :=
  { r with handled := handled ++ r.handled }

/-- These messages are handled, one from each text, and no text is left. -/
def Receipt.Got (r : Receipt) (ms : List RoomMessage) : Prop := r.handled = ms.map some ∧ r.rest = []

/-- A call has thrown, or all texts are taken, or the player is not in the room. -/
def Receipt.Done (r : Receipt) : Prop := none ∈ r.handled ∨ r.rest = [] ∨ ¬r.lobby.isJoined

namespace Lobby

/-- The classes of message that `receive` knows. -/
def handles : RoomMessage → Bool
  | .update .. => true
  | .sessionStarted .. => true
  | .ejected _ => true
  | .message .. => true
  | .reconfigureSucc _ => true
  | .reconfigureSuck => true
  | _ => false

section
variable (parse : Text → Option RoomMessage)

/-- What `receive` makes of a text; `parse` gives the message that the object holds after `Object::parse`,
    whatever this returns. -/
def read (text : Text) : Option RoomMessage := (parse text).filter handles

/-- The loop of `receive`, where `tryReceive` returns these texts and then nothing. -/
def receiveLoop (s : Lobby) : List Text → Receipt
  | [] => ⟨s, [], []⟩
  | text :: texts =>
    if s.isJoined then
      if text = [] then ⟨s, [], texts⟩
      else
        match read parse text with
        | some message => (receiveLoop (s.receive message) texts).after [some message]
        | none => ⟨s, [none], texts⟩
    else ⟨s, [], text :: texts⟩

/-- Calls of `receive`, with the texts that have come in before each of them; `pending` are there from before. -/
def receiveCalls (s : Lobby) (pending : List Text) : List (List Text) → Receipt
  | [] => ⟨s, [], pending⟩
  | arrived :: calls =>
    let r := receiveLoop parse s (pending ++ arrived)
    (receiveCalls r.lobby r.rest calls).after r.handled

/-- The texts one after another, wherever the calls begin and end, until the player is not in the room. -/
def receives (s : Lobby) : List Text → Receipt
  | [] => ⟨s, [], []⟩
  | text :: texts =>
    if s.isJoined then
      match read parse text with
      | some message => (receives (s.receive message) texts).after [some message]
      | none => (receives s texts).after [none]
    else ⟨s, [], text :: texts⟩

end

variable {parse : Text → Option RoomMessage} {s : Lobby} {texts more pending : List Text} {calls : List (List Text)}
  {ms : List RoomMessage}

theorem receive_isJoined (message : RoomMessage) :
    (s.receive message).isJoined = (s.isJoined && !message.isEjected) := by
  unfold receive
  split
  · next hjoined => cases message <;> simp [RoomMessage.isEjected, hjoined]
  · next hleft => simp [hleft]

theorem receives_left (h : ¬s.isJoined) : receives parse s texts = ⟨s, [], texts⟩ := by
  cases texts with
  | nil => rfl
  | cons text texts => exact if_neg h

/-! ### Calls -/

theorem receiveLoop_done (hne : [] ∉ texts) : (receiveLoop parse s texts).Done := by
  induction texts generalizing s with
  | nil => exact Or.inr (Or.inl rfl)
  | cons text texts ih =>
    rw [List.mem_cons, not_or] at hne
    unfold receiveLoop
    split
    · rw [if_neg (Ne.symm hne.1)]
      split
      · next message _ => exact (ih (s := s.receive message) hne.2).imp_left (List.mem_cons_of_mem (some message))
      · exact Or.inl List.mem_cons_self
    · next hleft => exact Or.inr (Or.inr hleft)

theorem receiveLoop_rest : (receiveLoop parse s texts).rest ⊆ texts := by
  induction texts generalizing s with
  | nil => exact List.Subset.refl []
  | cons text texts ih =>
    unfold receiveLoop
    split
    · split
      · exact List.subset_cons_self text texts
      · split
        · exact List.Subset.trans ih (List.subset_cons_self text texts)
        · exact List.subset_cons_self text texts
    · exact List.Subset.refl _

/-- What comes after a call is as if the call had not ended. -/
theorem receives_loop (hne : [] ∉ texts) : receives parse s (texts ++ more) =
    (receives parse (receiveLoop parse s texts).lobby ((receiveLoop parse s texts).rest ++ more)).after
      (receiveLoop parse s texts).handled := by
  induction texts generalizing s with
  | nil => rfl
  | cons text texts ih =>
    rw [List.mem_cons, not_or] at hne
    unfold receiveLoop
    rw [List.cons_append, receives]
    split
    · rw [if_neg (Ne.symm hne.1)]
      split
      · rw [ih hne.2]
        rfl
      · rfl
    · next hleft =>
      rw [receives_left hleft]
      rfl

theorem receiveCalls_done (hne : [] ∉ pending ++ calls.flatten) (hstart : pending = [] ∨ ¬s.isJoined) :
    (receiveCalls parse s pending calls).Done := by
  induction calls generalizing s pending with
  | nil => exact Or.inr hstart
  | cons arrived calls ih =>
    rw [List.flatten_cons, ← List.append_assoc, List.mem_append, not_or] at hne
    have hne' : [] ∉ (receiveLoop parse s (pending ++ arrived)).rest ++ calls.flatten := fun hmem =>
      (List.mem_append.mp hmem).elim (fun h => hne.1 (receiveLoop_rest h)) hne.2
    rcases receiveLoop_done hne.1 with hnone | hdone
    · exact Or.inl (List.mem_append_left _ hnone)
    · exact (ih hne' hdone).imp_left (List.mem_append_right _)

theorem receives_calls (hne : [] ∉ pending ++ calls.flatten) : receives parse s (pending ++ calls.flatten) =
    (receives parse (receiveCalls parse s pending calls).lobby (receiveCalls parse s pending calls).rest).after
      (receiveCalls parse s pending calls).handled := by
  induction calls generalizing s pending with
  | nil =>
    rw [List.flatten_nil, List.append_nil]
    rfl
  | cons arrived calls ih =>
    rw [List.flatten_cons, ← List.append_assoc] at hne ⊢
    rw [List.mem_append, not_or] at hne
    have hne' : [] ∉ (receiveLoop parse s (pending ++ arrived)).rest ++ calls.flatten := fun hmem =>
      (List.mem_append.mp hmem).elim (fun h => hne.1 (receiveLoop_rest h)) hne.2
    rw [receives_loop hne.1, ih hne']
    simp only [receiveCalls, Receipt.after, List.append_assoc]

/-- How the texts are shared out among the calls makes no difference to whether all goes well. -/
theorem receiveCalls_got_iff (hne : [] ∉ calls.flatten) :
    (receiveCalls parse s [] calls).Got ms ↔ (receives parse s calls.flatten).Got ms := by
  have hdone : (receiveCalls parse s [] calls).Done := receiveCalls_done hne (Or.inl rfl)
  rw [← List.nil_append calls.flatten, receives_calls hne]
  generalize receiveCalls parse s [] calls = r at hdone
  constructor
  · rintro ⟨hhandled, hrest⟩
    rw [hrest]
    exact ⟨by rw [Receipt.after, receives, List.append_nil, hhandled], rfl⟩
  · rintro ⟨hhandled, hrest⟩
    have hrest' : r.rest = [] := by
      rcases hdone with hnone | hrest' | hleft
      · have hmem : none ∈ ms.map some := by
          rw [← hhandled]
          exact List.mem_append_left _ hnone
        simp at hmem
      · exact hrest'
      · rw [receives_left hleft] at hrest
        exact hrest
    rw [hrest'] at hhandled
    exact ⟨by rw [← hhandled, Receipt.after, receives, List.append_nil], hrest'⟩

/-- All goes well exactly if each text is read as the next message and the player does not leave before the last. -/
theorem receives_got_iff : (receives parse s texts).Got ms ↔
    (ms = [] ∨ s.isJoined) ∧ texts.map (read parse) = ms.map some ∧ ∀ message ∈ ms.dropLast, ¬message.isEjected := by
  induction texts generalizing s ms with
  | nil =>
    cases ms with
    | nil => simp [receives, Receipt.Got]
    | cons message ms => simp [receives, Receipt.Got]
  | cons text texts ih =>
    by_cases hjoined : s.isJoined
    · rw [receives, if_pos hjoined]
      cases hread : read parse text with
      | none => cases ms <;> simp [Receipt.Got, Receipt.after, hread]
      | some message =>
        cases ms with
        | nil => simp [Receipt.Got, Receipt.after]
        | cons message' ms =>
          have hcons : ((receives parse (s.receive message) texts).after [some message]).Got (message' :: ms) ↔
              message = message' ∧ (receives parse (s.receive message) texts).Got ms := by
            simp [Receipt.Got, Receipt.after, and_assoc]
          rw [hcons, ih, receive_isJoined, hjoined]
          cases ms with
          | nil => simp [hread]
          | cons message'' ms =>
            rw [List.dropLast_cons_of_ne_nil (List.cons_ne_nil message'' ms), List.forall_mem_cons]
            simp only [List.map_cons, List.cons.injEq, hread, Option.some.injEq, reduceCtorEq, false_or,
              Bool.true_and, Bool.not_eq_true', Bool.not_eq_true]
            grind
    · rw [receives_left hjoined]
      refine iff_of_false (fun h => List.cons_ne_nil text texts h.2) fun ⟨hms, hmap, _⟩ => ?_
      rw [hms.resolve_right hjoined] at hmap
      exact List.cons_ne_nil _ _ hmap

end Lobby

namespace Server

/-- What comes in on a connection in a run: what each `Tcp.Received` is parsed into. -/
def received (c : Connection) : List ServerAction → List (Option FrontendMessage)
  | [] => []
  | .received c' raw :: as => if c' = c then raw :: received c as else received c as
  | _ :: as => received c as

/-- What `Client.receive` of a connection makes of it. -/
def handled (c : Connection) : Server → List ServerAction → List (Option FrontendMessage)
  | _, [] => []
  | σ, .received c' raw :: as =>
    if c' = c ∧ ¬(σ.clients c).stopped then raw :: handled c (σ.step (.received c' raw)) as
    else handled c (σ.step (.received c' raw)) as
  | σ, a :: as => handled c (σ.step a) as

variable {c : Connection} {σ : Server} {as : List ServerAction}

/-- A client actor runs until its connection is closed. -/
theorem step_running {a : ServerAction} (hopen : ¬(σ.clients c).stopped) (ha : .closed c ≠ a) :
    ¬((σ.step a).clients c).stopped := by
  cases a with
  | received c' raw =>
    by_cases hc : c = c'
    · subst hc
      simp only [step, turn, Function.update_self, Client.receive_stopped]
      exact hopen
    · simp only [step, turn, Function.update_of_ne hc]
      exact hopen
  | closed c' =>
    have hc : c ≠ c' := fun hc => ha (by rw [hc])
    simp only [step, turn, Function.update_of_ne hc]
    exact hopen
  | handle l answer => exact hopen

/-- As long as its connection is open, a client actor handles all that comes in. -/
theorem handled_eq (hopen : ¬(σ.clients c).stopped) (hclosed : .closed c ∉ as) : handled c σ as = received c as := by
  induction as generalizing σ with
  | nil => rfl
  | cons a as ih =>
    rw [List.mem_cons, not_or] at hclosed
    have ih := ih (step_running hopen hclosed.1) hclosed.2
    cases a with
    | received c' raw =>
      unfold handled received
      by_cases hc : c' = c
      · rw [if_pos ⟨hc, hopen⟩, if_pos hc, ih]
      · rw [if_neg fun h => hc h.1, if_neg hc, ih]
    | closed c' => exact ih
    | handle l answer => exact ih

end Server

/-- Whatever pieces the streams come in, `Lobby::receive`, in any number of calls, and a `Client` actor handle the
    messages written to them, in order, exactly if each piece holds one message. `Lobby::receive` needs the player
    to be in the room until the last of them. -/
theorem framed_iff {parse : Text → Option RoomMessage} {write : RoomMessage → Text} {ms : List RoomMessage}
    (hreads : Framing.Reads isBlank write (Lobby.read parse) ms) (s : Lobby) (calls : List (List Text))
    (hne : [] ∉ calls.flatten) (hstream : calls.flatten.flatten = Framing.stream write ms)
    {parse' : Text → Option FrontendMessage} {write' : FrontendMessage → Text} {ms' : List FrontendMessage}
    (hreads' : Framing.Reads isBlank write' parse' ms') (σ : Server) (c : Connection) (as : List ServerAction)
    (texts : List Text) (hopen : ¬(σ.clients c).stopped) (hclosed : .closed c ∉ as)
    (hreceived : Server.received c as = texts.map parse') (hstream' : texts.flatten = Framing.stream write' ms') :
    ((s.receiveCalls parse [] calls).Got ms ↔ Framing.Exact isBlank write calls.flatten ms ∧
      (ms = [] ∨ s.isJoined) ∧ ∀ message ∈ ms.dropLast, ¬message.isEjected) ∧
    (σ.handled c as = ms'.map some ↔ Framing.Exact isBlank write' texts ms') := by
  constructor
  · rw [Lobby.receiveCalls_got_iff hne, Lobby.receives_got_iff, hreads.map_read_iff hstream]
    exact and_left_comm
  · rw [Server.handled_eq hopen hclosed, hreceived, hreads'.map_read_iff hstream']

/-! ### Two messages -/

/-- A text of ASCII characters. -/
def bytes (raw : String) : Text := raw.toList.map fun char => char.toNat.toUInt8

/-- `ReconfigureSuck` as the server writes it, without the opening brace. -/
def reconfigureSuckText : Text := bytes "\"jsonClass\":\"FrontendMessage$ReconfigureSuck\"\x7d"

/-- `CloseRoom` as a `Lobby` writes it, without the opening brace. -/
def closeRoomText : Text := bytes "\n\t\"jsonClass\": \"FrontendMessage$CloseRoom\" \n\x7d \n"

/-- The object has its class before the closing brace comes, and `receive` does not ask whether it came. -/
def parseReconfigureSuck : Text → Option RoomMessage :=
  Framing.first isBlank (0x7B :: reconfigureSuckText.dropLast) .reconfigureSuck

/-- A parser that knows one message. -/
def parseCloseRoom : Text → Option FrontendMessage :=
  Framing.first isBlank (0x7B :: closeRoomText.take 45) .closeRoom

theorem read_reconfigureSuck : Lobby.read parseReconfigureSuck = parseReconfigureSuck := by
  funext text
  unfold Lobby.read parseReconfigureSuck Framing.first
  split <;> rfl

instance Receipt.Got.decidable (r : Receipt) (ms : List RoomMessage) : Decidable (r.Got ms) :=
  inferInstanceAs (Decidable (r.handled = ms.map some ∧ r.rest = []))

/-- Each message comes in a piece of its own, at both ends. -/
theorem framed_iff_whole :
    let s : Lobby := { Lobby.create with isJoined := true }
    let w := 0x7B :: reconfigureSuckText
    let v := 0x7B :: closeRoomText
    (s.receiveCalls parseReconfigureSuck [] [[w], [w]]).Got [.reconfigureSuck, .reconfigureSuck] ∧
      Server.handled 0 (Server.start "localhost" 8700)
        [.received 0 (parseCloseRoom v), .received 0 (parseCloseRoom v)] = [some .closeRoom, some .closeRoom] := by
  intro s w v
  have hw : Framing.Reads isBlank (fun _ => w) (Lobby.read parseReconfigureSuck)
      [.reconfigureSuck, .reconfigureSuck] := by
    rw [read_reconfigureSuck]
    exact Framing.first_reads (by decide +kernel) (by decide +kernel) 2
  have hv : Framing.Reads isBlank (fun _ => v) parseCloseRoom [.closeRoom, .closeRoom] :=
    Framing.first_reads (by decide +kernel) (by decide +kernel) 2
  obtain ⟨hlobby, hclient⟩ := framed_iff hw s [[w], [w]] (by decide +kernel) (by decide +kernel) hv
    (Server.start "localhost" 8700) 0 [.received 0 (parseCloseRoom v), .received 0 (parseCloseRoom v)] [v, v]
    (by decide) (by simp) rfl (by decide +kernel)
  exact ⟨hlobby.mpr ⟨.cons rfl (.cons rfl .nil), by decide, by decide⟩, hclient.mpr (.cons rfl (.cons rfl .nil))⟩

/-- Of two messages in one piece the second is dropped, and both pieces of a message that is cut are rejected. -/
theorem pieces_misread :
    let s : Lobby := { Lobby.create with isJoined := true }
    let σ := Server.start "localhost" 8700
    let w := fun _ : RoomMessage => 0x7B :: reconfigureSuckText
    let v := fun _ : FrontendMessage => 0x7B :: closeRoomText
    (¬∀ calls : List (List Text), [] ∉ calls.flatten →
      calls.flatten.flatten = Framing.stream w [.reconfigureSuck, .reconfigureSuck] →
      (s.receiveCalls parseReconfigureSuck [] calls).Got [.reconfigureSuck, .reconfigureSuck]) ∧
    (¬∀ calls : List (List Text), [] ∉ calls.flatten → calls.flatten.flatten = Framing.stream w [.reconfigureSuck] →
      (s.receiveCalls parseReconfigureSuck [] calls).Got [.reconfigureSuck]) ∧
    (¬∀ texts : List Text, [] ∉ texts → texts.flatten = Framing.stream v [.closeRoom, .closeRoom] →
      σ.handled 0 (texts.map fun text => .received 0 (parseCloseRoom text)) = [some .closeRoom, some .closeRoom]) ∧
    ¬∀ texts : List Text, [] ∉ texts → texts.flatten = Framing.stream v [.closeRoom] →
      σ.handled 0 (texts.map fun text => .received 0 (parseCloseRoom text)) = [some .closeRoom] := by
  intro s σ w v
  refine ⟨fun h => ?_, fun h => ?_, fun h => ?_, fun h => ?_⟩
  · exact absurd (h [[w .reconfigureSuck ++ w .reconfigureSuck]] (by decide +kernel) (by decide +kernel))
      (by decide +kernel)
  · exact absurd (h [[(w .reconfigureSuck).take 20, (w .reconfigureSuck).drop 20]] (by decide +kernel)
      (by decide +kernel)) (by decide +kernel)
  · exact absurd (h [v .closeRoom ++ v .closeRoom] (by decide +kernel) (by decide +kernel)) (by decide +kernel)
  · exact absurd (h [(v .closeRoom).take 20, (v .closeRoom).drop 20] (by decide +kernel) (by decide +kernel))
      (by decide +kernel)

end MultiSlider
