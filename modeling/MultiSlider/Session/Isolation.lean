import MultiSlider.Session.Slots

/-! Which session a datagram is handed to. An id says which session has it now, not which one the sender means: a
    datagram that outlives its session goes to the next one with the same id. -/

namespace MultiSlider

namespace Sessions

/-- What a session was handed comes from its own clients, or from nobody's. -/
def Isolated (σ : Sessions) : Prop := ∀ i, ∀ m ∈ (σ.instances i).mailbox, ∀ s, m.owner = some s → s = i

/-- No datagram on its way would be handed to another session. -/
def Directed (σ : Sessions) : Prop :=
  ∀ d ∈ σ.wire, ∀ s, d.owner = some s → ∀ handler, σ.backend.envelop d.sessionId = .forward handler → handler = s

/-- An id is given out when no datagram of a session that had it before is on its way, and clients do not send
    while another session has the id of theirs. -/
def Separate (σ : Sessions) : Action → Prop
  | .create _ _ => ∀ id ∈ σ.backend.freeSessions.head?, ∀ d ∈ σ.wire, d.owner.isSome → d.sessionId ≠ id
  | .send i _ _ => i < σ.created → ∀ info ∈ σ.backend.sessions (σ.instances i).actor.id, info.handler = i
  | _ => True

instance (σ : Sessions) : (a : Action) → Decidable (Separate σ a)
  | .create _ _ =>
    inferInstanceAs (Decidable (∀ id ∈ σ.backend.freeSessions.head?, ∀ d ∈ σ.wire, d.owner.isSome → d.sessionId ≠ id))
  | .send i _ _ =>
    inferInstanceAs (Decidable (i < σ.created → ∀ info ∈ σ.backend.sessions (σ.instances i).actor.id, info.handler = i))
  | .inject .. | .deliver .. | .lose .. | .handle .. | .tick .. | .close .. | .elapse .. => isTrue trivial

/-- A client's datagram carries the id of its session. -/
def Addressed (σ : Sessions) : Prop :=
  ∀ d ∈ σ.wire, ∀ s, d.owner = some s → s < σ.created ∧ d.sessionId = (σ.instances s).actor.id

variable {accepts : Int → Bool} {σ : Sessions} {i : SessionRef}

theorem envelop_natCast (h : σ.Placed) {id handler : Nat} : σ.backend.envelop id = .forward handler ↔
    ∃ info, σ.backend.sessions id = some info ∧ info.handler = handler := by
  unfold Backend.envelop
  rw [Int.toNat_natCast]
  constructor
  · intro hforward
    split at hforward
    · split at hforward
      · rename_i info hinfo
        cases hforward
        exact ⟨info, hinfo, rfl⟩
      · cases hforward
    · cases hforward
  · rintro ⟨info, hinfo, rfl⟩
    have hbound := h.slots.bound id info hinfo
    rw [if_pos ⟨Int.natCast_nonneg id, by exact_mod_cast hbound⟩, hinfo]

/-! ### One delivery -/

theorem receive_of_forward {d : Datagram} {handler : SessionRef}
    (h : σ.backend.envelop d.sessionId = .forward handler) : σ.receive d = { σ with
      instances := Function.update σ.instances handler { σ.instances handler with
        mailbox := (σ.instances handler).mailbox ++ [⟨d.sender, d.data, d.owner⟩] } } := by
  unfold Sessions.receive
  rw [h]

theorem receive_of_dropped {d : Datagram} (h : ∀ handler, σ.backend.envelop d.sessionId ≠ .forward handler) :
    σ.receive d = σ := by
  unfold Sessions.receive
  split
  · rename_i handler hforward
    exact absurd hforward (h handler)
  · rfl

/-- A datagram that belongs to the session that it is handed to, or to nobody. -/
theorem isolated_receive_iff (h : σ.Isolated) (d : Datagram) : (σ.receive d).Isolated ↔
    ∀ s, d.owner = some s → ∀ handler, σ.backend.envelop d.sessionId = .forward handler → handler = s := by
  by_cases hforward : ∃ handler, σ.backend.envelop d.sessionId = .forward handler
  · obtain ⟨handler, hforward⟩ := hforward
    rw [receive_of_forward hforward]
    constructor
    · intro hisolated s hs handler' hforward'
      rw [hforward] at hforward'
      cases hforward'
      refine (hisolated handler ⟨d.sender, d.data, d.owner⟩ ?_ s hs).symm
      simp only [Function.update_self]
      exact List.mem_append_right _ (List.mem_singleton_self _)
    · intro hd i m hm s hs
      by_cases hi : i = handler
      · subst hi
        simp only [Function.update_self] at hm
        rcases List.mem_append.mp hm with hm | hm
        · exact h i m hm s hs
        · rw [List.mem_singleton.mp hm] at hs
          exact (hd s hs i hforward).symm
      · simp only [Function.update_of_ne hi] at hm
        exact h i m hm s hs
  · have hdropped : ∀ handler, σ.backend.envelop d.sessionId ≠ .forward handler :=
      fun handler heq => hforward ⟨handler, heq⟩
    rw [receive_of_dropped hdropped]
    exact iff_of_true h fun _ _ handler heq => absurd heq (hdropped handler)

/-- The next delivery hands over nothing wrong if and only if nothing wrong has been handed over, and nothing on
    its way would be. -/
theorem isolated_deliver_iff (accepts : Int → Bool) :
    (∀ k keep, Isolated (σ.step accepts (.deliver k keep))) ↔ σ.Isolated ∧ σ.Directed := by
  constructor
  · intro h
    have hisolated : σ.Isolated := by
      have hnone := h σ.wire.length true
      simp only [Sessions.step, List.getElem?_length] at hnone
      exact hnone
    refine ⟨hisolated, fun d hd => ?_⟩
    obtain ⟨k, hk⟩ := List.mem_iff_getElem?.mp hd
    have hkeep := h k true
    simp only [Sessions.step, hk, if_true] at hkeep
    exact (isolated_receive_iff hisolated d).mp hkeep
  · rintro ⟨hisolated, hdirected⟩ k keep
    simp only [Sessions.step]
    split
    · rename_i d hd
      have hsame : Isolated { σ with wire := if keep = true then σ.wire else σ.wire.eraseIdx k } := hisolated
      exact (isolated_receive_iff hsame d).mpr (hdirected d (List.mem_of_getElem? hd))
    · exact hisolated

/-! ### One step -/

theorem receive_wire (d : Datagram) : (σ.receive d).wire = σ.wire := by
  unfold Sessions.receive
  split <;> rfl

/-- What is on its way after a step was so before, or is sent in it. -/
theorem wire_step (h : σ.Placed) (accepts : Int → Bool) (a : Action) {d : Datagram} (hd : d ∈ (σ.step accepts a).wire) :
    d ∈ σ.wire ∨ d.owner = none ∨
      ∃ i < σ.created, d.owner = some i ∧ d.sessionId = (σ.instances i).actor.id := by
  have hstep := happens h accepts a
  generalize σ.step accepts a = σ' at hstep hd
  cases hstep with
  | dropped hwire => exact Or.inl (hwire hd)
  | posted howner =>
    rcases List.mem_append.mp hd with hd | hd
    · exact Or.inl hd
    · rw [List.mem_singleton.mp hd]
      exact Or.inr howner
  | delivered hwire =>
    rw [receive_wire] at hd
    exact Or.inl (hwire hd)
  | _ => exact Or.inl hd

theorem Addressed.step (h : σ.Placed) (haddressed : σ.Addressed) (accepts : Int → Bool) (a : Action) :
    (σ.step accepts a).Addressed := by
  have kept {s : SessionRef} (hs : s < σ.created) : s < (σ.step accepts a).created ∧
      ((σ.step accepts a).instances s).actor.id = (σ.instances s).actor.id :=
    ⟨lt_of_lt_of_le hs (created_step h accepts a), id_step h accepts a hs⟩
  intro d hd s howner
  rcases wire_step h accepts a hd with hd | hnone | ⟨i, hi, hsome, hid⟩
  · obtain ⟨hs, hid⟩ := haddressed d hd s howner
    obtain ⟨hs', hid'⟩ := kept hs
    exact ⟨hs', hid' ▸ hid⟩
  · rw [hnone] at howner
    cases howner
  · rw [hsome] at howner
    cases howner
    obtain ⟨hs', hid'⟩ := kept hi
    exact ⟨hs', hid' ▸ hid⟩

/-- Fewer datagrams, fewer entries and fewer messages. -/
theorem kept (hisolated : σ.Isolated) (hdirected : σ.Directed) {σ' : Sessions} (hwire : σ'.wire ⊆ σ.wire)
    (hentries : ∀ id info, σ'.backend.sessions id = some info → σ.backend.sessions id = some info)
    (hmail : ∀ i, (σ'.instances i).mailbox ⊆ (σ.instances i).mailbox) : σ'.Isolated ∧ σ'.Directed := by
  refine ⟨fun i m hm => hisolated i m (hmail i hm), fun d hd s hs handler hforward => ?_⟩
  refine hdirected d (hwire hd) s hs handler ?_
  unfold Backend.envelop at hforward ⊢
  split at hforward
  · rename_i hrange
    rw [if_pos hrange]
    split at hforward
    · rename_i info hinfo
      rw [hentries _ info hinfo]
      exact hforward
    · cases hforward
  · cases hforward

/-- A session takes messages from its mailbox. -/
theorem kept_react (hisolated : σ.Isolated) (hdirected : σ.Directed) (accepts : Int → Bool)
    {mailbox : List SignedEnvelop} (hsub : mailbox ⊆ (σ.instances i).mailbox) (e : Event) :
    (σ.react accepts i mailbox e).Isolated ∧ (σ.react accepts i mailbox e).Directed := by
  refine kept hisolated hdirected (List.Subset.refl _) (fun _ _ hinfo => hinfo) fun j => ?_
  by_cases hj : j = i
  · subst hj
    simp only [react, Function.update_self]
    exact hsub
  · rw [react_other hj]
    exact List.Subset.refl _

/-- The new session has the id from now on. -/
theorem isolated_create_iff (h : σ.Placed) (haddressed : σ.Addressed) (hisolated : σ.Isolated)
    (hdirected : σ.Directed) (accepts : Int → Bool) (sessionName : String) (players : List String) :
    (σ.step accepts (.create sessionName players)).Isolated ∧ (σ.step accepts (.create sessionName players)).Directed ↔
      Separate σ (.create sessionName players) := by
  rw [step_create]
  cases hfree : σ.backend.freeSessions with
  | nil => exact iff_of_true ⟨hisolated, hdirected⟩ (by simp [Separate, hfree])
  | cons id free =>
    have hplaced := h.created hfree sessionName players
    simp only [Separate, hfree, List.head?_cons, Option.mem_def, Option.some.injEq, forall_eq']
    constructor
    -- A datagram of an earlier session with the id would be forwarded to the new one.
    · rintro ⟨-, hdirected'⟩ d hd howner hid
      obtain ⟨s, hs⟩ := Option.isSome_iff_exists.mp howner
      obtain ⟨hcreated, -⟩ := haddressed d hd s hs
      refine absurd (hdirected' d hd s hs σ.created ?_) (Nat.ne_of_gt hcreated)
      rw [hid]
      exact (envelop_natCast hplaced).mpr ⟨_, Function.update_self _ _ _, rfl⟩
    · intro hseparate
      refine ⟨fun i m hm => ?_, fun d hd s hs handler hforward => ?_⟩
      · by_cases hi : i = σ.created
        · subst hi
          simp only [Function.update_self] at hm
          cases hm
        · simp only [Function.update_of_ne hi] at hm
          exact hisolated i m hm
      -- A datagram with another id is forwarded as before.
      · obtain ⟨-, hid⟩ := haddressed d hd s hs
        have hne := hseparate d hd (by rw [hs]; rfl)
        rw [hid] at hforward hne
        obtain ⟨info, hinfo, hhandler⟩ := (envelop_natCast hplaced).mp hforward
        simp only [Function.update_of_ne (fun heq => hne (congrArg Nat.cast heq))] at hinfo
        refine hdirected d hd s hs handler ?_
        rw [hid]
        exact (envelop_natCast h).mpr ⟨info, hinfo, hhandler⟩

/-- What a client sends goes to the session that has the id now. -/
theorem isolated_send_iff (h : σ.Placed) (hisolated : σ.Isolated) (hdirected : σ.Directed) (accepts : Int → Bool)
    (i : SessionRef) (sender : Address) (data : Payload) :
    (σ.step accepts (.send i sender data)).Isolated ∧ (σ.step accepts (.send i sender data)).Directed ↔
      Separate σ (.send i sender data) := by
  simp only [Sessions.step, Separate]
  split
  · rename_i hi
    simp only [hi, forall_true_left]
    constructor
    · rintro ⟨-, hdirected'⟩ info hinfo
      refine hdirected' _ (List.mem_append_right _ (List.mem_singleton_self _)) i rfl info.handler ?_
      exact (envelop_natCast h).mpr ⟨info, hinfo, rfl⟩
    · intro hown
      refine ⟨hisolated, fun d hd s hs handler hforward => ?_⟩
      rcases List.mem_append.mp hd with hd | hd
      · exact hdirected d hd s hs handler hforward
      · rw [List.mem_singleton.mp hd] at hs hforward
        cases hs
        obtain ⟨info, hinfo, rfl⟩ := (envelop_natCast h).mp hforward
        exact hown info hinfo
  · rename_i hi
    exact iff_of_true ⟨hisolated, hdirected⟩ fun hi' => absurd hi' hi

/-- One step, while nothing wrong has been handed over and nothing on its way would be. -/
theorem isolated_step_iff (h : σ.Placed) (haddressed : σ.Addressed) (hisolated : σ.Isolated) (hdirected : σ.Directed)
    (accepts : Int → Bool) (a : Action) :
    (σ.step accepts a).Isolated ∧ (σ.step accepts a).Directed ↔ Separate σ a := by
  have same : σ.Isolated ∧ σ.Directed := ⟨hisolated, hdirected⟩
  cases a with
  | create sessionName players => exact isolated_create_iff h haddressed hisolated hdirected accepts sessionName players
  | send i sender data => exact isolated_send_iff h hisolated hdirected accepts i sender data
  | inject sender sessionId data =>
    refine iff_of_true ⟨hisolated, fun d hd s hs => ?_⟩ trivial
    -- A datagram that no client has sent is meant for no session.
    rcases List.mem_append.mp hd with hd | hd
    · exact hdirected d hd s hs
    · rw [List.mem_singleton.mp hd] at hs
      cases hs
  | deliver k keep =>
    refine iff_of_true ⟨(isolated_deliver_iff accepts).mpr same k keep, ?_⟩ trivial
    simp only [Sessions.step]
    split
    -- The datagrams that are left were on their way before, and the backend forwards them as before.
    · intro d hd
      rw [receive_wire] at hd
      rw [receive_backend]
      refine hdirected d ?_
      split at hd
      · exact hd
      · exact (List.eraseIdx_sublist _ _).subset hd
    · exact hdirected
  | lose k =>
    refine iff_of_true ?_ trivial
    exact kept hisolated hdirected (List.eraseIdx_sublist _ _).subset (fun _ _ hinfo => hinfo)
      fun _ => List.Subset.refl _
  | handle i =>
    refine iff_of_true ?_ trivial
    simp only [Sessions.step]
    split
    · rename_i m rest hmailbox
      exact kept_react hisolated hdirected accepts (hmailbox ▸ List.subset_cons_self m rest) _
    · exact same
  | tick i =>
    refine iff_of_true ?_ trivial
    simp only [Sessions.step]
    split
    · exact kept_react hisolated hdirected accepts (List.Subset.refl _) _
    · exact same
  | close k =>
    refine iff_of_true ?_ trivial
    simp only [Sessions.step]
    split
    · rename_i c hk
      rw [h.closeSession (List.mem_of_getElem? hk)]
      refine kept hisolated hdirected (List.Subset.refl _) (fun id info hinfo => ?_) fun _ => List.Subset.refl _
      -- The id is given back: nothing is forwarded to its session any more.
      by_cases hid : id = c.sessionId
      · subst hid
        simp only [Function.update_self] at hinfo
        cases hinfo
      · simp only [Function.update_of_ne hid] at hinfo
        exact hinfo
    · exact same
  | elapse d => exact iff_of_true same trivial

/-- In all states of a run, and whatever datagram on its way is delivered next, clients' datagrams are handed to their
    own session only, if and only if each id is given out when no datagram of a session that had it before is on its
    way, and clients do not send while another session has the id of theirs. The condition is exact for what may be
    delivered next: a run can break it and come to no harm, where the stray datagram is lost or the run ends. -/
theorem isolated_iff (accepts : Int → Bool) (clock : Int) (as : List Action) :
    (∀ pre, pre <+: as → ∀ k keep,
      Isolated ((Machine.run (step accepts) (start clock) pre).step accepts (.deliver k keep))) ↔
      Machine.Along (step accepts) Separate (start clock) as := by
  simp only [isolated_deliver_iff]
  rw [← Machine.always_iff_along (I := fun σ => σ.Placed ∧ σ.Addressed) (P := fun σ => σ.Isolated ∧ σ.Directed)
    (fun σ a h => ⟨h.1.step accepts a, h.2.step h.1 accepts a⟩)
    (fun σ a hI hP => isolated_step_iff hI.1 hI.2 hP.1 hP.2 accepts a)
    ⟨.start clock, fun d hd => absurd hd List.not_mem_nil⟩
    ⟨fun i m hm => absurd hm List.not_mem_nil, fun d hd => absurd hd List.not_mem_nil⟩, Machine.always_iff_prefix]

/-- A session of one player starts and ends; a copy of the player's `Ready` is still on its way when the next
    session gets the id. -/
def lateReady : List Action :=
  [.create "first" ["a"], .send 0 1 (.json (.ready "a")), .deliver 0 true, .handle 0, .send 0 1 (.json (.quit "a")),
    .deliver 1 false, .handle 0, .close 0, .create "second" ["a", "b"], .deliver 0 false]

/-- The second session is handed a datagram of a client of the first. -/
theorem late_datagram_misdirected :
    ¬∀ (accepts : Int → Bool) (clock : Int) (as : List Action),
      Isolated (Machine.run (step accepts) (start clock) as) := by
  intro h
  have howner := h (fun _ => true) 0 lateReady 1 ⟨1, .json (.ready "a"), some 0⟩ (by decide +kernel) 0 rfl
  exact absurd howner (by decide)

end Sessions

end MultiSlider
