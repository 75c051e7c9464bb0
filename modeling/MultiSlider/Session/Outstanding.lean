import MultiSlider.Session.Calls

/-! The entries of the output queue against the window of the numbers. `sync` refuses a request while 32 entries are
    queued, and a `Sync` or `Ack` removes the entry of its number wherever it stands in the queue. An entry that
    stays behind lets new requests be numbered past the window, and in the end with its own number. And nothing keeps
    `sync` from numbering a request past what the server takes, which is one less than the queue holds. -/

namespace MultiSlider
open Cyclic

namespace Session

/-- The indices of the queued entries. -/
def indices (s : Session) : List Nat := s.outputQueue.map (·.seqIdx)

/-- The indices that a call takes from `getNextSeqIdx`. -/
def issues (s : Session) (e : Nat × Call) : List Nat :=
  match e.2 with
  | .sync syncId delay => if (s.sync e.1 syncId delay).2 then [s.getNextSeqIdx.1] else []
  | _ => []

variable {s : Session}

/-- A reliable `sync` that is not refused issues the next index and queues an entry with it. -/
theorem step_sync (hstarted : s.started = true) (hfree : s.outputQueue.length < messsagesBufferSize)
    (now syncId delay : Nat) : s.issues (now, .sync syncId delay) = [s.localSeqIdx] ∧
      (s.step (now, .sync syncId delay)).calls = s.calls + 1 ∧
      (s.step (now, .sync syncId delay)).localSeqIdx = s.getNextSeqIdx.2 ∧
      (s.step (now, .sync syncId delay)).indices = s.indices ++ [s.localSeqIdx] := by
  simp only [issues, step, act, sync, if_pos hstarted, if_neg (not_le.mpr hfree)]
  exact ⟨rfl, rfl, rfl, List.map_append⟩

/-- A call issues no index and queues no entry, or it is a reliable `sync` that is not refused. -/
theorem issues_cases (s : Session) (e : Nat × Call) :
    (s.issues e = [] ∧ (s.step e).calls = s.calls ∧ (s.step e).localSeqIdx = s.localSeqIdx ∧
      (s.step e).indices.Sublist s.indices) ∨
    ((∃ syncId delay, e.2 = .sync syncId delay) ∧ s.started = true ∧ s.outputQueue.length < messsagesBufferSize ∧
      s.issues e = [s.localSeqIdx] ∧ (s.step e).calls = s.calls + 1 ∧ (s.step e).localSeqIdx = s.getNextSeqIdx.2 ∧
      (s.step e).indices = s.indices ++ [s.localSeqIdx]) := by
  have quiet (start : Prop) {t : Turn} (h : s.Quiet start t) : t.session.calls = s.calls ∧
      t.session.localSeqIdx = s.localSeqIdx ∧ t.session.indices.Sublist s.indices := by
    refine ⟨h.calls, h.localSeqIdx, ?_⟩
    have hpending := congrArg (List.map Prod.fst) h.pending
    simp only [pending, List.map_map, Function.comp_def] at hpending
    unfold indices
    rw [hpending]
  obtain ⟨now, call⟩ := e
  cases call with
  | startup timeout => exact Or.inl ⟨rfl, rfl, rfl, List.Sublist.refl _⟩
  | startupTimeout => exact Or.inl ⟨rfl, quiet False Quiet.startupTimeout⟩
  | startupReceive received => exact Or.inl ⟨rfl, quiet _ Quiet.startupReceive⟩
  | broadcast data sharedData forced => exact Or.inl ⟨rfl, quiet False Quiet.broadcast⟩
  | say message => exact Or.inl ⟨rfl, quiet False Quiet.say⟩
  | keepAlive => exact Or.inl ⟨rfl, quiet False Quiet.keepAlive⟩
  | quit => exact Or.inl ⟨rfl, quiet False Quiet.quit⟩
  | syncSimple syncId delay => exact Or.inl ⟨rfl, quiet False Quiet.syncSimple⟩
  | sync syncId delay =>
    by_cases hasked : s.started = true ∧ s.outputQueue.length < messsagesBufferSize
    · exact Or.inr ⟨⟨syncId, delay, rfl⟩, hasked.1, hasked.2, step_sync hasked.1 hasked.2 now syncId delay⟩
    · refine Or.inl ?_
      simp only [issues, step, act, sync]
      split
      · rename_i hstarted
        rw [if_pos (not_lt.mp fun hfree => hasked ⟨hstarted, hfree⟩)]
        exact ⟨rfl, rfl, rfl, List.Sublist.refl _⟩
      · exact ⟨rfl, rfl, rfl, List.Sublist.refl _⟩
  | datagram received =>
    refine Or.inl ⟨rfl, ?_⟩
    unfold step act
    dsimp only
    split
    · rcases receiveDatagram_cases s now received with ⟨-, hquiet⟩ | ⟨ackIdx, -, hack⟩
      · exact quiet _ hquiet
      · refine ⟨hack.calls, hack.localSeqIdx, ?_⟩
        unfold indices
        rw [hack.outputQueue]
        exact List.eraseP_sublist.map _
    · exact ⟨rfl, rfl, List.Sublist.refl _⟩
  | poll => exact Or.inl ⟨rfl, quiet False Quiet.periodic⟩

end Session

/-- A client's object, the indices that `getNextSeqIdx` has issued to it, the last one first, and what the server has
    stored for its player. -/
structure Issuing where
  session : Session
  issued : List Nat
  server : MessagesSequenceInfo

namespace Issuing

/-- What the client does at a time, or a copy of a request that reaches the server: sent for the first time or again,
    late or twice. -/
inductive Action where
  | call (now : Nat) (call : Session.Call)
  | deliver (idx : Nat)
deriving DecidableEq, Repr

/-- The server has got the player's `Ready`. -/
def start (playerName : String) (sessionId : Nat) : Issuing := ⟨Session.create playerName sessionId, [], ⟨1, 0, 0⟩⟩

/-- One action; an index that has not been issued cannot reach the server. -/
def step (c : Issuing) : Action → Issuing
  | .call now call =>
    { c with session := c.session.step (now, call), issued := c.session.issues (now, call) ++ c.issued }
  | .deliver idx =>
    if idx ∈ c.issued then
      { c with server := (c.server.checkAcknowlegment idx).elim c.server SessionActor.nextLocal }
    else c

/-- The server takes the index, or has it in its history. -/
def InWindow (server : MessagesSequenceInfo) (idx : Nat) : Prop :=
  (server.checkAcknowlegment idx).isSome ∨ (server.remoteSeqIdx - idx) % idxWrapModule < ackHistorySize

/-- The outstanding requests fit the window: they carry different indices, all of them among the last 32 issued, so
    no number acknowledges two of them, and each is inside the window of the server. -/
structure Fits (c : Issuing) : Prop where
  distinct : c.session.indices.Nodup
  recent : ∀ idx ∈ c.session.indices, idx ∈ c.issued.take messsagesBufferSize
  identified : ∀ ackIdx, (c.session.outputQueue.filter (·.seqIdx = ackIdx)).length ≤ 1
  window : ∀ idx ∈ c.session.indices, InWindow c.server idx

/-- The indices lie less than 32 positions from each other. -/
abbrev Near (a b : Int) : Prop := Within idxWrapModule ackHistorySize a b

/-- Where a reliable `sync` is not refused, the entry that has been queued for longest carries one of the last 31
    indices, and the index about to be issued is near the one that the server has stored. Where the server takes a
    request that is older than the last 32, its index is near those of all entries. -/
def RoomFor (c : Issuing) : Action → Prop
  | .call _ (.sync _ _) => c.session.started = true → c.session.outputQueue.length < messsagesBufferSize →
    (∀ oldest ∈ c.session.indices.head?,
      (c.session.localSeqIdx + idxWrapModulo - oldest) % idxWrapModulo < messsagesBufferSize) ∧
    Near c.server.remoteSeqIdx c.session.localSeqIdx
  | .call _ _ => True
  | .deliver idx => idx ∈ c.issued → idx ∉ c.issued.take messsagesBufferSize →
    (c.server.checkAcknowlegment idx).isSome → ∀ queued ∈ c.session.indices, Near idx queued

/-- The `k`-th index issued is `k` modulo 1024; the server has stored one of them, or 0. -/
structure Numbered (c : Issuing) : Prop where
  localSeqIdx : c.session.localSeqIdx = (c.session.calls + 1) % 1024
  issued : c.issued = (List.range c.session.calls).map fun i => (c.session.calls - i) % 1024
  server : IsIdx c.server.remoteSeqIdx

/-- The queue holds the requests `ks`, of which the oldest is one of the last 32, near what the server has stored. -/
structure Window (c : Issuing) (ks : List Nat) : Prop where
  indices : c.session.indices = ks.map (· % 1024)
  sorted : ks.Pairwise (· < ·)
  recent : ∀ k ∈ ks, 0 < k ∧ k ≤ c.session.calls ∧ c.session.calls < k + 32
  near : ∀ k ∈ ks, Near c.server.remoteSeqIdx k

variable {c : Issuing} {a : Action} {now : Nat} {call : Session.Call} {idx : Nat} {ks : List Nat}

/-! ### The server -/

/-- A copy of a request that the server takes: its index is stored. -/
theorem step_taken (hissued : idx ∈ c.issued) (htakes : (c.server.checkAcknowlegment idx).isSome) :
    ∃ info : MessagesSequenceInfo, info.remoteSeqIdx = idx ∧ c.step (.deliver idx) = { c with server := info } := by
  obtain ⟨info, hcheck⟩ := Option.isSome_iff_exists.mp htakes
  refine ⟨SessionActor.nextLocal info, (MessagesSequenceInfo.checkAcknowlegment_some hcheck).1, ?_⟩
  unfold step
  dsimp only
  rw [if_pos hissued, hcheck]
  rfl

/-- The others are dropped. -/
theorem step_dropped (h : ¬(idx ∈ c.issued ∧ (c.server.checkAcknowlegment idx).isSome)) :
    c.step (.deliver idx) = c := by
  unfold step
  dsimp only
  split
  · rename_i hissued
    rw [Option.not_isSome_iff_eq_none.mp fun htakes => h ⟨hissued, htakes⟩]
    rfl
  · rfl

/-- On indices the window of the server is what lies near the one that it has stored. -/
theorem inWindow_iff {server : MessagesSequenceInfo} (hserver : IsIdx server.remoteSeqIdx) (hidx : IsIdx idx) :
    InWindow server idx ↔ Near server.remoteSeqIdx idx := by
  unfold InWindow
  rw [MessagesSequenceInfo.checkAcknowlegment_isSome hserver hidx]
  exact ahead_or_behind_iff (by decide) (by decide)

/-! ### The indices issued -/

theorem Numbered.start (playerName : String) (sessionId : Nat) : (start playerName sessionId).Numbered :=
  ⟨rfl, rfl, isIdx_emod 0⟩

theorem Numbered.isIdx (h : c.Numbered) (hidx : idx ∈ c.issued) : IsIdx idx := by
  rw [h.issued] at hidx
  obtain ⟨i, -, rfl⟩ := List.mem_map.mp hidx
  push_cast
  exact isIdx_emod _

theorem Numbered.step (h : c.Numbered) (a : Action) : (c.step a).Numbered := by
  cases a with
  | deliver idx =>
    by_cases htakes : idx ∈ c.issued ∧ (c.server.checkAcknowlegment idx).isSome
    · obtain ⟨info, hremote, hstep⟩ := step_taken htakes.1 htakes.2
      rw [hstep]
      exact ⟨h.localSeqIdx, h.issued, hremote ▸ h.isIdx htakes.1⟩
    · rw [step_dropped htakes]
      exact h
  | call now call =>
    rcases c.session.issues_cases (now, call) with ⟨hnone, hcalls, hlocal, -⟩ | ⟨-, -, -, hone, hcalls, hlocal, -⟩
    · refine ⟨?_, ?_, h.server⟩
      · rw [Issuing.step, hlocal, hcalls, h.localSeqIdx]
      · rw [Issuing.step, hnone, hcalls, List.nil_append, h.issued]
    · refine ⟨?_, ?_, h.server⟩
      · rw [Issuing.step, hlocal, hcalls, Session.getNextSeqIdx_eq h.localSeqIdx]
      · rw [Issuing.step, hone, hcalls, h.issued, h.localSeqIdx, List.range_succ_eq_map]
        simp [Function.comp_def, Nat.add_sub_add_right]

theorem Numbered.mem_recent_iff (h : c.Numbered) : idx ∈ c.issued.take messsagesBufferSize ↔
    ∃ i < 32, i < c.session.calls ∧ (c.session.calls - i) % 1024 = idx := by
  rw [h.issued, ← List.map_take, List.take_range, List.mem_map]
  simp only [List.mem_range, Nat.lt_min, messsagesBufferSize, and_assoc]

/-! ### The queue -/

theorem Window.start (playerName : String) (sessionId : Nat) : (start playerName sessionId).Window [] :=
  ⟨rfl, List.Pairwise.nil, List.forall_mem_nil _, List.forall_mem_nil _⟩

/-- Requests that are both among the last 32 are near each other. -/
theorem Window.near_recent (hnum : c.Numbered) (h : c.Window ks) (hidx : idx ∈ c.issued.take messsagesBufferSize) :
    ∀ k ∈ ks, Near idx k := by
  intro k hk
  obtain ⟨i, hi, hle, rfl⟩ := hnum.mem_recent_iff.mp hidx
  obtain ⟨-, hk', hk''⟩ := h.recent k hk
  push_cast
  exact within_emod_left.mpr (within_of_near (by decide) (by unfold ackHistorySize; omega)
    (by unfold ackHistorySize; omega))

/-- The entries are near an index if their numbers are. -/
theorem Window.forall_near_iff (h : c.Window ks) {a : Int} :
    (∀ idx ∈ c.session.indices, Near a idx) ↔ ∀ k ∈ ks, Near a k := by
  rw [h.indices, List.forall_mem_map]
  exact forall₂_congr fun k _ => by push_cast; exact within_emod_right

/-- A copy that meets the condition keeps the queue in the window. -/
theorem Window.deliver (hnum : c.Numbered) (h : c.Window ks) (hroom : c.RoomFor (.deliver idx)) :
    (c.step (.deliver idx)).Window ks := by
  by_cases htakes : idx ∈ c.issued ∧ (c.server.checkAcknowlegment idx).isSome
  · obtain ⟨info, hremote, hstep⟩ := step_taken htakes.1 htakes.2
    rw [hstep]
    refine ⟨h.indices, h.sorted, h.recent, ?_⟩
    dsimp only
    rw [hremote]
    -- A copy of one of the last 32 is near the queue by itself; of an older one the condition says so.
    by_cases hlast : idx ∈ c.issued.take messsagesBufferSize
    · exact h.near_recent hnum hlast
    · exact h.forall_near_iff.mp (hroom htakes.1 hlast htakes.2)
  · rw [step_dropped htakes]
    exact h

/-- A reliable `sync` that meets the condition adds its request to the window. -/
theorem Window.sync (hnum : c.Numbered) (h : c.Window ks) {syncId delay : Nat} (hstarted : c.session.started = true)
    (hfree : c.session.outputQueue.length < messsagesBufferSize) (hroom : c.RoomFor (.call now (.sync syncId delay))) :
    (c.step (.call now (.sync syncId delay))).Window (ks ++ [c.session.calls + 1]) := by
  obtain ⟨-, hcalls, -, hindices⟩ := Session.step_sync hstarted hfree now syncId delay
  obtain ⟨holdest, hnext⟩ := hroom hstarted hfree
  -- The oldest entry is one of the last 31, and the others are younger.
  have hyoung : ∀ k ∈ ks, c.session.calls + 1 < k + 32 := by
    rw [h.indices, hnum.localSeqIdx] at holdest
    cases ks with
    | nil => exact List.forall_mem_nil _
    | cons oldest ks =>
      simp only [List.map_cons, List.head?_cons, Option.mem_def, Option.some.injEq, forall_eq', idxWrapModulo,
        messsagesBufferSize] at holdest
      have hfirst := h.recent oldest List.mem_cons_self
      have holdest' : c.session.calls + 1 < oldest + 32 := by omega
      refine List.forall_mem_cons.mpr ⟨holdest', fun k hk => ?_⟩
      have hlt := (List.pairwise_cons.mp h.sorted).1 k hk
      omega
  refine ⟨?_, ?_, ?_, ?_⟩
  · rw [Issuing.step, hindices, h.indices, hnum.localSeqIdx, List.map_append]
    rfl
  · refine List.pairwise_append.mpr ⟨h.sorted, List.pairwise_singleton _ _, fun k hk k' hk' => ?_⟩
    rw [List.mem_singleton.mp hk']
    exact Nat.lt_succ_of_le (h.recent k hk).2.1
  · rw [Issuing.step, hcalls]
    refine List.forall_mem_append.mpr ⟨fun k hk => ?_, fun k hk => ?_⟩
    · have hk' := h.recent k hk
      have hk'' := hyoung k hk
      omega
    · rw [List.mem_singleton.mp hk]
      omega
  · refine List.forall_mem_append.mpr ⟨h.near, fun k hk => ?_⟩
    rw [List.mem_singleton.mp hk]
    rw [hnum.localSeqIdx] at hnext
    push_cast at hnext ⊢
    exact within_emod_right.mp hnext

/-- An action that meets the condition keeps the queue in the window. -/
theorem Window.step (hnum : c.Numbered) (h : c.Window ks) (hroom : c.RoomFor a) : ∃ ks', (c.step a).Window ks' := by
  cases a with
  | deliver idx => exact ⟨ks, h.deliver hnum hroom⟩
  | call now call =>
    rcases c.session.issues_cases (now, call) with ⟨-, hcalls, -, hsub⟩ |
      ⟨⟨syncId, delay, hcall⟩, hstarted, hfree, -⟩
    -- An acknowledged entry is taken off, wherever it stands; the others stay in order.
    · rw [h.indices] at hsub
      obtain ⟨ks', hks', hindices⟩ := List.sublist_map_iff.mp hsub
      refine ⟨ks', hindices, h.sorted.sublist hks', fun k hk => ?_, fun k hk => h.near k (hks'.subset hk)⟩
      rw [Issuing.step, hcalls]
      exact h.recent k (hks'.subset hk)
    · dsimp only at hcall
      subst hcall
      exact ⟨_, h.sync hnum hstarted hfree hroom⟩

theorem Window.fits (hnum : c.Numbered) (h : c.Window ks) : c.Fits := by
  have hrange : ∀ k ∈ ks, k ≤ c.session.calls ∧ c.session.calls < k + 1024 := by
    intro k hk
    obtain ⟨-, hle, hlt⟩ := h.recent k hk
    exact ⟨hle, by omega⟩
  -- Numbers less than 1024 apart have different indices.
  have hdistinct : c.session.indices.Nodup := by
    rw [h.indices]
    exact nodup_map_mod (h.sorted.imp fun hlt => Nat.ne_of_lt hlt) hrange
  have hrecent : ∀ idx ∈ c.session.indices, idx ∈ c.issued.take messsagesBufferSize := by
    intro idx hidx
    rw [h.indices] at hidx
    obtain ⟨k, hk, rfl⟩ := List.mem_map.mp hidx
    obtain ⟨hpos, hle, hlt⟩ := h.recent k hk
    exact hnum.mem_recent_iff.mpr ⟨c.session.calls - k, by omega, by omega, by rw [Nat.sub_sub_self hle]⟩
  refine ⟨hdistinct, hrecent, fun ackIdx => ?_, fun idx hidx => ?_⟩
  · have hcount := List.nodup_iff_count_le_one.mp hdistinct ackIdx
    rw [Session.indices, List.count, List.countP_map, List.countP_eq_length_filter] at hcount
    exact hcount
  · have hissued : idx ∈ c.issued := List.mem_of_mem_take (hrecent idx hidx)
    exact (inWindow_iff hnum.server (hnum.isIdx hissued)).mpr (h.forall_near_iff.mpr h.near idx hidx)

/-! ### The condition is needed -/

/-- Where the requests fit the window, they are near what the server has stored. -/
theorem Fits.near (hnum : c.Numbered) (h : c.Fits) : ∀ idx ∈ c.session.indices, Near c.server.remoteSeqIdx idx := by
  intro idx hidx
  have hissued : idx ∈ c.issued := List.mem_of_mem_take (h.recent idx hidx)
  exact (inWindow_iff hnum.server (hnum.isIdx hissued)).mp (h.window idx hidx)

/-- Where the requests fit the window after an action, the action meets the condition. -/
theorem roomFor_of_fits (hnum : c.Numbered) (h : (c.step a).Fits) : c.RoomFor a := by
  have hnear := h.near (hnum.step a)
  cases a with
  | deliver idx =>
    intro hissued _ htakes
    obtain ⟨info, hremote, hstep⟩ := step_taken hissued htakes
    rw [hstep] at hnear
    dsimp only at hnear
    rwa [hremote] at hnear
  | call now call =>
    cases call with
    | sync syncId delay =>
      intro hstarted hfree
      obtain ⟨-, hcalls, -, hindices⟩ := Session.step_sync hstarted hfree now syncId delay
      -- Both the oldest entry and the new one are queued after the call.
      have hindices' : (c.step (.call now (.sync syncId delay))).session.indices =
          c.session.indices ++ [c.session.localSeqIdx] := hindices
      refine ⟨fun oldest holdest => ?_, ?_⟩
      · have hmem : oldest ∈ (c.step (.call now (.sync syncId delay))).session.indices := by
          rw [hindices']
          exact List.mem_append_left _ (List.mem_of_mem_head? holdest)
        have hafter := hnum.step (.call now (.sync syncId delay))
        obtain ⟨i, hi, hle, heq⟩ := hafter.mem_recent_iff.mp (h.recent oldest hmem)
        have hlocal := hnum.localSeqIdx
        simp only [Issuing.step, hcalls] at hle heq
        unfold idxWrapModulo messsagesBufferSize
        omega
      · refine hnear c.session.localSeqIdx ?_
        rw [hindices']
        exact List.mem_append_right _ (List.mem_singleton_self _)
    | _ => trivial

/-- In every run of a client and of the server's filter for it the outstanding requests fit the window, if and only if
    no reliable `sync` takes an index while the oldest of them is not one of the last 31 or the server's stored index
    is not near, and the server takes no old copy that is not near them. -/
theorem outstanding_fit_iff (playerName : String) (sessionId : Nat) (as : List Action) :
    Machine.Always step Fits (start playerName sessionId) as ↔
      Machine.Along step RoomFor (start playerName sessionId) as := by
  constructor
  · exact Machine.Always.along (fun _ a hnum => Numbered.step hnum a) (fun _ _ => roomFor_of_fits)
      (Numbered.start playerName sessionId)
  · intro hroom
    have keep : ∀ (c : Issuing) (a : Action), (c.Numbered ∧ ∃ ks, c.Window ks) → c.RoomFor a →
        (c.step a).Numbered ∧ ∃ ks, (c.step a).Window ks := by
      rintro c a ⟨hnum, ks, hwindow⟩ hok
      exact ⟨hnum.step a, hwindow.step hnum hok⟩
    have hwindow := Machine.always_of_along keep
      ⟨Numbered.start playerName sessionId, [], Window.start playerName sessionId⟩ hroom
    refine hwindow.imp ?_
    rintro c ⟨hnum, ks, hwindow⟩
    exact hwindow.fits hnum

/-- A client that starts and fills its queue, none of whose requests but the second is acknowledged. All of them have
    reached the server. -/
def overtaken : List Action :=
  [.call 0 (.startup 10000), .call 0 (.startupReceive (.json .start))] ++
    (List.range 32).flatMap (fun i => [.call 0 (.sync 7 0), .deliver (i + 1)]) ++
    [.call 0 (.datagram (.json (.ack 2)))]

/-- The place of the second request is given to the 33rd, while the first one is still queued. -/
theorem oldest_left_behind : ¬∀ (playerName : String) (sessionId : Nat) (as : List Action),
    Machine.Always step Fits (start playerName sessionId) as := by
  intro h
  have hend := (Machine.always_iff_prefix.mp (h "a" 0 (overtaken ++ [.call 0 (.sync 7 0)])) _
    (List.prefix_refl _)).recent 1
  revert hend
  decide +kernel

end Issuing

end MultiSlider
