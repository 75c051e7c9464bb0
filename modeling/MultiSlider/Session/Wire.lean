import Mathlib.Data.List.TakeWhile
import MultiSlider.Jsonxx.Writer
import MultiSlider.Session.Session

/-! The datagrams of a session as bytes: what `Session.cpp` writes, and its `receive` on the texts that come in. -/

namespace MultiSlider

open JsonText Jsonxx

/-! ### Texts -/

/-- The bytes of a string. -/
def utf8 (s : String) : Bytes := s.toUTF8.data.toList

@[simp] theorem utf8_inj {s t : String} : utf8 s = utf8 t ↔ s = t := by
  unfold utf8
  rw [Array.toList_inj]
  exact ⟨fun h => String.toByteArray_inj.mp (ByteArray.ext h), fun h => h ▸ rfl⟩

@[simp] theorem utf8_eq_nil_iff {s : String} : utf8 s = [] ↔ s = "" := utf8_inj (t := "")

/-! The fields of the messages of a session. -/

abbrev messageKeyClass : Bytes := utf8 "jsonClass"
abbrev messageKeyPlayerName : Bytes := utf8 "playerName"
abbrev messageKeyData : Bytes := utf8 "data"
abbrev messageKeySharedData : Bytes := utf8 "sharedData"
abbrev messageKeySender : Bytes := utf8 "sender"
abbrev messageKeyName : Bytes := utf8 "name"
abbrev messageKeyId : Bytes := utf8 "id"
abbrev messageKeySessionId : Bytes := utf8 "sessionId"
abbrev messageKeyTimestamp : Bytes := utf8 "timestamp"
abbrev messageKeySharedTimestamp : Bytes := utf8 "sharedTimestamp"
abbrev messageKeyDelay : Bytes := utf8 "delay"
abbrev messageKeySyncId : Bytes := utf8 "syncId"
abbrev messageKeyForceBroadcast : Bytes := utf8 "forceBroadcast"
abbrev messageKeySeqIndex : Bytes := utf8 "seqIdx"
abbrev messageKeyWeak : Bytes := utf8 "weak"
abbrev messageKeyAlive : Bytes := utf8 "alive"
abbrev messageKeyRequestTime : Bytes := utf8 "requestTime"
abbrev messageKeyResponseTime : Bytes := utf8 "responseTime"

namespace backend

/-! The classes of the messages. -/

abbrev envelop : Bytes := utf8 "BackendMessage$Envelop"
abbrev ready : Bytes := utf8 "BackendMessage$Ready"
abbrev update : Bytes := utf8 "BackendMessage$Update"
abbrev syncRequest : Bytes := utf8 "BackendMessage$RequestSync"
abbrev quit : Bytes := utf8 "BackendMessage$Quit"
abbrev keepAlive : Bytes := utf8 "BackendMessage$KeepAlive"
abbrev start : Bytes := utf8 "BackendMessage$Start"
abbrev state : Bytes := utf8 "BackendMessage$SessionState"
abbrev sync : Bytes := utf8 "BackendMessage$Sync"
abbrev ack : Bytes := utf8 "BackendMessage$Ack"
abbrev clockSync : Bytes := utf8 "BackendMessage$ClockSync"
abbrev message : Bytes := utf8 "BackendMessage$Message"

end backend

/-- `isMessageClass`: `strcmp` sees the string up to its first zero byte. -/
def isMessageClass (classString expected : Bytes) : Bool := classString.takeWhile (· ≠ 0) = expected

/-! ### Objects -/

/-- `get<String>` of a field, where it is one. -/
def getString (key : Bytes) (fields : Fields Int) : Option Bytes :=
  match SortedMap.get key fields with
  | some (.string s) => some s
  | _ => none

/-- `get<Number>` of a field, where it is one. -/
def getNumber (key : Bytes) (fields : Fields Int) : Option Int :=
  match SortedMap.get key fields with
  | some (.number x) => some x
  | _ => none

/-- `get<Boolean>` of a field, where it is one. -/
def getBoolean (key : Bytes) (fields : Fields Int) : Option Bool :=
  match SortedMap.get key fields with
  | some (.bool b) => some b
  | _ => none

/-- What a case class is written as: its name, and its fields. -/
def classFields (name : Bytes) (fields : Fields Int) : Fields Int := (messageKeyClass, .string name) :: fields

/-- The members of one entry of the session data. -/
def PlayerData.fields (p : PlayerData) : Fields Int :=
  [(messageKeyName, .string (utf8 p.name)), (messageKeyData, .string (utf8 p.data)),
    (messageKeyTimestamp, .number p.timestamp), (messageKeyWeak, .bool p.weak), (messageKeyAlive, .bool p.alive)]

/-- `null` stands for a string that is left out. -/
def stringOrNull : Option String → Value Int
  | some s => .string (utf8 s)
  | none => .null

/-- The fields of a message. The `data` of a `SessionState` is itself a text; it is `packed`. -/
def BackendMessage.fields (packed : Bytes) : BackendMessage → Fields Int
  | .ready playerName => classFields backend.ready [(messageKeyPlayerName, .string (utf8 playerName))]
  | .update playerName timestamp forceBroadcast data sharedData =>
    classFields backend.update [(messageKeyPlayerName, .string (utf8 playerName)),
      (messageKeyTimestamp, .number timestamp), (messageKeyForceBroadcast, .bool forceBroadcast),
      (messageKeyData, .string (utf8 data)), (messageKeySharedData, stringOrNull sharedData)]
  | .message sender data =>
    classFields backend.message [(messageKeySender, .string (utf8 sender)), (messageKeyData, .string (utf8 data))]
  | .requestSync playerName delay syncId seqIdx =>
    classFields backend.syncRequest [(messageKeyPlayerName, .string (utf8 playerName)),
      (messageKeyDelay, .number delay), (messageKeySyncId, .number syncId), (messageKeySeqIndex, .number seqIdx)]
  | .quit playerName => classFields backend.quit [(messageKeyPlayerName, .string (utf8 playerName))]
  | .keepAlive playerName timestamp =>
    classFields backend.keepAlive [(messageKeyPlayerName, stringOrNull playerName),
      (messageKeyTimestamp, .number timestamp)]
  | .start => classFields backend.start []
  | .sessionState _ sharedData sharedTimestamp =>
    classFields backend.state [(messageKeyData, .string packed), (messageKeySharedData, .string (utf8 sharedData)),
      (messageKeySharedTimestamp, .number sharedTimestamp)]
  | .sync syncId seqIdx =>
    classFields backend.sync [(messageKeySyncId, .number syncId), (messageKeySeqIndex, .number seqIdx)]
  | .ack seqIdx => classFields backend.ack [(messageKeySeqIndex, .number seqIdx)]
  | .clockSync id requestTime responseTime =>
    classFields backend.clockSync [(messageKeyId, .number id), (messageKeyRequestTime, .number requestTime),
      (messageKeyResponseTime, .number responseTime)]

/-! ### Receiving -/

/-- What the program is shown of a player. -/
structure PlayerEntry where
  data : Bytes
  timestamp : Int
  alive : Bool
  weak : Bool
deriving DecidableEq, Repr

/-- A callback with the strings that the program has: bytes. `SessionData` is a map by the names of the players. -/
inductive WireCallback where
  | onStart
  | onUpdate (data : List (Bytes × PlayerEntry)) (sharedData : Bytes) (sharedTimestamp : Int)
  | onMessage (sender message : Bytes)
  | onSync (syncId : Nat) (wasLost : Bool)
  | onQuit (playerName : Bytes) (byTimeout : Bool)
deriving DecidableEq, Repr

/-- What a call on texts comes to. -/
structure WireTurn where
  session : Session
  sent : List Envelop
  callbacks : List WireCallback
  fault : Option Fault

/-- The entry of the map for this player. -/
def PlayerData.entry (p : PlayerData) : Bytes × PlayerEntry :=
  (utf8 p.name, ⟨utf8 p.data, p.timestamp, p.alive, p.weak⟩)

/-- The callback with its strings as bytes, and the players as a map. -/
def Callback.wire : Callback → WireCallback
  | .onStart => .onStart
  | .onUpdate data sharedData sharedTimestamp =>
    .onUpdate (SortedMap.storeAll [] (data.map PlayerData.entry)) (utf8 sharedData) sharedTimestamp
  | .onMessage sender message => .onMessage (utf8 sender) (utf8 message)
  | .onSync syncId wasLost => .onSync syncId wasLost
  | .onQuit playerName byTimeout => .onQuit (utf8 playerName) byTimeout

/-- The same call with its callbacks as they are made on texts. -/
def Turn.wire (t : Turn) : WireTurn := ⟨t.session, t.sent, t.callbacks.map Callback.wire, t.fault⟩

namespace Session

variable (N : NumberFormat Int) (s : Session)

/-- One entry of the session data, where the assertions of `get` hold. -/
def readEntry : Value Int → Option (Bytes × PlayerEntry)
  | .object entry => (getString messageKeyName entry).map fun name =>
    (name, ⟨(getString messageKeyData entry).getD [], (getNumber messageKeyTimestamp entry).getD 0,
      (getBoolean messageKeyAlive entry).getD false, (getBoolean messageKeyWeak entry).getD false⟩)
  | _ => none

/-- The `STATE` branch of `receive`. -/
def receiveState (messageJson : Fields Int) : WireTurn :=
  match getString messageKeyData messageJson with
  | none => (s.throws .assertion).wire
  | some dataJson =>
    match (parseValues N (IStream.ofText dataJson)).mapM readEntry with
    | none => (s.throws .assertion).wire
    | some sessionData =>
      ⟨s, [], [.onUpdate (SortedMap.storeAll [] sessionData) ((getString messageKeySharedData messageJson).getD [])
        ((getNumber messageKeySharedTimestamp messageJson).getD 0)], none⟩

/-- The branch of `receive` for the object that has been parsed. -/
def dispatchObject (now : Nat) (messageJson : Fields Int) : WireTurn :=
  let messageClass := (getString messageKeyClass messageJson).getD []
  if isMessageClass messageClass backend.start then ⟨s, [], [.onStart], none⟩
  else if isMessageClass messageClass backend.state then s.receiveState N messageJson
  else if isMessageClass messageClass backend.sync then
    match narrowCast 32 ((getNumber messageKeySeqIndex messageJson).getD 0) with
    | none => (s.throws .assertion).wire
    | some seqIdx =>
      match if seqIdx ≥ idxWrapModulo then some s else s.checkAcknowledgement seqIdx with
      | none => ⟨s, [], [], none⟩
      | some s =>
        match (getNumber messageKeySyncId messageJson).bind (narrowCast 32) with
        | none => (s.throws .assertion).wire
        | some syncId => ⟨s, [], [.onSync syncId false], none⟩
  else if isMessageClass messageClass backend.keepAlive then
    match getNumber messageKeyTimestamp messageJson with
    | some timestamp =>
      if s.lastSyncTime > 0 then
        match narrowCast 64 timestamp with
        | none => (s.throws .assertion).wire
        | some timestamp => ⟨s.updatePing now timestamp, [], [], none⟩
      else ⟨s, [], [], none⟩
    | none => ⟨s, [], [], none⟩
  else if isMessageClass messageClass backend.ack then
    (s.receiveAck ((getNumber messageKeySeqIndex messageJson).getD 0)).wire
  else if isMessageClass messageClass backend.clockSync then
    match narrowCast 8 ((getNumber messageKeyId messageJson).getD 255) with
    | none => (s.throws .assertion).wire
    | some id =>
      if s.clockSyncId = id then
        match getNumber messageKeyRequestTime messageJson, getNumber messageKeyResponseTime messageJson with
        | some requestTime, some responseTime => (s.receiveClockSync now id requestTime responseTime).wire
        | _, _ => ⟨s, [], [], none⟩
      else ⟨s, [], [], none⟩
  else if isMessageClass messageClass backend.quit then
    match getString messageKeyPlayerName messageJson with
    | none => (s.throws .assertion).wire
    | some player =>
      ⟨{ s with started := s.started && player ≠ utf8 s.playerName }, [], [.onQuit player false], none⟩
  else if isMessageClass messageClass backend.message then
    match getString messageKeyData messageJson with
    | none => (s.throws .assertion).wire
    | some message => ⟨s, [], [.onMessage ((getString messageKeySender messageJson).getD []) message], none⟩
  else (s.throws (.runtimeError "Session[receive]: Unknown datagram type!")).wire

/-- One round of the loop of `receive`. -/
def receiveText (now : Nat) (receiveMessage : Bytes) : WireTurn :=
  let t := s.dispatchObject N now (parse N (IStream.ofText receiveMessage)).2.1
  match t.fault with
  | none => { t with session := { t.session with lastTimestamp := t.session.getTimeSyncronizedMS now } }
  | some _ => t

/-- The loop of `receive` over the texts in the socket, each with the local time it is handled at. -/
def receiveTextLoop : Nat → List (Nat × Bytes) → Session → WireTurn
  | _, [], s => ⟨s, [], [], none⟩
  | 0, _, s => ⟨s, [], [], none⟩
  | messagesLimit + 1, (now, receiveMessage) :: rest, s =>
    if s.started ∧ receiveMessage ≠ [] then
      let t := s.receiveText N now receiveMessage
      match t.fault with
      | none =>
        let messageJson := (parse N (IStream.ofText receiveMessage)).2.1
        let invisible := isMessageClass ((getString messageKeyClass messageJson).getD []) backend.keepAlive
        let u := receiveTextLoop (if invisible then messagesLimit + 1 else messagesLimit) rest t.session
        ⟨u.session, t.sent ++ u.sent, t.callbacks ++ u.callbacks, u.fault⟩
      | some _ => t
    else ⟨s, [], [], none⟩

/-- `receive`, with `now` the time after its loop. -/
def receiveTexts (messagesLimit : Nat) (arrivals : List (Nat × Bytes)) (now : Nat) : WireTurn :=
  let t := receiveTextLoop N messagesLimit arrivals s
  match t.fault with
  | none =>
    let u := (t.session.periodic now).wire
    ⟨u.session, t.sent ++ u.sent, t.callbacks ++ u.callbacks, u.fault⟩
  | some _ => t

end Session

/-! ### Texts of messages -/

/-- The texts that `packed` can be: for a `SessionState` those of the array of its players. -/
def BackendMessage.Packs (N : NumberFormat Int) (packed : Bytes) : BackendMessage → Prop
  | .sessionState data _ _ => ∃ w t rest entries, packed = w ++ t ++ rest ∧ Blank w ∧
    Spells asciiUnit N.Spelled (.value (.array entries)) t ∧
      List.Forall₂ (fun entry p => ∃ fields, entry = Value.object fields ∧ fields.Perm (PlayerData.fields p))
        entries data
  | _ => True

/-- The datagrams that carry a payload: every JSON text of the message, its fields in any order, white space before it
    and whatever after it; or a text in which no class is found. An empty datagram carries the empty text. -/
inductive Carries (N : NumberFormat Int) : Payload → Bytes → Prop where
  | json {m : BackendMessage} {packed w t rest : Bytes} {fields : Fields Int} (packs : m.Packs N packed)
    (order : fields.Perm (m.fields packed)) (blank : Blank w)
    (spells : Spells asciiUnit N.Spelled (.value (.object fields)) t) : Carries N (.json m) (w ++ t ++ rest)
  | text {raw : String} {t : Bytes} (noClass : getString messageKeyClass (parse N (IStream.ofText t)).2.1 = none)
    (empty : raw = "" ↔ t = []) : Carries N (.text raw) t

section
variable {N : NumberFormat Int}

theorem byteUnit_of_asciiUnit {n : Nat} {bytes : Bytes} (h : asciiUnit n = some bytes) : byteUnit n = some bytes := by
  unfold asciiUnit at h
  split at h
  · exact h
  · cases h

theorem isMessageClass_utf8 {s : String} (h : 0 ∉ utf8 s) (expected : String) :
    isMessageClass (utf8 s) (utf8 expected) = decide (s = expected) := by
  have hwhole : (utf8 s).takeWhile (· ≠ 0) = utf8 s := by
    rw [List.takeWhile_eq_self_iff]
    intro b hb
    simpa using fun heq : b = 0 => h (heq ▸ hb)
  rw [isMessageClass, hwhole]
  simp

/-- Objects whose fields are no objects and no arrays. -/
def Flat (fields : Fields Int) : Prop := ∀ e ∈ fields, e.2.normal = e.2

theorem normalFields_flat {fields : Fields Int} (h : Flat fields) : normalFields fields = fields := by
  induction fields with
  | nil => rfl
  | cons e fields ih =>
    obtain ⟨he, hfields⟩ := List.forall_mem_cons.mp h
    rw [normalFields, he, ih hfields]

theorem fields_flat (m : BackendMessage) (packed : Bytes) : Flat (m.fields packed) := by
  have hnull (s : Option String) : (stringOrNull s).normal = stringOrNull s := by cases s <;> rfl
  cases m <;> simp [Flat, BackendMessage.fields, classFields, Value.normal, hnull]

theorem fields_nodup (m : BackendMessage) (packed : Bytes) : ((m.fields packed).map (·.1)).Nodup := by
  cases m <;> simp [BackendMessage.fields, classFields]

/-- What the object holds after a text of the message has been parsed. -/
abbrev BackendMessage.held (m : BackendMessage) (packed : Bytes) : Fields Int :=
  SortedMap.storeAll [] (m.fields packed)

theorem parse_message {m : BackendMessage} {packed w t rest : Bytes} {fields : Fields Int}
    (order : fields.Perm (m.fields packed)) (blank : Blank w)
    (spells : Spells asciiUnit N.Spelled (.value (.object fields)) t) :
    (parse N (IStream.ofText (w ++ t ++ rest))).2.1 = m.held packed := by
  have hflat : Flat fields := fun e he => fields_flat m packed e (order.mem_iff.mp he)
  have hnodup : (fields.map (·.1)).Nodup := (order.map _).nodup_iff.mpr (fields_nodup m packed)
  rw [parse_object N (spells.mono fun _ _ => byteUnit_of_asciiUnit) blank, normalFields_flat hflat,
    SortedMap.storeAll_perm hnodup order]

theorem get_held (m : BackendMessage) (packed key : Bytes) :
    SortedMap.get key (m.held packed) = SortedMap.get key (m.fields packed) := by
  rw [BackendMessage.held, SortedMap.get_storeAll (fields_nodup m packed), SortedMap.get_nil, Option.or_none]

theorem getString_held (m : BackendMessage) (packed key : Bytes) :
    getString key (m.held packed) = getString key (m.fields packed) := by
  rw [getString, get_held, getString]

theorem getNumber_held (m : BackendMessage) (packed key : Bytes) :
    getNumber key (m.held packed) = getNumber key (m.fields packed) := by
  rw [getNumber, get_held, getNumber]

/-- The class of each message, as `receive` compares it. -/
def BackendMessage.className : BackendMessage → String
  | .ready .. => "BackendMessage$Ready"
  | .update .. => "BackendMessage$Update"
  | .message .. => "BackendMessage$Message"
  | .requestSync .. => "BackendMessage$RequestSync"
  | .quit .. => "BackendMessage$Quit"
  | .keepAlive .. => "BackendMessage$KeepAlive"
  | .start => "BackendMessage$Start"
  | .sessionState .. => "BackendMessage$SessionState"
  | .sync .. => "BackendMessage$Sync"
  | .ack .. => "BackendMessage$Ack"
  | .clockSync .. => "BackendMessage$ClockSync"

theorem getString_class (m : BackendMessage) (packed : Bytes) :
    getString messageKeyClass (m.held packed) = some (utf8 m.className) := by
  rw [getString_held]
  cases m <;> simp [getString, SortedMap.get, BackendMessage.fields, classFields, BackendMessage.className]

theorem isMessageClass_className (m : BackendMessage) (expected : String) :
    isMessageClass (utf8 m.className) (utf8 expected) = decide (m.className = expected) := by
  refine isMessageClass_utf8 ?_ expected
  cases m <;> (dsimp only [BackendMessage.className]; decide +kernel)

/-- The players of a `SessionState` are read one by one as what they are. -/
theorem readEntry_player {fields : Fields Int} {p : PlayerData} (order : fields.Perm p.fields) :
    Session.readEntry (Value.object fields).normal = some p.entry := by
  have hflat : Flat fields := by
    have hplayer : Flat p.fields := by simp [Flat, PlayerData.fields, Value.normal]
    exact fun e he => hplayer e (order.mem_iff.mp he)
  have hnodup : (p.fields.map (·.1)).Nodup := by simp [PlayerData.fields]
  have hnodup' : (fields.map (·.1)).Nodup := (order.map _).nodup_iff.mpr hnodup
  have hget (key : Bytes) : SortedMap.get key (SortedMap.storeAll [] fields) = SortedMap.get key p.fields := by
    rw [SortedMap.storeAll_perm hnodup' order, SortedMap.get_storeAll hnodup, SortedMap.get_nil, Option.or_none]
  rw [Value.normal, normalFields_flat hflat, Session.readEntry]
  simp [getString, getNumber, getBoolean, hget, SortedMap.get, PlayerData.fields, PlayerData.entry]

theorem readEntries {entries : List (Value Int)} {data : List PlayerData}
    (h : List.Forall₂ (fun entry p => ∃ fields, entry = Value.object fields ∧ fields.Perm (PlayerData.fields p))
      entries data) : (normalAll entries).mapM Session.readEntry = some (data.map PlayerData.entry) := by
  induction h with
  | nil => rfl
  | cons hentry _ ih =>
    obtain ⟨fields, rfl, order⟩ := hentry
    rw [normalAll, List.mapM_cons, readEntry_player order, ih]
    rfl

variable {s : Session} {now : Nat}

theorem receiveState_message {data : List PlayerData} {sharedData : String} {sharedTimestamp : Int} {packed : Bytes}
    (packs : (BackendMessage.sessionState data sharedData sharedTimestamp).Packs N packed) :
    s.receiveState N ((BackendMessage.sessionState data sharedData sharedTimestamp).held packed) =
      (s.returns [] [.onUpdate data sharedData sharedTimestamp]).wire := by
  obtain ⟨w, t, rest, entries, hpacked, blank, spells, players⟩ := packs
  have hdata : getString messageKeyData ((BackendMessage.sessionState data sharedData sharedTimestamp).held packed) =
      some packed := by
    rw [getString_held]
    simp [getString, SortedMap.get, BackendMessage.fields, classFields]
  have hvalues : (parseValues N (IStream.ofText packed)).mapM Session.readEntry = some (data.map PlayerData.entry) := by
    rw [hpacked, parseValues_array N (spells.mono fun _ _ => byteUnit_of_asciiUnit) blank, readEntries players]
  rw [Session.receiveState, hdata]
  dsimp only
  rw [hvalues, getString_held, getNumber_held]
  simp [getString, getNumber, SortedMap.get, BackendMessage.fields, classFields, Session.returns, Turn.wire,
    Callback.wire]

theorem getNumber_seqIdx (syncId seqIdx : Int) (packed : Bytes) :
    getNumber messageKeySeqIndex ((BackendMessage.sync syncId seqIdx).held packed) = some seqIdx ∧
      getNumber messageKeySyncId ((BackendMessage.sync syncId seqIdx).held packed) = some syncId := by
  rw [getNumber_held, getNumber_held]
  simp [getNumber, SortedMap.get, BackendMessage.fields, classFields]

/-- The branch for the object is the one for the message. -/
theorem dispatchObject_message {m : BackendMessage} {packed : Bytes} (packs : m.Packs N packed) :
    s.dispatchObject N now (m.held packed) = (s.dispatch now (.json m)).wire := by
  rw [Session.dispatchObject, getString_class]
  simp only [Option.getD_some, isMessageClass_className]
  cases m with
  | start => rfl
  | sessionState data sharedData sharedTimestamp => exact receiveState_message packs
  | sync syncId seqIdx =>
    -- The numbers are in the object as they are in the message; the casts and the filter are the same then.
    obtain ⟨hseqIdx, hsyncId⟩ := getNumber_seqIdx syncId seqIdx packed
    dsimp only [BackendMessage.className]
    rw [hseqIdx, hsyncId]
    simp only [String.reduceEq, decide_false, decide_true, Bool.false_eq_true, ↓reduceIte]
    simp only [Option.getD_some, Option.bind_some, Session.dispatch, Session.receiveSync]
    cases narrowCast 32 seqIdx with
    | none => rfl
    | some idx =>
      dsimp only
      cases (if idx ≥ idxWrapModulo then some s else s.checkAcknowledgement idx) with
      | none => rfl
      | some s' =>
        dsimp only
        cases narrowCast 32 syncId <;> rfl
  | keepAlive playerName timestamp =>
    have htimestamp : getNumber messageKeyTimestamp ((BackendMessage.keepAlive playerName timestamp).held packed) =
        some timestamp := by
      rw [getNumber_held]
      simp [getNumber, SortedMap.get, BackendMessage.fields, classFields]
    dsimp only [BackendMessage.className]
    rw [htimestamp]
    simp only [String.reduceEq, decide_false, decide_true, Bool.false_eq_true, ↓reduceIte]
    simp only [Session.dispatch]
    split
    · cases narrowCast 64 timestamp <;> rfl
    · rfl
  | ack seqIdx =>
    have hseqIdx : getNumber messageKeySeqIndex ((BackendMessage.ack seqIdx).held packed) = some seqIdx := by
      rw [getNumber_held]
      simp [getNumber, SortedMap.get, BackendMessage.fields, classFields]
    rw [hseqIdx]
    rfl
  | clockSync id requestTime responseTime =>
    -- The id is cast first, and the times only where it is that of the last request.
    have hid :
        getNumber messageKeyId ((BackendMessage.clockSync id requestTime responseTime).held packed) = some id := by
      rw [getNumber_held]
      simp [getNumber, SortedMap.get, BackendMessage.fields, classFields]
    have hrequest : getNumber messageKeyRequestTime
        ((BackendMessage.clockSync id requestTime responseTime).held packed) = some requestTime := by
      rw [getNumber_held]
      simp [getNumber, SortedMap.get, BackendMessage.fields, classFields]
    have hresponse : getNumber messageKeyResponseTime
        ((BackendMessage.clockSync id requestTime responseTime).held packed) = some responseTime := by
      rw [getNumber_held]
      simp [getNumber, SortedMap.get, BackendMessage.fields, classFields]
    dsimp only [BackendMessage.className]
    rw [hid, hrequest, hresponse]
    simp only [String.reduceEq, decide_false, decide_true, Bool.false_eq_true, ↓reduceIte]
    simp only [Option.getD_some, Session.dispatch]
    cases hcast : narrowCast 8 id with
    | none => simp only [Session.receiveClockSync, hcast]
    | some n =>
      obtain ⟨rfl, hn⟩ := narrowCast_eq_some_iff.mp hcast
      dsimp only
      split
      · rfl
      · next hne =>
        simp only [Session.receiveClockSync, hcast, if_neg hne]
        rfl
  | quit playerName =>
    have hplayer : getString messageKeyPlayerName ((BackendMessage.quit playerName).held packed) =
        some (utf8 playerName) := by
      rw [getString_held]
      simp [getString, SortedMap.get, BackendMessage.fields, classFields]
    rw [hplayer]
    simp [BackendMessage.className, Session.dispatch, Session.returns, Turn.wire, Callback.wire]
  | message sender data =>
    have hdata : getString messageKeyData ((BackendMessage.message sender data).held packed) = some (utf8 data) := by
      rw [getString_held]
      simp [getString, SortedMap.get, BackendMessage.fields, classFields]
    have hsender : getString messageKeySender ((BackendMessage.message sender data).held packed) =
        some (utf8 sender) := by
      rw [getString_held]
      simp [getString, SortedMap.get, BackendMessage.fields, classFields]
    rw [hdata, hsender]
    rfl
  | ready | update | requestSync => rfl

theorem receiveText_wire {payload : Payload} {t : Bytes} (h : Carries N payload t) :
    s.receiveText N now t = (s.receiveDatagram now payload).wire := by
  have hdispatch : s.dispatchObject N now (parse N (IStream.ofText t)).2.1 = (s.dispatch now payload).wire := by
    cases h with
    | json packs order blank spells =>
      rw [parse_message order blank spells]
      exact dispatchObject_message packs
    | text noClass empty =>
      rw [Session.dispatchObject, noClass]
      rfl
  rw [Session.receiveText, hdispatch, Session.receiveDatagram]
  cases hfault : (s.dispatch now payload).fault <;> simp [Turn.wire, hfault]

/-- Whether `receive` does not count the datagram. -/
def Payload.isInvisible : Payload → Bool
  | .json (.keepAlive _ _) => true
  | _ => false

theorem isInvisible_eq {payload : Payload} {t : Bytes} (h : Carries N payload t) :
    isMessageClass ((getString messageKeyClass (parse N (IStream.ofText t)).2.1).getD []) backend.keepAlive =
      payload.isInvisible := by
  cases h with
  | @json m _ _ _ _ _ packs order blank spells =>
    rw [parse_message order blank spells, getString_class, Option.getD_some, isMessageClass_className]
    cases m <;> rfl
  | text noClass empty =>
    rw [noClass]
    rfl

/-- The text of an object is not empty. -/
theorem text_ne_nil {fields : Fields Int} {w t rest : Bytes}
    (spells : Spells asciiUnit N.Spelled (.value (.object fields)) t) : w ++ t ++ rest ≠ [] := by
  cases spells with
  | emptyObject => simp
  | object => simp

theorem Carries.empty_iff {payload : Payload} {t : Bytes} (h : Carries N payload t) : payload = .text "" ↔ t = [] := by
  cases h with
  | json packs order blank spells => exact iff_of_false (by simp) (text_ne_nil spells)
  | text noClass empty => rw [← empty, Payload.text.injEq]

theorem receiveLoop_cons {messagesLimit : Nat} {payload : Payload} {rest : List (Nat × Payload)} :
    Session.receiveLoop (messagesLimit + 1) ((now, payload) :: rest) s =
      if s.started ∧ payload ≠ .text "" then
        let t := s.receiveDatagram now payload
        match t.fault with
        | none =>
          let u := Session.receiveLoop (if payload.isInvisible then messagesLimit + 1 else messagesLimit) rest t.session
          ⟨u.session, t.sent ++ u.sent, t.callbacks ++ u.callbacks, u.fault⟩
        | some _ => t
      else s.returns [] [] := by
  rw [Session.receiveLoop.eq_def]
  cases payload with
  | json m => cases m <;> rfl
  | text raw => rfl

theorem receiveTextLoop_wire {arrivals : List (Nat × Payload)} {texts : List (Nat × Bytes)}
    (h : List.Forall₂ (fun a b => a.1 = b.1 ∧ Carries N a.2 b.2) arrivals texts) (messagesLimit : Nat) (s : Session) :
    Session.receiveTextLoop N messagesLimit texts s = (Session.receiveLoop messagesLimit arrivals s).wire := by
  induction h generalizing messagesLimit s with
  | nil => cases messagesLimit <;> rfl
  | @cons a b arrivals texts hab _ ih =>
    obtain ⟨now, payload⟩ := a
    obtain ⟨now', t⟩ := b
    obtain ⟨rfl, hcarries⟩ : now = now' ∧ Carries N payload t := hab
    cases messagesLimit with
    | zero => rfl
    | succ messagesLimit =>
      rw [Session.receiveTextLoop, receiveLoop_cons, receiveText_wire hcarries]
      dsimp only [Turn.wire]
      have hempty : t ≠ [] ↔ payload ≠ .text "" := hcarries.empty_iff.symm.not
      simp only [isInvisible_eq hcarries, hempty]
      split
      · cases hfault : (s.receiveDatagram now payload).fault with
        | none =>
          dsimp only
          rw [ih]
          simp [Turn.wire]
        | some fault => simp [hfault]
      · rfl

/-- A call of `receive` on the texts in the socket does what it does on the messages that they carry. -/
theorem receiveTexts_wire {arrivals : List (Nat × Payload)} {texts : List (Nat × Bytes)}
    (h : List.Forall₂ (fun a b => a.1 = b.1 ∧ Carries N a.2 b.2) arrivals texts) (messagesLimit now : Nat)
    (s : Session) : s.receiveTexts N messagesLimit texts now = (s.receive messagesLimit arrivals now).wire := by
  rw [Session.receiveTexts, receiveTextLoop_wire h, Session.receive]
  dsimp only [Turn.wire]
  cases hfault : (Session.receiveLoop messagesLimit arrivals s).fault <;> simp [hfault]

/-! ### Sending -/

/-- The object that a method of `Session` builds of a message, with `<<` for each field. -/
def requestObject (m : BackendMessage) : Fields Int := m.held []

/-- `makeEnvelop` for a session, with the text of the message. -/
def envelopObject (sessionId : Nat) (data : Bytes) : Fields Int :=
  SortedMap.storeAll [] (classFields backend.envelop
    [(messageKeySessionId, .number sessionId), (messageKeyData, .string data)])

/-- What `sendUpdDatagram` is given for a message. -/
def datagram (N : NumberFormat Int) (sessionId : Nat) (m : BackendMessage) : Bytes :=
  json N (envelopObject sessionId (json N (requestObject m)))

theorem fieldsWritable_iff {fields : Fields Int} :
    FieldsWritable N fields ↔ ∀ e ∈ fields, e.1 ≠ [] ∧ Writable N e.2 := by
  induction fields with
  | nil => exact iff_of_true trivial (List.forall_mem_nil _)
  | cons e fields ih =>
    rw [List.forall_mem_cons, ← ih, and_assoc]
    rfl

theorem writable_storeAll {fields : Fields Int} (hnodup : (fields.map (·.1)).Nodup) (h : FieldsWritable N fields) :
    Writable N (.object (SortedMap.storeAll [] fields)) :=
  fieldsWritable_iff.mpr fun e he => fieldsWritable_iff.mp h e ((SortedMap.storeAll_perm_append hnodup).mem_iff.mp he)

/-- The numbers of a request; all of them have to be written without rounding. -/
def BackendMessage.numbers : BackendMessage → List Int
  | .update _ timestamp _ _ _ => [timestamp]
  | .requestSync _ delay syncId seqIdx => [delay, syncId, seqIdx]
  | .keepAlive _ timestamp => [timestamp]
  | .sessionState _ _ sharedTimestamp => [sharedTimestamp]
  | .sync syncId seqIdx => [syncId, seqIdx]
  | .ack seqIdx => [seqIdx]
  | .clockSync id requestTime responseTime => [id, requestTime, responseTime]
  | _ => []

theorem fields_writable {m : BackendMessage} {packed : Bytes} (h : ∀ x ∈ m.numbers, N.Exact x) :
    FieldsWritable N (m.fields packed) := by
  have hnull (s : Option String) : Writable N (stringOrNull s) := by cases s <;> trivial
  cases m <;> simp_all [FieldsWritable, BackendMessage.fields, classFields, Writable, BackendMessage.numbers]

/-- The text of a message other than a `SessionState`. -/
theorem carries_request {m : BackendMessage} (hrequest : ∀ data sharedData sharedTimestamp,
    m ≠ .sessionState data sharedData sharedTimestamp) (hexact : ∀ x ∈ m.numbers, N.Exact x) :
    Carries N (.json m) (json N (requestObject m)) := by
  have hmessage : Writable N (.object (requestObject m)) :=
    writable_storeAll (fields_nodup m []) (fields_writable hexact)
  obtain ⟨t, w, htext, -, hspells⟩ := json_spells hmessage
  have hpacks : m.Packs N [] := by
    cases m with
    | sessionState data sharedData sharedTimestamp => exact absurd rfl (hrequest data sharedData sharedTimestamp)
    | _ => trivial
  rw [htext, ← List.nil_append t]
  exact .json hpacks (SortedMap.storeAll_perm_append (fields_nodup m [])) (List.forall_mem_nil _) hspells

theorem datagram_spells {m : BackendMessage} (hrequest : ∀ data sharedData sharedTimestamp,
    m ≠ .sessionState data sharedData sharedTimestamp) (hexact : ∀ x ∈ m.numbers, N.Exact x) {sessionId : Nat}
    (hid : N.Exact sessionId) : ∃ packed t w fields, datagram N sessionId m = t ++ w ∧ Blank w ∧
      fields.Perm (classFields backend.envelop
        [(messageKeySessionId, Value.number (sessionId : Int)), (messageKeyData, .string packed)]) ∧
      Spells asciiUnit N.Spelled (.value (.object fields)) t ∧ Carries N (.json m) packed := by
  have henvelop : ∀ packed : Bytes, ((classFields backend.envelop
      [(messageKeySessionId, Value.number (sessionId : Int)), (messageKeyData, .string packed)]).map (·.1)).Nodup := by
    intro packed
    simp [classFields]
  have hwritable : Writable N (.object (envelopObject sessionId (json N (requestObject m)))) := by
    refine writable_storeAll (henvelop _) ?_
    simpa [FieldsWritable, classFields, Writable] using hid
  obtain ⟨t, w, htext, hw, hspells⟩ := json_spells hwritable
  exact ⟨json N (requestObject m), t, w, _, htext, hw, SortedMap.storeAll_perm_append (henvelop _), hspells,
    carries_request hrequest hexact⟩

/-- A datagram of a session is JSON: an `Envelop` with exactly its fields, and its data is JSON again, with exactly
    the fields of the message, whatever the strings are. -/
theorem datagram_carries {m : BackendMessage} (hrequest : ∀ data sharedData sharedTimestamp,
    m ≠ .sessionState data sharedData sharedTimestamp) (hexact : ∀ x ∈ m.numbers, N.Exact x) {sessionId : Nat}
    (hid : N.Exact sessionId) : ∃ packed t w fields, datagram N sessionId m = t ++ w ∧ Blank w ∧
      fields.Perm (classFields backend.envelop
        [(messageKeySessionId, Value.number (sessionId : Int)), (messageKeyData, .string packed)]) ∧
      Spells asciiUnit N.Spelled (.value (.object fields)) t ∧ Carries N (.json m) packed :=
  datagram_spells hrequest hexact hid

theorem datagram_carries_request : ∃ packed t w fields,
    datagram integers 3 (.requestSync "Ann" 100 7 1) = t ++ w ∧ Blank w ∧
      fields.Perm (classFields backend.envelop
        [(messageKeySessionId, Value.number ((3 : Nat) : Int)), (messageKeyData, .string packed)]) ∧
      Spells asciiUnit integers.Spelled (.value (.object fields)) t ∧
        Carries integers (.json (.requestSync "Ann" 100 7 1)) packed := by
  refine datagram_carries ?_ ?_ ?_
  · exact fun _ _ _ h => nomatch h
  · exact (by decide : ∀ x ∈ [(100 : Int), 7, 1], x.natAbs < 10 ^ 19)
  · exact (by decide : ((3 : Nat) : Int).natAbs < 10 ^ 19)

end

theorem receiveTexts_sync_quit : { Session.create "Ann" 3 with started := true }.receiveTexts integers 2
    [(50, json integers (requestObject (.sync 7 2000))), (51, json integers (requestObject (.keepAlive "Bob" 40))),
      (52, json integers (requestObject (.quit "Ann"))), (53, json integers (requestObject (.quit "Bob")))] 60 =
      ({ Session.create "Ann" 3 with started := true }.receive 2 [(50, .json (.sync 7 2000)),
        (51, .json (.keepAlive "Bob" 40)), (52, .json (.quit "Ann")), (53, .json (.quit "Bob"))] 60).wire := by
  have hsync : Carries integers (.json (.sync 7 2000)) (json integers (requestObject (.sync 7 2000))) :=
    carries_request (by simp) (by decide : ∀ x ∈ [(7 : Int), 2000], x.natAbs < 10 ^ 19)
  have hkeepAlive : Carries integers (.json (.keepAlive "Bob" 40))
      (json integers (requestObject (.keepAlive "Bob" 40))) :=
    carries_request (by simp) (by decide : ∀ x ∈ [(40 : Int)], x.natAbs < 10 ^ 19)
  have hquit (playerName : String) : Carries integers (.json (.quit playerName))
      (json integers (requestObject (.quit playerName))) :=
    carries_request (by simp) (List.forall_mem_nil _)
  refine receiveTexts_wire ?_ 2 60 _
  exact .cons ⟨rfl, hsync⟩ (.cons ⟨rfl, hkeepAlive⟩ (.cons ⟨rfl, hquit "Ann"⟩ (.cons ⟨rfl, hquit "Bob"⟩ .nil)))

end MultiSlider
