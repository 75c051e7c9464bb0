import Mathlib.Data.Rat.Lemmas
import MultiSlider.Lobby.Message
import MultiSlider.Session.Session

/-! The client's room descriptor (`RoomInfo.cpp`) and how it is read from a JSON object. A field that is missing or of
    another type makes `deserialize` return false; a number that is no `uint32_t` and a player that is no string fail an
    assertion. What the parser reports about the text is not looked at. -/

namespace MultiSlider

/-- A JSON value; a `jsonxx::Number` is a finite floating-point number. -/
inductive Json where
  | null
  | bool (b : Bool)
  | number (x : ℚ)
  | string (s : String)
  | array (xs : List Json)
  | object (fields : List (String × Json))

namespace Json

/-- The fields of a `jsonxx::Object`. -/
abbrev Object : Type := List (String × Json)

/-- The strings of an array, if it holds nothing else. -/
def strings : List Json → Option (List String)
  | [] => some []
  | .string s :: xs => (strings xs).map (s :: ·)
  | _ :: _ => none

theorem strings_eq_some_iff {xs : List Json} {names : List String} :
    strings xs = some names ↔ xs = names.map .string := by
  induction xs generalizing names with
  | nil =>
    cases names with
    | nil => simp [strings]
    | cons name names => simp [strings]
  | cons x xs ih =>
    cases x with
    | string s =>
      rw [strings, Option.map_eq_some_iff]
      constructor
      · rintro ⟨rest, hrest, rfl⟩
        rw [List.map_cons, ih.mp hrest]
      · intro heq
        cases names with
        | nil => cases heq
        | cons name names =>
          obtain ⟨hname, hrest⟩ := List.cons.inj heq
          cases hname
          exact ⟨names, ih.mpr hrest, rfl⟩
    | _ => cases names <;> simp [strings]

theorem strings_eq_none_iff {xs : List Json} : strings xs = none ↔ ∃ x ∈ xs, ∀ s, x ≠ .string s := by
  induction xs with
  | nil => simp [strings]
  | cons x xs ih =>
    cases x with
    | string s => simp [strings, ih]
    | _ => simp [strings]

end Json

open Json (Object)

/-- How reading a descriptor ends without one: `deserialize` returns false, or an assertion fails. -/
inductive Refusal where
  | missing
  | assertion
deriving DecidableEq, Repr

/-- The fields of a `RoomInfo` of the client. -/
structure ClientRoomInfo where
  roomName : String
  hostName : String
  description : String
  playersLimit : Nat
  playersNumber : Nat
  playersReserved : Nat
  players : List String
  userParameter : String
deriving DecidableEq, Repr

/-- `narrow_cast<uint32_t>` of a JSON number. -/
def castNumber (x : ℚ) : Option Nat := if x.den = 1 then narrowCast 32 x.num else none

theorem castNumber_eq_some_iff {x : ℚ} {n : Nat} : castNumber x = some n ↔ x = n ∧ n < 2 ^ 32 := by
  unfold castNumber
  constructor
  · intro h
    obtain ⟨hden, hcast⟩ := Option.ite_none_right_eq_some.mp h
    obtain ⟨hnum, hn⟩ := narrowCast_eq_some_iff.mp hcast
    refine ⟨?_, hn⟩
    rw [← Rat.num_div_den x, hden, hnum, Nat.cast_one, div_one, Int.cast_natCast]
  · rintro ⟨rfl, hn⟩
    rw [Rat.den_natCast, Rat.num_natCast, if_pos rfl, narrowCast_natCast hn]

namespace Json

variable (infoJson : Object)

/-- A field tested by `has<String>`, then read. -/
def readString (key : String) : Except Refusal String :=
  match infoJson.lookup key with
  | some (.string s) => .ok s
  | _ => .error .missing

/-- A field tested by `has<Number>`, then read and cast. -/
def readNumber (key : String) : Except Refusal Nat :=
  match infoJson.lookup key with
  | some (.number x) =>
    match castNumber x with
    | some n => .ok n
    | none => .error .assertion
  | _ => .error .missing

/-- The test of `playersNumber` against the number of players that were read. -/
def checkSize (playersNumber : Nat) (size : Int) : Except Refusal Unit :=
  match narrowCast 32 size with
  | some n => if playersNumber ≠ n then .error .missing else .ok ()
  | none => .error .assertion

/-- The list of players, if there is one; its elements are not tested. -/
def readPlayers (playersNumber : Nat) : Except Refusal (List String) :=
  match infoJson.lookup "players" with
  | some (.array xs) =>
    match strings xs with
    | some players => do
      checkSize playersNumber players.length
      return players
    | none => .error .assertion
  | _ => .ok []

/-- The body of `deserialize`: the fields in the order in which they are read. -/
def readInfo : Except Refusal ClientRoomInfo := do
  let roomName ← readString infoJson "name"
  let hostName ← readString infoJson "host"
  let description ← readString infoJson "description"
  let playersLimit ← readNumber infoJson "playersLimit"
  let playersNumber ← readNumber infoJson "playersNumber"
  let playersReserved ← readNumber infoJson "playersReserved"
  let players ← readPlayers infoJson playersNumber
  let userParameter ← readString infoJson "userParam"
  return { roomName, hostName, description, playersLimit, playersNumber, playersReserved, players, userParameter }

end Json

namespace ClientRoomInfo

/-- `deserialize` of an object: the result and the descriptor after it, or none where an assertion fails. -/
def deserializeObject (info : ClientRoomInfo) (infoJson : Object) : Option (Bool × ClientRoomInfo) :=
  match Json.readInfo infoJson with
  | .ok read => some (true, read)
  | .error .missing => some (false, info)
  | .error .assertion => none

/-- `deserialize` of a text; `parse` is `Object::parse`, with its result and what it has read. -/
def deserialize (parse : String → Bool × Object) (info : ClientRoomInfo) (str : String) :
    Option (Bool × ClientRoomInfo) := info.deserializeObject (parse str).2

end ClientRoomInfo

/-! ### What is read -/

namespace Json

variable {infoJson : Object} {key : String} {n : Nat}

theorem bind_eq_ok_iff {ε α β : Type} {x : Except ε α} {f : α → Except ε β} {b : β} :
    (x >>= f) = .ok b ↔ ∃ a, x = .ok a ∧ f a = .ok b := by
  cases x with
  | ok a => simp [bind, Except.bind]
  | error e => simp [bind, Except.bind]

theorem bind_eq_error_iff {ε α β : Type} {x : Except ε α} {f : α → Except ε β} {e : ε} :
    (x >>= f) = .error e ↔ x = .error e ∨ ∃ a, x = .ok a ∧ f a = .error e := by
  cases x with
  | ok a => simp [bind, Except.bind]
  | error e => simp [bind, Except.bind]

theorem readString_eq_ok_iff {s : String} :
    readString infoJson key = .ok s ↔ infoJson.lookup key = some (.string s) := by
  unfold readString
  split
  · rename_i s' hlookup
    rw [hlookup]
    simp
  · rename_i hnot
    exact iff_of_false (by simp) (hnot s)

theorem readString_ne_assertion : readString infoJson key ≠ .error .assertion := by
  unfold readString
  split
  · simp
  · simp

theorem readNumber_eq_ok_iff :
    readNumber infoJson key = .ok n ↔ infoJson.lookup key = some (.number n) ∧ n < 2 ^ 32 := by
  unfold readNumber
  split
  · rename_i x hlookup
    rw [hlookup, Option.some.injEq, number.injEq, ← castNumber_eq_some_iff]
    split
    · rename_i m hcast
      simp [hcast]
    · rename_i hcast
      simp [hcast]
  · rename_i hnot
    exact iff_of_false (by simp) fun h => hnot n h.1

/-- A number that the cast to `uint32_t` changes. -/
def BadNumber (infoJson : Object) (key : String) : Prop :=
  ∃ x, infoJson.lookup key = some (.number x) ∧ castNumber x = none

theorem readNumber_eq_assertion_iff : readNumber infoJson key = .error .assertion ↔ BadNumber infoJson key := by
  unfold readNumber BadNumber
  split
  · rename_i x hlookup
    rw [hlookup]
    split
    · rename_i m hcast
      simp [hcast]
    · rename_i hcast
      simp [hcast]
  · rename_i hnot
    exact iff_of_false (by simp) fun ⟨x, h, _⟩ => hnot x h

/-- `players` is an array of so many strings, or none at all. -/
def PlayersAre (infoJson : Object) (players : List String) (playersNumber : Nat) : Prop :=
  (infoJson.lookup "players" = some (.array (players.map .string)) ∧ players.length = playersNumber) ∨
    (∀ xs, infoJson.lookup "players" ≠ some (.array xs)) ∧ players = []

theorem checkSize_eq_ok_iff {size : Int} : checkSize n size = .ok () ↔ narrowCast 32 size = some n := by
  unfold checkSize
  cases narrowCast 32 size with
  | some m =>
    simp [eq_comm]
  | none => simp

theorem checkSize_eq_assertion_iff {size : Int} : checkSize n size = .error .assertion ↔ narrowCast 32 size = none := by
  unfold checkSize
  cases narrowCast 32 size with
  | some m =>
    dsimp only
    split
    · simp
    · simp
  | none => simp

theorem readPlayers_eq_ok_iff {players : List String} (hn : n < 2 ^ 32) :
    readPlayers infoJson n = .ok players ↔ PlayersAre infoJson players n := by
  unfold readPlayers PlayersAre
  split
  · rename_i xs hlookup
    rw [hlookup, Option.some.injEq, array.injEq, ← strings_eq_some_iff, or_iff_left fun h => h.1 xs rfl]
    split
    · rename_i names hnames
      rw [hnames, Option.some.injEq, bind_eq_ok_iff]
      constructor
      · rintro ⟨_, hsize, heq⟩
        cases heq
        exact ⟨rfl, Nat.cast_injective (narrowCast_eq_some_iff.mp (checkSize_eq_ok_iff.mp hsize)).1⟩
      · rintro ⟨rfl, rfl⟩
        exact ⟨(), checkSize_eq_ok_iff.mpr (narrowCast_natCast hn), rfl⟩
    · rename_i hnames
      simp [hnames]
  · rename_i hnot
    constructor
    · intro h
      cases h
      exact Or.inr ⟨hnot, rfl⟩
    · rintro (⟨harray, -⟩ | ⟨-, rfl⟩)
      · exact absurd harray (hnot _)
      · rfl

/-- An array of players with something else than strings in it, or with more elements than a `uint32_t` counts. -/
def BadPlayers (infoJson : Object) : Prop :=
  ∃ xs, infoJson.lookup "players" = some (.array xs) ∧ ((∃ x ∈ xs, ∀ s, x ≠ .string s) ∨ 2 ^ 32 ≤ xs.length)

theorem readPlayers_eq_assertion_iff : readPlayers infoJson n = .error .assertion ↔ BadPlayers infoJson := by
  unfold readPlayers BadPlayers
  split
  · rename_i xs hlookup
    rw [hlookup]
    simp only [Option.some.injEq, array.injEq, exists_eq_left']
    rw [← strings_eq_none_iff]
    split
    · rename_i names hnames
      have hlength : xs.length = names.length := by rw [strings_eq_some_iff.mp hnames, List.length_map]
      rw [hnames, hlength, bind_eq_error_iff, checkSize_eq_assertion_iff, narrowCast_natCast_eq_none_iff]
      simp [pure, Except.pure]
    · rename_i hnames
      exact iff_of_true rfl (Or.inl hnames)
  · rename_i hnot
    exact iff_of_false (by simp) fun ⟨xs, h, _⟩ => hnot xs h

/-- The fields of an object are those of a room descriptor. -/
structure Describes (infoJson : Object) (info : ClientRoomInfo) : Prop where
  roomName : infoJson.lookup "name" = some (.string info.roomName)
  hostName : infoJson.lookup "host" = some (.string info.hostName)
  description : infoJson.lookup "description" = some (.string info.description)
  playersLimit : infoJson.lookup "playersLimit" = some (.number info.playersLimit) ∧ info.playersLimit < 2 ^ 32
  playersNumber : infoJson.lookup "playersNumber" = some (.number info.playersNumber) ∧ info.playersNumber < 2 ^ 32
  playersReserved :
    infoJson.lookup "playersReserved" = some (.number info.playersReserved) ∧ info.playersReserved < 2 ^ 32
  players : PlayersAre infoJson info.players info.playersNumber
  userParameter : infoJson.lookup "userParam" = some (.string info.userParameter)

theorem readInfo_eq_ok_iff {info : ClientRoomInfo} : readInfo infoJson = .ok info ↔ Describes infoJson info := by
  unfold readInfo
  simp only [bind_eq_ok_iff, readString_eq_ok_iff, readNumber_eq_ok_iff]
  constructor
  · rintro ⟨roomName, hname, hostName, hhost, description, hdescription, playersLimit, hlimit, playersNumber, hnumber,
      playersReserved, hreserved, players, hplayers, userParameter, huser, heq⟩
    cases heq
    exact ⟨hname, hhost, hdescription, hlimit, hnumber, hreserved, (readPlayers_eq_ok_iff hnumber.2).mp hplayers, huser⟩
  · intro h
    exact ⟨_, h.roomName, _, h.hostName, _, h.description, _, h.playersLimit, _, h.playersNumber, _, h.playersReserved,
      _, (readPlayers_eq_ok_iff h.playersNumber.2).mpr h.players, _, h.userParameter, rfl⟩

/-- A field that holds a string. -/
def IsString (infoJson : Object) (key : String) : Prop := ∃ s, infoJson.lookup key = some (.string s)

/-- A field that holds a `uint32_t`. -/
def IsNumber (infoJson : Object) (key : String) : Prop := ∃ n : Nat, infoJson.lookup key = some (.number n) ∧ n < 2 ^ 32

/-- In the order in which the fields are read, a value that fails an assertion comes before one that is missing. -/
def Aborts (infoJson : Object) : Prop :=
  IsString infoJson "name" ∧ IsString infoJson "host" ∧ IsString infoJson "description" ∧
    (BadNumber infoJson "playersLimit" ∨ IsNumber infoJson "playersLimit" ∧
      (BadNumber infoJson "playersNumber" ∨ IsNumber infoJson "playersNumber" ∧
        (BadNumber infoJson "playersReserved" ∨ IsNumber infoJson "playersReserved" ∧ BadPlayers infoJson)))

theorem readInfo_eq_assertion_iff : readInfo infoJson = .error .assertion ↔ Aborts infoJson := by
  unfold readInfo Aborts IsString IsNumber
  simp only [bind_eq_error_iff, readString_eq_ok_iff, readNumber_eq_ok_iff, readString_ne_assertion,
    readNumber_eq_assertion_iff, readPlayers_eq_assertion_iff, false_or, pure, Except.pure, reduceCtorEq, and_false,
    exists_false, or_false, exists_and_right]

end Json

/-! ### What is accepted -/

namespace ClientRoomInfo

open Json (Describes Aborts)

/-- `deserialize` accepts exactly the complete objects that describe a room, takes all the fields over from them and
    leaves the descriptor alone otherwise; it does not abort. -/
def ExactOn (parse : String → Bool × Object) (info : ClientRoomInfo) (str : String) : Prop :=
  match info.deserialize parse str with
  | some (true, read) => (parse str).1 = true ∧ Describes (parse str).2 read
  | some (false, kept) => kept = info ∧ ¬((parse str).1 = true ∧ ∃ read, Describes (parse str).2 read)
  | none => False

/-- That is so if and only if no assertion fails, and no room is described by what the parser has read of a text that
    is no complete object. -/
theorem deserialize_exact_iff (parse : String → Bool × Object) (info : ClientRoomInfo) (str : String) :
    info.ExactOn parse str ↔
      ¬Aborts (parse str).2 ∧ ((∃ read, Describes (parse str).2 read) → (parse str).1 = true) := by
  unfold ExactOn deserialize deserializeObject
  cases hread : Json.readInfo (parse str).2 with
  | ok read =>
    have hdescribes := Json.readInfo_eq_ok_iff.mp hread
    have hno : ¬Aborts (parse str).2 := by
      rw [← Json.readInfo_eq_assertion_iff, hread]
      simp
    constructor
    · rintro ⟨hcomplete, -⟩
      exact ⟨hno, fun _ => hcomplete⟩
    · rintro ⟨-, hcomplete⟩
      exact ⟨hcomplete ⟨read, hdescribes⟩, hdescribes⟩
  | error refusal =>
    have hnone : ¬∃ read, Describes (parse str).2 read := by
      rintro ⟨read, hdescribes⟩
      cases hread.symm.trans (Json.readInfo_eq_ok_iff.mpr hdescribes)
    cases refusal with
    | missing =>
      have hno : ¬Aborts (parse str).2 := by
        rw [← Json.readInfo_eq_assertion_iff, hread]
        simp
      exact iff_of_true ⟨rfl, fun h => hnone h.2⟩ ⟨hno, fun h => absurd h hnone⟩
    | assertion => exact iff_of_false id fun h => h.1 (Json.readInfo_eq_assertion_iff.mp hread)

/-- A description that breaks off before its closing brace. -/
def brokenOff : String :=
  "\x7b\"name\":\"R\",\"host\":\"a\",\"description\":\"\",\"playersLimit\":2,\"playersReserved\":0," ++
    "\"playersNumber\":1,\"players\":[\"a\"],\"userParam\":\"\""

/-- The fields that the parser keeps of it. -/
def brokenOffFields : Object :=
  [("name", .string "R"), ("host", .string "a"), ("description", .string ""), ("playersLimit", .number 2),
    ("playersReserved", .number 0), ("playersNumber", .number 1), ("players", .array [.string "a"]),
    ("userParam", .string "")]

/-- The parser reports that this object is not complete, and `deserialize` accepts it. -/
theorem incomplete_accepted :
    ¬∀ (parse : String → Bool × Object) (info : ClientRoomInfo) (str : String),
      parse brokenOff = (false, brokenOffFields) → info.ExactOn parse str := by
  intro h
  have hexact := h (fun _ => (false, brokenOffFields)) ⟨"", "", "", 0, 0, 0, [], ""⟩ brokenOff rfl
  have hread : Json.readInfo brokenOffFields = .ok ⟨"R", "a", "", 2, 1, 0, ["a"], ""⟩ :=
    Json.readInfo_eq_ok_iff.mpr ⟨rfl, rfl, rfl, ⟨rfl, by decide⟩, ⟨by rw [Nat.cast_one]; rfl, by decide⟩,
      ⟨rfl, by decide⟩, Or.inl ⟨rfl, rfl⟩, rfl⟩
  simp [ExactOn, deserialize, deserializeObject, hread] at hexact

end ClientRoomInfo

end MultiSlider
