import Mathlib.Algebra.Ring.Int.Defs
import Mathlib.Algebra.Order.Ring.Int

/-! The messages of a game session (`BackendMessage.scala`) and the datagrams that carry them. A datagram
    is a JSON message or bytes that are not one: the plain answers and whatever does not parse. Numbers
    travel as JSON numbers; the server reads them into the fixed-width fields of its case classes. -/

namespace MultiSlider

/-- A UDP endpoint. -/
abbrev Address := Nat

/-- What lift-json puts into an `Int` field: the low 32 bits of the number, as a signed integer. -/
def toInt (x : Int) : Int := x.bmod (2 ^ 32)

/-- What lift-json puts into a `Long` field: the low 64 bits of the number, as a signed integer. -/
def toLong (x : Int) : Int := x.bmod (2 ^ 64)

theorem toInt_of_range {x : Int} (hlow : -2 ^ 31 ≤ x) (hhigh : x < 2 ^ 31) : toInt x = x := by
  unfold toInt
  rw [Int.bmod_def]
  omega

theorem toInt_range (x : Int) : -2 ^ 31 ≤ toInt x ∧ toInt x < 2 ^ 31 := by
  unfold toInt
  rw [Int.bmod_def]
  omega

theorem toInt_idx {n : Nat} (h : n < 1024) : toInt (n : Int) = n :=
  toInt_of_range (by omega) (by omega)

/-! Plain answers. -/

def responseSucc : String := "SUCC"
def responseSuck : String := "SUCK"

/-- Data broadcasted for each player. -/
structure PlayerData where
  name : String
  data : String
  timestamp : Int
  weak : Bool
  alive : Bool
deriving DecidableEq, Repr

/-- The case classes of `BackendMessage`. A `null` string is `none` where the code writes or tests one. -/
inductive BackendMessage where
  | ready (playerName : String)
  | update (playerName : String) (timestamp : Int) (forceBroadcast : Bool) (data : String)
      (sharedData : Option String)
  | message (sender data : String)
  | requestSync (playerName : String) (delay syncId seqIdx : Int)
  | quit (playerName : String)
  | keepAlive (playerName : Option String) (timestamp : Int)
  | start
  | sessionState (data : List PlayerData) (sharedData : String) (sharedTimestamp : Int)
  | sync (syncId seqIdx : Int)
  | ack (seqIdx : Int)
  | clockSync (id requestTime responseTime : Int)
deriving DecidableEq, Repr

/-- The message as lift-json extracts it: each number in the width of its field. -/
def BackendMessage.extract : BackendMessage → BackendMessage
  | .update playerName timestamp forceBroadcast data sharedData =>
    .update playerName (toLong timestamp) forceBroadcast data sharedData
  | .requestSync playerName delay syncId seqIdx =>
    .requestSync playerName (toLong delay) (toInt syncId) (toInt seqIdx)
  | .keepAlive playerName timestamp => .keepAlive playerName (toLong timestamp)
  | .sessionState data sharedData sharedTimestamp => .sessionState data sharedData (toLong sharedTimestamp)
  | .sync syncId seqIdx => .sync (toInt syncId) (toInt seqIdx)
  | .ack seqIdx => .ack (toInt seqIdx)
  | .clockSync id requestTime responseTime => .clockSync (toInt id) (toLong requestTime) (toLong responseTime)
  | m => m

/-- The content of a datagram. -/
inductive Payload where
  | json (message : BackendMessage)
  | text (raw : String)
deriving DecidableEq, Repr

/-- One reliable `sync` call: the `call`-th of the player's client. The request it sends, its copies and
    the answers to them are traced back to it; it is not part of any datagram. -/
structure Request where
  player : String
  call : Nat
  syncId : Nat
deriving DecidableEq, Repr

/-- A datagram from a client: the session message in its `Envelop`, and the call that built it. -/
structure Envelop where
  sessionId : Nat
  data : Payload
  request : Option Request
deriving DecidableEq, Repr

end MultiSlider
