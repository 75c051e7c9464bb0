import MultiSlider.Lib.JsonText

/-! The input stream that `jsonxx.cc` reads: a `std::istringstream`, with what the parser calls of it. A character that
    is not there leaves the variable it was meant for as it is. -/

namespace MultiSlider
namespace Jsonxx

open JsonText

/-- `before` has been read, the last byte first; `fail` stands for `failbit` and `badbit`. -/
structure IStream where
  before : Bytes
  rest : Bytes
  eof : Bool
  fail : Bool
deriving DecidableEq, Repr

/-- `std::isspace` in the C locale. -/
def isSpace (b : UInt8) : Bool := b == 0x20 || (0x09 ≤ b && b ≤ 0x0D)

namespace IStream

/-- A `std::istringstream` of this text. -/
def ofText (t : Bytes) : IStream := ⟨[], t, false, false⟩

variable (s : IStream)

/-- `good()`: a read would be tried. -/
def good : Bool := !s.eof && !s.fail

/-- `get(ch)`, with the value of `ch` before and after it. -/
def get (ch : UInt8) : UInt8 × IStream :=
  if s.good then
    match s.rest with
    | b :: rest => (b, { s with before := b :: s.before, rest })
    | [] => (ch, { s with eof := true, fail := true })
  else (ch, { s with fail := true })

/-- `peek()`; there is none at the end. -/
def peek : Option UInt8 × IStream :=
  if s.good then
    match s.rest with
    | b :: _ => (some b, s)
    | [] => (none, { s with eof := true })
  else (none, { s with fail := true })

/-- `unget()`. -/
def unget : IStream :=
  if s.fail then { s with eof := false }
  else
    match s.before with
    | b :: before => ⟨before, b :: s.rest, false, false⟩
    | [] => { s with eof := false, fail := true }

/-- `putback(ch)`: what is put back must have been read there. -/
def putback (ch : UInt8) : IStream :=
  if s.fail then { s with eof := false }
  else
    match s.before with
    | b :: before => if b = ch then ⟨before, b :: s.rest, false, false⟩ else { s with eof := false, fail := true }
    | [] => { s with eof := false, fail := true }

/-- `clear()` takes back both flags. -/
def clear : IStream := { s with eof := false, fail := false }

/-- Move on over the bytes that satisfy `p`; `before` and `rest` are what is left and what comes. -/
def skipWhile (p : UInt8 → Bool) : Bytes → Bytes → IStream
  | before, [] => ⟨before, [], false, false⟩
  | before, b :: rest => if p b then skipWhile p (b :: before) rest else ⟨before, b :: rest, false, false⟩

/-- `input >> std::ws`. -/
def ws : IStream :=
  if s.good then
    let s := skipWhile isSpace s.before s.rest
    if s.rest = [] then { s with eof := true } else s
  else { s with fail := true }

/-- `tellg()`: the position, if there is one, and the stream after it. -/
def tellg : Option (Bytes × Bytes) × IStream :=
  let s := { s with fail := s.fail || s.eof }
  (if s.fail then none else some (s.before, s.rest), s)

/-- `seekg` to what `tellg` gave. -/
def seekg : Option (Bytes × Bytes) → IStream
  | some (before, rest) => if s.fail then { s with eof := false } else ⟨before, rest, false, false⟩
  | none => { s with eof := false, fail := true }

end IStream

/-- A good stream with these bytes read and those to come. -/
abbrev ready (before rest : Bytes) : IStream := ⟨before, rest, false, false⟩

/-! ### What the parser reads of it -/

open IStream

/-- The loop of `parse_comment` over the rest of a line, and the white space after it. -/
def skipLine (s : IStream) : IStream :=
  let s := skipWhile (fun b => b ≠ 0x0D ∧ b ≠ 0x0A) s.before s.rest
  if s.rest = [] then { s with eof := true, fail := true } else s.ws

/-- `parse_comment` of the permissive parser. -/
def parseComment (s : IStream) : Bool × IStream :=
  if s.eof then (false, s)
  else
    let (next, s) := s.peek
    if next = some slash then
      let (ch0, s) := s.get 0
      let (ch1, s) := s.get 0
      if ch0 = slash ∧ ch1 = slash then (true, skipLine s)
      else (false, s.unget.clear.unget.clear)
    else (false, s)

/-- The loop of `match`: `todo` is the pattern from `cur` on, `done` what comes before it, from the back. -/
def matchLoop : Nat → UInt8 → Bytes → Bytes → IStream → Bool × IStream
  | _, _, _, [], s => (true, s)
  | 0, _, _, _ :: _, s => (false, s)
  | fuel + 1, ch, done, cur :: todo, s =>
    if s.good then
      let (ch, s) := s.get ch
      if ch ≠ cur then
        let (comment, s) := parseComment (s.putback ch)
        if comment then matchLoop fuel ch done (cur :: todo) s else (false, done.foldl putback s)
      else matchLoop fuel ch (cur :: done) todo s
    else (false, s)

/-- `match`. -/
def matchPattern (pattern : Bytes) (s : IStream) : Bool × IStream :=
  let s := s.ws
  matchLoop (s.rest.length + 1) 0 [] pattern s

end Jsonxx
end MultiSlider
