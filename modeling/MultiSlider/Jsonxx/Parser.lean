import MultiSlider.Jsonxx.Stream

/-! The parser of `jsonxx.cc`, permissive and without unquoted keys, as the library is configured. Each function
    returns what it has read and the stream after it. The recursion takes fuel; `Object::parse` has enough of it for
    its text. -/

namespace MultiSlider
namespace Jsonxx

open JsonText

universe u

/-- A character that the extraction of a number can accept. -/
def isNumeric (b : UInt8) : Bool :=
  (0x30 ≤ b && b ≤ 0x39) || b == 0x2B || b == 0x2D || b == 0x2E || b == 0x45 || b == 0x65

/-- How the streams of the standard library read and write a `jsonxx::Number`. -/
structure NumberFormat (ν : Type u) where
  /-- `input >> value` where the input begins with this text: the number, and what comes after it. -/
  read : Bytes → Option (ν × Bytes)
  /-- `stream << value` with the precision that `tag` sets. -/
  write : ν → Bytes
  /-- The texts that are read as this number, whatever comes after them that is no part of a number. -/
  Spelled : ν → Bytes → Prop
  /-- The numbers that are written without rounding. -/
  Exact : ν → Prop
  read_suffix : ∀ {t x rest}, read t = some (x, rest) → ∃ b p, t = b :: p ++ rest
  read_spelled : ∀ {x t rest}, Spelled x t → (∀ b ∈ rest.head?, isNumeric b = false) → read (t ++ rest) = some (x, rest)
  read_none : ∀ {t}, (∀ b ∈ t.head?, isNumeric b = false) → read t = none
  /-- A text that breaks off is read to its end, or not at all. -/
  read_prefix : ∀ {x t p}, Spelled x t → p <+: t → read p = none ∨ ∃ y, read p = some (y, [])
  spelled_head : ∀ {x t}, Spelled x t → ∃ b rest, t = b :: rest ∧ isNumeric b = true
  spelled_write : ∀ {x}, Exact x → Spelled x (write x)

/-- The sign that the extraction of an integer accepts, and what comes after it. -/
def readSign : Bytes → Int × Bytes
  | [] => (1, [])
  | b :: t => if b = 0x2B then (1, t) else if b = 0x2D then (-1, t) else (1, b :: t)

/-- The extraction of a hexadecimal integer accepts `0x` before it. -/
def skipRadix : Bytes → Bytes
  | b :: x :: t => if b = 0x30 ∧ (x = 0x78 ∨ x = 0x58) then t else b :: x :: t
  | t => t

/-- `ss >> i` for the characters that stand in `ss` after `std::hex`. -/
def readHex (digits : Bytes) : Option Int :=
  let (sign, digits) := readSign (digits.dropWhile isSpace)
  match (skipRadix digits).takeWhile (hexDigit · |>.isSome) with
  | [] => none
  | taken => some (sign * taken.foldl (fun n b => n * 16 + (hexDigit b).getD 0) 0)

/-- Four times `input.get(ch); ss << ch`, as long as the stream is good. -/
def getFour : Nat → UInt8 → Bytes → IStream → UInt8 × Bytes × IStream
  | 0, ch, ss, s => (ch, ss, s)
  | n + 1, ch, ss, s =>
    if s.good then
      let (ch, s) := s.get ch
      getFour n ch (ss ++ [ch]) s
    else (ch, ss, s)

/-- The `switch` on the character after a backslash: `ch` after it, and what is appended to the string. -/
def escape (delimiter ch : UInt8) (s : IStream) : UInt8 × Bytes × IStream :=
  if ch = 0x75 then
    let (ch, ss, s) := getFour 4 ch [] s
    (ch, if s.good then ((readHex ss).map fun i => [UInt8.ofNat (i % 256).toNat]).getD [] else [], s)
  else if ch = backslash ∨ ch = slash then (ch, [ch], s)
  else if ch = 0x62 then (ch, [0x08], s)
  else if ch = 0x66 then (ch, [0x0C], s)
  else if ch = 0x6E then (ch, [0x0A], s)
  else if ch = 0x72 then (ch, [0x0D], s)
  else if ch = 0x74 then (ch, [0x09], s)
  else if ch ≠ delimiter then (ch, [backslash, ch], s)
  else (ch, [ch], s)

/-- The loop of `parse_string`: the last `ch`, the string, and the stream. -/
def stringLoop (delimiter : UInt8) : Nat → UInt8 → Bytes → IStream → UInt8 × Bytes × IStream
  | 0, ch, value, s => (ch, value, s)
  | fuel + 1, ch, value, s =>
    if s.good then
      let (ch, s) := s.get ch
      if ch = delimiter then (ch, value, s)
      else if ch = backslash then
        let (ch, s) := s.get ch
        let (ch, bytes, s) := escape delimiter ch s
        stringLoop delimiter fuel ch (value ++ bytes) s
      else stringLoop delimiter fuel ch (value ++ [ch]) s
    else (ch, value, s)

/-- `parse_string` from the character after the delimiter on. -/
def parseDelimited (delimiter ch : UInt8) (s : IStream) : Option Bytes × IStream :=
  let (ch, value, s) := stringLoop delimiter (s.rest.length + 1) ch [] s
  (if !s.fail && ch = delimiter then some value else none, s)

/-- `parse_string`; a string may stand between apostrophes. -/
def parseString (s : IStream) : Option Bytes × IStream :=
  match matchPattern [quote] s with
  | (true, s) => parseDelimited quote 0 s
  | (false, s) =>
    let (next, s) := s.peek
    if next = some apostrophe then
      let (ch, s) := s.get 0
      parseDelimited apostrophe ch s
    else (none, s)

variable {ν : Type u} (N : NumberFormat ν)

/-- `input >> value`. -/
def extract (s : IStream) : Option ν × IStream :=
  let s := s.ws
  if s.good then
    match N.read s.rest with
    | some (x, rest) =>
      let taken := s.rest.take (s.rest.length - rest.length)
      (some x, ⟨taken.reverse ++ s.before, rest, rest = [], false⟩)
    | none => (none, { s with fail := true })
  else (none, { s with fail := true })

/-- `parse_number`. -/
def parseNumber (s : IStream) : Option ν × IStream :=
  let (rollback, s) := s.ws.tellg
  match extract N s with
  | (some x, s) => (some x, s)
  | (none, s) => (none, s.clear.seekg rollback)

/-- `parse_bool`. -/
def parseBool (s : IStream) : Option Bool × IStream :=
  match matchPattern trueText s with
  | (true, s) => (some true, s)
  | (false, s) =>
    match matchPattern falseText s with
    | (true, s) => (some false, s)
    | (false, s) => (none, s)

/-- `parse_null`; nothing before a comma passes for it. -/
def parseNull (s : IStream) : Bool × IStream :=
  match matchPattern nullText s with
  | (true, s) => (true, s)
  | (false, s) =>
    let (next, s) := s.peek
    (next = some comma, s)

/-- The tests of `Value::parse` before those of arrays and objects. -/
def parseScalar (s : IStream) : Option (Value ν) × IStream :=
  match parseString s with
  | (some t, s) => (some (.string t), s)
  | (none, s) =>
    match parseNumber N s with
    | (some x, s) => (some (.number x), s)
    | (none, s) =>
      match parseBool s with
      | (some b, s) => (some (.bool b), s)
      | (none, s) =>
        match parseNull s with
        | (true, s) => (some .null, s)
        | (false, s) => (none, s)

mutual

/-- `Value::parse`. -/
def parseValue : Nat → IStream → Option (Option (Value ν) × IStream)
  | 0, _ => none
  | fuel + 1, s =>
    match parseScalar N s with
    | (some v, s) => some (some v, s)
    | (none, s) =>
      let (next, s) := s.peek
      if next = some openBracket then
        match parseArray fuel s with
        | some (some xs, s) => some (some (.array xs), s)
        | some (none, s) =>
          (parseObject fuel s).map fun (ok, fields, s) => (if ok then some (.object fields) else none, s)
        | none => none
      else (parseObject fuel s).map fun (ok, fields, s) => (if ok then some (.object fields) else none, s)

/-- `Array::parse`. -/
def parseArray : Nat → IStream → Option (Option (List (Value ν)) × IStream)
  | 0, _ => none
  | fuel + 1, s =>
    match matchPattern [openBracket] s with
    | (false, s) => some (none, s)
    | (true, s) =>
      match matchPattern [closeBracket] s with
      | (true, s) => some (some [], s)
      | (false, s) =>
        (parseElements fuel [] s).map fun (xs, s) =>
          let (ok, s) := matchPattern [closeBracket] s
          (if ok then some xs else none, s)

/-- The loop of `Array::parse`. -/
def parseElements : Nat → List (Value ν) → IStream → Option (List (Value ν) × IStream)
  | 0, _, _ => none
  | fuel + 1, xs, s =>
    match parseValue fuel s with
    | none => none
    | some (none, s) => some (xs, s)
    | some (some v, s) =>
      match matchPattern [comma] s with
      | (true, s) => parseElements fuel (xs ++ [v]) s
      | (false, s) => some (xs ++ [v], s)

/-- `Object::parse`: its result, and the fields that have been read, whatever it is. -/
def parseObject : Nat → IStream → Option (Bool × Fields ν × IStream)
  | 0, _ => none
  | fuel + 1, s =>
    match matchPattern [openBrace] s with
    | (false, s) => some (false, [], s)
    | (true, s) =>
      match matchPattern [closeBrace] s with
      | (true, s) => some (true, [], s)
      | (false, s) =>
        (parseMembers fuel [] s).map fun (ok, fields, s) =>
          if ok then
            let (ok, s) := matchPattern [closeBrace] s
            (ok, fields, s)
          else (false, fields, s)

/-- The loop of `Object::parse`; false where it returns from inside. -/
def parseMembers : Nat → Fields ν → IStream → Option (Bool × Fields ν × IStream)
  | 0, _, _ => none
  | fuel + 1, fields, s =>
    match parseString s with
    | (none, s) =>
      let (next, s) := s.peek
      some (next = some closeBrace, fields, s)
    | (some key, s) =>
      match matchPattern [colon] s with
      | (false, s) => some (false, fields, s)
      | (true, s) =>
        match parseValue fuel s with
        | none => none
        | some (none, s) => some (true, fields, s)
        | some (some v, s) =>
          match matchPattern [comma] s with
          | (true, s) => parseMembers fuel (SortedMap.store key v fields) s
          | (false, s) => some (true, SortedMap.store key v fields, s)

end

end Jsonxx
end MultiSlider
