import KeyValueServer.Numeral

/-!
# Socket addresses

The text of an address to listen on: four decimal bytes or a bracketed IPv6 address, a colon
and a decimal port. Names of hosts are not looked up. A byte has no leading zeros; a port may
have any number of them. An IPv6 address may leave out one run of zero groups, end in four
decimal bytes, and name a zone after a percent sign.

A reader takes the characters that are left and gives what it has read with those after it.

## Main definitions

* `SocketAddress`, `SocketAddress.parse?` — addresses and their reader;
* `IpAddress.text` — the canonical text of an IP address.
-/

namespace KeyValueServer

/-- An IP address. -/
inductive IpAddress
  /-- Four bytes. -/
  | v4 (a b c d : UInt8)
  /-- Eight groups of sixteen bits. -/
  | v6 (groups : List Nat)
  deriving DecidableEq

/-- An IP address and a port. -/
structure SocketAddress where
  /-- The address. -/
  ip : IpAddress
  /-- The zone in which the address holds, by its number; zero where no zone is named. -/
  zone : UInt32
  /-- The port. -/
  port : UInt16
  deriving DecidableEq

namespace SocketAddress

/-! ### Numbers -/

/-- The longest run of digits, and the characters after it. -/
def digits (base : Nat) (s : List Char) : List Nat × List Char :=
  ((s.takeWhile fun c => (Numeral.digitOf? base c).isSome).filterMap (Numeral.digitOf? base),
    s.dropWhile fun c => (Numeral.digitOf? base c).isSome)

/-- A byte in decimal, without a leading zero. -/
def readByte (s : List Char) : Option (UInt8 × List Char) :=
  match digits 10 s with
  | ([], _) => none
  | (0 :: _ :: _, _) => none
  | (ds, rest) =>
    (Numeral.continuedBelow? 256 10 0 ds).map fun byte => (UInt8.ofNat byte, rest)

/-- A group of an IPv6 address: up to four digits in base sixteen. -/
def readGroup (s : List Char) : Option (Nat × List Char) :=
  match digits 16 s with
  | ([], _) => none
  | (ds, rest) =>
    if ds.length ≤ 4 then some (Numeral.continued 16 0 ds, rest) else none

/-- A decimal number below a bound, with any number of leading zeros. -/
def readBelow (bound : Nat) (s : List Char) : Option (Nat × List Char) :=
  match digits 10 s with
  | ([], _) => none
  | (ds, rest) => (Numeral.continuedBelow? bound 10 0 ds).map fun value => (value, rest)

/-- The characters after a given one, if it comes first. -/
def after? (c : Char) : List Char → Option (List Char)
  | b :: rest => if b = c then some rest else none
  | [] => none

/-! ### Addresses -/

/-- Four decimal bytes with points between them. -/
def readV4 (s : List Char) : Option ((UInt8 × UInt8 × UInt8 × UInt8) × List Char) := do
  let (a, s) ← readByte s
  let s ← after? '.' s
  let (b, s) ← readByte s
  let s ← after? '.' s
  let (c, s) ← readByte s
  let s ← after? '.' s
  let (d, s) ← readByte s
  some ((a, b, c, d), s)

/-- The characters after the colon that separates a group from the one before it. The first
group has none. -/
def separated? (isFirst : Bool) (s : List Char) : Option (List Char) :=
  if isFirst then some s else after? ':' s

/-- A run of groups. -/
structure Groups where
  /-- The groups in order. -/
  values : List Nat
  /-- Whether the last two were written as four decimal bytes. -/
  endsInV4 : Bool
  /-- The characters after them. -/
  rest : List Char

/-- Up to `room` groups with colons between them. Four decimal bytes stand for two groups and
end the run. -/
def readGroups (isFirst : Bool) : Nat → List Char → Groups
  | 0, s => ⟨[], false, s⟩
  | room + 1, s =>
    match (if room = 0 then none else (separated? isFirst s).bind readV4) with
    | some ((a, b, c, d), rest) =>
      ⟨[a.toNat * 256 + b.toNat, c.toNat * 256 + d.toNat], true, rest⟩
    | none =>
      match (separated? isFirst s).bind readGroup with
      | some (group, rest) =>
        let more := readGroups false room rest
        { more with values := group :: more.values }
      | none => ⟨[], false, s⟩

/-- An IPv6 address: eight groups, or fewer around one pair of colons. -/
def readV6 (s : List Char) : Option (List Nat × List Char) :=
  let head := readGroups true 8 s
  if head.values.length = 8 then some (head.values, head.rest)
  else if head.endsInV4 then none
  else do
    let s ← after? ':' head.rest
    let s ← after? ':' s
    let tail := readGroups true (7 - head.values.length) s
    let gap := 8 - (head.values.length + tail.values.length)
    some (head.values ++ List.replicate gap 0 ++ tail.values, tail.rest)

/-- A percent sign and a zone, or no zone. -/
def readZone (s : List Char) : UInt32 × List Char :=
  match (after? '%' s).bind (readBelow UInt32.size) with
  | some (zone, rest) => (UInt32.ofNat zone, rest)
  | none => (0, s)

/-- A colon and a port. -/
def readPort (s : List Char) : Option (UInt16 × List Char) := do
  let s ← after? ':' s
  let (port, s) ← readBelow UInt16.size s
  some (UInt16.ofNat port, s)

/-- An IPv4 address and a port. -/
def readSocketV4 (s : List Char) : Option (SocketAddress × List Char) := do
  let ((a, b, c, d), s) ← readV4 s
  let (port, s) ← readPort s
  some (⟨.v4 a b c d, 0, port⟩, s)

/-- A bracketed IPv6 address and a port. -/
def readSocketV6 (s : List Char) : Option (SocketAddress × List Char) := do
  let s ← after? '[' s
  let (groups, s) ← readV6 s
  let (zone, s) := readZone s
  let s ← after? ']' s
  let (port, s) ← readPort s
  some (⟨.v6 groups, zone, port⟩, s)

/-- The address of a text that holds nothing else. -/
def parse? (text : String) : Option SocketAddress :=
  match (readSocketV4 text.toList).or (readSocketV6 text.toList) with
  | some (address, []) => some address
  | _ => none

end SocketAddress

namespace IpAddress

/-! ### Texts -/

/-- Four bytes in decimal. -/
def v4Text (a b c d : Nat) : String :=
  ".".intercalate (([a, b, c, d] : List Nat).map Numeral.decimal)

/-- Groups in base sixteen with colons between them. -/
def groupsText (groups : List Nat) : String :=
  ":".intercalate (groups.map Numeral.hexadecimal)

/-- How many zeros groups begin with. -/
def zeroRun (groups : List Nat) : Nat :=
  (groups.takeWhile (· == 0)).length

/-- The start and the length of the first longest run of zeros at or after `start`. -/
def longestZeroRun (start : Nat) : List Nat → Nat × Nat
  | [] => (start, 0)
  | g :: rest =>
    let here := zeroRun (g :: rest)
    let later := longestZeroRun (start + 1) rest
    if later.2 ≤ here then (start, here) else later

/-- The canonical text of an address. The first longest run of two or more zero groups is left
out, and an address that stands for an IPv4 address ends in four decimal bytes. -/
def text : IpAddress → String
  | v4 a b c d => v4Text a.toNat b.toNat c.toNat d.toNat
  | v6 [0, 0, 0, 0, 0, 0xFFFF, high, low] =>
    "::ffff:" ++ v4Text (high / 256) (high % 256) (low / 256) (low % 256)
  | v6 groups =>
    let (start, length) := longestZeroRun 0 groups
    if 1 < length then
      groupsText (groups.take start) ++ "::" ++ groupsText (groups.drop (start + length))
    else groupsText groups

end IpAddress

end KeyValueServer
