import Mathlib.Data.BitVec
import Mathlib.Data.List.Basic

/-! # IP addresses and their text

`std::net::IpAddr` with its `Display` and `FromStr`, as the Rust standard library documents them.
IPv4: four decimal octets without leading zeros. IPv6: eight groups of up to four hexadecimal
digits, at most one `::`, an IPv4 address allowed as the last two groups; printed in lower case with
the first longest run of two or more zero groups written `::`, and IPv4-mapped addresses with a
dotted tail. -/

namespace BandixPlus.Net.Addresses

/-- An IPv4 or IPv6 address. -/
inductive IpAddr where
  | v4 (ip : UInt32)
  | v6 (ip : BitVec 128)
  deriving DecidableEq

/-- `Ipv4Addr::octets`. -/
def v4Octets (ip : UInt32) : List ℕ :=
  [ip.toNat / 0x1000000, ip.toNat / 0x10000 % 0x100, ip.toNat / 0x100 % 0x100, ip.toNat % 0x100]

/-- `Ipv6Addr::segments`. -/
def v6Segments (ip : BitVec 128) : List ℕ :=
  (List.range 8).map fun i => ip.toNat / 0x10000 ^ (7 - i) % 0x10000

/-- The address with the given big-endian digits in the given base. -/
def ofDigits (base : ℕ) (ds : List ℕ) : ℕ := ds.foldl (fun acc d => acc * base + d) 0

/-! ### Display -/

def v4ToString (ip : UInt32) : String := ".".intercalate ((v4Octets ip).map toString)

/-- Segments in lower-case hexadecimal, separated by colons. -/
def fmtSubslice (segs : List ℕ) : String :=
  ":".intercalate (segs.map fun s => String.ofList (Nat.toDigits 16 s))

/-- The longest run of zero segments, the first if there are several: its start and length. -/
def longestZeroRun (segs : List ℕ) : ℕ × ℕ :=
  let step := fun (st : (ℕ × ℕ) × (ℕ × ℕ)) (e : ℕ × ℕ) =>
    if e.2 = 0 then
      let cur := if st.2.2 = 0 then (e.1, 1) else (st.2.1, st.2.2 + 1)
      (if st.1.2 < cur.2 then cur else st.1, cur)
    else (st.1, (0, 0))
  (((List.range segs.length).zip segs).foldl step ((0, 0), (0, 0))).1

def v6ToString (ip : BitVec 128) : String :=
  let segs := v6Segments ip
  if segs.take 6 = [0, 0, 0, 0, 0, 0xffff] then
    "::ffff:" ++ v4ToString (UInt32.ofNat ip.toNat)
  else
    let run := longestZeroRun segs
    if 1 < run.2 then
      fmtSubslice (segs.take run.1) ++ "::" ++ fmtSubslice (segs.drop (run.1 + run.2))
    else fmtSubslice segs

/-- `IpAddr::to_string`. -/
def IpAddr.toString : IpAddr → String
  | .v4 ip => v4ToString ip
  | .v6 ip => v6ToString ip

/-! ### FromStr -/

/-- `char::to_digit`. -/
def toDigit (radix : ℕ) (c : Char) : Option ℕ :=
  let d :=
    if '0' ≤ c ∧ c ≤ '9' then c.toNat - '0'.toNat
    else if 'a' ≤ c ∧ c ≤ 'z' then c.toNat - 'a'.toNat + 10
    else if 'A' ≤ c ∧ c ≤ 'Z' then c.toNat - 'A'.toNat + 10
    else radix
  if d < radix then some d else none

/-- The leading digits of the text and what follows them. -/
def digits (radix : ℕ) : List Char → List ℕ × List Char
  | [] => ([], [])
  | c :: cs =>
    match toDigit radix c with
    | some d => let r := digits radix cs; (d :: r.1, r.2)
    | none => ([], c :: cs)

/-- `Parser::read_number`: a number of at most `maxDigits` digits, below `bound`. -/
def readNumber (radix maxDigits bound : ℕ) (allowZeroPrefix : Bool) (cs : List Char) :
    Option (ℕ × List Char) :=
  let (ds, rest) := digits radix cs
  let n := ofDigits radix ds
  if ds.length = 0 ∨ maxDigits < ds.length ∨ bound ≤ n then none
  else if !allowZeroPrefix && ds.head? == some 0 && 1 < ds.length then none
  else some (n, rest)

/-- `Parser::read_separator`: the separator is expected before every item but the first. -/
def readSeparator {α : Type} (sep : Char) (index : ℕ) (inner : List Char → Option (α × List Char))
    (cs : List Char) : Option (α × List Char) :=
  if index = 0 then inner cs
  else match cs with
    | c :: cs => if c = sep then inner cs else none
    | [] => none

/-- `Parser::read_ipv4_addr`. -/
def readIpv4Addr (cs : List Char) : Option (ℕ × List Char) :=
  (List.range 4).foldlM (fun (st : ℕ × List Char) i => do
    let (n, rest) ← readSeparator '.' i (readNumber 10 3 0x100 false) st.2
    pure (st.1 * 0x100 + n, rest)) (0, cs)

/-- `read_groups`: up to `limit` groups from the `i`-th on, and whether an IPv4 address ended them. -/
def readGroups (limit : ℕ) : ℕ → ℕ → List Char → List ℕ × Bool × List Char
  | 0, _, cs => ([], false, cs)
  | fuel + 1, i, cs =>
    match (if i + 1 < limit then readSeparator ':' i readIpv4Addr cs else none) with
    | some (v4, rest) => ([v4 / 0x10000, v4 % 0x10000], true, rest)
    | none =>
      match readSeparator ':' i (readNumber 16 4 0x10000 true) cs with
      | some (g, rest) =>
        let r := readGroups limit fuel (i + 1) rest
        (g :: r.1, r.2)
      | none => ([], false, cs)

/-- `Parser::read_ipv6_addr`. -/
def readIpv6Addr (cs : List Char) : Option (ℕ × List Char) :=
  let (head, headIpv4, rest) := readGroups 8 8 0 cs
  if head.length = 8 then some (ofDigits 0x10000 head, rest)
  else if headIpv4 then none
  else match rest with
    | ':' :: ':' :: rest =>
      let limit := 8 - (head.length + 1)
      let (tail, _, rest) := readGroups limit limit 0 rest
      let zeros := List.replicate (8 - head.length - tail.length) 0
      some (ofDigits 0x10000 (head ++ zeros ++ tail), rest)
    | _ => none

/-- `str::parse::<Ipv4Addr>`. -/
def parseIpv4 (s : String) : Option UInt32 :=
  if 15 < s.toList.length then none
  else match readIpv4Addr s.toList with
    | some (n, []) => some (UInt32.ofNat n)
    | _ => none

/-- `str::parse::<Ipv6Addr>`. -/
def parseIpv6 (s : String) : Option (BitVec 128) :=
  match readIpv6Addr s.toList with
  | some (n, []) => some (BitVec.ofNat 128 n)
  | _ => none

/-- `str::parse::<IpAddr>`. -/
def parse (s : String) : Option IpAddr :=
  match parseIpv4 s with
  | some ip => some (.v4 ip)
  | none => (parseIpv6 s).map .v6

end BandixPlus.Net.Addresses
