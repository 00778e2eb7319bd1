import PolicyEngine.Go.Encoding
import PolicyEngine.Go.Strconv

namespace PolicyEngine.Go.Net

/-- A 16-byte `net.IP`; IPv4 addresses are held in their mapped form. -/
abbrev IP := BitVec 128

inductive IPNet
  | v4 (ip : BitVec 32) (ones : ℕ)
  | v6 (ip : BitVec 128) (ones : ℕ)
deriving DecidableEq, Repr

def mapped (ip : BitVec 32) : IP := (0xffff : BitVec 128) <<< 32 ||| ip.zeroExtend 128

def to4 (ip : IP) : Option (BitVec 32) :=
  if ip >>> 32 = 0xffff then some (ip.truncate 32) else none

def mask (w ones : ℕ) : BitVec w := BitVec.allOnes w <<< (w - ones)

def IPNet.contains (net : IPNet) (ip : IP) : Bool :=
  match net, to4 ip with
  | .v4 nn ones, some x => nn &&& mask 32 ones == x &&& mask 32 ones
  | .v4 _ _, none => false
  | .v6 nn ones, x? =>
    -- A mapped network is compared in 4 bytes, under the last 4 bytes of its mask.
    match to4 nn, x? with
    | some nn4, some x => nn4 &&& mask 32 (ones - 96) == x &&& mask 32 (ones - 96)
    | none, none => nn &&& mask 128 ones == ip &&& mask 128 ones
    | _, _ => false

def octet (cs : List Char) : Option ℕ :=
  if cs.length > 1 ∧ cs.head? = some '0' then none
  else (Strconv.parseDigits cs).bind fun n ↦ if n ≤ 255 then some n else none

def parseIPv4Fields (cs : List Char) : Option (BitVec 32) :=
  match cs.splitOn '.' with
  | [a, b, c, d] => do
    let a ← octet a
    let b ← octet b
    let c ← octet c
    let d ← octet d
    some (BitVec.ofNat 32 (((a * 256 + b) * 256 + c) * 256 + d))
  | _ => none

def hexRun : List Char → ℕ → ℕ → ℕ × ℕ × List Char
  | [], off, acc => (off, acc, [])
  | c :: cs, off, acc =>
    match Encoding.hexDigit c with
    | some d => hexRun cs (off + 1) (acc * 16 + d)
    | none => (off, acc, c :: cs)

/-- The groups read so far, as 16-bit values, and where the ellipsis stands
among them. -/
structure Groups where
  groups : List ℕ
  ellipsis : Option ℕ

/-- The loop of `parseIPv6`, with one unit of fuel for each of the eight
groups. It returns what is left of the text. -/
def parseGroups : ℕ → Groups → List Char → Option (Groups × List Char)
  | 0, g, s => some (g, s)
  | n + 1, g, s =>
    let (off, acc, rest) := hexRun s 0 0
    if off = 0 ∨ off > 4 then none
    else if rest.head? = some '.' then
      if (g.ellipsis = none ∧ g.groups.length ≠ 6) ∨ g.groups.length > 6 then none
      else do
        let v4 ← parseIPv4Fields s
        some ({ g with groups := g.groups ++ [v4.toNat / 65536, v4.toNat % 65536] }, [])
    else
      let g := { g with groups := g.groups ++ [acc] }
      match rest with
      | [] => some (g, [])
      | ':' :: ':' :: rest =>
        if g.ellipsis.isSome then none
        else
          let g := { g with ellipsis := some g.groups.length }
          if rest = [] then some (g, []) else parseGroups n g rest
      | ':' :: c :: rest => parseGroups n g (c :: rest)
      | _ => none

def ofGroups (gs : List ℕ) : IP := BitVec.ofNat 128 (gs.foldl (fun acc g ↦ acc * 65536 + g) 0)

def expand (g : Groups) : Option IP :=
  if g.groups.length < 8 then
    g.ellipsis.map fun e ↦ ofGroups
      (g.groups.take e ++ List.replicate (8 - g.groups.length) 0 ++ g.groups.drop e)
  else if g.ellipsis.isSome then none
  else some (ofGroups g.groups)

def parseIPv6 (s : List Char) : Option IP :=
  let start : Option (Groups × List Char) :=
    match s with
    | ':' :: ':' :: [] => some (⟨[], some 0⟩, [])
    | ':' :: ':' :: rest => parseGroups 8 ⟨[], some 0⟩ rest
    | s => parseGroups 8 ⟨[], none⟩ s
  match start with
  | some (g, []) => expand g
  | _ => none

inductive Addr
  | v4 (ip : BitVec 32)
  | v6 (ip : BitVec 128)
deriving DecidableEq, Repr

/-- `netip.ParseAddr` restricted to addresses without a zone: the first
separator decides between the two notations. -/
def parseAddr (s : List Char) : Option Addr :=
  match s.find? fun c ↦ c == '.' || c == ':' || c == '%' with
  | some '.' => (parseIPv4Fields s).map .v4
  | some ':' => (parseIPv6 s).map .v6
  | _ => none

def Addr.as16 : Addr → IP
  | .v4 ip => mapped ip
  | .v6 ip => ip

def parseIP (s : String) : Option IP := (parseAddr s.toList).map Addr.as16

def parseCIDR (s : String) : Option (IP × IPNet) :=
  match s.toList.splitOn '/' with
  | addr :: rest@(_ :: _) => do
    let ip ← parseAddr addr
    let n ← Strconv.parseDigits (['/'].intercalate rest)
    match ip with
    | .v4 x => if n ≤ 32 then some (mapped x, .v4 (x &&& mask 32 n) n) else none
    | .v6 x => if n ≤ 128 then some (x, .v6 (x &&& mask 128 n) n) else none
  | _ => none

end PolicyEngine.Go.Net
