import Iotivity.Engine.Blockwise
import Iotivity.Lib.Numeral
import Iotivity.Security.Text

/-!
# Endpoints as texts: `oc_endpoint.c`

`oc_endpoint_to_string` and `oc_string_to_endpoint`.  A text is the list of its bytes; the parser runs
on the buffer of the string with its terminator, a pointer into it is a position or the rest of the
buffer.  Every read of the buffer and every write to the address is checked, so a run ends with a
`Fault` where the source leaves the string or the address; the loop of `oc_parse_ipv6_address` has
fuel and is `running` when it is used up.

A `Build` says what is compiled in: TCP, IPv4, and the lookup of names, which is code of the platform.
-/

namespace EndpointString
open Security Coap

/-- what is compiled in -/
structure Build where
  tcp : Bool
  ipv4 : Bool
  /-- `oc_dns_lookup`: the text of an address for a name, by the flags it is called with -/
  dnsLookup : Option (Bytes → TransportFlags → Option Bytes)
  dnsLookupIpv6 : Bool

def noFlags : TransportFlags := ⟨false, false, false, false, false, false, false⟩

def schemeCoap : Bytes := ascii "coap://"
def schemeCoaps : Bytes := ascii "coaps://"
def schemeCoapTcp : Bytes := ascii "coap+tcp://"
def schemeCoapsTcp : Bytes := ascii "coaps+tcp://"

/-! ## `oc_endpoint_to_string` -/

/-- the scheme in front of an address -/
def scheme (b : Build) (f : TransportFlags) : Bytes :=
  if b.tcp ∧ f.tcp then if f.secured then schemeCoapsTcp else schemeCoapTcp
  else if f.secured then schemeCoaps else schemeCoap

/-- `oc_ipv4_endpoint_to_string`: what `sprintf` leaves in `ip` -/
def ipv4Text (ep : Endpoint) : Bytes :=
  let octet (i : Nat) := Numeral.decimal (ep.address.getD i 0).toNat
  octet 0 ++ [46] ++ octet 1 ++ [46] ++ octet 2 ++ [46] ++ octet 3 ++ [58] ++
    Numeral.decimal ep.port.toNat

/-- the locals of `oc_ipv6_endpoint_to_string`; `ip` is filled up to `str_idx` -/
structure Print where
  ip : Bytes
  startZeros : Nat
  lastZeros : Nat
  numZeros : Nat
  maxZerosStart : Nat
  maxZerosNum : Nat

def Print.start : Print := ⟨[91], 0, 16, 0, 0, 0⟩

/-- an octet behind `next_octet`, where `even` says whether it is the first of its group and `prev` is
the octet in front of it -/
def octetText (even : Bool) (prev c : UInt8) : Bytes :=
  if even ∧ c = 0 then []
  else if (even ∨ prev = 0) ∧ c ≤ 0x0f then [hexDigit c]
  else hexByte c

/-- the longest run of zeros so far -/
def Print.close (st : Print) : Print :=
  if st.numZeros > st.maxZerosNum then
    { st with maxZerosNum := st.numZeros, maxZerosStart := st.startZeros }
  else st

/-- the body of the loop at `addr_idx = 2 * i`, up to the next group -/
def printGroup (addr : Bytes) (st : Print) (i : Nat) : Print :=
  let hi := addr.getD (2 * i) 0
  let lo := addr.getD (2 * i + 1) 0
  if hi = 0 ∧ lo = 0 then
    -- a run begins unless the group in front was zero too
    let st := if st.lastZeros + 2 ≠ 2 * i then { st with startZeros := st.ip.length, numZeros := 0 } else st
    { st with lastZeros := 2 * i, numZeros := st.numZeros + 2 }
  else
    let st := st.close
    { st with ip := st.ip ++ (if 0 < i then [58] else []) ++ octetText true 0 hi ++ octetText false hi lo }

/-- `oc_ipv6_endpoint_to_string`: what is in `ip` at the end -/
def ipv6Text (ep : Endpoint) : Bytes :=
  let st := (List.range 8).foldl (printGroup ep.address) Print.start
  let start := if st.numZeros > st.maxZerosNum then st.startZeros else st.maxZerosStart
  let ip := if st.lastZeros = 14 then st.ip ++ [58] else st.ip
  -- the characters from `start` on move up by one, the first of them stays as well
  let ip := if start ≠ 0 then ip.take (start + 1) ++ ip.drop start else ip
  ip ++ [93, 58] ++ Numeral.decimal ep.port.toNat

/-- `oc_endpoint_to_string` -/
def ocEndpointToString (b : Build) (ep : Endpoint) : Option Bytes :=
  if ep.flags.ipv6 then some (scheme b ep.flags ++ ipv6Text ep)
  else if b.ipv4 ∧ ep.flags.ipv4 then some (scheme b ep.flags ++ ipv4Text ep)
  else none

/-! ## reading a string, writing an address -/

inductive Fault where
  /-- a read outside of the string -/
  | read
  /-- a write outside of the address, or of a local array that cannot exist -/
  | write
  /-- the loop has not ended yet -/
  | running
deriving DecidableEq

abbrev Checked := Except Fault

/-- `text[i]` -/
def charAt (text : Bytes) (i : Nat) : Checked UInt8 :=
  match text[i]? with
  | some c => .ok c
  | none => .error .read

/-- `addr[i] = v` -/
def store (addr : Bytes) (i : Nat) (v : UInt8) : Checked Bytes :=
  if i < addr.length then .ok (addr.set i v) else .error .write

/-- `memcmp(lit, text, strlen(lit)) == 0`: both are read in full -/
def memcmpLit (lit text : Bytes) : Checked Bool :=
  if lit.length ≤ text.length then .ok (text.take lit.length = lit) else .error .read

/-- `memchr(&text[i], c, n)` as an offset from `i` -/
def memchrAt (text : Bytes) (i : Nat) (c : UInt8) (n : Nat) : Checked (Option Nat) :=
  match ((text.drop i).take n).findIdx? (· = c) with
  | some k => .ok (some k)
  | none => if i + n ≤ text.length then .ok none else .error .read

/-- `strtoul(&text[i], &end, 10)`: the number and the position of `end` -/
def strtoulAt (text : Bytes) (i : Nat) : Checked (Nat × Nat) :=
  let r := Numeral.strtoul (text.drop i)
  if i + Numeral.lookedAt (text.drop i) ≤ text.length then .ok (r.1, i + r.2) else .error .read

/-- `strrchr` in the part of the text before its first NUL -/
def strrchr (c : UInt8) (text : Bytes) : Option Nat :=
  ((cstr text).reverse.findIdx? (· = c)).map fun k => (cstr text).length - 1 - k

/-! ## `oc_parse_ipv4_address` -/

/-- the loop, with the bytes of the address that are still to come -/
def ipv4Loop (text : Bytes) (len : Nat) : Nat → Nat → Bytes → Checked Bytes
  | 0, _, addr => .ok addr
  | n + 1, strIdx, addr =>
    if strIdx < len then do
      let (v, next) ← strtoulAt text strIdx
      let addr ← store addr (3 - n) (UInt8.ofNat v)
      -- behind the last byte the position stays
      ipv4Loop text len n (if n ≠ 0 then next + 1 else strIdx) addr
    else .ok addr

def ocParseIpv4Address (text : Bytes) (len : Nat) (addr : Bytes) : Checked Bytes :=
  ipv4Loop text len 4 0 addr

/-! ## `oc_parse_ipv6_address` -/

/-- what `hex_to_bin` adds for a character -/
def nibbleOf (h : UInt8) : UInt8 :=
  if 48 ≤ h ∧ h ≤ 57 then h - 48
  else if 97 ≤ h ∧ h ≤ 102 then h - 87
  else if 65 ≤ h ∧ h ≤ 70 then h - 55
  else h

def hexToBin (text : Bytes) (i len : Nat) : Checked UInt8 := do
  let h ← charAt text i
  if len > 1 then
    let l ← charAt text (i + 1)
    return (nibbleOf h <<< 4) ||| nibbleOf l
  else return nibbleOf h

/-- the locals of the loop -/
structure Parse where
  strIdx : Nat
  addrIdx : Nat
  split : Option Nat
  addr : Bytes

/-- `strncmp(&text[i], "::", 2) == 0`; the second character is read behind a colon only -/
def doubleColonAt (text : Bytes) (i : Nat) : Checked Bool := do
  let c ← charAt text i
  if c = 58 then
    let d ← charAt text (i + 1)
    return d = 58
  else return false

/-- the two bytes of a segment stored, and the position behind it -/
def Parse.storeGroup (st : Parse) (hi lo : UInt8) (strIdx : Nat) : Checked Parse := do
  let addr ← store st.addr st.addrIdx hi
  let addr ← store addr (st.addrIdx + 1) lo
  return { st with strIdx := strIdx, addrIdx := st.addrIdx + 2, addr := addr }

/-- the `switch` on the length of the segment -/
def Parse.segment (text : Bytes) (st : Parse) (segLen : Nat) : Checked Parse :=
  let i := st.strIdx
  match segLen with
  | 4 => do st.storeGroup (← hexToBin text i 2) (← hexToBin text (i + 2) 2) (i + 4)
  | 3 => do st.storeGroup (← hexToBin text i 1) (← hexToBin text (i + 1) 2) (i + 3)
  | 2 => do st.storeGroup 0 (← hexToBin text i 2) (i + 2)
  | 1 => do st.storeGroup 0 (← hexToBin text i 1) (i + 1)
  | 0 => .ok { st with strIdx := i + 1 }
  | _ => .ok st

/-- a difference of `size_t` -/
def sizeDiff (a b : Nat) : Nat := if b ≤ a then a - b else 2 ^ 64 + a - b

/-- `::` at the position, where there has been none before -/
def Parse.double (text : Bytes) (st : Parse) : Checked Bool :=
  if st.split = none then doubleColonAt text st.strIdx else .ok false

/-- the body of the loop -/
def Parse.step (text : Bytes) (len : Nat) (st : Parse) : Checked Parse := do
  let double ← st.double text
  let st := if double then { st with split := some st.addrIdx, strIdx := st.strIdx + 2 } else st
  let segLen := sizeDiff len st.strIdx
  let next ← memchrAt text st.strIdx 58 segLen
  st.segment text (next.getD segLen)

/-- the loop -/
def ipv6Loop (text : Bytes) (len : Nat) : Nat → Parse → Checked Parse
  | fuel, st =>
    if st.addrIdx < 15 ∧ st.strIdx < len then
      match fuel with
      | 0 => .error .running
      | fuel + 1 => do ipv6Loop text len fuel (← st.step text len)
    else .ok st

/-- the loop behind it: the bytes from `split` on, of which the last has index `i - 1`, move to the end
of the address, the last one to `dst` -/
def shiftTail (split : Nat) : Nat → Nat → Bytes → Checked Bytes
  | 0, _, addr => .ok addr
  | i + 1, dst, addr =>
    if split ≤ i then do
      let addr ← store addr dst (addr.getD i 0)
      let addr ← store addr i 0
      shiftTail split i (dst - 1) addr
    else .ok addr

def ocParseIpv6Address (fuel : Nat) (text : Bytes) (len : Nat) : Checked Bytes := do
  let st ← ipv6Loop text len fuel ⟨0, 0, none, List.replicate 16 0⟩
  match st.split with
  | none => return st.addr
  | some split => shiftTail split st.addrIdx 15 st.addr

/-! ## `oc_parse_endpoint_string` -/

/-- one of the tests for a scheme, and what follows when it fails -/
def tryScheme (lit : Bytes) (flags : TransportFlags) (buf : Bytes)
    (next : Checked (Option TransportFlags)) : Checked (Option TransportFlags) := do
  if ← memcmpLit lit buf then return some flags else next

/-- the flags that the scheme sets -/
def parseScheme (b : Build) (buf : Bytes) : Checked (Option TransportFlags) :=
  let plain := tryScheme schemeCoaps { noFlags with secured := true } buf
    (tryScheme schemeCoap noFlags buf (.ok none))
  if b.tcp then
    tryScheme schemeCoapsTcp { noFlags with tcp := true, secured := true } buf
      (tryScheme schemeCoapTcp { noFlags with tcp := true } buf plain)
  else plain

def isLetter (c : UInt8) : Bool := (65 ≤ c ∧ c ≤ 90) ∨ (97 ≤ c ∧ c ≤ 122)

/-- the address that is found for a name, for IPv6 first where that is compiled in -/
def Build.lookup (b : Build) (flags : TransportFlags) (domain : Bytes) : Option Bytes :=
  b.dnsLookup.bind fun dns =>
    (if b.dnsLookupIpv6 then dns domain { flags with ipv6 := true } else none).or
      (dns domain { flags with ipv4 := true })

/-- the text that is parsed as an address and its length, from the position of the address and that of
the last colon; a host that ends with a letter is a name -/
def resolve (b : Build) (flags : TransportFlags) (buf : Bytes) (address colon : Nat) :
    Checked (Option (Bytes × Nat)) := do
  let addressLen := sizeDiff colon address
  -- `address[address_len - 1]`, also where the length has wrapped
  let c ← charAt buf (colon - 1)
  if isLetter c then
    if b.dnsLookup.isNone then return none
    -- `char domain[address_len + 1]` of a length that has wrapped
    else if colon < address then .error .write
    else return (b.lookup flags ((buf.drop address).take addressLen)).map fun ip => (ip ++ [0], ip.length)
  else return some (buf.drop address, addressLen)

/-- the address is in brackets -/
def bracketed (text : Bytes) (len : Nat) : Checked Bool := do
  let c ← charAt text 0
  if c = 91 then
    let d ← charAt text (sizeDiff len 1)
    return d = 93
  else return false

def parseAddress (b : Build) (fuel : Nat) (flags : TransportFlags) (port : UInt16) (ep : Endpoint)
    (text : Bytes) (len : Nat) : Checked (Option Endpoint) := do
  if ← bracketed text len then
    let address ← ocParseIpv6Address fuel (text.drop 1) (sizeDiff len 2)
    return some { ep with flags := { flags with ipv6 := true }, port := port, address := address }
  else if b.ipv4 then
    let address ← ocParseIpv4Address text len ep.address
    return some { ep with flags := { flags with ipv4 := true }, port := port, address := address }
  else return none

/-- `oc_string_to_endpoint`: the endpoint and the uri behind the port, or -1 -/
def ocStringToEndpoint (b : Build) (fuel : Nat) (s : Bytes) (ep : Endpoint) :
    Checked (Option (Endpoint × Bytes)) := do
  let buf := s ++ [0]
  match ← parseScheme b buf with
  | none => return none
  | some flags =>
    match strrchr 58 buf with
    | none => return none
    | some colon =>
      let (port, u) ← strtoulAt buf (colon + 1)
      match ← memchrAt buf 0 47 s.length with
      -- the null pointer moved up by two
      | none => .error .read
      | some slash =>
        match ← resolve b flags buf (slash + 2) colon with
        | none => return none
        | some (text, len) =>
          let ep ← parseAddress b fuel flags (UInt16.ofNat port) ep text len
          return ep.map (·, s.drop u)

end EndpointString
