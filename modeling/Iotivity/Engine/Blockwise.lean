import Iotivity.Coap.Serialize
import Iotivity.Lib.Keyed

/-!
# Block-wise buffers: `oc_blockwise.c` and the endpoints they belong to

A buffer is known by its address `id`.  `oc_blockwise_requests` and `oc_blockwise_responses` are
lists of buffers in list order: a new one is appended, a freed one is taken out.  What the allocator
does (succeed or fail, and which bytes a fresh block holds) comes from outside as an `Alloc`.

Sizes and offsets are `uint32_t` in the source; they are natural numbers here, with `% 2^32` where
the source adds.
-/

namespace Coap
open Memory

/-! ## endpoints -/

/-- `enum transport_flags` -/
structure TransportFlags where
  discovery : Bool
  secured : Bool
  ipv4 : Bool
  ipv6 : Bool
  tcp : Bool
  gatt : Bool
  multicast : Bool
deriving DecidableEq, Repr

/-- `oc_endpoint_t`: the part that lookups compare.  Port and address sit at the same place in both
members of the address union, `ipv4` using the first four bytes. -/
structure Endpoint where
  device : Nat
  flags : TransportFlags
  port : UInt16
  address : List UInt8
deriving DecidableEq, Repr

def TransportFlags.unicast (f : TransportFlags) : TransportFlags := { f with multicast := false }

/-- `oc_endpoint_compare(ep1, ep2) == 0` -/
def ocEndpointCompare (ep1 ep2 : Endpoint) : Bool :=
  if ep1.flags.unicast ≠ ep2.flags.unicast ∨ ep1.device ≠ ep2.device then false
  else if ep1.flags.ipv6 then
    ep1.address.take 16 == ep2.address.take 16 && ep1.port == ep2.port
  else if ep1.flags.ipv4 then
    ep1.address.take 4 == ep2.address.take 4 && ep1.port == ep2.port
  else false

/-! ## buffers -/

/-- `oc_blockwise_role_t` -/
inductive Role where
  | client | server
deriving DecidableEq, Repr

/-- `oc_blockwise_state_t`, together with the two fields of `oc_blockwise_response_state_t`;
`observeSeq` keeps the 32 bits of an `int32_t` -/
structure BlockwiseState where
  id : Nat
  href : List UInt8
  endpoint : Endpoint
  method : UInt8
  role : Role
  payloadSize : Nat
  nextBlockOffset : Nat
  refCount : UInt8
  buffer : Nat → UInt8
  uriQuery : List UInt8
  mid : UInt16
  clientCb : Option Nat
  etag : List UInt8
  observeSeq : UInt32

/-- the bytes a buffer stands for -/
def BlockwiseState.payload (b : BlockwiseState) : List UInt8 := read b.buffer 0 b.payloadSize

/-- the answer of the allocator to one request for a buffer -/
structure Alloc where
  granted : Bool
  mem : Nat → UInt8

/-- both lists, and the next address that is free -/
structure Buffers where
  requests : List BlockwiseState
  responses : List BlockwiseState
  fresh : Nat

def ocBlockwiseInitBuffer (a : Alloc) (id : Nat) (href : List UInt8) (endpoint : Endpoint)
    (method : UInt8) (role : Role) : Option BlockwiseState :=
  if href = [] then none
  else if a.granted then
    some
      { id, href, endpoint, method, role
        payloadSize := 0
        nextBlockOffset := 0
        refCount := 1
        buffer := a.mem
        uriQuery := []
        mid := 0
        clientCb := none
        etag := []
        observeSeq := 0 }
  else none

/-- a store through a pointer to a request buffer -/
def Buffers.putRequest (s : Buffers) (b : BlockwiseState) : Buffers :=
  { s with requests := Keyed.put BlockwiseState.id b s.requests }

/-- a store through a pointer to a response buffer -/
def Buffers.putResponse (s : Buffers) (b : BlockwiseState) : Buffers :=
  { s with responses := Keyed.put BlockwiseState.id b s.responses }

def ocBlockwiseAllocRequestBuffer (a : Alloc) (href : List UInt8) (endpoint : Endpoint)
    (method : UInt8) (role : Role) (s : Buffers) : Option BlockwiseState × Buffers :=
  match ocBlockwiseInitBuffer a s.fresh href endpoint method role with
  | none => (none, s)
  | some b => (some b, { s with requests := s.requests ++ [b], fresh := s.fresh + 1 })

/-- the two fields of a response state; `etag` is what `oc_random_value` gave -/
def BlockwiseState.asResponse (b : BlockwiseState) (etag : List UInt8) : BlockwiseState :=
  { b with etag := etag.take coapEtagLen, observeSeq := 0xFFFFFFFF }

def ocBlockwiseAllocResponseBuffer (a : Alloc) (etag : List UInt8) (href : List UInt8)
    (endpoint : Endpoint) (method : UInt8) (role : Role) (s : Buffers) :
    Option BlockwiseState × Buffers :=
  match ocBlockwiseInitBuffer a s.fresh href endpoint method role with
  | none => (none, s)
  | some b =>
    let b := b.asResponse etag
    (some b, { s with responses := s.responses ++ [b], fresh := s.fresh + 1 })

/-- also `oc_blockwise_request_timeout`, the timer callback -/
def ocBlockwiseFreeRequestBuffer (id : Nat) (s : Buffers) : Buffers :=
  { s with requests := Keyed.remove BlockwiseState.id id s.requests }

/-- also `oc_blockwise_response_timeout`, the timer callback -/
def ocBlockwiseFreeResponseBuffer (id : Nat) (s : Buffers) : Buffers :=
  { s with responses := Keyed.remove BlockwiseState.id id s.responses }

def ocBlockwiseScrubBuffersForClientCb (cb : Nat) (s : Buffers) : Buffers :=
  { s with
    requests := s.requests.filter (·.clientCb ≠ some cb)
    responses := s.responses.filter (·.clientCb ≠ some cb) }

def ocBlockwiseScrubBuffers (s : Buffers) : Buffers :=
  { s with
    requests := s.requests.filter (·.refCount ≠ 0)
    responses := s.responses.filter (·.refCount ≠ 0) }

/-! ## lookup -/

/-- `strncmp` of the two strings from position `i` on gives `0` -/
def strncmpFrom (a b : Nat → UInt8) : Nat → Nat → Bool
  | _, 0 => true
  | i, n+1 => if a i ≠ b i then false else if a i = 0 then true else strncmpFrom a b (i + 1) n

/-- `strncmp(a, b, n) == 0` for strings that end in NUL -/
def strncmpEq (a b : List UInt8) (n : Nat) : Bool := strncmpFrom (cString a) (cString b) 0 n

def ocBlockwiseFindBufferByMid (l : List BlockwiseState) (mid : UInt16) : Option BlockwiseState :=
  l.find? fun b => b.mid == mid && b.role == .client

def ocBlockwiseFindBufferByClientCb (l : List BlockwiseState) (endpoint : Endpoint) (cb : Nat) :
    Option BlockwiseState :=
  l.find? fun b =>
    b.role == .client && b.clientCb == some cb && ocEndpointCompare endpoint b.endpoint

/-- the test of `oc_blockwise_find_buffer` behind the comparison of the paths -/
def BlockwiseState.serves (b : BlockwiseState) (endpoint : Endpoint) (method : UInt8)
    (query : List UInt8) (role : Role) : Bool :=
  ocEndpointCompare b.endpoint endpoint && b.method == method && b.role == role &&
    query.length == b.uriQuery.length && query == b.uriQuery.take query.length

def ocBlockwiseFindBuffer (l : List BlockwiseState) (href : List UInt8) (endpoint : Endpoint)
    (method : UInt8) (query : List UInt8) (role : Role) : Option BlockwiseState :=
  l.find? fun b => strncmpEq href b.href href.length && b.serves endpoint method query role

def ocBlockwiseFindRequestBuffer (s : Buffers) (href : List UInt8) (endpoint : Endpoint)
    (method : UInt8) (query : List UInt8) (role : Role) : Option BlockwiseState :=
  ocBlockwiseFindBuffer s.requests href endpoint method query role

def ocBlockwiseFindResponseBuffer (s : Buffers) (href : List UInt8) (endpoint : Endpoint)
    (method : UInt8) (query : List UInt8) (role : Role) : Option BlockwiseState :=
  ocBlockwiseFindBuffer s.responses href endpoint method query role

/-! ## blocks out and in -/

/-- the bytes handed out, if any, and the buffer afterwards -/
def ocBlockwiseDispatchBlock (b : BlockwiseState) (blockOffset requestedBlockSize : Nat) :
    Option (List UInt8) × BlockwiseState :=
  if blockOffset < b.payloadSize then
    let payloadSize :=
      if b.payloadSize < requestedBlockSize then b.payloadSize
      else min requestedBlockSize (b.payloadSize - blockOffset)
    (some (read b.buffer blockOffset payloadSize),
      { b with nextBlockOffset := (blockOffset + payloadSize) % 2^32 })
  else (none, b)

/-- a size setting as `long`, the type `oc_get_max_app_data_size` returns -/
def toLong (n : Nat) : Int := (BitVec.ofNat 64 n).toInt

/-- `incoming` holds the `incoming_block_size` bytes of the block -/
def ocBlockwiseHandleBlock (maxAppDataSize : Nat) (b : BlockwiseState)
    (incomingBlockOffset : Nat) (incoming : List UInt8) : Bool × BlockwiseState :=
  if maxAppDataSize % 2^32 ≤ incomingBlockOffset ∨
      toLong maxAppDataSize - incomingBlockOffset < incoming.length ∨
      b.nextBlockOffset < incomingBlockOffset then (false, b)
  else if b.nextBlockOffset = incomingBlockOffset then
    (true,
      { b with
        buffer := write b.buffer b.nextBlockOffset incoming
        nextBlockOffset := (b.nextBlockOffset + incoming.length) % 2^32 })
  else (true, b)

theorem toLong_of_lt {n : Nat} (h : n < 2^32) : toLong n = n := by
  unfold toLong
  rw [BitVec.toInt_eq_toNat_of_lt (by rw [BitVec.toNat_ofNat]; omega), BitVec.toNat_ofNat,
    Nat.mod_eq_of_lt (by omega)]

/-- a buffer as `oc_blockwise_init_buffer` leaves it -/
def freshBuffer : BlockwiseState where
  id := 0
  href := [0x61, 0x62]
  endpoint := ⟨0, ⟨false, false, false, true, false, false, false⟩, 5683, []⟩
  method := coapPost
  role := .server
  payloadSize := 0
  nextBlockOffset := 0
  refCount := 1
  buffer := fun _ => 0
  uriQuery := []
  mid := 0
  clientCb := none
  etag := []
  observeSeq := 0

end Coap
