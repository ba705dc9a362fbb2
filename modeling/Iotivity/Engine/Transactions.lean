import Iotivity.Engine.Blockwise

/-!
# The state of the engine, and `transactions.c`

`State` is the static data that `coap_receive` works on: block-wise buffers, transactions, client
callbacks, the message id counter and the history of message ids.  Addresses are drawn from one
counter.

Observers have no list here.  Taking one out reaches the engine in one way only: the response buffer
that still serves it gets `ref_count = 0`.  Which buffers these are is a parameter (`gone`).
-/

namespace Coap
open Memory

/-- `oc_client_cb_t`: what the messaging layer reads of it -/
structure ClientCb where
  id : Nat
  uri : List UInt8
  query : List UInt8
  endpoint : Endpoint
  observeSeq : UInt32
  method : UInt8
  mid : UInt16
  token : List UInt8
  discovery : Bool
  multicast : Bool
  stopMulticastReceive : Bool

/-- `coap_transaction_t`; `data` holds the `length` bytes of its message -/
structure Transaction where
  id : Nat
  mid : UInt16
  endpoint : Endpoint
  retransCounter : Nat
  interval : Nat
  data : List UInt8

def ocRequestHistorySize : Nat := 250
def coapMaxRetransmit : Nat := 4

structure State extends Buffers where
  transactions : List Transaction
  clientCbs : List ClientCb
  currentMid : UInt16
  history : List (UInt16 × UInt8)
  idx : Nat

/-- start-up: no buffers, no transactions, and a history of zeros -/
def State.init (currentMid : UInt16) : State where
  requests := []
  responses := []
  fresh := 0
  transactions := []
  clientCbs := []
  currentMid := currentMid
  history := List.replicate ocRequestHistorySize (0, 0)
  idx := 0

/-- What the engine does to the outside.

* `accepted`   a request has got its transaction and is going to be processed;
* `invoked`    `oc_ri_invoke_coap_entity_handler` is called with this request buffer;
* `produced`   the handler of the resource has run on a payload and left a representation in the
               response buffer, with the ETag of that buffer;
* `sending`    a message has been answered or followed up with this packet, which is going to be
               sent; its payload is cut from the buffer `source`;
* `transmitted` a message goes to the network;
* `fault`      a NULL pointer is read. -/
inductive Event where
  | accepted (endpoint : Endpoint) (request : Message)
  | invoked (endpoint : Endpoint) (request : Message) (requestState : Option BlockwiseState)
  | produced (endpoint : Endpoint) (request : Message) (payload : List UInt8)
      (representation : List UInt8) (etag : List UInt8)
  | sending (endpoint : Endpoint) (message packet : Message) (source : Option BlockwiseState)
  | transmitted (endpoint : Endpoint) (data : List UInt8)
  | fault

/-- lift a change of the buffers to the state -/
def State.withBuffers (s : State) (f : Buffers → Buffers) : State :=
  { s with toBuffers := f s.toBuffers }

/-! ## client callbacks -/

def freeClientCb (cb : Nat) (s : State) : State :=
  let s := s.withBuffers (ocBlockwiseScrubBuffersForClientCb cb)
  { s with clientCbs := Keyed.remove ClientCb.id cb s.clientCbs }

def ocRiFindClientCbByToken (s : State) (token : List UInt8) : Option ClientCb :=
  s.clientCbs.find? fun cb => cb.token == token

def ocRiRemoveClientCbByMid (mid : UInt16) (s : State) : State :=
  match s.clientCbs.find? (·.mid == mid) with
  | none => s
  | some cb => freeClientCb cb.id s

/-- `while (oc_ri_remove_client_cb_by_mid(mid));` -/
def removeClientCbsByMid (mid : UInt16) (s : State) : State :=
  (s.clientCbs.filter (·.mid == mid)).foldl (fun s cb => freeClientCb cb.id s) s

/-! ## observers -/

/-- response buffers of removed observers -/
def dropObservers (gone : Nat → Bool) (s : State) : State :=
  { s with responses := s.responses.map fun b => if gone b.id then { b with refCount := 0 } else b }

/-! ## transactions -/

def coapNewTransaction (granted : Bool) (mid : UInt16) (endpoint : Endpoint) (s : State) :
    Option Nat × State :=
  if granted then
    let t : Transaction :=
      { id := s.fresh, mid, endpoint, retransCounter := 0, interval := 0, data := [] }
    (some t.id, { s with transactions := s.transactions ++ [t], fresh := s.fresh + 1 })
  else (none, s)

def coapClearTransaction (id : Nat) (s : State) : State :=
  { s with transactions := Keyed.remove Transaction.id id s.transactions }

def coapGetTransactionByMid (s : State) (mid : UInt16) : Option Transaction :=
  s.transactions.find? (·.mid == mid)

/-- the type bits of the first byte say CON -/
def Transaction.confirmable (t : Transaction) : Bool :=
  MessageType.ofBits ((0x30 &&& t.data.getD 0 0) >>> 4).toNat == .con

/-- a store through a pointer to a transaction -/
def putTransaction (t : Transaction) (s : State) : State :=
  { s with transactions := Keyed.put Transaction.id t s.transactions }

/-- `initial` is the first interval, taken from a random value -/
def coapSendTransaction (initial : Nat) (gone : Nat → Bool) (t : Transaction) (s : State) :
    State × List Event :=
  if t.endpoint.flags.tcp = false ∧ t.confirmable = true then
    if t.retransCounter < coapMaxRetransmit then
      -- not timed out yet
      let interval := if t.retransCounter = 0 then initial else t.interval <<< 1
      (putTransaction { t with interval } s, [.transmitted t.endpoint t.data])
    else
      -- timed out
      let s := dropObservers gone s
      let s := ocRiRemoveClientCbByMid t.mid s
      let s := s.withBuffers ocBlockwiseScrubBuffers
      (coapClearTransaction t.id s, [])
  else (coapClearTransaction t.id s, [.transmitted t.endpoint t.data])

/-- what the timers and the random generator say in one pass of `coap_check_transactions` -/
structure Timers where
  expired : Nat → Bool
  initial : Nat → Nat
  gone : Nat → Nat → Bool

/-- one more retransmission; the counter is a `uint8_t` -/
def Transaction.expire (t : Transaction) : Transaction :=
  { t with retransCounter := (t.retransCounter + 1) % 2^8 }

/-- one round of `coap_check_transactions` -/
def checkTransaction (τ : Timers) (s : State × List Event) (t : Transaction) :
    State × List Event :=
  if τ.expired t.id then
    let t := t.expire
    let r := coapSendTransaction (τ.initial t.id) (τ.gone t.id) t (putTransaction t s.1)
    (r.1, s.2 ++ r.2)
  else s

/-- sending a transaction takes no other one off the list, so the rounds are those of the list at
the start -/
def coapCheckTransactions (τ : Timers) (s : State) : State × List Event :=
  s.transactions.foldl (checkTransaction τ) (s, [])

def coapGetMid (s : State) : UInt16 × State :=
  (s.currentMid + 1, { s with currentMid := s.currentMid + 1 })

end Coap
