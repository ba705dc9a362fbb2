import Iotivity.Engine.Observe
import Iotivity.Engine.Separate

/-!
# Notifications: the loops of `observe.c`

`coap_notify_observers` asks a resource for its representation and sends it to the observers of the
resource; `coap_notify_collections` does the same for the collections that have a link to it.  What
is sent is reported as a list of notices, one for each round of a loop that has reached an observer.

* `Site`                     the resources of a server, by their numbers;
* `Server`                   the engine with the observers and the handles for separate responses;
* `notifyObserver`           one round;
* `coapNotifyCollections`, `coapNotifyObservers`.
-/

namespace Coap
open Memory

/-- What the resources of a server hold.  `links` of a collection leads to the linked resources, in
order; `resourceAt` is `oc_ri_get_app_resource_by_uri`, and `format` the content format for the
version of an endpoint. -/
structure Site where
  uri : Nat → List UInt8
  device : Nat → Nat
  collections : List Nat
  links : Nat → List Nat
  numLinks : Nat → UInt8
  resourceAt : List UInt8 → Nat → Option Nat
  format : Endpoint → UInt16

/-- the engine, `observers_list` with what belongs to it, and the handles of the application -/
structure Server where
  engine : State
  list : List Observer
  numObservers : Nat → UInt8
  observeCounter : UInt32
  handles : Nat → SeparateResponse

/-- the part of a server that registrations and removals work on -/
def Server.observers (s : Server) : Observers :=
  ⟨s.list, s.numObservers, s.observeCounter, s.engine.toBuffers⟩

/-- a response buffer: the code and the bytes that a handler has left -/
structure Representation where
  code : Nat
  body : List UInt8

/-- what a `GET` handler leaves -/
inductive Answer where
  | representation (r : Representation)
  | separate (handle : Nat) (r : Representation)
  | ignore

/-- what comes of a round: nothing, because a transfer is going on or there is no buffer; a packet
that has got no transaction or could not be serialized; a packet that was sent; a separate response
that was noted -/
inductive Outcome where
  | busy
  | refused
  | unsent
  | sent (packet : Message)
  | deferred

/-- a round of a loop, for the observer at a place of the list -/
structure Notice where
  place : Nat
  outcome : Outcome

/-- the answers of the allocators during a call; `env` and `granted` are those for the rounds -/
structure Supply where
  buffer : Bool
  env : Nat → Env
  granted : Nat → Bool

/-- a loop on its way; `left` after a `goto` to the end of the function -/
structure Progress where
  server : Server
  notices : List Notice
  events : List Event
  left : Bool

section
variable (cfg : Config) (site : Site)

/-! ## one round -/

/-- `obs_counter % COAP_OBSERVE_REFRESH_INTERVAL == 0`, for an `int32_t` -/
def Observer.refreshes (o : Observer) : Bool := o.obsCounter.toBitVec.toInt % 5 == 0

/-- the packet up to its payload -/
def notificationPayload (env : Env) (o : Observer) (body : List UInt8) (s : Buffers) : Opening :=
  let packet := if o.endpoint.flags.tcp then coapTcpInitMessage content205
    else coapUdpInitMessage .non content205 0
  if o.endpoint.flags.tcp = false ∧ o.block2Size.toNat < body.length then
    openBlocks cfg env ((site.uri o.resource).drop 1) o.endpoint coapGet o.block2Size body
      { packet with type := .con } s
  else
    let packet := if o.endpoint.flags.tcp = false ∧ o.refreshes then { packet with type := .con }
      else packet
    .opened (coapSetPayload cfg packet body) s

/-- the options of a notification; `counted` when it carries the counter of the observer -/
def finishNotification (format : UInt16) (code : Nat) (observed : Bool) (o : Observer)
    (packet : Message) : Bool × Message :=
  let packet := coapSetStatusCode packet code
  let counted := packet.code < 128 && observed
  let packet := coapSetHeaderObserve packet (if counted then o.obsCounter else 1)
  let packet := coapSetHeaderContentFormat packet format.toUInt32
  (counted, coapSetToken packet o.token)

/-- a store to the observer at a place of the list, and `observe_counter` -/
def Server.noteSent (place : Nat) (mid : UInt16) (counted : Bool) (s : Server) : Server :=
  { s with
    list := s.list.modify place (Observer.sent mid counted)
    observeCounter := if counted then s.observeCounter + 1 else s.observeCounter }

/-- the notification gets its transaction and is sent -/
def sendNotification (env : Env) (place : Nat) (o : Observer) (counted : Bool) (packet : Message)
    (s : Server) : Outcome × Server × List Event :=
  let (mid, engine) := coapGetMid s.engine
  match coapNewTransaction env.transactionGranted mid o.endpoint engine with
  | (none, engine) => (.unsent, { s.noteSent place o.lastMid counted with engine }, [])
  | (some id, engine) =>
    let packet := { packet with mid }
    let x := sendSerialized env id mid o.endpoint packet engine
    (if x.1 then .sent packet else .unsent,
      { s.noteSent place mid counted with engine := x.2.1 }, x.2.2)

/-- one round: the notification to an observer -/
def notifyObserver (env : Env) (format : UInt16) (r : Representation) (place : Nat) (o : Observer)
    (s : Server) : Outcome × Server × List Event :=
  match notificationPayload cfg site env o r.body s.engine.toBuffers with
  | .busy => (.busy, s, [])
  | .refused => (.refused, s, [])
  | .opened packet buffers =>
    let x := finishNotification format r.code (s.numObservers o.resource ≠ 0) o packet
    sendNotification env place o x.1 x.2 { s with engine := s.engine.withBuffers fun _ => buffers }

def Outcome.isRefused : Outcome → Bool
  | .refused => true
  | _ => false

/-! ## the loop over the observers -/

/-- a round for an observer that is selected; `round` gets the number of rounds before it -/
def visit (select : Observer → Bool)
    (round : Nat → Nat → Observer → Server → Outcome × Server × List Event) (p : Progress)
    (x : Observer × Nat) : Progress :=
  if p.left ∨ select x.1 = false then p
  else
    let y := round p.notices.length x.2 x.1 p.server
    { server := y.2.1
      notices := p.notices ++ [⟨x.2, y.1⟩]
      events := p.events ++ y.2.2
      left := y.1.isRefused }

/-- the loop over `observers_list`: a round stores to its own observer only -/
def notifyEach (select : Observer → Bool)
    (round : Nat → Nat → Observer → Server → Outcome × Server × List Event) (p : Progress) :
    Progress :=
  p.server.list.zipIdx.foldl (visit select round) p

/-! ## collections -/

/-- the loop of `oc_get_next_collection_with_link`, on the rest of the list of collections -/
def scanCollections (resource : Nat) : List Nat → List Nat
  | [] => []
  | c :: l =>
    if site.device c = site.device resource then
      if resource ∈ site.links c then c :: l else scanCollections resource l
    else c :: l

/-- a collection is given as the list that begins with it, and NULL as the empty list -/
def ocGetNextCollectionWithLink (resource : Nat) : List Nat → List Nat
  | [] => scanCollections site resource site.collections
  | _ :: l => scanCollections site resource l

/-- the loop of `coap_notify_collections`; `batch` is `oc_handle_collection_request`.  The list gets
shorter with every round. -/
def notifyRounds (supply : Supply) (batch : Nat → Representation) (resource : Nat) :
    Nat → List Nat → Progress → Progress
  | 0, _, p => p
  | _, [], p => p
  | fuel + 1, c :: l, p =>
    if p.left ∨ p.server.numObservers c = 0 then p
    else
      let p := notifyEach (fun o => o.resource == c)
        (fun k => notifyObserver cfg site (supply.env k) applicationVndOcfCbor (batch c)) p
      notifyRounds supply batch resource fuel (ocGetNextCollectionWithLink site resource (c :: l)) p

def Progress.start (s : Server) : Progress := ⟨s, [], [], false⟩

def coapNotifyCollections (supply : Supply) (batch : Nat → Representation) (resource : Nat)
    (s : Server) : Int × Progress :=
  if supply.buffer then
    (0, notifyRounds cfg site supply batch resource site.collections.length
      (ocGetNextCollectionWithLink site resource []) (.start s))
  else (-1, .start s)

/-! ## observers of a resource -/

/-- a handle after `coap_separate_accept` for an observer -/
def deferNotification (env : Env) (granted : Bool) (handle : Nat) (o : Observer) (s : Server) :
    Outcome × Server × List Event :=
  let request := if o.endpoint.flags.tcp then coapTcpInitMessage coapGet
    else coapUdpInitMessage .non coapGet 0
  let request := coapSetHeaderUriPath { request with token := o.token } (site.uri o.resource)
  let x := acceptRequest env granted request o.endpoint 0 o.block2Size (s.handles handle)
  (.deferred, { s with handles := Function.update s.handles handle x.2.1 }, x.2.2)

/-- the observers that a call is for: those of the resource, or of the resource and an endpoint -/
def addressed (resource : Nat) (endpoint : Option Endpoint) (o : Observer) : Bool :=
  o.resource == resource &&
    match endpoint with
    | none => true
    | some e => ocEndpointCompare o.endpoint e

/-- the loop of `coap_notify_observers` -/
def notifyWith (supply : Supply) (resource : Nat) (endpoint : Option Endpoint) (answer : Answer)
    (s : Server) : Progress :=
  match answer with
  | .ignore => .start s
  | .representation r =>
    notifyEach (addressed resource endpoint)
      (fun k place o => notifyObserver cfg site (supply.env k) (site.format o.endpoint) r place o)
      (.start s)
  | .separate handle r =>
    if r.code = content205.toNat then
      notifyEach (addressed resource endpoint)
        (fun k _ o => deferNotification site (supply.env k) (supply.granted k) handle o) (.start s)
    else
      notifyEach (addressed resource endpoint)
        (fun k place o => notifyObserver cfg site (supply.env k) (site.format o.endpoint) r place o)
        (.start s)

/-- `coap_notify_observers`; `get` is what the `GET` handler of the resource leaves, and `given` is
`response_buf`.  The second part of the result is about the observers of the resource, the third
about those of collections. -/
def coapNotifyObservers (supply linked : Supply) (get : Answer) (batch : Nat → Representation)
    (resource : Nat) (given : Option Representation) (endpoint : Option Endpoint) (s : Server) :
    Nat × Progress × Progress :=
  let own : Progress :=
    if s.numObservers resource = 0 ∨ supply.buffer = false then .start s
    else
      notifyWith cfg site supply resource endpoint
        (match given with
          | some r => .representation r
          | none => get) s
  let linked : Progress :=
    if site.numLinks resource = 0 then .start own.server
    else (coapNotifyCollections cfg site linked batch resource own.server).2
  ((linked.server.numObservers resource).toNat + (site.numLinks resource).toNat, own, linked)

end

end Coap
