import Iotivity.Engine.Receive

/-!
# Separate responses: `separate.c`

A request that is answered later is kept in the list of a handle, with the endpoint and the token
that the answer goes to.  The list is searched by token.

* `SeparateResponse`       a handle of the application;
* `coapSeparateAccept`     a request is put on the list, or meets one that is there;
* `coapSeparateResume`     the answer to a request of the list;
* `openBlocks`             the first block of a representation that is too long for one packet.
-/

namespace Coap
open Memory

/-- `coap_separate_t`; answers are always `COAP_TYPE_NON` -/
structure SeparateRequest where
  token : List UInt8
  block2Size : UInt16
  observe : Int
  endpoint : Endpoint
  method : UInt8
  uri : List UInt8
deriving DecidableEq

/-- `oc_separate_response_t`; `payload` is what the application has left in `buffer` -/
structure SeparateResponse where
  active : Bool
  requests : List SeparateRequest
  payload : List UInt8

def SeparateRequest.hasToken (token : List UInt8) (r : SeparateRequest) : Bool := r.token == token

/-- `OC_LIST_STRUCT_INIT` for a handle that is not active -/
def SeparateResponse.start (h : SeparateResponse) : SeparateResponse :=
  if h.active then h else { h with requests := [] }

/-- `coap_separate_clear`, for the request with a token -/
def coapSeparateClear (token : List UInt8) (h : SeparateResponse) : SeparateResponse :=
  { h with requests := h.requests.eraseP (SeparateRequest.hasToken token) }

/-- the entry for a request -/
def separateRequest (request : Message) (endpoint : Endpoint) (observe : Int) (block2Size : UInt16) :
    SeparateRequest :=
  { token := request.token, block2Size, observe, endpoint, method := request.code
    uri := request.uriPath }

/-- the entry with a token gets a new `observe`, if there is such an entry -/
def noteObserve (token : List UInt8) (observe : Int) :
    List SeparateRequest → Option (List SeparateRequest)
  | [] => none
  | r :: l =>
    if r.hasToken token then some ({ r with observe } :: l)
    else (noteObserve token observe l).map (r :: ·)

/-- the request is noted: in the entry with its token, or in a new one, if there is memory -/
def noteRequest (granted : Bool) (request : Message) (endpoint : Endpoint) (observe : Int)
    (block2Size : UInt16) (h : SeparateResponse) : Option SeparateResponse :=
  match noteObserve request.token observe h.requests with
  | some requests => some { h with requests }
  | none =>
    if granted then
      some { h with
        requests := h.requests ++ [separateRequest request endpoint observe block2Size] }
    else none

/-- `coap_separate_accept`: `granted` is the answer of `oc_memb_alloc`, `env.ackGranted` that of
`oc_internal_allocate_outgoing_message` -/
def coapSeparateAccept (env : Env) (granted : Bool) (request : Message) (endpoint : Endpoint)
    (observe : Int) (block2Size : UInt16) (h : SeparateResponse) :
    Bool × SeparateResponse × List Event :=
  match noteRequest granted request endpoint observe block2Size h.start with
  | none => (false, h.start, [])
  | some h =>
    if request.type = .con then
      let ack := emptyAck env request.mid endpoint
      if ack = [] then (false, coapSeparateClear request.token h, [])
      else (true, h, ack)
    else (true, h, [])

/-- what the callers do: the handle is active once it has accepted a request -/
def acceptRequest (env : Env) (granted : Bool) (request : Message) (endpoint : Endpoint)
    (observe : Int) (block2Size : UInt16) (h : SeparateResponse) :
    Bool × SeparateResponse × List Event :=
  let x := coapSeparateAccept env granted request endpoint observe block2Size h
  (x.1, { x.2.1 with active := x.2.1.active || x.1 }, x.2.2)

/-- `coap_separate_resume` -/
def coapSeparateResume (r : SeparateRequest) (code : UInt8) (mid : UInt16) : Message :=
  let p := if r.endpoint.flags.tcp then coapTcpInitMessage code else coapUdpInitMessage .non code mid
  if r.token = [] then p else coapSetToken p r.token

/-! ## the first block -/

/-- what comes of the first block of a representation -/
inductive Opening where
  | busy
  | refused
  | opened (packet : Message) (buffers : Buffers)

/-- the first block of a representation goes into a packet, and all of it into a response buffer,
unless there is one already -/
def openBlocks (cfg : Config) (env : Env) (href : List UInt8) (endpoint : Endpoint) (method : UInt8)
    (block2Size : UInt16) (body : List UInt8) (packet : Message) (s : Buffers) : Opening :=
  match ocBlockwiseFindResponseBuffer s href endpoint method [] .server with
  | some _ => .busy
  | none =>
    match ocBlockwiseAllocResponseBuffer env.responseAlloc env.etag href endpoint method .server s with
    | (none, _) => .refused
    | (some b, s) =>
      let b := { b with buffer := write b.buffer 0 body, payloadSize := body.length }
      let (payload, b) := ocBlockwiseDispatchBlock b 0 block2Size.toNat
      let packet :=
        match payload with
        | none => packet
        | some payload =>
          let packet := coapSetHeaderBlock2 (coapSetPayload cfg packet payload) 0 1 block2Size
          let packet := coapSetHeaderSize2 packet (UInt32.ofNat b.payloadSize)
          coapSetHeaderEtag packet b.etag
      .opened packet (s.putResponse b)

/-- `coap_serialize_message`, and the transaction is sent; one that cannot be serialized is
cleared -/
def sendSerialized (env : Env) (id : Nat) (mid : UInt16) (endpoint : Endpoint) (packet : Message)
    (s : State) : Bool × State × List Event :=
  let data := serializedBytes packet
  if data = [] then (false, coapClearTransaction id s, [])
  else
    let t : Transaction := ⟨id, mid, endpoint, 0, 0, data⟩
    let x := coapSendTransaction env.initialInterval env.gone t (putTransaction t s)
    (true, x.1, x.2)

end Coap
