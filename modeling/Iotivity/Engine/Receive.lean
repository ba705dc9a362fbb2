import Iotivity.Coap.Parse
import Iotivity.Engine.Transactions

/-!
# `coap_receive`

The function is cut at its labels.  The stages in front of a label work on its local variables
(`Locals`) and say where they jump to (`Label`); `finish` runs from there to the end.

Whatever the engine asks for and does not decide itself is an `Env`: the answers of the allocators,
random bytes, what lies behind the URI of a request (`Entity`), and what a client callback does.
-/

namespace Coap
open Memory

/-! ## the outside -/

/-- result of `oc_parse_rep` -/
inductive RepResult where
  | ok | unexpectedEof | error
deriving DecidableEq

/-- what a handler leaves in the response object: a code, or `OC_IGNORE` -/
inductive Reply where
  | code (c : Nat)
  | ignore
deriving DecidableEq

/-- What `oc_ri_invoke_coap_entity_handler` finds behind a request.  The handler writes
`representation` to the response buffer and sets the 16-bit `response_length`. -/
structure Entity where
  parseRep : RepResult
  resource : Bool
  interfaceSupported : Bool
  authorized : Bool
  implemented : Bool
  reply : Reply
  representation : List UInt8
  representation_lt : representation.length < 2^16
  separate : Bool
  setObserve : Bool

structure Env where
  requestAlloc : Alloc
  responseAlloc : Alloc
  etag : List UInt8
  transactionGranted : Bool
  ackGranted : Bool
  initialInterval : Nat
  randomToken : List UInt8
  csmNone : Bool
  csmToken : List UInt8
  entity : Entity
  stopDiscovery : Bool
  gone : Nat → Bool

/-- `oc_message_t` as it comes in -/
structure OcMessage where
  endpoint : Endpoint
  data : Nat → UInt8
  length : Nat

/-! ## local variables -/

inductive Label where
  | requestHandler | initResetMessage | freeBlockwiseBuffers | sendMessage
deriving DecidableEq

structure Locals where
  state : State
  status : Status
  response : Message
  transaction : Option Nat
  requestBuffer : Option BlockwiseState
  responseBuffer : Option BlockwiseState
  source : Option BlockwiseState
  events : List Event

def Locals.withResponse (l : Locals) (response : Message) : Locals := { l with response }

/-- a message whose payload comes from the buffer `b` -/
def Locals.withBlock (l : Locals) (response : Message) (b : BlockwiseState) : Locals :=
  { l with response, source := some b }

/-- `request_buffer` points to a buffer that a lookup gave -/
def Locals.pointRequest (l : Locals) (b : Option BlockwiseState) : Locals :=
  { l with requestBuffer := b }

/-- `response_buffer` points to a buffer that a lookup gave -/
def Locals.pointResponse (l : Locals) (b : Option BlockwiseState) : Locals :=
  { l with responseBuffer := b }

def Locals.emit (l : Locals) (e : Event) : Locals := { l with events := l.events ++ [e] }

/-- a store through `request_buffer` -/
def Locals.setRequest (l : Locals) (b : BlockwiseState) : Locals :=
  { l with state := l.state.withBuffers (·.putRequest b), requestBuffer := some b }

/-- a store through `response_buffer` -/
def Locals.setResponse (l : Locals) (b : BlockwiseState) : Locals :=
  { l with state := l.state.withBuffers (·.putResponse b), responseBuffer := some b }

def Locals.unrefRequest (l : Locals) : Locals :=
  match l.requestBuffer with
  | none => l
  | some b => l.setRequest { b with refCount := 0 }

def Locals.unrefResponse (l : Locals) : Locals :=
  match l.responseBuffer with
  | none => l
  | some b => l.setResponse { b with refCount := 0 }

/-- `coap_get_payload` as a `uint32_t` -/
def incomingBlockLen (message : Message) : Nat := message.payload.length % 2^32

/-- `response_buffer` is a new buffer, if there is one -/
def Locals.newResponse (l : Locals) (env : Env) (href : List UInt8) (endpoint : Endpoint)
    (method : UInt8) (role : Role) : Locals :=
  let (b, s) := ocBlockwiseAllocResponseBuffer env.responseAlloc env.etag href endpoint method role
    l.state.toBuffers
  { l with state := l.state.withBuffers fun _ => s, responseBuffer := b }

/-- `oc_blockwise_free_request_buffer(request_buffer)`, and the pointer is cleared -/
def Locals.freeRequest (l : Locals) (b : BlockwiseState) : Locals :=
  { l with
    state := l.state.withBuffers (ocBlockwiseFreeRequestBuffer b.id)
    requestBuffer := none }

/-- observers are taken out while `response_buffer` is in use -/
def Locals.dropObservers (l : Locals) (gone : Nat → Bool) : Locals :=
  { l with
    state := Coap.dropObservers gone l.state
    responseBuffer := l.responseBuffer.map fun b =>
      if gone b.id then { b with refCount := 0 } else b }

/-- `transaction` is set to a transaction that has just been made -/
def Locals.withTransaction (l : Locals) (id : Nat) (s : State) : Locals :=
  { l with state := s, transaction := some id }

def Locals.clear (l : Locals) : Locals := { l with status := .clearTransaction }

def Locals.emitAll (l : Locals) (es : List Event) : Locals := { l with events := l.events ++ es }

/-- block parameters: those of the option with the size cut to `OC_BLOCK_SIZE`, or the defaults -/
def blockParams (cfg : Config) (o : Option BlockOption) : BlockOption :=
  match o with
  | none => ⟨0, 0, UInt16.ofNat cfg.blockSize, 0⟩
  | some b => { b with size := min b.size (UInt16.ofNat cfg.blockSize) }

/-! ## helpers -/

def emptyAck (env : Env) (mid : UInt16) (endpoint : Endpoint) : List Event :=
  if env.ackGranted then [.transmitted endpoint (serializedBytes (coapUdpInitMessage .ack 0 mid))]
  else []

def checkIfDuplicate (s : State) (mid : UInt16) (device : UInt8) : Bool :=
  s.history.any fun h => h.1 == mid && h.2 == device

def remember (s : State) (mid : UInt16) (device : UInt8) : State :=
  { s with
    history := s.history.set s.idx (mid, device)
    idx := (s.idx + 1) % ocRequestHistorySize }

/-- `handle_coap_signal_message`: it always returns `COAP_NO_ERROR` -/
def handleCoapSignalMessage (cfg : Config) (env : Env) (message : Message) (endpoint : Endpoint) :
    List Event :=
  if message.code = csm701 ∧ env.csmNone then
    let csm := { coapTcpInitMessage csm701 with token := env.csmToken.take coapTokenLen }
    let size := UInt32.ofNat (cfg.maxAppDataSize + coapMaxHeaderSize)
    [.transmitted endpoint (serializedBytes (coapSignalSetMaxMsgSize csm size))]
  else if message.code = ping702 then
    let pong := coapSetToken (coapTcpInitMessage pong703) message.token
    let pong := if message.custody ≠ 0 then coapSignalSetCustody pong message.custody else pong
    [.transmitted endpoint (serializedBytes pong)]
  else []

/-- `oc_new_string(&buffer->uri_query, …)` if there is a query -/
def setQuery (b : BlockwiseState) (query : List UInt8) : BlockwiseState :=
  if query = [] then b else { b with uriQuery := query }

/-! ## requests -/

section
variable (cfg : Config) (env : Env) (endpoint : Endpoint) (message : Message)

def Locals.allocRequest (l : Locals) : Locals :=
  let (b, s) := ocBlockwiseAllocRequestBuffer env.requestAlloc (coapGetHeaderUriPath message)
    endpoint message.code .server l.state.toBuffers
  { l with state := l.state.withBuffers fun _ => s, requestBuffer := b }

def findServerRequest (s : State) : Option BlockwiseState :=
  ocBlockwiseFindRequestBuffer s.toBuffers (coapGetHeaderUriPath message) endpoint message.code
    message.uriQuery .server

def findServerResponse (s : State) : Option BlockwiseState :=
  ocBlockwiseFindResponseBuffer s.toBuffers (coapGetHeaderUriPath message) endpoint message.code
    message.uriQuery .server

/-- the buffer a Block1 request goes to: one that is there, or a new one for block `0` -/
def uploadBuffer (num : UInt32) (l : Locals) : Locals :=
  match findServerRequest endpoint message l.state with
  | some b => l.pointRequest (some b)
  | none =>
    if num = 0 then
      let l := l.allocRequest env endpoint message
      match l.requestBuffer with
      | none => l
      | some b => l.setRequest (setQuery b message.uriQuery)
    else l.pointRequest none

/-- the Block1 branch -/
def block1Request (block1 : BlockOption) (l : Locals) : Locals × Label :=
  let l := uploadBuffer env endpoint message block1.num l
  match l.requestBuffer with
  | none => (l, .initResetMessage)
  | some b =>
    let size := min (incomingBlockLen message % 2^16) block1.size.toNat
    match ocBlockwiseHandleBlock cfg.maxAppDataSize b block1.offset.toNat
        (message.payload.take size) with
    | (false, _) => (l, .initResetMessage)
    | (true, b) =>
      let response := coapSetHeaderBlock1 l.response block1.num block1.more block1.size
      if block1.more ≠ 0 then
        ((l.withResponse { response with code := continue231 }).setRequest { b with refCount := 1 },
          .sendMessage)
      else
        ((l.withResponse response).setRequest
          { b with payloadSize := b.nextBlockOffset, refCount := 0 }, .requestHandler)

/-- a new request buffer with the payload of the request, which is stored from offset `0`;
`refCount` is what is left in it -/
def storePayload (refCount : UInt8) (l : Locals) : Locals × Label :=
  let l := l.allocRequest env endpoint message
  match l.requestBuffer with
  | none => (l, .initResetMessage)
  | some b =>
    match ocBlockwiseHandleBlock cfg.maxAppDataSize b 0
        (message.payload.take (incomingBlockLen message % 2^16)) with
    | (false, _) => (l, .initResetMessage)
    | (true, b) =>
      let b := setQuery b message.uriQuery
      (l.setRequest { b with payloadSize := incomingBlockLen message, refCount },
        .requestHandler)

/-- the Block2 branch, for a buffer that is there -/
def dispatchResponse (block2 : BlockOption) (l : Locals) (b : BlockwiseState) : Locals × Label :=
  match ocBlockwiseDispatchBlock b block2.offset.toNat block2.size.toNat with
  | (none, _) => (l, .initResetMessage)
  | (some payload, b) =>
    let more : UInt8 := if b.nextBlockOffset < b.payloadSize then 1 else 0
    let response := coapSetPayload cfg l.response payload
    let response := coapSetHeaderBlock2 response block2.num more block2.size
    let response := coapSetHeaderEtag response b.etag
    let b := { b with refCount := more }
    ((l.withBlock response b).setResponse b, .sendMessage)

/-- the Block2 branch, without a buffer: block `0` opens a transfer -/
def openTransfer (block2 : BlockOption) (l : Locals) : Locals × Label :=
  if block2.num = 0 then
    if 0 < incomingBlockLen message then
      match findServerRequest endpoint message l.state with
      | some b => (l.pointRequest (some b), .requestHandler)
      | none => storePayload cfg env endpoint message 1 l
    else (l, .requestHandler)
  else (l, .initResetMessage)

/-- content format of the response to a request with Block2 -/
def block2Format : UInt32 :=
  match coapGetHeaderAccept message with
  | some accept => accept.toUInt32
  | none => applicationVndOcfCbor.toUInt32

/-- the Block2 branch -/
def block2Request (block2 : BlockOption) (l : Locals) : Locals × Label :=
  let l := l.withResponse (coapSetHeaderContentFormat l.response (block2Format message))
  match findServerResponse endpoint message l.state with
  | some b => dispatchResponse cfg block2 (l.pointResponse (some b)) b
  | none => openTransfer cfg env endpoint message block2 l

/-- the longest payload of a request without block options -/
def payloadLimit (block1 : BlockOption) : Int :=
  if endpoint.flags.tcp then toLong cfg.maxAppDataSize else block1.size.toNat

/-- no block option -/
def regularRequest (block1 : BlockOption) (l : Locals) : Locals × Label :=
  if incomingBlockLen message ≤ payloadLimit cfg endpoint block1 then
    if 0 < incomingBlockLen message then storePayload cfg env endpoint message 0 l
    else (l, .requestHandler)
  else (l, .initResetMessage)

/-! ## the entity handler -/

/-- the request payload, as `oc_ri_invoke_coap_entity_handler` reads it; its length is an `int` -/
def requestPayload (l : Locals) : List UInt8 :=
  match l.requestBuffer with
  | none => []
  | some b => if 0 < b.payloadSize ∧ b.payloadSize < 2^31 then b.payload else []

/-- the payload is parsed and its buffer freed -/
def consumePayload (l : Locals) : Locals :=
  match l.requestBuffer with
  | none => l
  | some b =>
    if 0 < b.payloadSize ∧ b.payloadSize < 2^31 then l.freeRequest b else l

/-- error code of a request that does not get as far as its handler -/
def refusal (payloadParsed : RepResult) (e : Entity) (allocated : Bool) : Option UInt8 :=
  match payloadParsed with
  | .unexpectedEof => some requestEntityTooLarge413
  | .error => some badRequest400
  | .ok =>
    if ¬ e.resource then some notFound404
    else if ¬ e.interfaceSupported then some forbidden403
    else if ¬ allocated then some badRequest400
    else if e.authorized ∧ ¬ e.implemented then some methodNotAllowed405
    else if ¬ e.authorized then some unauthorized401
    else none

/-- a response buffer, for a resource that can be asked -/
def Locals.allocResponse (l : Locals) : Locals :=
  let l := l.newResponse env (coapGetHeaderUriPath message) endpoint message.code .server
  match l.responseBuffer with
  | none => l
  | some b => l.setResponse (setQuery b (coapGetHeaderUriQuery message))

/-- the handler of the resource: it writes its representation to the response buffer -/
def runHandler (payload : List UInt8) (b : BlockwiseState) (l : Locals) : Locals :=
  let l := l.setResponse { b with buffer := write b.buffer 0 env.entity.representation }
  l.emit (.produced endpoint message payload env.entity.representation b.etag)

/-- the Observe option of a request that was successful -/
def observeRequest (l : Locals) : Locals :=
  match coapGetHeaderObserve message with
  | none => l
  | some observe =>
    let l := l.dropObservers env.gone
    if observe = 0 ∧ env.entity.setObserve then l.withResponse (coapSetHeaderObserve l.response 0)
    else l

/-- response length, content format and code -/
def setReply (code : Nat) (length : Nat) (l : Locals) : Locals :=
  let format := if coapGetHeaderAccept message = some applicationCbor then applicationCbor
    else applicationVndOcfCbor
  let l :=
    match l.responseBuffer with
    | none => l
    | some b =>
      if 0 < length then
        (l.withResponse (coapSetHeaderContentFormat l.response format.toUInt32)).setResponse
          { b with payloadSize := length }
      else l
  let response :=
    if code = requestEntityTooLarge413.toNat then
      coapSetHeaderSize1 l.response (UInt32.ofNat cfg.blockSize)
    else l.response
  l.withResponse (coapSetStatusCode response code)

/-- the handler has run: separate response, no response, or a reply -/
def answer (l : Locals) : Locals :=
  if env.entity.separate then
    let ack := if message.type = .con then emptyAck env message.mid endpoint else []
    l.clear.emitAll ack
  else
    match env.entity.reply with
    | .ignore => l.clear
    | .code c => setReply cfg message c env.entity.representation.length l

/-- result of parsing the request payload, if there is one -/
def parsePayload (l : Locals) : RepResult :=
  if requestPayload l = [] then .ok else env.entity.parseRep

/-- up to the response buffer: the payload is parsed, resource and interface are looked up -/
def reachResource (l : Locals) : Locals :=
  if parsePayload env l = .ok ∧ env.entity.resource ∧ env.entity.interfaceSupported then
    (consumePayload l).allocResponse env endpoint message
  else consumePayload l

/-- `oc_ri_invoke_coap_entity_handler` -/
def ocRiInvokeCoapEntityHandler (l : Locals) : Bool × Locals :=
  let l' := reachResource env endpoint message l
  match refusal (parsePayload env l) env.entity l'.responseBuffer.isSome, l'.responseBuffer with
  | none, some b =>
    let l' := runHandler env endpoint message (requestPayload l) b l'
    (true, answer cfg env endpoint message (observeRequest env message l'))
  | code, _ => (false, setReply cfg message (code.getD 0).toNat 0 l')

/-! ## the labels -/

/-- the first block of a new representation over TCP: all of it -/
def wholeResponse (l : Locals) (b : BlockwiseState) : Locals :=
  let (payload, b) := ocBlockwiseDispatchBlock b 0 ((b.payloadSize + 1) % 2^32)
  let response :=
    match payload with
    | some payload =>
      if 0 < b.payloadSize then coapSetPayload cfg l.response payload else l.response
    | none => l.response
  (l.withBlock response b).setResponse { b with refCount := 0 }

/-- the first block of a new representation over UDP -/
def firstBlock (block2 : Option BlockOption) (l : Locals) (b : BlockwiseState) : Locals :=
  let size := (blockParams cfg block2).size
  let (payload, b) := ocBlockwiseDispatchBlock b 0 size.toNat
  let response :=
    match payload with
    | some payload => coapSetPayload cfg l.response payload
    | none => l.response
  if block2.isSome ∨ size.toNat < b.payloadSize then
    let more : UInt8 := if size.toNat < b.payloadSize then 1 else 0
    let response := coapSetHeaderBlock2 response 0 more size
    let response := coapSetHeaderSize2 response (UInt32.ofNat b.payloadSize)
    (l.withBlock (coapSetHeaderEtag response b.etag) b).setResponse b
  else (l.withBlock response b).setResponse { b with refCount := 0 }

/-- `request_handler`: call the entity handler and start the response -/
def requestHandler (block2 : Option BlockOption) (l : Locals) : Locals × Label :=
  let l := l.emit (.invoked endpoint message l.requestBuffer)
  let r := ocRiInvokeCoapEntityHandler cfg env endpoint message l
  let l :=
    match r.1, r.2.responseBuffer with
    | true, some b =>
      if endpoint.flags.tcp then wholeResponse cfg r.2 b else firstBlock cfg block2 r.2 b
    | _, _ => r.2.unrefRequest.unrefResponse
  (l, if l.response.code ≠ 0 then .sendMessage else .initResetMessage)

/-- the token of a message that is going to be sent -/
def setResponseToken (l : Locals) : Message :=
  if l.response.type ≠ .rst ∧ message.token ≠ [] then
    if coapGet ≤ message.code ∧ message.code ≤ coapDelete then
      coapSetToken l.response message.token
    else
      match l.responseBuffer with
      | some b =>
        if b.observeSeq ≠ 0xFFFFFFFF then
          { l.response with token := env.randomToken.take coapTokenLen }
        else coapSetToken l.response message.token
      | none => coapSetToken l.response message.token
  else l.response

/-- `send_message`: serialize and send, or clear the transaction, then scrub the buffers -/
def sendMessage (l : Locals) : State × List Event :=
  let r : State × List Event :=
    match l.status, l.transaction with
    | .noError, some id =>
      match l.state.transactions.find? (fun t => t.id == id) with
      | none => (l.state, l.events)
      | some t =>
        let packet := setResponseToken env message l
        let data := serializedBytes packet
        if 0 < data.length then
          let t := { t with data }
          let (s, ev) := coapSendTransaction env.initialInterval env.gone t (putTransaction t l.state)
          (s, l.events ++ [.sending endpoint message packet l.source] ++ ev)
        else (coapClearTransaction id l.state, l.events)
    | .clearTransaction, some id => (coapClearTransaction id l.state, l.events)
    | _, _ => (l.state, l.events)
  (r.1.withBuffers ocBlockwiseScrubBuffers, r.2)

/-- `init_reset_message` -/
def resetMessage (l : Locals) : Locals :=
  if endpoint.flags.tcp then l.withResponse (coapTcpInitMessage internalServerError500)
  else l.withResponse (coapUdpInitMessage .rst 0 message.mid)

/-- from a label behind `request_handler` to the end of the function -/
def leave (l : Locals) (label : Label) : State × List Event :=
  match label with
  | .sendMessage => sendMessage env endpoint message l
  | .freeBlockwiseBuffers => sendMessage env endpoint message l.unrefRequest.unrefResponse
  | _ => sendMessage env endpoint message
      (resetMessage endpoint message l).unrefRequest.unrefResponse

/-- from a label to the end of the function -/
def finish (block2 : Option BlockOption) (l : Locals) (label : Label) : State × List Event :=
  match label with
  | .requestHandler =>
    let r := requestHandler cfg env endpoint message block2 l
    leave env endpoint message r.1 r.2
  | label => leave env endpoint message l label

/-- local variables at the start of a branch -/
def requestLocals (response : Message) (transaction : Option Nat) (s : State)
    (events : List Event) : Locals where
  state := s
  status := .noError
  response := response
  transaction := transaction
  requestBuffer := none
  responseBuffer := none
  source := none
  events := events

/-- the branch a request takes -/
def requestBranch (l : Locals) : Locals × Label :=
  match coapGetHeaderBlock1 message, coapGetHeaderBlock2 message with
  | some b, _ => block1Request cfg env endpoint message (blockParams cfg (some b)) l
  | none, some b => block2Request cfg env endpoint message (blockParams cfg (some b)) l
  | none, none => regularRequest cfg env endpoint message (blockParams cfg none) l

/-- a request that has got its transaction -/
def processRequest (l : Locals) : State × List Event :=
  let r := requestBranch cfg env endpoint message (l.emit (.accepted endpoint message))
  finish cfg env endpoint message (coapGetHeaderBlock2 message) r.1 r.2

/-- a request that is not confirmable is looked up in the history -/
def dropsDuplicate (s : State) : Bool :=
  !endpoint.flags.tcp && message.type != .con &&
    checkIfDuplicate s message.mid (UInt8.ofNat endpoint.device)

/-- the response packet; one that is not an acknowledgement takes a new message id -/
def startResponse (s : State) : Message × State :=
  if endpoint.flags.tcp then (coapTcpInitMessage content205, s)
  else if message.type = .con then (coapUdpInitMessage .ack content205 message.mid, s)
  else
    let (mid, s) := coapGetMid (remember s message.mid (UInt8.ofNat endpoint.device))
    (coapUdpInitMessage .non content205 mid, s)

/-- the request branch: duplicates, response packet, transaction -/
def receiveRequest (s : State) (events : List Event) : State × List Event :=
  if dropsDuplicate endpoint message s then (s, events)
  else
    let r := startResponse endpoint message s
    match coapNewTransaction env.transactionGranted message.mid endpoint r.2 with
    | (none, s) => leave env endpoint message (requestLocals r.1 none s events) .initResetMessage
    | (some id, s) =>
      processRequest cfg env endpoint message (requestLocals r.1 (some id) s events)

/-! ## responses -/

/-- the client callback a buffer points to -/
def bufferClientCb (s : State) (b : BlockwiseState) : Option ClientCb :=
  b.clientCb.bind fun id => s.clientCbs.find? (fun cb => cb.id == id)

/-- path and query of a follow-up request -/
def setUri (cb : ClientCb) (p : Message) : Message :=
  let p := coapSetHeaderUriPath p cb.uri
  if cb.query ≠ [] then coapSetHeaderUriQuery p cb.query else p

/-- where the client stands between two stages -/
inductive Flow where
  | next (l : Locals) (clientCb : Option ClientCb)
  | jump (l : Locals) (label : Label)
  | fault (l : Locals)

/-- Block1 size after `4.13`: Size1 of the peer, if there is one -/
def mtuSize : UInt16 :=
  match coapGetHeaderSize1 message with
  | some mtu => min mtu.toUInt16 (UInt16.ofNat cfg.blockSize)
  | none => UInt16.ofNat cfg.blockSize

/-- the next block of a request, or its first block after `4.13` -/
def continueRequest (responseMid : UInt16) (block1 : Option BlockOption) (l : Locals)
    (b : BlockwiseState) : Flow :=
  let clientCb := bufferClientCb l.state b
  let p := blockParams cfg block1
  let size := if block1.isSome then p.size else mtuSize cfg message
  let offset := if block1.isSome then (p.offset.toNat + p.size.toNat) % 2^32 else 0
  match ocBlockwiseDispatchBlock b offset size.toNat with
  | (none, b) => .next (l.setRequest { b with refCount := 0 }) clientCb
  | (some payload, b) =>
    let b := if block1.isSome then b else { b with refCount := 1 }
    match coapNewTransaction env.transactionGranted responseMid endpoint l.state, clientCb with
    | (none, _), _ => .next (l.setRequest b) clientCb
    | (some id, s), none => .fault (l.withTransaction id s)
    | (some id, s), some cb =>
      let more : UInt8 := if b.nextBlockOffset < b.payloadSize then 1 else 0
      let response := coapUdpInitMessage .con cb.method responseMid
      let response := coapSetPayload cfg (coapSetHeaderUriPath response cb.uri) payload
      let response :=
        if block1.isSome then coapSetHeaderBlock1 response (p.num + 1) more size
        else
          coapSetHeaderSize1 (coapSetHeaderBlock1 response 0 more size) (UInt32.ofNat b.payloadSize)
      let response := if cb.query ≠ [] then coapSetHeaderUriQuery response cb.query else response
      let b := { b with mid := responseMid }
      .jump (((l.withTransaction id s).withBlock response b).setRequest b) .sendMessage

/-- the buffer of an exchange: by its callback, else by the message id -/
def clientBuffer (bs : List BlockwiseState) (clientCb : Option ClientCb) : Option BlockwiseState :=
  match clientCb with
  | some cb => ocBlockwiseFindBufferByClientCb bs endpoint cb.id
  | none => ocBlockwiseFindBufferByMid bs message.mid

/-- the request buffer of the exchange, if it is still there -/
def clientRequest (responseMid : UInt16) (block1 : Option BlockOption) (l : Locals)
    (clientCb : Option ClientCb) : Flow :=
  let requestBuffer := clientBuffer endpoint message l.state.requests clientCb
  let l := l.pointRequest requestBuffer
  match requestBuffer with
  | none => .next l clientCb
  | some b =>
    if block1.isSome ∨ message.code = requestEntityTooLarge413 then
      continueRequest cfg env endpoint message responseMid block1 l b
    else .next l clientCb

/-- a request buffer nobody refers to is freed at once -/
def freeUnreferenced (l : Locals) : Locals :=
  match l.requestBuffer with
  | none => l
  | some b =>
    if b.refCount = 0 then l.freeRequest b else l

/-- the response buffer of the exchange, a new one if need be -/
def clientResponseBuffer (l : Locals) (clientCb : Option ClientCb) : Locals :=
  let l := l.pointResponse (clientBuffer endpoint message l.state.responses clientCb)
  match l.responseBuffer, clientCb with
  | none, some cb =>
    let l := l.newResponse env (cb.uri.drop 1) endpoint cb.method .client
    match l.responseBuffer with
    | none => l
    | some b => l.setResponse { b with clientCb := some cb.id }
  | _, _ => l

/-- the payload of a response, and the request for its next block -/
def clientResponse (responseMid : UInt16) (block2 : Option BlockOption) (l : Locals)
    (clientCb : Option ClientCb) : Flow :=
  match l.responseBuffer with
  | none => .next l clientCb
  | some b =>
    let clientCb := bufferClientCb l.state b
    let b := { b with observeSeq := (coapGetHeaderObserve message).getD b.observeSeq }
    let l := l.setResponse b
    let p := blockParams cfg block2
    if 0 < incomingBlockLen message then
      match ocBlockwiseHandleBlock cfg.maxAppDataSize b p.offset.toNat message.payload with
      | (false, _) => .next l clientCb
      | (true, b) =>
        let complete :=
          Flow.next (l.setResponse { b with payloadSize := b.nextBlockOffset }) clientCb
        if block2.isSome ∧ p.more ≠ 0 then
          match coapNewTransaction env.transactionGranted responseMid endpoint l.state,
            clientCb with
          | (none, _), _ => complete
          | (some id, s), none => .fault (l.withTransaction id s)
          | (some id, s), some cb =>
            let response := coapUdpInitMessage .con cb.method responseMid
            let response := coapSetHeaderBlock2 response (p.num + 1) 0 p.size
            .jump
              (((l.withTransaction id s).withResponse (setUri cb response)).setResponse
                { b with mid := responseMid })
              .sendMessage
        else complete
    else .next l clientCb

/-- the observe callback that a first notification replaces -/
def dropDuplicateCb (cb : ClientCb) (s : State) : State :=
  match s.clientCbs.find? fun d =>
      d.id != cb.id && d.observeSeq != 0xFFFFFFFF && d.uri.length == cb.uri.length &&
        strncmpEq d.uri cb.uri cb.uri.length && ocEndpointCompare d.endpoint endpoint with
  | none => s
  | some d => freeClientCb d.id s

/-- `oc_ri_invoke_client_cb`, with the response buffer `b`: the state afterwards, and whether
`*response_state` is still set -/
def ocRiInvokeClientCb (b : BlockwiseState) (cb : ClientCb) (s : State) : State × Bool :=
  if b.payloadSize ≠ 0 ∧ cb.discovery ∧ env.stopDiscovery then (removeClientCbsByMid cb.mid s, false)
  else
    let separate := b.payloadSize = 0 ∧ message.type = .ack ∧ message.code = 0
    if b.observeSeq = 0xFFFFFFFF ∧ ¬ separate ∧ ¬ cb.discovery then
      if cb.multicast then
        (if cb.stopMulticastReceive then removeClientCbsByMid cb.mid s else s, false)
      else (freeClientCb cb.id s, false)
    else
      let s := { s with clientCbs := Keyed.put ClientCb.id { cb with observeSeq := b.observeSeq } s.clientCbs }
      (if b.observeSeq = 0 then dropDuplicateCb endpoint cb s else s, true)

/-- the callback is invoked -/
def invokeClientCb (b : BlockwiseState) (cb : ClientCb) (l : Locals) : Locals :=
  let r := ocRiInvokeClientCb env endpoint message b cb l.state
  { l with state := r.1, responseBuffer := if r.2 then l.responseBuffer else none }

/-- a NULL pointer has been read -/
def Locals.faulted (l : Locals) : State × List Event := (l.state, l.events ++ [.fault])

/-- the client side of an exchange: follow-up requests, then the callback -/
def clientExchange (responseMid : UInt16) (clientCb : Option ClientCb) (l : Locals) :
    State × List Event :=
  let block1 := coapGetHeaderBlock1 message
  let block2 := coapGetHeaderBlock2 message
  match clientRequest cfg env endpoint message responseMid block1 l clientCb with
  | .fault l => l.faulted
  | .jump l label => leave env endpoint message l label
  | .next l clientCb =>
    let l := clientResponseBuffer env endpoint message (freeUnreferenced l) clientCb
    match clientResponse cfg env endpoint message responseMid block2 l clientCb with
    | .fault l => l.faulted
    | .jump l label => leave env endpoint message l label
    | .next l clientCb =>
      match clientCb, l.responseBuffer with
      | none, _ => leave env endpoint message l .initResetMessage
      -- `bwt_response_state->observe_seq` without a response state
      | some _, none => l.faulted
      | some cb, some b =>
        leave env endpoint message (invokeClientCb env endpoint message b cb l)
          .freeBlockwiseBuffers

/-- the branch for messages that are not requests -/
def receiveResponse (s : State) (events : List Event) : State × List Event :=
  let (responseMid, s) := coapGetMid s
  let clientCb :=
    if message.type ≠ .rst then ocRiFindClientCbByToken s message.token else none
  let events :=
    if message.type = .con then events ++ emptyAck env message.mid endpoint else events
  -- cancel possible subscriptions
  let s := if message.type = .rst then dropObservers env.gone s else s
  clientExchange cfg env endpoint message responseMid clientCb
    (requestLocals (coapUdpInitMessage .con 0 0) none s events)

/-! ## the function -/

/-- over UDP, the first transaction with the message id of the message is cleared -/
def cancelTransaction (s : State) : State :=
  if endpoint.flags.tcp then s
  else
    match coapGetTransactionByMid s message.mid with
    | none => s
    | some t => coapClearTransaction t.id s

/-- a message that could be parsed -/
def receiveMessage (s : State) : State × List Event :=
  let events :=
    if coapCheckSignalMessage message then handleCoapSignalMessage cfg env message endpoint else []
  let s := cancelTransaction endpoint message s
  if coapGet ≤ message.code ∧ message.code ≤ coapDelete then
    receiveRequest cfg env endpoint message s events
  else receiveResponse cfg env endpoint message s events

end

def OcMessage.parse (cfg : Config) (msg : OcMessage) : Except Status Message :=
  if msg.endpoint.flags.tcp then coapTcpParseMessage cfg msg.data (UInt32.ofNat msg.length)
  else coapUdpParseMessage cfg msg.data (UInt16.ofNat msg.length)

/-- `coap_receive`: the state afterwards and what happened on the way -/
def coapReceive (cfg : Config) (env : Env) (msg : OcMessage) (s : State) : State × List Event :=
  match msg.parse cfg with
  | .error _ => (s.withBuffers ocBlockwiseScrubBuffers, [])
  | .ok message => receiveMessage cfg env msg.endpoint message s

end Coap
