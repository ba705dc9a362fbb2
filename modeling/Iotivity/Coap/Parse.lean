import Iotivity.Coap.Packet

/-!
# The parsers of `coap.c`

`coap_udp_parse_message` and `coap_tcp_parse_message` work on a receive buffer, here a memory with
the first byte of the datagram at address `0`.  Strings of the packet point into that buffer
(`Slice`), and options that come in several parts are merged in place, over bytes that have been
read already.  What the caller gets is the packet with its strings read through the final memory.

The bounds of the buffer are not part of the model: a read behind the datagram gives whatever the
memory holds there.
-/

namespace Coap
open Memory

/-! ## option values -/

def coapParseIntOption (bytes : List UInt8) : UInt32 :=
  bytes.foldl (fun var b => var <<< 8 ||| b.toUInt32) 0

/-- the fields of a Block option -/
def parseBlockOption (value : UInt32) : BlockOption where
  more := ((value &&& 0x08) >>> 3).toUInt8
  size := 16 <<< (value &&& 0x07).toUInt16
  offset := (value &&& ~~~0x0000000F) <<< (value &&& 0x07)
  num := value >>> 4

/-- a string of a packet under construction; NULL has length `0` -/
structure Slice where
  ptr : Nat
  len : Nat
deriving DecidableEq

def Slice.null : Slice := ⟨0, 0⟩

/-- first address behind the string -/
def Slice.fin (s : Slice) : Nat := s.ptr + s.len

def Slice.bytes (m : Nat → UInt8) (s : Slice) : List UInt8 := read m s.ptr s.len

/-- the separator goes behind the string, the new part is moved behind the separator -/
def coapMergeMultiOption (dst : Slice) (m : Nat → UInt8) (option optionLen : Nat)
    (separator : UInt8) : Slice × (Nat → UInt8) :=
  if 0 < dst.len then
    let m := write m dst.fin [separator]
    (⟨dst.ptr, dst.len + 1 + optionLen⟩, write m (dst.fin + 1) (read m option optionLen))
  else (⟨option, optionLen⟩, m)

/-- `coap_parse_signal_options`; `str` is the option value as a string of the packet -/
def coapParseSignalOptions {σ : Type} (p : Packet σ) (optionNumber : Nat) (v : List UInt8)
    (str : σ) : Packet σ :=
  if p.code = csm701 then
    if optionNumber = coapSignalOptionMaxMsgSize then { p with maxMsgSize := coapParseIntOption v }
    else if optionNumber = coapSignalOptionBlockwiseTransfer then { p with blockwiseTransfer := 1 }
    else p
  else if p.code = ping702 ∨ p.code = pong703 then
    if optionNumber = coapSignalOptionCustody then { p with custody := 1 } else p
  else if p.code = release704 then
    if optionNumber = coapSignalOptionAltAddr then { p with altAddr := str }
    else if optionNumber = coapSignalOptionHoldOff then { p with holdOff := coapParseIntOption v }
    else p
  else if p.code = abort705 then
    if optionNumber = coapSignalOptionBadCsm then
      { p with badCsmOpt := (coapParseIntOption v).toUInt16 }
    else p
  else p

def unsupportedFormat (format : UInt16) : Bool :=
  format != applicationVndOcfCbor && format != applicationCbor

/-- the options that are copied into the packet, and the unknown ones -/
def parseValueOption (p : Fields) (optionNumber : Nat) (v : List UInt8) : Except Status Fields :=
  let value := coapParseIntOption v
  if optionNumber = coapOptionContentFormat then
    if unsupportedFormat value.toUInt16 then .error .unsupportedMediaType415
    else .ok { p with contentFormat := value.toUInt16 }
  else if optionNumber = coapOptionMaxAge then .ok { p with maxAge := value }
  else if optionNumber = coapOptionEtag then .ok { p with etag := v.take coapEtagLen }
  else if optionNumber = coapOptionAccept then
    if unsupportedFormat value.toUInt16 then .error .notAcceptable406
    else .ok { p with accept := value.toUInt16 }
  else if optionNumber = coapOptionUriPort then .ok { p with uriPort := value.toUInt16 }
  else if optionNumber = coapOptionObserve then .ok { p with observe := value }
  else if optionNumber = coapOptionBlock2 then .ok { p with block2 := parseBlockOption value }
  else if optionNumber = coapOptionBlock1 then .ok { p with block1 := parseBlockOption value }
  else if optionNumber = coapOptionSize2 then .ok { p with size2 := value }
  else if optionNumber = coapOptionSize1 then .ok { p with size1 := value }
  else if optionNumber = ocfOptionContentFormatVer ∨
      optionNumber = ocfOptionAcceptContentFormatVer then
    if value.toUInt16.toNat ≠ ocfVer100 ∧ value.toUInt16.toNat ≠ oicVer110 then
      .error .unsupportedMediaType415
    else .ok p
  -- check if critical (odd)
  else if optionNumber % 2 = 1 then .error .badOption402
  else .ok p

/-! ## the option loop -/

/-- option delta or option length with its extension bytes, and the cursor behind them -/
def optionField (m : Nat → UInt8) (value cur : Nat) : Nat × Nat :=
  if value = 13 then (value + (m cur).toNat, cur + 1)
  else if value = 14 then
    (value + 255 + (m cur).toNat <<< 8 + (m (cur + 1)).toNat, cur + 2)
  else (value, cur)

/-- only numbers up to Size1 have a bit in the bitmap -/
def markOption {σ : Type} (p : Packet σ) (optionNumber : Nat) : Packet σ :=
  if optionNumber ≤ coapOptionSize1 then setOption p optionNumber else p

/-- one option of a packet, its value at `cur` -/
def parseOption (p : Packet Slice) (m : Nat → UInt8) (optionNumber cur optionLength : Nat) :
    Except Status (Packet Slice × (Nat → UInt8)) :=
  if coapCheckSignalMessage p then
    .ok (coapParseSignalOptions p optionNumber (read m cur optionLength) ⟨cur, optionLength⟩, m)
  else if optionNumber = coapOptionUriPath then
    let (uriPath, m) := coapMergeMultiOption p.uriPath m cur optionLength slash
    .ok ({ p with uriPath }, m)
  else if optionNumber = coapOptionUriQuery then
    let (uriQuery, m) := coapMergeMultiOption p.uriQuery m cur optionLength ampersand
    .ok ({ p with uriQuery }, m)
  else
    match parseValueOption p.toFields optionNumber (read m cur optionLength) with
    | .error e => .error e
    | .ok q => .ok ({ p with toFields := q }, m)

/-- locals of `coap_parse_token_option`; `option_number` is an `unsigned int` -/
structure ParseState where
  pkt : Packet Slice
  mem : Nat → UInt8
  currentOption : Nat
  optionNumber : Nat

/-- one round of the option loop; `true` is its `break` -/
def parseStep (cfg : Config) (dataLen : Nat) (s : ParseState) :
    Except Status (ParseState × Bool) :=
  let b := s.mem s.currentOption
  -- payload marker 0xFF, currently only checking for 0xF* because rest is reserved
  if b &&& 0xF0 = 0xF0 then
    let payload := s.currentOption + 1
    let payloadLen := dataLen - payload
    let payloadLen :=
      if s.pkt.transportType = .udp ∧ cfg.blockSize < payloadLen then cfg.blockSize else payloadLen
    let pkt := { s.pkt with payload := ⟨payload, payloadLen⟩ }
    .ok (⟨pkt, write s.mem (payload + payloadLen) [0], payload, s.optionNumber⟩, true)
  else
    let (optionDelta, cur) := optionField s.mem (b >>> 4).toNat (s.currentOption + 1)
    let (optionLength, cur) := optionField s.mem (b &&& 0x0F).toNat cur
    let optionNumber := (s.optionNumber + optionDelta) % 2^32
    let pkt := markOption s.pkt optionNumber
    if dataLen < cur + optionLength then .error .badOption402
    else
      match parseOption pkt s.mem optionNumber cur optionLength with
      | .error e => .error e
      | .ok (pkt, m) => .ok (⟨pkt, m, cur + optionLength, optionNumber⟩, false)

/-- every round moves the cursor, so `data_len` rounds are enough -/
def parseLoop (cfg : Config) (dataLen : Nat) : Nat → ParseState → Except Status ParseState
  | 0, s => .ok s
  | fuel+1, s =>
    if s.currentOption < dataLen then
      match parseStep cfg dataLen s with
      | .error e => .error e
      | .ok (s, true) => .ok s
      | .ok (s, false) => parseLoop cfg dataLen fuel s
    else .ok s

def ParseState.message (s : ParseState) : Message := s.pkt.map (Slice.bytes s.mem)

/-- token at `currentOption`, then the options -/
def coapParseTokenOption (cfg : Config) (p : Packet Slice) (tokenLen : Nat) (data : Nat → UInt8)
    (dataLen currentOption : Nat) : Except Status Message :=
  let p := { p with token := read data currentOption tokenLen, options := ∅ }
  (parseLoop cfg dataLen dataLen ⟨p, data, currentOption + tokenLen, 0⟩).map ParseState.message

/-! ## messages -/

def udpVersion (b : UInt8) : UInt8 := (0xC0 &&& b) >>> 6

def tokenLength (b : UInt8) : Nat := ((0x0F : UInt8) &&& b).toNat

def udpPacket (data : Nat → UInt8) : Packet Slice :=
  { Packet.zero Slice.null .udp with
    version := udpVersion (data 0)
    type := .ofBits ((0x30 &&& data 0) >>> 4).toNat
    code := data 1
    mid := (data 2).toUInt16 <<< 8 ||| (data 3).toUInt16 }

def coapUdpParseMessage (cfg : Config) (data : Nat → UInt8) (dataLen : UInt16) :
    Except Status Message :=
  let p := udpPacket data
  if p.version ≠ 1 then .error .badRequest400
  else if coapTokenLen < tokenLength (data 0) then .error .badRequest400
  else coapParseTokenOption cfg p (tokenLength (data 0)) data dataLen.toNat coapHeaderLen

/-- message length and number of extended length bytes -/
def coapTcpParseMessageLength (data : Nat → UInt8) : Nat × Nat :=
  let tcpLen := ((0xF0 &&& data 0) >>> 4).toNat
  if tcpLen < 13 then (tcpLen, 0)
  else
    let n := 1 <<< (tcpLen - 13)
    let messageLength := (List.range n).foldl
      (fun acc i => acc ||| (data (i + 1)).toNat <<< (8 * (n - (i + 1)))) 0
    if tcpLen = 13 then (messageLength + 13, n)
    else if tcpLen = 14 then (messageLength + 269, n)
    else (messageLength + 65805, n)

def coapTcpGetPacketSize (data : Nat → UInt8) : Nat :=
  let (messageLength, numExtendedLengthBytes) := coapTcpParseMessageLength data
  coapTcpDefaultHeaderLen + numExtendedLengthBytes + tokenLength (data 0) + messageLength

def tcpPacket (data : Nat → UInt8) (numExtendedLengthBytes : Nat) : Packet Slice :=
  { Packet.zero Slice.null .tcp with
    type := .non
    code := data (1 + numExtendedLengthBytes) }

def coapTcpParseMessage (cfg : Config) (data : Nat → UInt8) (dataLen : UInt32) :
    Except Status Message :=
  let numExtendedLengthBytes := (coapTcpParseMessageLength data).2
  let p := tcpPacket data numExtendedLengthBytes
  if coapTokenLen < tokenLength (data 0) then .error .badRequest400
  else
    coapParseTokenOption cfg p (tokenLength (data 0)) data dataLen.toNat
      (coapTcpDefaultHeaderLen + numExtendedLengthBytes)

end Coap
