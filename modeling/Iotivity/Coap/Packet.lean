import Mathlib.Data.Finset.Insert
import Iotivity.Lib.Memory

/-!
# CoAP packets: `coap_packet_t`, the constants and the setters

The build modelled here has block-wise transfer, TCP, client and server (`OC_BLOCK_WISE`, `OC_TCP`,
`OC_CLIENT`, `OC_SERVER`).

`Packet σ` is `coap_packet_t` with `σ` for its strings.  In the parser they are pointers into the
receive buffer (`Slice`), everywhere else the bytes they stand for; `Packet.map` goes from one to
the other.  The bitmap of present options is the set of their numbers: `setOption` is `SET_OPTION`,
`isOption` is `IS_OPTION`.
-/

namespace Coap

/-! ## constants -/

def coapHeaderLen : Nat := 4
def coapTokenLen : Nat := 8
def coapEtagLen : Nat := 8
def coapTcpDefaultHeaderLen : Nat := 2
def coapPayloadMarkerLen : Nat := 1

/-- `COAP_MAX_HEADER_SIZE` of a block-wise build -/
def coapMaxHeaderSize : Nat := 4 + coapTokenLen + 3 + coapEtagLen + 4 + 4 + 80

/-- `coap_message_type_t` -/
inductive MessageType where
  | con | non | ack | rst
deriving DecidableEq, Repr

def MessageType.toBits : MessageType → Nat
  | .con => 0
  | .non => 1
  | .ack => 2
  | .rst => 3

/-- the type in a two-bit field -/
def MessageType.ofBits : Nat → MessageType
  | 0 => .con
  | 1 => .non
  | 2 => .ack
  | _ => .rst

@[simp] theorem MessageType.ofBits_toBits (t : MessageType) : ofBits t.toBits = t := by
  cases t <;> rfl

/-- `coap_transport_type_t` -/
inductive TransportType where
  | udp | tcp
deriving DecidableEq, Repr

/-- `coap_status_t`, as far as the parser and the engine return it -/
inductive Status where
  | noError
  | badRequest400
  | badOption402
  | notAcceptable406
  | unsupportedMediaType415
  | clearTransaction
deriving DecidableEq, Repr

/-! request methods and response codes -/

abbrev coapGet : UInt8 := 1
abbrev coapPost : UInt8 := 2
abbrev coapPut : UInt8 := 3
abbrev coapDelete : UInt8 := 4
abbrev content205 : UInt8 := 69
abbrev continue231 : UInt8 := 95
abbrev badRequest400 : UInt8 := 128
abbrev unauthorized401 : UInt8 := 129
abbrev forbidden403 : UInt8 := 131
abbrev notFound404 : UInt8 := 132
abbrev methodNotAllowed405 : UInt8 := 133
abbrev requestEntityTooLarge413 : UInt8 := 141
abbrev internalServerError500 : UInt8 := 160

/-! signal codes -/

abbrev csm701 : UInt8 := 225
abbrev ping702 : UInt8 := 226
abbrev pong703 : UInt8 := 227
abbrev release704 : UInt8 := 228
abbrev abort705 : UInt8 := 229

/-! option numbers (`coap_option_t`, `coap_signal_option_t`) -/

abbrev coapOptionEtag : Nat := 4
abbrev coapOptionObserve : Nat := 6
abbrev coapOptionUriPort : Nat := 7
abbrev coapOptionUriPath : Nat := 11
abbrev coapOptionContentFormat : Nat := 12
abbrev coapOptionMaxAge : Nat := 14
abbrev coapOptionUriQuery : Nat := 15
abbrev coapOptionAccept : Nat := 17
abbrev coapOptionBlock2 : Nat := 23
abbrev coapOptionBlock1 : Nat := 27
abbrev coapOptionSize2 : Nat := 28
abbrev coapOptionSize1 : Nat := 60
abbrev ocfOptionAcceptContentFormatVer : Nat := 2049
abbrev ocfOptionContentFormatVer : Nat := 2053

abbrev coapSignalOptionMaxMsgSize : Nat := 2
abbrev coapSignalOptionBlockwiseTransfer : Nat := 4
abbrev coapSignalOptionCustody : Nat := 2
abbrev coapSignalOptionAltAddr : Nat := 2
abbrev coapSignalOptionHoldOff : Nat := 4
abbrev coapSignalOptionBadCsm : Nat := 2

/-! content formats and their versions -/

abbrev applicationCbor : UInt16 := 60
abbrev applicationVndOcfCbor : UInt16 := 10000
abbrev ocfVer100 : Nat := 2048
abbrev oicVer110 : Nat := 2112

/-! separators -/

abbrev slash : UInt8 := 0x2F
abbrev ampersand : UInt8 := 0x26
abbrev questionMark : UInt8 := 0x3F

/-- Build and run-time settings.  A block-wise build gives `OC_BLOCK_SIZE` a power of two between
16 and 2048; `OC_MAX_APP_DATA_SIZE` is any number. -/
structure Config where
  blockSize : Nat
  maxAppDataSize : Nat
  blockSize_pow : ∃ k, 4 ≤ k ∧ k ≤ 11 ∧ blockSize = 2^k

/-- the values `oc_main.c` starts with -/
def defaultConfig : Config := ⟨1024, 8192, 10, by decide, by decide, rfl⟩

theorem Config.blockSize_le (cfg : Config) : cfg.blockSize ≤ 2048 := by
  obtain ⟨k, _, h2, h3⟩ := cfg.blockSize_pow
  rw [h3]
  exact Nat.pow_le_pow_right (show 0 < 2 by decide) h2

theorem Config.le_blockSize (cfg : Config) : 16 ≤ cfg.blockSize := by
  obtain ⟨k, h1, _, h3⟩ := cfg.blockSize_pow
  rw [h3]
  exact Nat.pow_le_pow_right (show 0 < 2 by decide) h1

/-! ## packets -/

/-- the four fields of a Block1 or Block2 option -/
structure BlockOption where
  num : UInt32
  more : UInt8
  size : UInt16
  offset : UInt32
deriving DecidableEq, Repr

def BlockOption.zero : BlockOption := ⟨0, 0, 0, 0⟩

/-- the fields of `coap_packet_t` that are kept by value; `observe` is kept as the 32 bits of the
`int32_t` field -/
structure Fields where
  transportType : TransportType
  version : UInt8
  type : MessageType
  code : UInt8
  mid : UInt16
  token : List UInt8
  options : Finset Nat
  contentFormat : UInt16
  maxAge : UInt32
  etag : List UInt8
  uriPort : UInt16
  observe : UInt32
  accept : UInt16
  block2 : BlockOption
  block1 : BlockOption
  size2 : UInt32
  size1 : UInt32
  maxMsgSize : UInt32
  blockwiseTransfer : UInt8
  custody : UInt8
  holdOff : UInt32
  badCsmOpt : UInt16
deriving DecidableEq

/-- `coap_packet_t` -/
structure Packet (σ : Type) extends Fields where
  uriPath : σ
  uriQuery : σ
  altAddr : σ
  payload : σ
deriving DecidableEq

variable {σ τ : Type}

def Fields.zero (transportType : TransportType) : Fields where
  transportType := transportType
  version := 0
  type := .con
  code := 0
  mid := 0
  token := []
  options := ∅
  contentFormat := 0
  maxAge := 0
  etag := []
  uriPort := 0
  observe := 0
  accept := 0
  block2 := .zero
  block1 := .zero
  size2 := 0
  size1 := 0
  maxMsgSize := 0
  blockwiseTransfer := 0
  custody := 0
  holdOff := 0
  badCsmOpt := 0

/-- the packet after `memset(coap_pkt, 0, sizeof(coap_packet_t))`, with `empty` for NULL strings -/
def Packet.zero (empty : σ) (transportType : TransportType) : Packet σ where
  toFields := .zero transportType
  uriPath := empty
  uriQuery := empty
  altAddr := empty
  payload := empty

/-- a packet whose strings are bytes -/
abbrev Message : Type := Packet (List UInt8)

/-- the same packet with its strings looked up by `f` -/
def Packet.map (f : σ → τ) (p : Packet σ) : Packet τ where
  toFields := p.toFields
  uriPath := f p.uriPath
  uriQuery := f p.uriQuery
  altAddr := f p.altAddr
  payload := f p.payload

def setOption (p : Packet σ) (opt : Nat) : Packet σ := { p with options := insert opt p.options }

def isOption (p : Packet σ) (opt : Nat) : Bool := decide (opt ∈ p.options)

/-- `coap_check_signal_message` -/
def coapCheckSignalMessage (p : Packet σ) : Bool :=
  p.code == csm701 || p.code == ping702 || p.code == pong703 || p.code == release704 ||
    p.code == abort705

/-! ## initialisation -/

def coapUdpInitMessage (type : MessageType) (code : UInt8) (mid : UInt16) : Message :=
  { Packet.zero [] .udp with type, code, mid }

def coapTcpInitMessage (code : UInt8) : Message :=
  { Packet.zero [] .tcp with type := .non, code, mid := 0 }

/-! ## setters and getters -/

def coapSetStatusCode (p : Message) (code : Nat) : Message :=
  if code ≤ 0xFF then { p with code := UInt8.ofNat code } else p

def coapSetToken (p : Message) (token : List UInt8) : Message :=
  { p with token := token.take coapTokenLen }

def coapSetHeaderContentFormat (p : Message) (format : UInt32) : Message :=
  setOption { p with contentFormat := format.toUInt16 } coapOptionContentFormat

def coapGetHeaderAccept (p : Message) : Option UInt16 :=
  if isOption p coapOptionAccept then some p.accept else none

def coapSetHeaderAccept (p : Message) (accept : UInt32) : Message :=
  setOption { p with accept := accept.toUInt16 } coapOptionAccept

def coapSetHeaderEtag (p : Message) (etag : List UInt8) : Message :=
  setOption { p with etag := etag.take coapEtagLen } coapOptionEtag

def coapGetHeaderUriPath (p : Message) : List UInt8 :=
  if isOption p coapOptionUriPath then p.uriPath else []

/-- leading slashes are skipped -/
def coapSetHeaderUriPath (p : Message) (path : List UInt8) : Message :=
  setOption { p with uriPath := path.dropWhile (· == slash) } coapOptionUriPath

def coapGetHeaderUriQuery (p : Message) : List UInt8 :=
  if isOption p coapOptionUriQuery then p.uriQuery else []

/-- leading question marks are skipped; `query` is a C string, so it ends at its first NUL -/
def coapSetHeaderUriQuery (p : Message) (query : List UInt8) : Message :=
  setOption { p with uriQuery := (query.dropWhile (· == questionMark)).takeWhile (· != 0) }
    coapOptionUriQuery

def coapGetHeaderObserve (p : Message) : Option UInt32 :=
  if isOption p coapOptionObserve then some p.observe else none

def coapSetHeaderObserve (p : Message) (observe : UInt32) : Message :=
  setOption { p with observe } coapOptionObserve

/-- the values a Block setter refuses -/
def blockRefused (num : UInt32) (size : UInt16) : Bool :=
  size < 16 || size > 2048 || num > 0x0FFFFF

def coapGetHeaderBlock2 (p : Message) : Option BlockOption :=
  if isOption p coapOptionBlock2 then some p.block2 else none

def coapSetHeaderBlock2 (p : Message) (num : UInt32) (more : UInt8) (size : UInt16) : Message :=
  if blockRefused num size then p
  else
    setOption
      { p with block2 := { p.block2 with num, more := if more ≠ 0 then 1 else 0, size } }
      coapOptionBlock2

def coapGetHeaderBlock1 (p : Message) : Option BlockOption :=
  if isOption p coapOptionBlock1 then some p.block1 else none

/-- unlike Block2, `more` is stored as it is -/
def coapSetHeaderBlock1 (p : Message) (num : UInt32) (more : UInt8) (size : UInt16) : Message :=
  if blockRefused num size then p
  else setOption { p with block1 := { p.block1 with num, more, size } } coapOptionBlock1

def coapSetHeaderSize2 (p : Message) (size : UInt32) : Message :=
  setOption { p with size2 := size } coapOptionSize2

def coapGetHeaderSize1 (p : Message) : Option UInt32 :=
  if isOption p coapOptionSize1 then some p.size1 else none

def coapSetHeaderSize1 (p : Message) (size : UInt32) : Message :=
  setOption { p with size1 := size } coapOptionSize1

/-- the length is kept in a `uint32_t` over TCP and cut to `OC_BLOCK_SIZE` over UDP -/
def coapSetPayload (cfg : Config) (p : Message) (payload : List UInt8) : Message :=
  match p.transportType with
  | .tcp => { p with payload := payload.take (payload.length % 2^32) }
  | .udp => { p with payload := payload.take (min cfg.blockSize payload.length % 2^16) }

/-! ## signal setters: each of them only works on messages of its own code -/

def coapSignalSetMaxMsgSize (p : Message) (size : UInt32) : Message :=
  if p.code ≠ csm701 then p
  else setOption { p with maxMsgSize := size } coapSignalOptionMaxMsgSize

def coapSignalSetBlockwiseTransfer (p : Message) (blockwiseTransfer : UInt8) : Message :=
  if p.code ≠ csm701 ∨ (blockwiseTransfer ≠ 0 ∧ blockwiseTransfer ≠ 1) then p
  else setOption { p with blockwiseTransfer } coapSignalOptionBlockwiseTransfer

def coapSignalSetCustody (p : Message) (custody : UInt8) : Message :=
  if (p.code ≠ ping702 ∧ p.code ≠ pong703) ∨ (custody ≠ 0 ∧ custody ≠ 1) then p
  else setOption { p with custody } coapSignalOptionCustody

def coapSignalSetAltAddr (p : Message) (addr : List UInt8) : Message :=
  if p.code ≠ release704 ∨ addr = [] then p
  else setOption { p with altAddr := addr } coapSignalOptionAltAddr

def coapSignalSetHoldOff (p : Message) (timeSeconds : UInt32) : Message :=
  if p.code ≠ release704 then p
  else setOption { p with holdOff := timeSeconds } coapSignalOptionHoldOff

def coapSignalSetBadCsm (p : Message) (opt : UInt16) : Message :=
  if p.code ≠ abort705 then p
  else setOption { p with badCsmOpt := opt } coapSignalOptionBadCsm

end Coap
