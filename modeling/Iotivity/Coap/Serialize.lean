import Iotivity.Coap.Packet
import Iotivity.Lib.Emit

/-!
# The serializer of `coap.c`

Every function that fills the option area takes a buffer pointer that may be NULL; with NULL it
only counts.  They are `Writer`s here.  `coap_serialize_message` works on the message buffer, whose
first byte has address `0`.

Strings are read byte by byte through a memory, so that what the splitting loop of
`coap_serialize_array_option` looks at beyond the string is visible; a string of a packet is
followed by zeros (`cString`).
-/

namespace Coap
open Memory

/-! ## options -/

/-- the loop of `coap_log_2`: halve until zero; 16 rounds are enough for a `uint16_t` -/
def coapLog2Loop : Nat → Nat → Nat → Nat
  | 0, _, result => result
  | fuel+1, value, result =>
    if value / 2 ≠ 0 then coapLog2Loop fuel (value / 2) (result + 1) else result + 1

def coapLog2 (value : Nat) : Nat := coapLog2Loop 16 value 0 - 1

def coapOptionNibble (value : Nat) : Nat :=
  if value < 13 then value else if value ≤ 0xFF + 13 then 13 else 14

/-- extension bytes behind the first byte of an option header; `written` bytes are there already -/
def setOptionExtension (value written : Nat) (buffer : Option Nat) (m : Nat → UInt8) :
    Nat × (Nat → UInt8) :=
  if 268 < value then
    let m := store (advance buffer (written + 1)) m [UInt8.ofNat (((value - 269) >>> 8) &&& 0xff)]
    (written + 2, store (advance buffer (written + 2)) m [UInt8.ofNat ((value - 269) &&& 0xff)])
  else if 12 < value then
    (written + 1, store (advance buffer (written + 1)) m [UInt8.ofNat (value - 13)])
  else (written, m)

def coapSetOptionHeader (delta length : Nat) : Writer UInt8 := fun buffer m =>
  let m := store buffer m [UInt8.ofNat (coapOptionNibble delta <<< 4 ||| coapOptionNibble length)]
  let (written, m) := setOptionExtension delta 0 buffer m
  let (written, m) := setOptionExtension length written buffer m
  (written + 1, m)

/-- the tests `mask & value` of `coap_serialize_int_option`, with the shift of the byte each of
them guards -/
def intOptionBytes : List (UInt32 × UInt32) :=
  [(0xFF000000, 24), (0xFFFF0000, 16), (0xFFFFFF00, 8), (0xFFFFFFFF, 0)]

def coapSerializeIntOption (number currentNumber : Nat) (value : UInt32) : Writer UInt8 :=
  fun buffer m =>
    let i := intOptionBytes.countP fun b => b.1 &&& value != 0
    let s := coapSetOptionHeader (number - currentNumber) i buffer m
    intOptionBytes.foldl (fun s b =>
      if b.1 &&& value != 0 then
        (s.1 + 1, store (advance buffer s.1) s.2 [(value >>> b.2).toUInt8])
      else s) s

/-- the bytes of a string, then zeros -/
def cString (s : List UInt8) : Nat → UInt8 := fun j => s.getD j 0

/-- The splitting loop of `coap_serialize_array_option`, at position `j`.  Behind a separator the
next position examined is `j + 2`: the loop skips the separator and the loop header adds one more,
so that the first byte of a part is never taken for a separator. -/
def splitLoop (number : Nat) (buffer : Option Nat) (array : Nat → UInt8) (length : Nat)
    (splitChar : UInt8) : Nat → Nat → Nat → Nat → Nat → (Nat → UInt8) → Nat × (Nat → UInt8)
  | 0, _, _, _, i, m => (i, m)
  | fuel+1, j, partStart, currentNumber, i, m =>
    if j ≤ length + 1 then
      if array j = splitChar ∨ j = length then
        let tempLength := j - partStart
        let (h, m) := coapSetOptionHeader (number - currentNumber) tempLength (advance buffer i) m
        let m := store (advance buffer (i + h)) m (read array partStart tempLength)
        splitLoop number buffer array length splitChar fuel (j + 2) (j + 1) number
          (i + h + tempLength) m
      else
        splitLoop number buffer array length splitChar fuel (j + 1) partStart currentNumber i m
    else (i, m)

/-- a zero `splitChar` writes the array as one option -/
def coapSerializeArrayOption (number currentNumber : Nat) (array : Nat → UInt8) (length : Nat)
    (splitChar : UInt8) : Writer UInt8 := fun buffer m =>
  if splitChar ≠ 0 then
    splitLoop number buffer array length splitChar (length + 2) 0 0 currentNumber 0 m
  else
    let (i, m) := coapSetOptionHeader (number - currentNumber) length buffer m
    (i + length, store (advance buffer i) m (read array 0 length))

/-- locals of `coap_serialize_options`: `current_number`, `option_length` and the memory -/
structure OptState where
  currentNumber : Nat
  optionLength : Nat
  mem : Nat → UInt8

/-- the frame shared by the `COAP_SERIALIZE_…_OPTION` macros; `w` gets `current_number` -/
def serializeOption (optionArray : Option Nat) (set : Bool) (number : Nat)
    (w : Nat → Writer UInt8) (s : OptState) : OptState :=
  if set then
    let (n, m) := w s.currentNumber (advance optionArray s.optionLength) s.mem
    ⟨number, s.optionLength + n, m⟩
  else s

def serializeIntOption (p : Message) (optionArray : Option Nat) (number : Nat) (value : UInt32) :
    OptState → OptState :=
  serializeOption optionArray (isOption p number) number
    (coapSerializeIntOption number · value)

def serializeStringOption (p : Message) (optionArray : Option Nat) (number : Nat)
    (field : List UInt8) (splitter : UInt8) : OptState → OptState :=
  serializeOption optionArray (isOption p number) number
    (coapSerializeArrayOption number · (cString field) field.length splitter)

/-- the value `COAP_SERIALIZE_BLOCK_OPTION` writes -/
def blockValue (b : BlockOption) : UInt32 :=
  (b.num <<< 4 ||| (if b.more ≠ 0 then 0x8 else 0)) |||
    UInt32.ofNat (0xF &&& coapLog2 (b.size.toNat / 16))

/-- the version option that goes with a content format -/
def versionValue (format : UInt16) : UInt32 :=
  if format = applicationCbor then UInt32.ofNat oicVer110 else UInt32.ofNat ocfVer100

def coapSerializeSignalOptions (p : Message) : Writer UInt8 := fun optionArray m =>
  let s : OptState := ⟨0, 0, m⟩
  let s :=
    if p.code = csm701 then
      let s := serializeIntOption p optionArray coapSignalOptionMaxMsgSize p.maxMsgSize s
      if p.blockwiseTransfer ≠ 0 then
        serializeIntOption p optionArray coapSignalOptionBlockwiseTransfer
          (p.blockwiseTransfer - p.blockwiseTransfer).toUInt32 s
      else s
    else if p.code = ping702 ∨ p.code = pong703 then
      if p.custody ≠ 0 then
        serializeIntOption p optionArray coapSignalOptionCustody (p.custody - p.custody).toUInt32 s
      else s
    else if p.code = release704 then
      let s := serializeStringOption p optionArray coapSignalOptionAltAddr p.altAddr 0 s
      serializeIntOption p optionArray coapSignalOptionHoldOff p.holdOff s
    else if p.code = abort705 then
      serializeIntOption p optionArray coapSignalOptionBadCsm p.badCsmOpt.toUInt32 s
    else s
  (s.optionLength, s.mem)

/-- `coap_serialize_options`: with a NULL `optionArray` it only computes the size -/
def coapSerializeOptions (p : Message) : Writer UInt8 := fun optionArray m =>
  if coapCheckSignalMessage p then coapSerializeSignalOptions p optionArray m
  else
    let s : OptState := ⟨0, 0, m⟩
    let s := serializeStringOption p optionArray coapOptionEtag p.etag 0 s
    let s := serializeIntOption p optionArray coapOptionObserve p.observe s
    let s := serializeIntOption p optionArray coapOptionUriPort p.uriPort.toUInt32 s
    let s := serializeStringOption p optionArray coapOptionUriPath p.uriPath slash s
    let s := serializeIntOption p optionArray coapOptionContentFormat p.contentFormat.toUInt32 s
    let s := serializeStringOption p optionArray coapOptionUriQuery p.uriQuery ampersand s
    let s := serializeIntOption p optionArray coapOptionAccept p.accept.toUInt32 s
    let s := serializeIntOption p optionArray coapOptionBlock2 (blockValue p.block2) s
    let s := serializeIntOption p optionArray coapOptionBlock1 (blockValue p.block1) s
    let s := serializeIntOption p optionArray coapOptionSize2 p.size2 s
    let s := serializeIntOption p optionArray coapOptionSize1 p.size1 s
    let s := serializeOption optionArray (isOption p coapOptionAccept)
      ocfOptionAcceptContentFormatVer
      (coapSerializeIntOption ocfOptionAcceptContentFormatVer · (versionValue p.accept)) s
    let s := serializeOption optionArray (isOption p coapOptionContentFormat)
      ocfOptionContentFormatVer
      (coapSerializeIntOption ocfOptionContentFormatVer · (versionValue p.contentFormat)) s
    (s.optionLength, s.mem)

/-! ## message headers -/

def coapUdpSetHeaderFields (p : Message) (m : Nat → UInt8) : Nat → UInt8 :=
  write m 0
    [((0xC0 : UInt8) &&& p.version <<< 6) ||| ((0x30 : UInt8) &&& UInt8.ofNat p.type.toBits <<< 4) |||
        ((0x0F : UInt8) &&& UInt8.ofNat p.token.length),
      p.code, (p.mid >>> 8).toUInt8, p.mid.toUInt8]

/-- number of extended length bytes, length nibble, extended length -/
structure TcpLength where
  numExtendedLengthBytes : Nat
  len : Nat
  extendedLen : Nat

def coapTcpComputeMessageLength (p : Message) (optionLength : Nat) : TcpLength :=
  let totalLength :=
    if 0 < p.payload.length then optionLength + (coapPayloadMarkerLen + p.payload.length)
    else optionLength
  if totalLength < 13 then ⟨0, totalLength, 0⟩
  else if totalLength < 269 then ⟨1, 13, totalLength - 13⟩
  else if totalLength < 65805 then ⟨2, 14, totalLength - 269⟩
  else ⟨4, 15, totalLength - 65805⟩

def coapTcpSetHeaderFields (p : Message) (t : TcpLength) (m : Nat → UInt8) : Nat → UInt8 :=
  let head := ((0xF0 : UInt8) &&& UInt8.ofNat t.len <<< 4) ||| ((0x0F : UInt8) &&& UInt8.ofNat p.token.length)
  let extended := (List.range t.numExtendedLengthBytes).map fun i =>
    UInt8.ofNat (t.extendedLen >>> (8 * (t.numExtendedLengthBytes - (i + 1))))
  write m 0 (head :: (extended ++ [p.code]))

/-! ## messages -/

/-- token, options and payload from `token_location` on -/
def serializeBody (p : Message) (tokenLocation : Nat) (m : Nat → UInt8) : Nat × (Nat → UInt8) :=
  -- empty packet, don't need to do more stuff
  if p.code = 0 then (tokenLocation, m)
  else
    let m := write m tokenLocation p.token
    let option := tokenLocation + p.token.length
    let (optionLength, m) := coapSerializeOptions p (some option) m
    let option := option + optionLength
    if option ≤ coapMaxHeaderSize then
      if 0 < p.payload.length then
        let m := write m option [0xFF]
        (option + 1 + p.payload.length, write m (option + 1) p.payload)
      else (option, m)
    else (0, m)

/-- `coap_serialize_message` behind the initialisation of the packet -/
def serializeInitialized (p : Message) (m : Nat → UInt8) : Nat × (Nat → UInt8) :=
  let optionLengthCalculation := (coapSerializeOptions p none m).1
  let headerLengthCalculation := optionLengthCalculation +
    (if 0 < p.payload.length then coapPayloadMarkerLen else 0) + p.token.length
  match p.transportType with
  | .tcp =>
    let t := coapTcpComputeMessageLength p optionLengthCalculation
    let tokenLocation := coapTcpDefaultHeaderLen + t.numExtendedLengthBytes
    if coapMaxHeaderSize < headerLengthCalculation + tokenLocation then (0, m)
    else serializeBody p tokenLocation (coapTcpSetHeaderFields p t m)
  | .udp =>
    if coapMaxHeaderSize < headerLengthCalculation + coapHeaderLen then (0, m)
    else serializeBody p coapHeaderLen (coapUdpSetHeaderFields p m)

/-- `coap_serialize_message`: the packet length, `0` if the header gets too long -/
def coapSerializeMessage (p : Message) (m : Nat → UInt8) : Nat × (Nat → UInt8) :=
  serializeInitialized { p with version := 1 } m

/-- the bytes of a serialized message -/
def serializedBytes (p : Message) : List UInt8 :=
  read (coapSerializeMessage p fun _ => 0).2 0 (coapSerializeMessage p fun _ => 0).1

end Coap
