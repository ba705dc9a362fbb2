import Iotivity.Coap.Serialize
import Iotivity.Lib.DeltaCode
import Mathlib.Tactic.IntervalCases
import Mathlib.Algebra.Order.Group.Nat

/-!
# What the serializer emits

`coap_serialize_options` emits the delta code of `packetOptions p`, in the dry run as in the real
one:

* `coapSetOptionHeader_emits`, `coapSerializeIntOption_emits`, `coapSerializeArrayOption_emits`
  one option;
* `coapSerializeOptions_emits`   the option area;
* `coapSerializeMessage_eq`      the whole message: a returned length `n > 0` is the length of
  header, token, options and payload, and these are the bytes in the buffer.
-/

set_option linter.unusedVariables false

namespace Coap
open Memory DeltaCode

/-! ## option headers -/

theorem coapOptionNibble_eq (v : Nat) : coapOptionNibble v = nibble v := rfl

theorem setOptionExtension_eq (v w : Nat) (buf : Option Nat) (m : Nat → UInt8) :
    setOptionExtension v w buf m
      = (w + (extension v).length, store (advance buf (w + 1)) m (extension v)) := by
  unfold setOptionExtension extension
  by_cases h1 : 268 < v
  · rw [if_pos h1, if_pos h1]
    have e1 : UInt8.ofNat ((v - 269) >>> 8 &&& 255) = UInt8.ofNat ((v - 269) / 256) := by
      apply UInt8.toNat_inj.mp
      simp [Nat.and_two_pow_sub_one_eq_mod _ 8, Nat.shiftRight_eq_div_pow]
    have e2 : UInt8.ofNat ((v - 269) &&& 255) = UInt8.ofNat (v - 269) := by
      apply UInt8.toNat_inj.mp
      simp [Nat.and_two_pow_sub_one_eq_mod _ 8]
    have e3 := store_append (advance buf (w + 1)) m [UInt8.ofNat ((v - 269) / 256)]
      [UInt8.ofNat (v - 269)]
    rw [advance_advance] at e3
    rw [e1, e2]
    exact Prod.ext rfl e3.symm
  · rw [if_neg h1, if_neg h1]
    by_cases h2 : 12 < v
    · rw [if_pos h2, if_pos h2]
      rfl
    · rw [if_neg h2, if_neg h2, store_nil]
      rfl

theorem nibbles_or (a b : Nat) (hb : b < 16) : a <<< 4 ||| b = a * 16 + b := by
  rw [← Nat.shiftLeft_add_eq_or_of_lt (show b < 2^4 from hb), Nat.shiftLeft_eq]

theorem coapSetOptionHeader_emits (delta length : Nat) :
    Emits (coapSetOptionHeader delta length) (header delta length) := by
  intro buf m
  have hn := nibble_lt length
  simp only [coapSetOptionHeader, setOptionExtension_eq, coapOptionNibble_eq,
    nibbles_or _ _ (by omega : nibble length < 16)]
  refine Prod.ext ?_ ?_
  · show 0 + (extension delta).length + (extension length).length + 1
      = (extension delta ++ extension length).length + 1
    rw [List.length_append]
    omega
  · show _ = store buf m ([UInt8.ofNat _] ++ (extension delta ++ extension length))
    rw [store_append buf m, store_append _ _ (extension delta), advance_advance,
      List.length_singleton, Nat.zero_add, Nat.zero_add, Nat.add_comm 1]

/-! ## integers -/

/-- bytes of an integer option: big endian, leading zeros dropped -/
def intBytes (value : UInt32) : List UInt8 :=
  (intOptionBytes.filter fun b => b.1 &&& value != 0).map fun b => (value >>> b.2).toUInt8

theorem foldl_store (buf : Option Nat) (c : UInt32 × UInt32 → Bool) (f : UInt32 × UInt32 → UInt8)
    (l : List (UInt32 × UInt32)) : ∀ (n : Nat) (m : Nat → UInt8),
    l.foldl (fun s b => if c b then (s.1 + 1, store (advance buf s.1) s.2 [f b]) else s) (n, m)
      = (n + ((l.filter c).map f).length, store (advance buf n) m ((l.filter c).map f)) := by
  induction l with
  | nil =>
    intro n m
    simp
  | cons b l ih =>
    intro n m
    rw [List.foldl_cons]
    cases hc : c b with
    | false =>
      rw [if_neg (by simp), ih, List.filter_cons_of_neg (by simp [hc])]
    | true =>
      rw [if_pos rfl, ih, List.filter_cons_of_pos hc, List.map_cons,
        ← List.singleton_append (l := (l.filter c).map f), store_append, advance_advance]
      refine Prod.ext ?_ rfl
      simp only [List.length_append, List.length_singleton]
      omega

theorem coapSerializeIntOption_emits (number current : Nat) (value : UInt32) :
    Emits (coapSerializeIntOption number current value)
      (encode current [(number, intBytes value)]) := by
  intro buf m
  have hlen : (intBytes value).length = intOptionBytes.countP fun b => b.1 &&& value != 0 := by
    rw [intBytes, List.length_map, List.countP_eq_length_filter]
  have hh := coapSetOptionHeader_emits (number - current) (intBytes value).length buf m
  have hf := foldl_store buf (fun b => b.1 &&& value != 0) (fun b => (value >>> b.2).toUInt8)
    intOptionBytes (header (number - current) (intBytes value).length).length
    (store buf m (header (number - current) (intBytes value).length))
  have he : encode current [(number, intBytes value)]
      = header (number - current) (intBytes value).length ++ intBytes value := by
    simp [encode]
  show List.foldl _ (coapSetOptionHeader _ (intOptionBytes.countP _) buf m) _ = _
  rw [← hlen, hh, hf, he, List.length_append, store_append]
  rfl

theorem length_intBytes_le (value : UInt32) : (intBytes value).length ≤ 4 := by
  rw [intBytes, List.length_map]
  exact List.length_filter_le _ _

/-! ## arrays -/

/-- the parts the splitting loop cuts out from position `j` on -/
def splitParts (array : Nat → UInt8) (length : Nat) (splitChar : UInt8) :
    Nat → Nat → Nat → List (List UInt8)
  | 0, _, _ => []
  | fuel+1, j, partStart =>
    if j ≤ length + 1 then
      if array j = splitChar ∨ j = length then
        read array partStart (j - partStart)
          :: splitParts array length splitChar fuel (j + 2) (j + 1)
      else splitParts array length splitChar fuel (j + 1) partStart
    else []

theorem splitLoop_eq (number : Nat) (buf : Option Nat) (array : Nat → UInt8) (length : Nat)
    (splitChar : UInt8) (fuel : Nat) : ∀ (j partStart current i : Nat) (m : Nat → UInt8),
    splitLoop number buf array length splitChar fuel j partStart current i m
      = (i + (encode current ((splitParts array length splitChar fuel j partStart).map
            (number, ·))).length,
          store (advance buf i) m
            (encode current ((splitParts array length splitChar fuel j partStart).map
              (number, ·)))) := by
  induction fuel with
  | zero =>
    intro j partStart current i m
    simp [splitLoop, splitParts, encode]
  | succ fuel ih =>
    intro j partStart current i m
    unfold splitLoop splitParts
    by_cases h1 : j ≤ length + 1
    · rw [if_pos h1, if_pos h1]
      by_cases h2 : array j = splitChar ∨ j = length
      · rw [if_pos h2, if_pos h2]
        simp only [coapSetOptionHeader_emits (number - current) (j - partStart) _ _, ih,
          List.map_cons, encode, length_read]
        refine Prod.ext ?_ ?_
        · simp only [List.length_append, length_read]
          omega
        · simp only [store_append, advance_advance, List.length_append, length_read]
          rw [Nat.add_assoc]
      · rw [if_neg h2, if_neg h2, ih]
    · rw [if_neg h1, if_neg h1]
      simp [encode]

/-- a loop started inside the array finds at least one part -/
theorem splitParts_ne_nil (array : Nat → UInt8) (length : Nat) (splitChar : UInt8) (fuel : Nat) :
    ∀ j partStart, j ≤ length → length < j + fuel →
      splitParts array length splitChar fuel j partStart ≠ [] := by
  induction fuel with
  | zero =>
    intro j partStart h1 h2
    omega
  | succ fuel ih =>
    intro j partStart h1 h2
    unfold splitParts
    rw [if_pos (by omega)]
    by_cases h : array j = splitChar ∨ j = length
    · rw [if_pos h]
      exact List.cons_ne_nil _ _
    · rw [if_neg h]
      exact ih (j + 1) partStart (by omega) (by omega)

/-- the option values of a string -/
def stringParts (field : List UInt8) (splitter : UInt8) : List (List UInt8) :=
  if splitter ≠ 0 then splitParts (cString field) field.length splitter (field.length + 2) 0 0
  else [field]

theorem stringParts_ne_nil (field : List UInt8) (splitter : UInt8) :
    stringParts field splitter ≠ [] := by
  unfold stringParts
  split_ifs
  · exact splitParts_ne_nil _ _ _ _ _ _ (by omega) (by omega)
  · exact List.cons_ne_nil _ _

theorem read_cString (field : List UInt8) (a n : Nat) (h : a + n ≤ field.length) :
    read (cString field) a n = (field.drop a).take n := by
  apply List.ext_getElem?
  intro i
  rw [List.getElem?_take, List.getElem?_drop]
  by_cases hi : i < n
  · rw [if_pos hi, getElem?_read _ _ _ _ hi, cString, List.getD_eq_getElem?_getD,
      List.getElem?_eq_getElem (show a + i < field.length by omega)]
    rfl
  · rw [if_neg hi, List.getElem?_eq_none (by rw [length_read]; omega)]

theorem coapSerializeArrayOption_emits (number current : Nat) (field : List UInt8)
    (splitter : UInt8) :
    Emits (coapSerializeArrayOption number current (cString field) field.length splitter)
      (encode current ((stringParts field splitter).map (number, ·))) := by
  intro buf m
  unfold coapSerializeArrayOption stringParts
  by_cases h : splitter ≠ 0
  · rw [if_pos h, if_pos h, splitLoop_eq, advance_zero, Nat.zero_add]
  · rw [if_neg h, if_neg h, coapSetOptionHeader_emits (number - current) field.length]
    have he : encode current ([field].map (number, ·))
        = header (number - current) field.length ++ field := by
      simp [encode]
    rw [he, List.length_append, store_append, read_cString field 0 field.length (by omega)]
    simp

/-! ## the option area -/

/-- the options of one number, if it is present -/
def segment (set : Bool) (number : Nat) (vs : List (List UInt8)) : List (Nat × List UInt8) :=
  if set then vs.map (number, ·) else []

theorem lastNumber_map (c number : Nat) (vs : List (List UInt8)) (hv : vs ≠ []) :
    lastNumber c (vs.map (number, ·)) = number := by
  induction vs generalizing c with
  | nil => exact absurd rfl hv
  | cons v vs ih =>
    by_cases h : vs = []
    · rw [h]
      rfl
    · exact ih number h

/-- `s` is the state of `coap_serialize_options` behind the options `os` -/
structure Serialized (optionArray : Option Nat) (m : Nat → UInt8) (os : List (Nat × List UInt8))
    (s : OptState) : Prop where
  current : s.currentNumber = lastNumber 0 os
  length : s.optionLength = (encode 0 os).length
  mem : s.mem = store optionArray m (encode 0 os)

variable {arr : Option Nat} {m : Nat → UInt8} {os : List (Nat × List UInt8)} {s : OptState}

theorem Serialized.emitted (h : Serialized arr m os s) :
    (s.optionLength, s.mem) = ((encode 0 os).length, store arr m (encode 0 os)) :=
  Prod.ext h.length h.mem

theorem Serialized.start (arr : Option Nat) (m : Nat → UInt8) : Serialized arr m [] ⟨0, 0, m⟩ :=
  ⟨rfl, rfl, (store_nil arr m).symm⟩

theorem Serialized.step (h : Serialized arr m os s) (set : Bool) (number : Nat)
    {vs : List (List UInt8)} {w : Nat → Writer UInt8} (hv : vs ≠ [])
    (hw : ∀ c, Emits (w c) (encode c (vs.map (number, ·)))) :
    Serialized arr m (os ++ segment set number vs) (serializeOption arr set number w s) := by
  cases set with
  | false =>
    show Serialized arr m (os ++ []) s
    rw [List.append_nil]
    exact h
  | true =>
    show Serialized arr m (os ++ vs.map (number, ·)) _
    unfold serializeOption
    rw [if_pos rfl, hw s.currentNumber]
    refine ⟨?_, ?_, ?_⟩
    · rw [lastNumber_append, lastNumber_map _ _ _ hv]
    · rw [encode_append, List.length_append, ← h.current, ← h.length]
    · rw [encode_append, store_append, ← h.current, ← h.length, ← h.mem]

theorem Serialized.int (h : Serialized arr m os s) (p : Message) (number : Nat) (value : UInt32) :
    Serialized arr m (os ++ segment (isOption p number) number [intBytes value])
      (serializeIntOption p arr number value s) :=
  h.step _ _ (List.cons_ne_nil _ _) fun c => coapSerializeIntOption_emits number c value

theorem Serialized.string (h : Serialized arr m os s) (p : Message) (number : Nat)
    (field : List UInt8) (splitter : UInt8) :
    Serialized arr m (os ++ segment (isOption p number) number (stringParts field splitter))
      (serializeStringOption p arr number field splitter s) :=
  h.step _ _ (stringParts_ne_nil field splitter) fun c =>
    coapSerializeArrayOption_emits number c field splitter

/-- the options of a signal message -/
def signalOptions (p : Message) : List (Nat × List UInt8) :=
  if p.code = csm701 then
    segment (isOption p coapSignalOptionMaxMsgSize) coapSignalOptionMaxMsgSize
        [intBytes p.maxMsgSize] ++
      if p.blockwiseTransfer ≠ 0 then
        segment (isOption p coapSignalOptionBlockwiseTransfer) coapSignalOptionBlockwiseTransfer
          [intBytes 0]
      else []
  else if p.code = ping702 ∨ p.code = pong703 then
    if p.custody ≠ 0 then
      segment (isOption p coapSignalOptionCustody) coapSignalOptionCustody [intBytes 0]
    else []
  else if p.code = release704 then
    segment (isOption p coapSignalOptionAltAddr) coapSignalOptionAltAddr (stringParts p.altAddr 0)
      ++ segment (isOption p coapSignalOptionHoldOff) coapSignalOptionHoldOff [intBytes p.holdOff]
  else if p.code = abort705 then
    segment (isOption p coapSignalOptionBadCsm) coapSignalOptionBadCsm
      [intBytes p.badCsmOpt.toUInt32]
  else []

/-- the options of any other message -/
def ordinaryOptions (p : Message) : List (Nat × List UInt8) :=
  segment (isOption p coapOptionEtag) coapOptionEtag (stringParts p.etag 0)
    ++ segment (isOption p coapOptionObserve) coapOptionObserve [intBytes p.observe]
    ++ segment (isOption p coapOptionUriPort) coapOptionUriPort [intBytes p.uriPort.toUInt32]
    ++ segment (isOption p coapOptionUriPath) coapOptionUriPath (stringParts p.uriPath slash)
    ++ segment (isOption p coapOptionContentFormat) coapOptionContentFormat
        [intBytes p.contentFormat.toUInt32]
    ++ segment (isOption p coapOptionUriQuery) coapOptionUriQuery (stringParts p.uriQuery ampersand)
    ++ segment (isOption p coapOptionAccept) coapOptionAccept [intBytes p.accept.toUInt32]
    ++ segment (isOption p coapOptionBlock2) coapOptionBlock2 [intBytes (blockValue p.block2)]
    ++ segment (isOption p coapOptionBlock1) coapOptionBlock1 [intBytes (blockValue p.block1)]
    ++ segment (isOption p coapOptionSize2) coapOptionSize2 [intBytes p.size2]
    ++ segment (isOption p coapOptionSize1) coapOptionSize1 [intBytes p.size1]
    ++ segment (isOption p coapOptionAccept) ocfOptionAcceptContentFormatVer
        [intBytes (versionValue p.accept)]
    ++ segment (isOption p coapOptionContentFormat) ocfOptionContentFormatVer
        [intBytes (versionValue p.contentFormat)]

def packetOptions (p : Message) : List (Nat × List UInt8) :=
  if coapCheckSignalMessage p then signalOptions p else ordinaryOptions p

theorem Serialized.emits {w : Writer UInt8} {os : List (Nat × List UInt8)} {f : Option Nat →
    (Nat → UInt8) → OptState} (hw : ∀ arr m, w arr m = ((f arr m).optionLength, (f arr m).mem))
    (h : ∀ arr m, Serialized arr m os (f arr m)) : Emits w (encode 0 os) := by
  intro arr m
  rw [hw, (h arr m).length, (h arr m).mem]

theorem coapSerializeSignalOptions_emits (p : Message) :
    Emits (coapSerializeSignalOptions p) (encode 0 (signalOptions p)) := by
  refine Serialized.emits (fun arr m => rfl) fun arr m => ?_
  unfold signalOptions
  have e1 (x : UInt8) : (x - x).toUInt32 = 0 := by
    rw [UInt8.sub_self]
    rfl
  split_ifs with h1 h2 h3 h4 h5 h6
  · rw [e1]
    exact ((Serialized.start arr m).int p _ _).int p _ _
  · rw [List.append_nil]
    exact (Serialized.start arr m).int p _ _
  · rw [e1]
    exact (Serialized.start arr m).int p _ _
  · exact Serialized.start arr m
  · exact ((Serialized.start arr m).string p _ _ _).int p _ _
  · exact (Serialized.start arr m).int p _ _
  · exact Serialized.start arr m

/-- **`coap_serialize_options` emits the delta code of the packet's options.** -/
theorem coapSerializeOptions_emits (p : Message) :
    Emits (coapSerializeOptions p) (encode 0 (packetOptions p)) := by
  intro arr m
  unfold coapSerializeOptions packetOptions
  by_cases h : coapCheckSignalMessage p
  · rw [if_pos h, if_pos h]
    exact coapSerializeSignalOptions_emits p arr m
  · rw [if_neg h, if_neg h]
    have hs := (((((((((((Serialized.start arr m).string p coapOptionEtag p.etag 0).int
      p coapOptionObserve p.observe).int p coapOptionUriPort p.uriPort.toUInt32).string
      p coapOptionUriPath p.uriPath slash).int
      p coapOptionContentFormat p.contentFormat.toUInt32).string
      p coapOptionUriQuery p.uriQuery ampersand).int p coapOptionAccept p.accept.toUInt32).int
      p coapOptionBlock2 (blockValue p.block2)).int p coapOptionBlock1 (blockValue p.block1)).int
      p coapOptionSize2 p.size2).int p coapOptionSize1 p.size1
    have hv := (hs.step (isOption p coapOptionAccept) ocfOptionAcceptContentFormatVer
        (List.cons_ne_nil _ [])
        fun c => coapSerializeIntOption_emits _ c (versionValue p.accept)).step
      (isOption p coapOptionContentFormat) ocfOptionContentFormatVer (List.cons_ne_nil _ [])
      fun c => coapSerializeIntOption_emits _ c (versionValue p.contentFormat)
    exact hv.emitted

/-! ## messages -/

/-- token, options and payload of a message -/
def bodyBytes (p : Message) : List UInt8 :=
  p.token ++ (encode 0 (packetOptions p) ++
    if 0 < p.payload.length then 0xFF :: p.payload else [])

theorem serializeBody_eq (p : Message) (loc : Nat) (m : Nat → UInt8) (hc : p.code ≠ 0)
    (hn : (serializeBody p loc m).1 ≠ 0) :
    serializeBody p loc m = (loc + (bodyBytes p).length, write m loc (bodyBytes p)) := by
  unfold serializeBody at hn ⊢
  rw [if_neg hc] at hn ⊢
  simp only [coapSerializeOptions_emits p _ _, store_some] at hn ⊢
  by_cases h1 : loc + p.token.length + (encode 0 (packetOptions p)).length ≤ coapMaxHeaderSize
  · rw [if_pos h1]
    by_cases h2 : 0 < p.payload.length
    · rw [if_pos h2]
      refine Prod.ext ?_ ?_
      · simp only [bodyBytes, if_pos h2, List.length_append, List.length_cons]
        omega
      · simp only [bodyBytes, if_pos h2]
        rw [← List.singleton_append (l := p.payload), write_append, write_append, write_append,
          List.length_singleton]
    · rw [if_neg h2]
      refine Prod.ext ?_ ?_
      · simp only [bodyBytes, if_neg h2, List.length_append, List.length_nil]
        omega
      · simp only [bodyBytes, if_neg h2, List.append_nil, write_append]
  · rw [if_neg h1] at hn
    exact absurd rfl hn

/-- the four bytes of a UDP header -/
def udpHeader (p : Message) : List UInt8 :=
  [((0xC0 : UInt8) &&& p.version <<< 6) ||| ((0x30 : UInt8) &&& UInt8.ofNat p.type.toBits <<< 4) |||
      ((0x0F : UInt8) &&& UInt8.ofNat p.token.length),
    p.code, (p.mid >>> 8).toUInt8, p.mid.toUInt8]

/-- the length fields of a TCP message -/
def tcpLength (p : Message) : TcpLength :=
  coapTcpComputeMessageLength p (encode 0 (packetOptions p)).length

/-- length nibble and token length, extended length, code -/
def tcpHeader (p : Message) : List UInt8 :=
  (((0xF0 : UInt8) &&& UInt8.ofNat (tcpLength p).len <<< 4) |||
      ((0x0F : UInt8) &&& UInt8.ofNat p.token.length))
    :: (((List.range (tcpLength p).numExtendedLengthBytes).map fun i =>
      UInt8.ofNat ((tcpLength p).extendedLen
        >>> (8 * ((tcpLength p).numExtendedLengthBytes - (i + 1))))) ++ [p.code])

theorem length_tcpHeader (p : Message) :
    (tcpHeader p).length = coapTcpDefaultHeaderLen + (tcpLength p).numExtendedLengthBytes := by
  simp only [tcpHeader, List.length_cons, List.length_append, List.length_map, List.length_range,
    coapTcpDefaultHeaderLen, List.length_nil]
  omega

/-- header and body of a message -/
def messageBytes (p : Message) : List UInt8 :=
  match p.transportType with
  | .tcp => tcpHeader p ++ bodyBytes p
  | .udp => udpHeader p ++ bodyBytes p

/-- **A serialized message**: a length `n > 0` is the length of header and body, and these are the
bytes written; the header area kept the limit. -/
theorem serializeInitialized_eq (p : Message) (m : Nat → UInt8) (hc : p.code ≠ 0)
    (hn : (serializeInitialized p m).1 ≠ 0) :
    serializeInitialized p m = ((messageBytes p).length, write m 0 (messageBytes p))
      ∧ (encode 0 (packetOptions p)).length + p.token.length ≤ coapMaxHeaderSize := by
  have hdry : (coapSerializeOptions p none m).1 = (encode 0 (packetOptions p)).length := by
    rw [coapSerializeOptions_emits]
  unfold messageBytes
  unfold serializeInitialized at hn ⊢
  rw [hdry] at hn ⊢
  cases ht : p.transportType with
  | udp =>
    simp only [ht] at hn ⊢
    by_cases h : coapMaxHeaderSize < (encode 0 (packetOptions p)).length +
        (if 0 < p.payload.length then coapPayloadMarkerLen else 0) + p.token.length + coapHeaderLen
    · rw [if_pos h] at hn
      exact absurd rfl hn
    · rw [if_neg h] at hn ⊢
      rw [serializeBody_eq p _ _ hc hn, List.length_append, write_append]
      exact ⟨rfl, by omega⟩
  | tcp =>
    simp only [ht] at hn ⊢
    by_cases h : coapMaxHeaderSize < (encode 0 (packetOptions p)).length +
        (if 0 < p.payload.length then coapPayloadMarkerLen else 0) + p.token.length +
          (coapTcpDefaultHeaderLen + (tcpLength p).numExtendedLengthBytes)
    · exact absurd (by rw [tcpLength] at h; rw [if_pos h]) hn
    · rw [tcpLength] at h
      rw [if_neg h] at hn ⊢
      rw [serializeBody_eq p _ _ hc hn, List.length_append, write_append, length_tcpHeader,
        Nat.zero_add]
      exact ⟨rfl, by omega⟩

theorem serializeBody_pos (p : Message) (loc : Nat) (m : Nat → UInt8) (hloc : 0 < loc)
    (h : loc + p.token.length + (encode 0 (packetOptions p)).length ≤ coapMaxHeaderSize) :
    0 < (serializeBody p loc m).1 := by
  unfold serializeBody
  split
  · exact hloc
  · simp only [coapSerializeOptions_emits p _ _, store_some]
    rw [if_pos h]
    split
    · show 0 < loc + p.token.length + (encode 0 (packetOptions p)).length + 1 + p.payload.length
      omega
    · show 0 < loc + p.token.length + (encode 0 (packetOptions p)).length
      omega

theorem serializeInitialized_pos (p : Message) (m : Nat → UInt8)
    (h : (encode 0 (packetOptions p)).length + p.token.length + 7 ≤ coapMaxHeaderSize) :
    0 < (serializeInitialized p m).1 := by
  have hdry : (coapSerializeOptions p none m).1 = (encode 0 (packetOptions p)).length := by
    rw [coapSerializeOptions_emits]
  have hmark : (if 0 < p.payload.length then coapPayloadMarkerLen else 0) ≤ 1 := by
    split <;> decide
  unfold serializeInitialized
  rw [hdry]
  dsimp only
  split
  · have hext : (coapTcpComputeMessageLength p
        (encode 0 (packetOptions p)).length).numExtendedLengthBytes ≤ 4 := by
      unfold coapTcpComputeMessageLength
      dsimp only
      split_ifs <;> simp
    rw [if_neg (by simp only [coapTcpDefaultHeaderLen]; omega)]
    exact serializeBody_pos p _ _ (Nat.add_pos_left (by decide) _)
      (by simp only [coapTcpDefaultHeaderLen]; omega)
  · rw [if_neg (by simp only [coapHeaderLen]; omega)]
    exact serializeBody_pos p _ _ (by decide) (by simp only [coapHeaderLen]; omega)

/-- a message whose header keeps the limit is not empty -/
theorem serializedBytes_pos (p : Message)
    (h : (encode 0 (packetOptions p)).length + p.token.length + 7 ≤ coapMaxHeaderSize) :
    0 < (serializedBytes p).length := by
  unfold serializedBytes
  rw [length_read]
  exact serializeInitialized_pos { p with version := 1 } _ h

/-! ## messages that are short enough -/

theorem sum_segment_int (set : Bool) (number : Nat) (value : UInt32) :
    ((segment set number [intBytes value]).map fun o => 5 + o.2.length).sum ≤ 9 := by
  have h := length_intBytes_le value
  unfold segment
  split
  · show 5 + (intBytes value).length + 0 ≤ 9
    omega
  · exact Nat.zero_le _

theorem sum_segment_nil (set : Bool) (number : Nat) {parts : List (List UInt8)}
    (h : parts = [[]]) : ((segment set number parts).map fun o => 5 + o.2.length).sum ≤ 5 := by
  subst h
  unfold segment
  split
  · exact le_refl 5
  · exact Nat.zero_le _

/-- options that leave room for the rest of the header: no strings but empty ones -/
structure FewOptions (p : Message) : Prop where
  ordinary : coapCheckSignalMessage p = false
  etag : p.etag = []
  uriPath : p.uriPath = []
  unset : ∀ n ∈ [coapOptionObserve, coapOptionUriPort, coapOptionUriQuery, coapOptionAccept],
    isOption p n = false

theorem FewOptions.length_le {p : Message} (h : FewOptions p) :
    (encode 0 (packetOptions p)).length ≤ 64 := by
  refine (length_encode_le 0 _).trans ?_
  have h1 := sum_segment_nil (isOption p coapOptionEtag) coapOptionEtag
    (show stringParts [] 0 = [[]] from rfl)
  have h2 := sum_segment_nil (isOption p coapOptionUriPath) coapOptionUriPath
    (show stringParts [] slash = [[]] from rfl)
  have h3 := sum_segment_int (isOption p coapOptionContentFormat) coapOptionContentFormat
    p.contentFormat.toUInt32
  have h4 := sum_segment_int (isOption p coapOptionBlock2) coapOptionBlock2 (blockValue p.block2)
  have h5 := sum_segment_int (isOption p coapOptionBlock1) coapOptionBlock1 (blockValue p.block1)
  have h6 := sum_segment_int (isOption p coapOptionSize2) coapOptionSize2 p.size2
  have h7 := sum_segment_int (isOption p coapOptionSize1) coapOptionSize1 p.size1
  have h8 := sum_segment_int (isOption p coapOptionContentFormat) ocfOptionContentFormatVer
    (versionValue p.contentFormat)
  have hoff : ∀ number vs, ((segment false number vs).map fun o => 5 + o.2.length).sum = 0 :=
    fun _ _ => rfl
  unfold packetOptions ordinaryOptions
  rw [if_neg (by rw [h.ordinary]; decide), h.unset coapOptionObserve (by simp),
    h.unset coapOptionUriPort (by simp), h.unset coapOptionUriQuery (by simp),
    h.unset coapOptionAccept (by simp), h.etag, h.uriPath]
  simp only [List.map_append, List.sum_append, hoff]
  omega

theorem FewOptions.serialized {p : Message} (h : FewOptions p) (ht : p.token.length ≤ coapTokenLen) :
    0 < (serializedBytes p).length := by
  have h1 := h.length_le
  have h2 : coapTokenLen = 8 := rfl
  have h3 : coapMaxHeaderSize = 111 := rfl
  exact serializedBytes_pos p (by omega)

/-! ## responses and notifications -/

/-- the options of responses and notifications: no strings but an entity tag -/
structure ReplyOptions (p : Message) : Prop where
  ordinary : coapCheckSignalMessage p = false
  etag : p.etag.length ≤ coapEtagLen
  unset : ∀ n ∈ [coapOptionUriPort, coapOptionUriPath, coapOptionUriQuery, coapOptionAccept,
    coapOptionBlock1, coapOptionSize1], isOption p n = false

theorem sum_segment_single (set : Bool) (number : Nat) (field : List UInt8) :
    ((segment set number (stringParts field 0)).map fun o => 5 + o.2.length).sum
      ≤ 5 + field.length := by
  unfold segment
  split
  · exact Nat.le_refl _
  · exact Nat.zero_le _

theorem ReplyOptions.length_le {p : Message} (h : ReplyOptions p) :
    (encode 0 (packetOptions p)).length ≤ 58 := by
  refine (length_encode_le 0 _).trans ?_
  have h1 := sum_segment_single (isOption p coapOptionEtag) coapOptionEtag p.etag
  have h2 := sum_segment_int (isOption p coapOptionObserve) coapOptionObserve p.observe
  have h3 := sum_segment_int (isOption p coapOptionContentFormat) coapOptionContentFormat
    p.contentFormat.toUInt32
  have h4 := sum_segment_int (isOption p coapOptionBlock2) coapOptionBlock2 (blockValue p.block2)
  have h5 := sum_segment_int (isOption p coapOptionSize2) coapOptionSize2 p.size2
  have h6 := sum_segment_int (isOption p coapOptionContentFormat) ocfOptionContentFormatVer
    (versionValue p.contentFormat)
  have h7 : p.etag.length ≤ 8 := h.etag
  have hoff : ∀ number vs, ((segment false number vs).map fun o => 5 + o.2.length).sum = 0 :=
    fun _ _ => rfl
  unfold packetOptions ordinaryOptions
  rw [if_neg (by rw [h.ordinary]; decide), h.unset coapOptionUriPort (by simp),
    h.unset coapOptionUriPath (by simp), h.unset coapOptionUriQuery (by simp),
    h.unset coapOptionAccept (by simp), h.unset coapOptionBlock1 (by simp),
    h.unset coapOptionSize1 (by simp)]
  simp only [List.map_append, List.sum_append, hoff]
  omega

theorem ReplyOptions.serialized {p : Message} (h : ReplyOptions p)
    (ht : p.token.length ≤ coapTokenLen) : 0 < (serializedBytes p).length := by
  have h1 := h.length_le
  have h2 : coapTokenLen = 8 := rfl
  have h3 : coapMaxHeaderSize = 111 := rfl
  exact serializedBytes_pos p (by omega)

/-- an option that replies have is set -/
theorem ReplyOptions.set {p q : Message} (h : ReplyOptions p) {n : Nat}
    (hn : n ∉ [coapOptionUriPort, coapOptionUriPath, coapOptionUriQuery, coapOptionAccept,
      coapOptionBlock1, coapOptionSize1])
    (ho : q.options = insert n p.options) (hc : q.code = p.code)
    (he : q.etag.length ≤ coapEtagLen) : ReplyOptions q := by
  refine ⟨?_, he, fun k hk => ?_⟩
  · unfold coapCheckSignalMessage
    rw [hc]
    exact h.ordinary
  · have hp : k ∉ p.options := of_decide_eq_false (h.unset k hk)
    refine decide_eq_false ?_
    rw [ho, Finset.mem_insert]
    rintro (rfl | hin)
    · exact hn hk
    · exact hp hin

theorem ReplyOptions.payload {p : Message} (h : ReplyOptions p) (cfg : Config)
    (payload : List UInt8) : ReplyOptions (coapSetPayload cfg p payload) := by
  unfold coapSetPayload
  split <;> exact ⟨h.ordinary, h.etag, h.unset⟩

theorem ReplyOptions.token {p : Message} (h : ReplyOptions p) (token : List UInt8) :
    ReplyOptions (coapSetToken p token) := ⟨h.ordinary, h.etag, h.unset⟩

theorem ReplyOptions.contentFormat {p : Message} (h : ReplyOptions p) (format : UInt32) :
    ReplyOptions (coapSetHeaderContentFormat p format) :=
  h.set (n := coapOptionContentFormat) (by decide) rfl rfl h.etag

theorem ReplyOptions.observe {p : Message} (h : ReplyOptions p) (observe : UInt32) :
    ReplyOptions (coapSetHeaderObserve p observe) :=
  h.set (n := coapOptionObserve) (by decide) rfl rfl h.etag

theorem ReplyOptions.block2 {p : Message} (h : ReplyOptions p) (num : UInt32) (more : UInt8)
    (size : UInt16) : ReplyOptions (coapSetHeaderBlock2 p num more size) := by
  unfold coapSetHeaderBlock2
  split
  · exact h
  · exact h.set (n := coapOptionBlock2) (by decide) rfl rfl h.etag

theorem ReplyOptions.size2 {p : Message} (h : ReplyOptions p) (size : UInt32) :
    ReplyOptions (coapSetHeaderSize2 p size) :=
  h.set (n := coapOptionSize2) (by decide) rfl rfl h.etag

theorem ReplyOptions.entityTag {p : Message} (h : ReplyOptions p) (etag : List UInt8) :
    ReplyOptions (coapSetHeaderEtag p etag) :=
  h.set (n := coapOptionEtag) (by decide) rfl rfl (List.length_take_le _ _)

/-- the code is set to one that is not for signals -/
theorem ReplyOptions.status {p : Message} (h : ReplyOptions p) {code : Nat}
    (hc : UInt8.ofNat code ∉ [csm701, ping702, pong703, release704, abort705]) :
    ReplyOptions (coapSetStatusCode p code) := by
  unfold coapSetStatusCode
  split
  · refine ⟨?_, h.etag, h.unset⟩
    unfold coapCheckSignalMessage
    simpa [and_assoc] using hc
  · exact h

end Coap
