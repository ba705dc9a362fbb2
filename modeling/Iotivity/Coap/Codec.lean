import Iotivity.Coap.RoundTrip

/-!
# The codecs: what is serialized is what is parsed

* `SameMessage p q`       `q` has everything of the built packet `p` that goes over the wire;
* `udp_round_trip`        UDP;
* `tcp_round_trip`        TCP, ordinary messages;
* `tcp_signal_round_trip` TCP, signal messages.

The parser gets any buffer that holds the serialized bytes; over TCP more of the stream may follow.
-/

set_option linter.unusedVariables false

namespace Coap
open Memory DeltaCode

/-- everything but the version, which `coap_serialize_message` sets, and the offsets of the Block
options, which only the parser computes -/
def SameMessage (p q : Message) : Prop :=
  q = { p with
    version := q.version
    block2 := { p.block2 with offset := q.block2.offset }
    block1 := { p.block1 with offset := q.block1.offset } }

theorem received_same (p : Message) (v : UInt8) : SameMessage p (received { p with version := v }) :=
  rfl

/-- the packet as `coap_serialize_message` initialises it -/
def sent (p : Message) : Message := { p with version := 1 }

/-- a serialized packet: length and bytes, in any buffer that holds them -/
theorem serialized_bytes (p : Message) (hc : p.code ≠ 0) (buffer : Nat → UInt8) (n : Nat)
    (hn : n = (coapSerializeMessage p buffer).1) (hpos : 0 < n) (data : Nat → UInt8)
    (hdata : read data 0 n = read (coapSerializeMessage p buffer).2 0 n) :
    n = (messageBytes (sent p)).length ∧ read data 0 n = messageBytes (sent p)
      ∧ (encode 0 (packetOptions p)).length + p.token.length ≤ coapMaxHeaderSize := by
  have hne : (serializeInitialized (sent p) buffer).1 ≠ 0 := by
    show (coapSerializeMessage p buffer).1 ≠ 0
    omega
  obtain ⟨heq, hlen⟩ := serializeInitialized_eq (sent p) buffer hc hne
  have h1 : (coapSerializeMessage p buffer).1 = (messageBytes (sent p)).length :=
    congrArg Prod.fst heq
  have h2 : (coapSerializeMessage p buffer).2 = write buffer 0 (messageBytes (sent p)) :=
    congrArg Prod.snd heq
  rw [h1] at hn
  rw [h2, hn, read_write_self] at hdata
  exact ⟨hn, by rw [hn]; exact hdata, hlen⟩

theorem Built.sent {cfg : Config} {p : Message} (h : Built cfg p) (v : UInt8) :
    Built cfg { p with version := v } :=
  ⟨h.token, h.options, h.etag, h.observe, h.uriPath, h.format, h.uriQuery, h.accept, h.block2,
    h.block1, h.size2, h.size1, h.rest, h.udpPayload⟩

/-! ## UDP -/

theorem udpHead_fields (t : MessageType) (k : Nat) (hk : k ≤ 8) (b : UInt8)
    (hb : b = ((0xC0 : UInt8) &&& (1 : UInt8) <<< 6) |||
      ((0x30 : UInt8) &&& UInt8.ofNat t.toBits <<< 4) ||| ((0x0F : UInt8) &&& UInt8.ofNat k)) :
    udpVersion b = 1 ∧ MessageType.ofBits ((0x30 &&& b) >>> 4).toNat = t ∧ tokenLength b = k := by
  subst hb
  cases t <;> interval_cases k <;> decide

theorem mid_bytes (mid : UInt16) :
    (mid >>> 8).toUInt8.toUInt16 <<< 8 ||| mid.toUInt8.toUInt16 = mid := by
  have h := mid.toNat_lt
  apply UInt16.toNat_inj.mp
  have e1 : ((mid >>> 8).toUInt8.toUInt16 <<< 8).toNat = (mid.toNat / 256) <<< 8 := by
    rw [UInt16.toNat_shiftLeft, UInt8.toNat_toUInt16, UInt16.toNat_toUInt8, UInt16.toNat_shiftRight]
    show (mid.toNat >>> 8 % 2^8) <<< 8 % 2^16 = _
    rw [Nat.shiftRight_eq_div_pow, Nat.shiftLeft_eq, Nat.shiftLeft_eq]
    omega
  have e2 : mid.toUInt8.toUInt16.toNat = mid.toNat % 256 := by
    rw [UInt8.toNat_toUInt16, UInt16.toNat_toUInt8]
  rw [UInt16.toNat_or, e1, e2, ← Nat.shiftLeft_add_eq_or_of_lt (i := 8) (by omega), Nat.shiftLeft_eq]
  omega

/-- the packet the UDP parser starts with, from the header of a serialized packet -/
theorem udpPacket_header (p : Message) (data : Nat → UInt8) (hv : p.version = 1)
    (hk : p.token.length ≤ 8) (h : read data 0 4 = udpHeader p) :
    udpPacket data = { Packet.zero Slice.null .udp with
        version := 1, type := p.type, code := p.code, mid := p.mid }
      ∧ tokenLength (data 0) = p.token.length := by
  have h' : [data 0, data 1, data 2, data 3] = udpHeader p := h
  unfold udpHeader at h'
  simp only [List.cons.injEq, and_true] at h'
  obtain ⟨h0, h1, h2, h3⟩ := h'
  rw [hv] at h0
  obtain ⟨e1, e2, e3⟩ := udpHead_fields p.type p.token.length hk (data 0) h0
  refine ⟨?_, e3⟩
  unfold udpPacket
  rw [e1, e2, h1, h2, h3, mid_bytes]

/-- the UDP parser on a serialized packet -/
theorem udp_parse_messageBytes (cfg : Config) (p : Message) (data : Nat → UInt8)
    (hp : Built cfg p) (ht : p.transportType = .udp) (hv : p.version = 1)
    (hs : coapCheckSignalMessage p = false)
    (hpath : Splittable p.uriPath slash) (hquery : Splittable p.uriQuery ampersand)
    (hlen : (encode 0 (packetOptions p)).length + p.token.length ≤ coapMaxHeaderSize)
    (hdata : read data 0 (messageBytes p).length = messageBytes p) :
    coapUdpParseMessage cfg data (UInt16.ofNat (messageBytes p).length) = .ok (received p) := by
  have hmax : coapMaxHeaderSize = 111 := rfl
  have hbs := cfg.blockSize_le
  have hpay := hp.udpPayload ht
  obtain ⟨henc, hnum⟩ := packetOptions_encodable p (by omega)
  have hmb : messageBytes p = udpHeader p ++ bodyBytes p := by
    unfold messageBytes
    rw [ht]
  rw [hmb] at hdata ⊢
  obtain ⟨hhead, hbody⟩ := read_eq_append hdata
  obtain ⟨htok, hrest⟩ := read_eq_append hbody
  obtain ⟨hpk, htl⟩ := udpPacket_header p data hv hp.token hhead
  -- the whole message fits into the `uint16_t` length
  have hl4 : (udpHeader p).length = 4 := rfl
  have hn : (udpHeader p ++ bodyBytes p).length
      = 4 + p.token.length + (encode 0 (packetOptions p) ++
        if 0 < p.payload.length then 0xFF :: p.payload else []).length := by
    rw [List.length_append, bodyBytes, List.length_append, hl4]
    omega
  have hsmall : (udpHeader p ++ bodyBytes p).length < 2^16 := by
    rw [hn, List.length_append]
    have : (if 0 < p.payload.length then 0xFF :: p.payload else []).length ≤ p.payload.length + 1 := by
      split_ifs
      · exact le_rfl
      · exact Nat.zero_le _
    omega
  have hu16 : (UInt16.ofNat (udpHeader p ++ bodyBytes p).length).toNat
      = (udpHeader p ++ bodyBytes p).length := by
    rw [UInt16.toNat_ofNat', Nat.mod_eq_of_lt hsmall]
  rw [hl4, Nat.zero_add] at htok hrest
  have hdec := decode_body p henc
  unfold coapUdpParseMessage
  have htk := hp.token
  show (if (udpPacket data).version ≠ 1 then _ else _) = _
  rw [hpk, htl, if_neg (by simp), if_neg (by show ¬ 8 < _; omega), hu16]
  show coapParseTokenOption cfg _ p.token.length data _ 4 = _
  have hr : read data (4 + p.token.length)
      ((udpHeader p ++ bodyBytes p).length - (4 + p.token.length))
      = encode 0 (packetOptions p) ++ if 0 < p.payload.length then 0xFF :: p.payload else [] := by
    rw [hn, Nat.add_sub_cancel_left]
    exact hrest
  rw [coapParseTokenOption_eq cfg _ p.token.length data 4 ⟨rfl, rfl, rfl, rfl⟩
    (by rw [hr, hdec]; exact hnum), hr, hdec, htok]
  have hord : packetOptions p = ordinaryOptions p := by
    unfold packetOptions
    rw [if_neg (by rw [hs]; decide)]
  rw [hord, ← listMessage_ordinary hp hs hpath hquery, upTo_zero hp, ht, hv]
  rfl

/-- **UDP round trip.**  Any packet built by the setters, once serialized, is parsed from the
bytes written (in any buffer that holds them) into the same packet. -/
theorem udp_round_trip (cfg : Config) (type : MessageType) (code : UInt8) (mid : UInt16)
    (calls : List Setter) (p : Message)
    (hp : p = build cfg (coapUdpInitMessage type code mid) calls)
    (hcalls : ∀ s ∈ calls, s.Allowed) (hcode : code ≠ 0)
    (hsignal : coapCheckSignalMessage (coapUdpInitMessage type code mid) = false)
    (hpath : Splittable p.uriPath slash) (hquery : Splittable p.uriQuery ampersand)
    (buffer : Nat → UInt8) (n : Nat) (hn : n = (coapSerializeMessage p buffer).1) (hpos : 0 < n)
    (data : Nat → UInt8) (hdata : read data 0 n = read (coapSerializeMessage p buffer).2 0 n) :
    ∃ q, coapUdpParseMessage cfg data (UInt16.ofNat n) = .ok q ∧ SameMessage p q := by
  have hbuilt : Built cfg p := by
    rw [hp]
    exact Built.build calls hcalls _ (built_init cfg .udp type code mid)
  obtain ⟨h1, h2, h3, h4, h5⟩ := build_sameHead cfg calls (coapUdpInitMessage type code mid)
  rw [← hp] at h1 h2 h3 h4 h5
  have hs : coapCheckSignalMessage p = false := by
    rw [← hsignal]
    unfold coapCheckSignalMessage
    rw [h4]
  have hc : p.code ≠ 0 := by
    rw [h4]
    exact hcode
  obtain ⟨hn', hread, hlen⟩ := serialized_bytes p hc buffer n hn hpos data hdata
  refine ⟨received (sent p), ?_, received_same p 1⟩
  rw [hn'] at hread ⊢
  exact udp_parse_messageBytes cfg (sent p) data (hbuilt.sent 1) h1 rfl hs hpath hquery hlen hread

/-- a POST with most of the options and a payload -/
def samplePost : List Setter :=
  [.token [1, 2, 3], .uriPath [0x2F, 0x61, 0x2F, 0x62, 0x63], .contentFormat 60, .accept 10000,
    .uriQuery [0x78, 0x3D, 0x31, 0x26, 0x79], .block1 3 1 64, .size1 300, .observe 0,
    .etag [9, 8, 7], .payload [0xDE, 0xAD]]

theorem udp_round_trip_samplePost :
    ∃ q, coapUdpParseMessage defaultConfig
        (coapSerializeMessage (build defaultConfig (coapUdpInitMessage .con coapPost 0x1234)
          samplePost) fun _ => 0).2
        (UInt16.ofNat (coapSerializeMessage (build defaultConfig
          (coapUdpInitMessage .con coapPost 0x1234) samplePost) fun _ => 0).1) = .ok q
      ∧ SameMessage (build defaultConfig (coapUdpInitMessage .con coapPost 0x1234) samplePost) q :=
  udp_round_trip defaultConfig .con coapPost 0x1234 samplePost _ rfl
    (by
      intro s hs
      simp only [samplePost, List.mem_cons, List.not_mem_nil, or_false] at hs
      rcases hs with rfl | rfl | rfl | rfl | rfl | rfl | rfl | rfl | rfl | rfl <;>
        first
        | exact trivial
        | exact Or.inl rfl
        | exact Or.inr rfl
        | exact ⟨by decide, by decide, 2, by decide, rfl⟩)
    (by decide) (by decide) (by decide) (by decide) _ _ rfl (by decide +kernel) _ rfl

/-! ## TCP -/

theorem tcpHead_fields (a k : Nat) (ha : a < 16) (hk : k ≤ 8) (b : UInt8)
    (hb : b = ((0xF0 : UInt8) &&& UInt8.ofNat a <<< 4) ||| ((0x0F : UInt8) &&& UInt8.ofNat k)) :
    ((0xF0 &&& b) >>> 4).toNat = a ∧ tokenLength b = k := by
  subst hb
  interval_cases a <;> interval_cases k <;> decide

/-- options and payload, the length a TCP message announces -/
def tcpTotal (p : Message) : Nat :=
  (encode 0 (packetOptions p)).length + (if 0 < p.payload.length then 0xFF :: p.payload else []).length

theorem tcpLength_eq (p : Message) : tcpLength p =
    if tcpTotal p < 13 then ⟨0, tcpTotal p, 0⟩
    else if tcpTotal p < 269 then ⟨1, 13, tcpTotal p - 13⟩
    else if tcpTotal p < 65805 then ⟨2, 14, tcpTotal p - 269⟩
    else ⟨4, 15, tcpTotal p - 65805⟩ := by
  have h : (if 0 < p.payload.length then
      (encode 0 (packetOptions p)).length + (coapPayloadMarkerLen + p.payload.length)
      else (encode 0 (packetOptions p)).length) = tcpTotal p := by
    unfold tcpTotal coapPayloadMarkerLen
    split_ifs
    · rw [List.length_cons]
      omega
    · rfl
  unfold tcpLength coapTcpComputeMessageLength
  simp only [h]

/-- two, or four, bytes put together by shifts -/
theorem or_bytes (a b : Nat) (hb : b < 2^8) : a <<< 8 ||| b = a * 256 + b := by
  rw [← Nat.shiftLeft_add_eq_or_of_lt hb, Nat.shiftLeft_eq]

theorem extended_two (e : Nat) (he : e < 2^16) :
    ((0 ||| (UInt8.ofNat (e >>> 8)).toNat <<< 8) ||| (UInt8.ofNat (e >>> 0)).toNat <<< 0) = e := by
  have h0 : (UInt8.ofNat (e >>> 0)).toNat = e % 256 := UInt8.toNat_ofNat'
  have h1 : (UInt8.ofNat (e >>> 8)).toNat = e / 256 := by
    rw [UInt8.toNat_ofNat', Nat.shiftRight_eq_div_pow]
    omega
  rw [h0, h1, Nat.zero_or, Nat.shiftLeft_zero, or_bytes _ _ (by omega)]
  omega

theorem extended_four (e : Nat) (he : e < 2^32) :
    ((((0 ||| (UInt8.ofNat (e >>> 24)).toNat <<< 24) ||| (UInt8.ofNat (e >>> 16)).toNat <<< 16)
      ||| (UInt8.ofNat (e >>> 8)).toNat <<< 8) ||| (UInt8.ofNat (e >>> 0)).toNat <<< 0) = e := by
  have h0 : (UInt8.ofNat (e >>> 0)).toNat = e % 256 := UInt8.toNat_ofNat'
  have h1 : (UInt8.ofNat (e >>> 8)).toNat = e / 2^8 % 256 := by
    rw [UInt8.toNat_ofNat', Nat.shiftRight_eq_div_pow]
  have h2 : (UInt8.ofNat (e >>> 16)).toNat = e / 2^16 % 256 := by
    rw [UInt8.toNat_ofNat', Nat.shiftRight_eq_div_pow]
  have h3 : (UInt8.ofNat (e >>> 24)).toNat = e / 2^24 := by
    rw [UInt8.toNat_ofNat', Nat.shiftRight_eq_div_pow]
    omega
  have s3 : (e / 2^24) <<< 24 = ((e / 2^24) <<< 8) <<< 16 := by
    rw [← Nat.shiftLeft_add]
  have s2 : ∀ x, x <<< 16 = (x <<< 8) <<< 8 := fun x => by rw [← Nat.shiftLeft_add]
  rw [h0, h1, h2, h3, Nat.zero_or, Nat.shiftLeft_zero, s3, ← Nat.shiftLeft_or_distrib,
    or_bytes _ _ (by omega), s2, ← Nat.shiftLeft_or_distrib, or_bytes _ _ (by omega),
    or_bytes _ _ (by omega)]
  omega

/-- the length fields of a serialized message, read back -/
theorem tcpHeader_parse (p : Message) (data : Nat → UInt8) (hk : p.token.length ≤ 8)
    (hT : tcpTotal p < 2^32) (h : read data 0 (tcpHeader p).length = tcpHeader p) :
    coapTcpParseMessageLength data = (tcpTotal p, (tcpLength p).numExtendedLengthBytes)
      ∧ tokenLength (data 0) = p.token.length
      ∧ data (1 + (tcpLength p).numExtendedLengthBytes) = p.code := by
  rw [length_tcpHeader] at h
  unfold tcpHeader at h
  rw [tcpLength_eq] at h ⊢
  unfold coapTcpParseMessageLength
  split_ifs at h ⊢ with h1 h2 h3
  · have h' : [data 0, data 1] = [_, p.code] := h
    simp only [List.cons.injEq, and_true] at h'
    obtain ⟨e0, e1⟩ := h'
    obtain ⟨f1, f2⟩ := tcpHead_fields (tcpTotal p) p.token.length (by omega) hk (data 0) e0
    refine ⟨?_, f2, e1⟩
    simp only [f1]
    rw [if_pos h1]
  · have h' : [data 0, data 1, data 2] = [_, UInt8.ofNat ((tcpTotal p - 13) >>> 0), p.code] := h
    simp only [List.cons.injEq, and_true] at h'
    obtain ⟨e0, e1, e2⟩ := h'
    obtain ⟨f1, f2⟩ := tcpHead_fields 13 p.token.length (by omega) hk (data 0) e0
    refine ⟨?_, f2, e2⟩
    simp only [f1]
    show ((0 ||| (data 1).toNat <<< 0) + 13, 1) = (tcpTotal p, 1)
    have hb : (UInt8.ofNat ((tcpTotal p - 13) >>> 0)).toNat = tcpTotal p - 13 := by
      rw [UInt8.toNat_ofNat', Nat.shiftRight_zero]
      omega
    rw [e1, hb, Nat.shiftLeft_zero, Nat.zero_or, Nat.sub_add_cancel (by omega)]
  · have h' : [data 0, data 1, data 2, data 3] = [_, UInt8.ofNat ((tcpTotal p - 269) >>> 8),
      UInt8.ofNat ((tcpTotal p - 269) >>> 0), p.code] := h
    simp only [List.cons.injEq, and_true] at h'
    obtain ⟨e0, e1, e2, e3⟩ := h'
    obtain ⟨f1, f2⟩ := tcpHead_fields 14 p.token.length (by omega) hk (data 0) e0
    refine ⟨?_, f2, e3⟩
    simp only [f1]
    show (((0 ||| (data 1).toNat <<< 8) ||| (data 2).toNat <<< 0) + 269, 2) = (tcpTotal p, 2)
    rw [e1, e2, extended_two _ (by omega), Nat.sub_add_cancel (by omega)]
  · have h' : [data 0, data 1, data 2, data 3, data 4, data 5] = [_,
      UInt8.ofNat ((tcpTotal p - 65805) >>> 24), UInt8.ofNat ((tcpTotal p - 65805) >>> 16),
      UInt8.ofNat ((tcpTotal p - 65805) >>> 8), UInt8.ofNat ((tcpTotal p - 65805) >>> 0),
      p.code] := h
    simp only [List.cons.injEq, and_true] at h'
    obtain ⟨e0, e1, e2, e3, e4, e5⟩ := h'
    obtain ⟨f1, f2⟩ := tcpHead_fields 15 p.token.length (by omega) hk (data 0) e0
    refine ⟨?_, f2, e5⟩
    simp only [f1]
    show (((((0 ||| (data 1).toNat <<< 24) ||| (data 2).toNat <<< 16) ||| (data 3).toNat <<< 8)
      ||| (data 4).toNat <<< 0) + 65805, 4) = (tcpTotal p, 4)
    rw [e1, e2, e3, e4, extended_four _ (by omega), Nat.sub_add_cancel (by omega)]

/-- the TCP parser on a serialized packet, up to the meaning of the options -/
theorem tcp_parse_messageBytes (cfg : Config) (p : Message) (data : Nat → UInt8)
    (ht : p.transportType = .tcp) (hk : p.token.length ≤ 8) (hpay : p.payload.length < 2^31)
    (hlen : (encode 0 (packetOptions p)).length + p.token.length ≤ coapMaxHeaderSize)
    (hdata : read data 0 (messageBytes p).length = messageBytes p) :
    coapTcpGetPacketSize data = (messageBytes p).length
      ∧ coapTcpParseMessage cfg data (UInt32.ofNat (messageBytes p).length)
        = listMessage cfg { Packet.zero [] .tcp with type := .non, code := p.code, token := p.token }
            (packetOptions p, ending p) := by
  have hmax : coapMaxHeaderSize = 111 := rfl
  obtain ⟨henc, hnum⟩ := packetOptions_encodable p (by omega)
  have hdec := decode_body p henc
  have hmb : messageBytes p = tcpHeader p ++ bodyBytes p := by
    unfold messageBytes
    rw [ht]
  rw [hmb] at hdata ⊢
  obtain ⟨hhead, hbody⟩ := read_eq_append hdata
  obtain ⟨htok, hrest⟩ := read_eq_append hbody
  have htail : (if 0 < p.payload.length then 0xFF :: p.payload else []).length
      ≤ p.payload.length + 1 := by
    split_ifs
    · exact le_rfl
    · exact Nat.zero_le _
  have hT : tcpTotal p < 2^32 := by
    unfold tcpTotal
    omega
  obtain ⟨e1, e2, e3⟩ := tcpHeader_parse p data hk hT hhead
  have hn : (tcpHeader p ++ bodyBytes p).length
      = 2 + (tcpLength p).numExtendedLengthBytes + p.token.length + tcpTotal p := by
    rw [List.length_append, length_tcpHeader, bodyBytes, List.length_append, List.length_append]
    show 2 + _ + (_ + tcpTotal p) = _
    omega
  have hext : (tcpLength p).numExtendedLengthBytes ≤ 4 := by
    rw [tcpLength_eq]
    split_ifs <;> simp
  have hu32 : (UInt32.ofNat (tcpHeader p ++ bodyBytes p).length).toNat
      = (tcpHeader p ++ bodyBytes p).length := by
    rw [UInt32.toNat_ofNat', Nat.mod_eq_of_lt]
    rw [hn]
    unfold tcpTotal
    omega
  constructor
  · unfold coapTcpGetPacketSize
    rw [e1, e2, hn]
    rfl
  · rw [length_tcpHeader, Nat.zero_add] at htok hrest
    have hr : read data (coapTcpDefaultHeaderLen + (tcpLength p).numExtendedLengthBytes
        + p.token.length) ((tcpHeader p ++ bodyBytes p).length
          - (coapTcpDefaultHeaderLen + (tcpLength p).numExtendedLengthBytes + p.token.length))
        = encode 0 (packetOptions p) ++ if 0 < p.payload.length then 0xFF :: p.payload else [] := by
      rw [hn, show coapTcpDefaultHeaderLen = 2 from rfl, Nat.add_sub_cancel_left]
      unfold tcpTotal
      rw [← List.length_append]
      exact hrest
    unfold coapTcpParseMessage
    rw [e1, e2, if_neg (by show ¬ 8 < _; omega), hu32]
    show coapParseTokenOption cfg (tcpPacket data (tcpLength p).numExtendedLengthBytes) _ data _ _ = _
    rw [coapParseTokenOption_eq cfg _ p.token.length data _ ⟨rfl, rfl, rfl, rfl⟩
      (by rw [hr, hdec]; exact hnum), hr, hdec, htok]
    unfold tcpPacket
    rw [e3]
    rfl

/-- the options of an ordinary packet over TCP -/
theorem listMessage_tcp_ordinary (cfg : Config) (code : UInt8) (calls : List Setter)
    (hcalls : ∀ s ∈ calls, s.Allowed)
    (hsignal : coapCheckSignalMessage (coapTcpInitMessage code) = false) (p : Message)
    (hp : p = build cfg (coapTcpInitMessage code) calls)
    (hpath : Splittable p.uriPath slash) (hquery : Splittable p.uriQuery ampersand) :
    listMessage cfg { Packet.zero [] .tcp with type := .non, code := p.code, token := p.token }
      (packetOptions p, ending p) = .ok (received { p with version := 0 }) := by
  have hbuilt : Built cfg p := by
    rw [hp]
    exact Built.build calls hcalls _ (built_init cfg .tcp .non code 0)
  obtain ⟨h1, h2, h3, h4, h5⟩ := build_sameHead cfg calls (coapTcpInitMessage code)
  rw [← hp] at h1 h2 h3 h4 h5
  have hs : coapCheckSignalMessage p = false := by
    rw [← hsignal]
    unfold coapCheckSignalMessage
    rw [h4]
  have hord : packetOptions p = ordinaryOptions { p with version := 0 } := by
    show packetOptions p = ordinaryOptions p
    unfold packetOptions
    rw [if_neg (by rw [hs]; decide)]
  rw [hord, ← listMessage_ordinary (hbuilt.sent 0) hs hpath hquery, upTo_zero (hbuilt.sent 0)]
  show listMessage cfg _ _ = listMessage cfg { Packet.zero [] p.transportType with
    version := 0, type := p.type, code := p.code, mid := p.mid, token := p.token } _
  rw [h1, h3, h5]
  rfl

/-! ## signal messages -/

/-- the signal packet with the options up to number `n`, and no payload -/
def signalUpTo (p : Message) (n : Nat) : Message :=
  { Packet.zero [] .tcp with
    type := .non
    code := p.code
    token := p.token
    options := p.options.filter (· ≤ n)
    maxMsgSize := if 2 ≤ n then p.maxMsgSize else 0
    custody := if 2 ≤ n then p.custody else 0
    altAddr := if 2 ≤ n then p.altAddr else []
    badCsmOpt := if 2 ≤ n then p.badCsmOpt else 0
    blockwiseTransfer := if 4 ≤ n then p.blockwiseTransfer else 0
    holdOff := if 4 ≤ n then p.holdOff else 0 }

section
variable {p : Message}

theorem SignalBuilt.gap (hp : SignalBuilt p) (a b : Nat)
    (h : ∀ x ∈ [2, 4], x ≤ a ∨ b ≤ x) : ∀ x ∈ p.options, x ≤ a ∨ b ≤ x :=
  fun x hx => h x (hp.options x hx)

/-- an option of a signal packet -/
theorem listOptions_signal (q : Message) (n : Nat) (v : List UInt8)
    (hs : coapCheckSignalMessage q = true) :
    listOptions q [(n, v)] = .ok (coapParseSignalOptions (markOption q n) n v v) := by
  have hs' : coapCheckSignalMessage (markOption q n) = true := by
    rw [coapCheckSignalMessage_markOption, hs]
  simp only [listOptions, listOption, listMarkedOption]
  rw [if_pos hs']

/-- everything of number 2 that the packet has -/
theorem signalUpTo_two (p : Message) : signalUpTo p 2 = { signalUpTo p 0 with
    options := p.options.filter (· ≤ 2), maxMsgSize := p.maxMsgSize, custody := p.custody,
    badCsmOpt := p.badCsmOpt, altAddr := p.altAddr } := rfl

theorem signalUpTo_four (p : Message) : signalUpTo p 4 = { signalUpTo p 2 with
    options := p.options.filter (· ≤ 4), blockwiseTransfer := p.blockwiseTransfer,
    holdOff := p.holdOff } := rfl

/-- messages with one option only -/
theorem signalUpTo_only (hp : SignalBuilt p) (h1 : p.code ≠ csm701) (h2 : p.code ≠ release704) :
    signalUpTo p 2 = signalUpTo p 4 := by
  have hfil := filter_le_succ (hp.gap 2 4 (by decide)) (by decide)
  rw [if_neg (hp.noSecond h1 h2)] at hfil
  rw [signalUpTo_four, hfil, hp.blockwiseTransfer.other h1, hp.holdOff.other h2]
  rfl

theorem signal_csm (hp : SignalBuilt p) (hc : p.code = csm701)
    (hs : coapCheckSignalMessage p = true) :
    listOptions (signalUpTo p 0) (signalOptions p) = .ok (signalUpTo p 4) := by
  have hfil := filter_le_succ (hp.gap 0 2 (by decide)) (by decide)
  have hfil' := filter_le_succ (hp.gap 2 4 (by decide)) (by decide)
  have z1 : p.custody = 0 := hp.custody.other (by rw [hc]; decide)
  have z2 : p.badCsmOpt = 0 := hp.badCsm.other (by rw [hc]; decide)
  have z3 : p.altAddr = [] := hp.altAddr.other (by rw [hc]; decide)
  have z4 : p.holdOff = 0 := hp.holdOff.other (by rw [hc]; decide)
  have hmax : listOptions (signalUpTo p 0)
      (segment (isOption p 2) 2 [intBytes p.maxMsgSize]) = .ok (signalUpTo p 2) := by
    rw [signalUpTo_two, z1, z2, z3]
    refine listOptions_segment (fun h => ?_) (fun h => ?_)
    · have hl := listOptions_signal (signalUpTo p 0) 2 (intBytes p.maxMsgSize) hs
      unfold coapParseSignalOptions at hl
      rw [if_pos (show (markOption (signalUpTo p 0) 2).code = csm701 from hc), if_pos rfl,
        coapParseIntOption_intBytes] at hl
      rw [if_pos h] at hfil
      rw [hfil]
      exact hl
    · rw [if_neg h] at hfil
      rw [hfil, (hp.maxMsgSize.mine hc).absent h]
      rfl
  have hbert : listOptions (signalUpTo p 2) (if p.blockwiseTransfer ≠ 0 then
      segment (isOption p 4) 4 [intBytes 0] else []) = .ok (signalUpTo p 4) := by
    rw [signalUpTo_four, z4]
    by_cases h : 4 ∈ p.options
    · have hb := (hp.blockwiseTransfer.mine hc).present h
      have hl := listOptions_signal (signalUpTo p 2) 4 (intBytes 0) hs
      unfold coapParseSignalOptions at hl
      rw [if_pos (show (markOption (signalUpTo p 2) 4).code = csm701 from hc), if_neg (by decide),
        if_pos rfl] at hl
      rw [if_pos h] at hfil'
      rw [hfil', hb, if_pos (by decide)]
      unfold segment isOption
      rw [if_pos (decide_eq_true h)]
      exact hl
    · rw [if_neg h] at hfil'
      rw [hfil', (hp.blockwiseTransfer.mine hc).absent h, if_neg (by decide)]
      rfl
  unfold signalOptions
  rw [if_pos hc, listOptions_append _ _ _ _ hmax]
  exact hbert

theorem signal_ping (hp : SignalBuilt p) (hc : p.code = ping702 ∨ p.code = pong703)
    (hs : coapCheckSignalMessage p = true) :
    listOptions (signalUpTo p 0) (signalOptions p) = .ok (signalUpTo p 4) := by
  have hfil := filter_le_succ (hp.gap 0 2 (by decide)) (by decide)
  have h1 : p.code ≠ csm701 := by rcases hc with hc | hc <;> rw [hc] <;> decide
  have h2 : p.code ≠ release704 := by rcases hc with hc | hc <;> rw [hc] <;> decide
  have z1 : p.maxMsgSize = 0 := hp.maxMsgSize.other h1
  have z2 : p.badCsmOpt = 0 := hp.badCsm.other (by rcases hc with hc | hc <;> rw [hc] <;> decide)
  have z3 : p.altAddr = [] := hp.altAddr.other h2
  rw [← signalUpTo_only hp h1 h2, signalUpTo_two, z1, z2, z3]
  unfold signalOptions
  rw [if_neg h1, if_pos hc]
  by_cases h : 2 ∈ p.options
  · have hcu := (hp.custody.mine hc).present h
    have hl := listOptions_signal (signalUpTo p 0) 2 (intBytes 0) hs
    unfold coapParseSignalOptions at hl
    rw [if_neg (show (markOption (signalUpTo p 0) 2).code ≠ csm701 from h1),
      if_pos (show (markOption (signalUpTo p 0) 2).code = ping702
        ∨ (markOption (signalUpTo p 0) 2).code = pong703 from hc), if_pos rfl] at hl
    rw [if_pos h] at hfil
    rw [hfil, hcu, if_pos (by decide)]
    unfold segment isOption
    rw [if_pos (decide_eq_true h)]
    exact hl
  · rw [if_neg h] at hfil
    rw [hfil, (hp.custody.mine hc).absent h, if_neg (by decide)]
    rfl

theorem signal_release (hp : SignalBuilt p) (hc : p.code = release704)
    (hs : coapCheckSignalMessage p = true) :
    listOptions (signalUpTo p 0) (signalOptions p) = .ok (signalUpTo p 4) := by
  have hfil := filter_le_succ (hp.gap 0 2 (by decide)) (by decide)
  have hfil' := filter_le_succ (hp.gap 2 4 (by decide)) (by decide)
  have h1 : p.code ≠ csm701 := by rw [hc]; decide
  have h2 : ¬ (p.code = ping702 ∨ p.code = pong703) := by rw [hc]; decide
  have z1 : p.maxMsgSize = 0 := hp.maxMsgSize.other h1
  have z2 : p.custody = 0 := hp.custody.other h2
  have z3 : p.badCsmOpt = 0 := hp.badCsm.other (by rw [hc]; decide)
  have z4 : p.blockwiseTransfer = 0 := hp.blockwiseTransfer.other h1
  have haddr : listOptions (signalUpTo p 0)
      (segment (isOption p 2) 2 (stringParts p.altAddr 0)) = .ok (signalUpTo p 2) := by
    rw [signalUpTo_two, z1, z2, z3]
    refine listOptions_segment (fun h => ?_) (fun h => ?_)
    · have hl := listOptions_signal (signalUpTo p 0) 2 p.altAddr hs
      unfold coapParseSignalOptions at hl
      rw [if_neg (show (markOption (signalUpTo p 0) 2).code ≠ csm701 from h1),
        if_neg (show ¬ ((markOption (signalUpTo p 0) 2).code = ping702
          ∨ (markOption (signalUpTo p 0) 2).code = pong703) from h2),
        if_pos (show (markOption (signalUpTo p 0) 2).code = release704 from hc), if_pos rfl] at hl
      rw [if_pos h] at hfil
      rw [hfil]
      exact hl
    · rw [if_neg h] at hfil
      rw [hfil, (hp.altAddr.mine hc).absent h]
      rfl
  have hhold : listOptions (signalUpTo p 2)
      (segment (isOption p 4) 4 [intBytes p.holdOff]) = .ok (signalUpTo p 4) := by
    rw [signalUpTo_four, z4]
    refine listOptions_segment (fun h => ?_) (fun h => ?_)
    · have hl := listOptions_signal (signalUpTo p 2) 4 (intBytes p.holdOff) hs
      unfold coapParseSignalOptions at hl
      rw [if_neg (show (markOption (signalUpTo p 2) 4).code ≠ csm701 from h1),
        if_neg (show ¬ ((markOption (signalUpTo p 2) 4).code = ping702
          ∨ (markOption (signalUpTo p 2) 4).code = pong703) from h2),
        if_pos (show (markOption (signalUpTo p 2) 4).code = release704 from hc),
        if_neg (by decide), if_pos rfl, coapParseIntOption_intBytes] at hl
      rw [if_pos h] at hfil'
      rw [hfil']
      exact hl
    · rw [if_neg h] at hfil'
      rw [hfil', (hp.holdOff.mine hc).absent h]
      rfl
  unfold signalOptions
  rw [if_neg h1, if_neg h2, if_pos hc, listOptions_append _ _ _ _ haddr]
  exact hhold

theorem signal_abort (hp : SignalBuilt p) (hc : p.code = abort705)
    (hs : coapCheckSignalMessage p = true) :
    listOptions (signalUpTo p 0) (signalOptions p) = .ok (signalUpTo p 4) := by
  have hfil := filter_le_succ (hp.gap 0 2 (by decide)) (by decide)
  have h1 : p.code ≠ csm701 := by rw [hc]; decide
  have h2 : ¬ (p.code = ping702 ∨ p.code = pong703) := by rw [hc]; decide
  have h3 : p.code ≠ release704 := by rw [hc]; decide
  have z1 : p.maxMsgSize = 0 := hp.maxMsgSize.other h1
  have z2 : p.custody = 0 := hp.custody.other h2
  have z3 : p.altAddr = [] := hp.altAddr.other h3
  rw [← signalUpTo_only hp h1 h3, signalUpTo_two, z1, z2, z3]
  unfold signalOptions
  rw [if_neg h1, if_neg h2, if_neg h3, if_pos hc]
  refine listOptions_segment (fun h => ?_) (fun h => ?_)
  · have hl := listOptions_signal (signalUpTo p 0) 2 (intBytes p.badCsmOpt.toUInt32) hs
    unfold coapParseSignalOptions at hl
    rw [if_neg (show (markOption (signalUpTo p 0) 2).code ≠ csm701 from h1),
      if_neg (show ¬ ((markOption (signalUpTo p 0) 2).code = ping702
        ∨ (markOption (signalUpTo p 0) 2).code = pong703) from h2),
      if_neg (show (markOption (signalUpTo p 0) 2).code ≠ release704 from h3),
      if_pos (show (markOption (signalUpTo p 0) 2).code = abort705 from hc), if_pos rfl,
      parse_format] at hl
    rw [if_pos h] at hfil
    rw [hfil]
    exact hl
  · rw [if_neg h] at hfil
    rw [hfil, (hp.badCsm.mine hc).absent h]
    rfl

/-- **The options of a signal packet rebuild it.** -/
theorem listOptions_signalOptions (hp : SignalBuilt p) (hs : coapCheckSignalMessage p = true) :
    listOptions (signalUpTo p 0) (signalOptions p) = .ok (signalUpTo p 4) := by
  have hcode : p.code = csm701 ∨ (p.code = ping702 ∨ p.code = pong703) ∨ p.code = release704
      ∨ p.code = abort705 := by
    unfold coapCheckSignalMessage at hs
    simp only [Bool.or_eq_true, beq_iff_eq] at hs
    tauto
  rcases hcode with hc | hc | hc | hc
  · exact signal_csm hp hc hs
  · exact signal_ping hp hc hs
  · exact signal_release hp hc hs
  · exact signal_abort hp hc hs

theorem listMessage_tcp_signal (cfg : Config) (code : UInt8) (calls : List SignalSetter)
    (hsignal : coapCheckSignalMessage (coapTcpInitMessage code) = true)
    (hp : p = buildSignal cfg (coapTcpInitMessage code) calls) :
    listMessage cfg { Packet.zero [] .tcp with type := .non, code := p.code, token := p.token }
      (packetOptions p, ending p) = .ok (received { p with version := 0 }) := by
  have hbuilt : SignalBuilt p := by
    rw [hp]
    exact SignalBuilt.build calls _ (signalBuilt_init code)
  obtain ⟨h1, h2, h3, h4, h5⟩ := buildSignal_sameHead cfg calls (coapTcpInitMessage code)
  rw [← hp] at h1 h2 h3 h4 h5
  have hs : coapCheckSignalMessage p = true := by
    rw [← hsignal]
    unfold coapCheckSignalMessage
    rw [h4]
  have hopt : packetOptions p = signalOptions p := by
    unfold packetOptions
    rw [if_pos hs]
  have hzero : p.options.filter (· ≤ 0) = ∅ := by
    rw [Finset.filter_eq_empty_iff]
    intro x hx h0
    have h : ∀ x ∈ [2, 4], 0 < x := by decide
    have := h x (hbuilt.options x hx)
    omega
  have hall : p.options.filter (· ≤ 4) = p.options := by
    rw [Finset.filter_eq_self]
    intro x hx
    have h : ∀ x ∈ [2, 4], x ≤ 4 := by decide
    exact h x (hbuilt.options x hx)
  have hstart : ({ Packet.zero [] .tcp with type := .non, code := p.code, token := p.token }
      : Message) = signalUpTo p 0 := by
    unfold signalUpTo
    rw [hzero]
    rfl
  have hend : { signalUpTo p 4 with payload := p.payload } = received { p with version := 0 } := by
    obtain ⟨r1, r2, r3, r4, r5, r6, r7, r8, r9, r10, r11, r12⟩ := hbuilt.rest
    unfold received signalUpTo
    rw [hall, h1, h3, h5, r1, r2, r3, r4, r5, r6, r7, r8, r9, r10, r11, r12]
    rfl
  unfold listMessage
  rw [hopt, hstart, listOptions_signalOptions hbuilt hs, ← hend]
  unfold ending
  by_cases h : 0 < p.payload.length
  · rw [if_pos h]
    rfl
  · rw [if_neg h]
    have h0 : p.payload = [] := List.length_eq_zero_iff.mp (by omega)
    rw [h0]
    rfl

end

/-- the packets that go over TCP: ordinary ones, and signals with their own options -/
inductive TcpBuilt (cfg : Config) : Message → Prop where
  | ordinary (code : UInt8) (calls : List Setter) (hcode : code ≠ 0)
      (hsignal : coapCheckSignalMessage (coapTcpInitMessage code) = false)
      (hcalls : ∀ s ∈ calls, s.Allowed)
      (hpath : Splittable (build cfg (coapTcpInitMessage code) calls).uriPath slash)
      (hquery : Splittable (build cfg (coapTcpInitMessage code) calls).uriQuery ampersand) :
      TcpBuilt cfg (build cfg (coapTcpInitMessage code) calls)
  | signal (code : UInt8) (calls : List SignalSetter)
      (hsignal : coapCheckSignalMessage (coapTcpInitMessage code) = true) :
      TcpBuilt cfg (buildSignal cfg (coapTcpInitMessage code) calls)

/-- what both kinds have in common -/
theorem TcpBuilt.spec {cfg : Config} {p : Message} (h : TcpBuilt cfg p) :
    p.transportType = .tcp ∧ p.code ≠ 0 ∧ p.token.length ≤ 8
      ∧ listMessage cfg { Packet.zero [] .tcp with type := .non, code := p.code, token := p.token }
        (packetOptions p, ending p) = .ok (received { p with version := 0 }) := by
  cases h with
  | ordinary code calls hcode hsignal hcalls hpath hquery =>
    obtain ⟨h1, h2, h3, h4, h5⟩ := build_sameHead cfg calls (coapTcpInitMessage code)
    refine ⟨h1, by rw [h4]; exact hcode, ?_, ?_⟩
    · exact (Built.build calls hcalls _ (built_init cfg .tcp .non code 0)).token
    · exact listMessage_tcp_ordinary cfg code calls hcalls hsignal _ rfl hpath hquery
  | signal code calls hsignal =>
    obtain ⟨h1, h2, h3, h4, h5⟩ := buildSignal_sameHead cfg calls (coapTcpInitMessage code)
    refine ⟨h1, ?_, ?_, ?_⟩
    · rw [h4]
      show code ≠ 0
      intro h0
      rw [h0] at hsignal
      exact absurd hsignal (by decide)
    · exact (SignalBuilt.build calls _ (signalBuilt_init code)).token
    · exact listMessage_tcp_signal cfg code calls hsignal rfl

/-- **TCP round trip.**  The packet size read from the stream is the length written, whatever
follows in the stream, and those bytes are parsed into the same packet. -/
theorem tcp_round_trip (cfg : Config) (p : Message) (hp : TcpBuilt cfg p)
    (hpayload : p.payload.length < 2^31) (buffer : Nat → UInt8) (n : Nat)
    (hn : n = (coapSerializeMessage p buffer).1) (hpos : 0 < n) (data : Nat → UInt8)
    (hdata : read data 0 n = read (coapSerializeMessage p buffer).2 0 n) :
    coapTcpGetPacketSize data = n
      ∧ ∃ q, coapTcpParseMessage cfg data (UInt32.ofNat n) = .ok q ∧ SameMessage p q := by
  obtain ⟨ht, hc, htok, hlist⟩ := hp.spec
  obtain ⟨hn', hread, hlen⟩ := serialized_bytes p hc buffer n hn hpos data hdata
  rw [hn'] at hread
  obtain ⟨hsize, hparse⟩ := tcp_parse_messageBytes cfg (sent p) data ht htok hpayload hlen hread
  rw [← hn'] at hsize hparse
  exact ⟨hsize, received { p with version := 0 }, hparse.trans hlist, received_same p 0⟩

/-- a CSM with both of its options -/
def sampleCsm : Message :=
  buildSignal defaultConfig (coapTcpInitMessage csm701)
    [.token [7], .maxMsgSize 1152, .blockwiseTransfer]

theorem tcp_round_trip_sampleCsm :
    coapTcpGetPacketSize (coapSerializeMessage sampleCsm fun _ => 0xAA).2
        = (coapSerializeMessage sampleCsm fun _ => 0xAA).1
      ∧ ∃ q, coapTcpParseMessage defaultConfig (coapSerializeMessage sampleCsm fun _ => 0xAA).2
          (UInt32.ofNat (coapSerializeMessage sampleCsm fun _ => 0xAA).1) = .ok q
        ∧ SameMessage sampleCsm q :=
  tcp_round_trip defaultConfig sampleCsm (.signal _ _ (by decide)) (by decide) _ _ rfl
    (by decide +kernel) _ rfl

end Coap
