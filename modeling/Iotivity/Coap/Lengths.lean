import Iotivity.Coap.Emitted

/-!
# Lengths of serialized messages

`coap_serialize_message` runs `coap_serialize_options` twice: a dry run with NULL, whose result goes
into the length fields and is held against `COAP_MAX_HEADER_SIZE`, and the real one.

* `DryRunAgrees`        a dry run counts the bytes that the real run writes, and no others are touched;
* `headerBytes`         header, token, options and payload marker of a message;
* `coapSerializeMessage_lengths`   the header of a message keeps the limit, and header and payload are
                        all of it; a message without a code is its fixed header.
-/

namespace Coap
open Memory DeltaCode

/-! ## dry run and real run -/

/-- the dry run counts what the real run writes -/
structure DryRunAgrees (w : Writer UInt8) : Prop where
  /-- without a buffer nothing is written -/
  dry : ∀ m, (w none m).2 = m
  count : ∀ a m m', (w none m).1 = (w (some a) m').1
  /-- a byte of the area does not depend on what was there -/
  written : ∀ a m m' i, a ≤ i → i < a + (w (some a) m).1 → (w (some a) m).2 i = (w (some a) m').2 i
  beyond : ∀ a m i, i < a ∨ a + (w (some a) m).1 ≤ i → (w (some a) m).2 i = m i

theorem DryRunAgrees.ofEmits {w : Writer UInt8} {l : List UInt8} (h : Emits w l) :
    DryRunAgrees w where
  dry := fun m => by rw [h]; rfl
  count := fun a m m' => by rw [h, h]
  written := by
    intro a m m' i h1 h2
    rw [h, h] at *
    obtain ⟨k, rfl⟩ := Nat.exists_eq_add_of_le h1
    have hk : k < l.length := by
      have h2 : a + k < a + l.length := h2
      omega
    show write m a l (a + k) = write m' a l (a + k)
    rw [write_apply_mem m a l k hk, write_apply_mem m' a l k hk]
  beyond := by
    intro a m i hi
    rw [h] at *
    rcases hi with hi | hi
    · exact write_apply_lt m a l i hi
    · exact write_apply_ge m a l i hi

/-! ## the header of a message -/

/-- the header in front of the token -/
def fixedHeader (p : Message) : List UInt8 :=
  match p.transportType with
  | .tcp => tcpHeader p
  | .udp => udpHeader p

def payloadMarker (p : Message) : List UInt8 := if 0 < p.payload.length then [0xFF] else []

/-- everything in front of the payload -/
def headerBytes (p : Message) : List UInt8 :=
  fixedHeader p ++ (p.token ++ (encode 0 (packetOptions p) ++ payloadMarker p))

/-- `token_location` -/
theorem length_fixedHeader (p : Message) : (fixedHeader p).length =
    match p.transportType with
    | .tcp => coapTcpDefaultHeaderLen + (tcpLength p).numExtendedLengthBytes
    | .udp => coapHeaderLen := by
  unfold fixedHeader
  cases p.transportType with
  | tcp => exact length_tcpHeader p
  | udp => rfl

theorem messageBytes_eq (p : Message) : messageBytes p = headerBytes p ++ p.payload := by
  have hbody : bodyBytes p
      = (p.token ++ (encode 0 (packetOptions p) ++ payloadMarker p)) ++ p.payload := by
    unfold bodyBytes payloadMarker
    by_cases h : 0 < p.payload.length
    · rw [if_pos h, if_pos h]
      simp
    · rw [if_neg h, if_neg h, List.eq_nil_of_length_eq_zero (Nat.eq_zero_of_not_pos h)]
      simp
  unfold messageBytes headerBytes fixedHeader
  rw [hbody]
  cases p.transportType with
  | tcp => exact (List.append_assoc _ _ _).symm
  | udp => exact (List.append_assoc _ _ _).symm

/-- what the dry run is held against -/
theorem length_headerBytes (p : Message) : (headerBytes p).length =
    (coapSerializeOptions p none fun _ => 0).1 +
      (if 0 < p.payload.length then coapPayloadMarkerLen else 0) + p.token.length +
        (fixedHeader p).length := by
  have hmark : (payloadMarker p).length
      = if 0 < p.payload.length then coapPayloadMarkerLen else 0 := by
    unfold payloadMarker
    split <;> rfl
  rw [coapSerializeOptions_emits p none]
  simp only [headerBytes, List.length_append, hmark]
  omega

/-! ## messages -/

/-- the header of a message that has been serialized keeps the limit -/
theorem serializeInitialized_limit (p : Message) (m : Nat → UInt8)
    (hn : (serializeInitialized p m).1 ≠ 0) : (headerBytes p).length ≤ coapMaxHeaderSize := by
  by_contra hlong
  apply hn
  have hdry : (coapSerializeOptions p none m).1 = (coapSerializeOptions p none fun _ => 0).1 := by
    rw [coapSerializeOptions_emits, coapSerializeOptions_emits]
  have hlen := length_headerBytes p
  rw [length_fixedHeader] at hlen
  unfold serializeInitialized
  rw [hdry]
  cases ht : p.transportType with
  | tcp =>
    rw [ht] at hlen
    dsimp only at hlen ⊢
    have hd : (coapSerializeOptions p none fun _ => 0).1 = (encode 0 (packetOptions p)).length := by
      rw [coapSerializeOptions_emits]
    rw [if_pos]
    unfold tcpLength at hlen
    rw [hd] at hlen ⊢
    omega
  | udp =>
    rw [ht] at hlen
    dsimp only at hlen ⊢
    rw [if_pos (by omega)]

/-- a message without a code: the fixed header -/
theorem serializeInitialized_empty (p : Message) (m : Nat → UInt8) (hc : p.code = 0)
    (hn : (serializeInitialized p m).1 ≠ 0) :
    serializeInitialized p m = ((fixedHeader p).length, write m 0 (fixedHeader p)) := by
  have hdry : (coapSerializeOptions p none m).1 = (encode 0 (packetOptions p)).length := by
    rw [coapSerializeOptions_emits]
  have hbody : ∀ loc m', serializeBody p loc m' = (loc, m') := by
    intro loc m'
    unfold serializeBody
    rw [if_pos hc]
  rw [length_fixedHeader]
  unfold fixedHeader
  unfold serializeInitialized at hn ⊢
  rw [hdry] at hn ⊢
  generalize (if 0 < p.payload.length then coapPayloadMarkerLen else 0) = k at hn ⊢
  cases ht : p.transportType with
  | tcp =>
    rw [ht] at hn
    dsimp only at hn ⊢
    rw [hbody] at hn ⊢
    split at hn
    · exact absurd rfl hn
    · rename_i h
      rw [if_neg h]
      rfl
  | udp =>
    rw [ht] at hn
    dsimp only at hn ⊢
    rw [hbody] at hn ⊢
    split at hn
    · exact absurd rfl hn
    · rename_i h
      rw [if_neg h]
      rfl

/-- what a serialized message is: behind the fixed header a packet with a code has token, options, marker
and payload -/
structure Laid (p : Message) (n : Nat) (m : Nat → UInt8) : Prop where
  limit : (headerBytes p).length ≤ coapMaxHeaderSize
  coded : p.code ≠ 0 →
    n = (headerBytes p).length + p.payload.length ∧ read m 0 n = headerBytes p ++ p.payload
  empty : p.code = 0 → n = (fixedHeader p).length ∧ read m 0 n = fixedHeader p

theorem Laid.ofInitialized (p : Message) (m : Nat → UInt8) (hn : (serializeInitialized p m).1 ≠ 0) :
    Laid p (serializeInitialized p m).1 (serializeInitialized p m).2 where
  limit := serializeInitialized_limit p m hn
  coded := by
    intro hc
    rw [(serializeInitialized_eq p m hc hn).1, messageBytes_eq]
    exact ⟨List.length_append, read_write_self m 0 _⟩
  empty := by
    intro hc
    rw [serializeInitialized_empty p m hc hn]
    exact ⟨rfl, read_write_self m 0 _⟩

/-- Dry run and real run agree.  The header of a message with a code ends within the limit, and the length
is that of header and payload; a message without a code is its fixed header. -/
theorem coapSerializeMessage_lengths (p : Message) :
    DryRunAgrees (coapSerializeOptions p) ∧
      ∀ m, 0 < (coapSerializeMessage p m).1 →
        Laid { p with version := 1 } (coapSerializeMessage p m).1 (coapSerializeMessage p m).2 :=
  ⟨.ofEmits (coapSerializeOptions_emits p), fun m hn =>
    .ofInitialized { p with version := 1 } m (Nat.pos_iff_ne_zero.mp hn)⟩

/-- an acknowledgement with a payload and no code -/
def emptyWithPayload : Message :=
  { coapUdpInitMessage .ack 0 7 with payload := [0x61] }

/-- four bytes are all of it: the payload is left out -/
theorem empty_without_payload :
    (coapSerializeMessage emptyWithPayload fun _ => 0).1 = coapHeaderLen ∧
      coapHeaderLen ≠ coapHeaderLen + emptyWithPayload.payload.length := by
  decide

theorem coapSerializeMessage_lengths_empty :
    Laid { emptyWithPayload with version := 1 } (coapSerializeMessage emptyWithPayload fun _ => 0).1
      (coapSerializeMessage emptyWithPayload fun _ => 0).2 :=
  (coapSerializeMessage_lengths emptyWithPayload).2 _ (by decide)

end Coap
