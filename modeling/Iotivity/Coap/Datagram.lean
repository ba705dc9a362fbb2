import Iotivity.Coap.Decoded

/-!
# Does the UDP parser read only the datagram?

`coap_udp_parse_message` looks at the four header bytes and copies the token before it compares
anything with `data_len`; from the first option on it does compare.

* `ReadsOnlyDatagram`         the result does not depend on what lies behind the datagram, and a
  datagram that ends inside its header, token or an option is refused;
* `readsOnlyDatagram_iff`     exactly which datagrams are treated so;
* `readsOnlyDatagram_fails`   a one-byte datagram that is not.
-/

set_option linter.unusedVariables false

namespace Coap
open Memory DeltaCode

/-- the datagram ends inside its header, its token or an option -/
def TooShort (data : Nat → UInt8) (dataLen : Nat) : Prop :=
  dataLen < coapHeaderLen ∨ dataLen < coapHeaderLen + tokenLength (data 0) ∨
    (decode 0 (read data (coapHeaderLen + tokenLength (data 0))
      (dataLen - (coapHeaderLen + tokenLength (data 0))))).2 = .truncated

def ReadsOnlyDatagram (cfg : Config) (data : Nat → UInt8) (dataLen : UInt16) : Prop :=
  (∀ data', read data' 0 dataLen.toNat = read data 0 dataLen.toNat →
      coapUdpParseMessage cfg data' dataLen = coapUdpParseMessage cfg data dataLen)
    ∧ (TooShort data dataLen.toNat → ∃ e, coapUdpParseMessage cfg data dataLen = .error e)

/-- the first byte alone makes the parser refuse -/
def HeadRefused (b : UInt8) : Prop := udpVersion b ≠ 1 ∨ coapTokenLen < tokenLength b

section
variable (cfg : Config) {data : Nat → UInt8} {dataLen : UInt16}

theorem udp_parse_refused (h : HeadRefused (data 0)) :
    coapUdpParseMessage cfg data dataLen = .error .badRequest400 := by
  unfold coapUdpParseMessage
  show (if udpVersion (data 0) ≠ 1 then _ else _) = _
  by_cases hv : udpVersion (data 0) = 1
  · rw [if_neg (not_not.mpr hv), if_pos (h.resolve_left (not_not.mpr hv))]
  · rw [if_pos hv]

theorem udp_parse_accepted (h : ¬ HeadRefused (data 0)) :
    coapUdpParseMessage cfg data dataLen
      = coapParseTokenOption cfg (udpPacket data) (tokenLength (data 0)) data dataLen.toNat
        coapHeaderLen := by
  obtain ⟨h1, h2⟩ := not_or.mp h
  unfold coapUdpParseMessage
  show (if udpVersion (data 0) ≠ 1 then _ else _) = _
  rw [if_neg h1, if_neg h2]

/-- an option number cannot wrap in a datagram -/
theorem datagram_numbers (l : List UInt8) (hl : l.length < 2^16) :
    ∀ o ∈ (decode 0 l).1, o.1 < 2^32 := by
  intro o ho
  have := decode_number_le 0 l o ho
  omega

theorem udp_parse_eq (h : ¬ HeadRefused (data 0)) :
    coapUdpParseMessage cfg data dataLen
      = listMessage cfg { (udpPacket data).map (fun _ => []) with
          token := read data coapHeaderLen (tokenLength (data 0)), options := ∅ }
        (decode 0 (read data (coapHeaderLen + tokenLength (data 0))
          (dataLen.toNat - (coapHeaderLen + tokenLength (data 0))))) := by
  have hlt := dataLen.toNat_lt
  rw [udp_parse_accepted cfg h]
  refine coapParseTokenOption_eq cfg _ _ data _ ⟨rfl, rfl, rfl, rfl⟩ (datagram_numbers _ ?_)
  rw [length_read]
  omega

/-- a datagram that ends in front of its first option is accepted -/
theorem udp_parse_no_options (data : Nat → UInt8) (dataLen : UInt16) (h : ¬ HeadRefused (data 0))
    (hlen : dataLen.toNat ≤ coapHeaderLen + tokenLength (data 0)) :
    ∃ q, coapUdpParseMessage cfg data dataLen = .ok q := by
  rw [udp_parse_eq cfg h, Nat.sub_eq_zero_of_le hlen, read_zero, decode_nil]
  exact ⟨_, rfl⟩

theorem listMessage_truncated (p : Message) (d : List (Nat × List UInt8) × Ending)
    (h : d.2 = .truncated) : ∃ e, listMessage cfg p d = .error e := by
  unfold listMessage
  cases listOptions p d.1 with
  | error e => exact ⟨e, rfl⟩
  | ok q =>
    rw [h]
    exact ⟨_, rfl⟩

/-- with header and token inside the datagram, only the datagram counts -/
theorem udp_parse_congr {data' : Nat → UInt8}
    (hlen : coapHeaderLen + tokenLength (data 0) ≤ dataLen.toNat)
    (h : read data' 0 dataLen.toNat = read data 0 dataLen.toNat) :
    coapUdpParseMessage cfg data' dataLen = coapUdpParseMessage cfg data dataLen := by
  have h4 : 4 ≤ dataLen.toNat := le_trans (Nat.le_add_right 4 _) hlen
  have e0 : data' 0 = data 0 := cell_eq_of_read_eq h (by omega) (by omega)
  have e1 : data' 1 = data 1 := cell_eq_of_read_eq h (by omega) (by omega)
  have e2 : data' 2 = data 2 := cell_eq_of_read_eq h (by omega) (by omega)
  have e3 : data' 3 = data 3 := cell_eq_of_read_eq h (by omega) (by omega)
  have hpk : udpPacket data' = udpPacket data := by
    unfold udpPacket
    rw [e0, e1, e2, e3]
  by_cases hr : HeadRefused (data 0)
  · rw [udp_parse_refused cfg hr, udp_parse_refused cfg (e0.symm ▸ hr)]
  · rw [udp_parse_eq cfg hr, udp_parse_eq cfg (e0.symm ▸ hr), e0, hpk,
      read_sub h (Nat.zero_le _) (show coapHeaderLen + tokenLength (data 0) ≤ 0 + _ by omega),
      read_sub h (Nat.zero_le _) (show coapHeaderLen + tokenLength (data 0) +
        (dataLen.toNat - (coapHeaderLen + tokenLength (data 0))) ≤ 0 + _ by omega)]

end

/-- a buffer full of acceptable first bytes: version 1, no token -/
def fullOf40 : Nat → UInt8 := fun _ => 0x40

theorem fullOf40_accepted : ¬ HeadRefused (fullOf40 0) := by
  unfold HeadRefused
  decide

/-- **Which datagrams are read alone**: those whose first byte is there and is refused, and those
that have room for their header and token. -/
theorem readsOnlyDatagram_iff (cfg : Config) (data : Nat → UInt8) (dataLen : UInt16) :
    ReadsOnlyDatagram cfg data dataLen ↔
      1 ≤ dataLen.toNat ∧ (HeadRefused (data 0) ∨
        coapHeaderLen + tokenLength (data 0) ≤ dataLen.toNat) := by
  constructor
  · rintro ⟨h1, h2⟩
    refine ⟨?_, ?_⟩
    · by_contra h0
      have h0 : dataLen.toNat = 0 := by omega
      -- some other buffer holds an acceptable first byte
      obtain ⟨e, he⟩ := h2 (Or.inl (by rw [h0]; decide))
      obtain ⟨q, hq⟩ := udp_parse_no_options cfg fullOf40 dataLen fullOf40_accepted
        (by rw [h0]; exact Nat.zero_le _)
      have := h1 fullOf40 (by rw [h0]; rfl)
      rw [he, hq] at this
      cases this
    · by_contra hc
      obtain ⟨hr, hlen⟩ := not_or.mp hc
      obtain ⟨e, he⟩ := h2 (Or.inr (Or.inl (by omega)))
      obtain ⟨q, hq⟩ := udp_parse_no_options cfg data dataLen hr (by omega)
      rw [he] at hq
      cases hq
  · rintro ⟨h1, h2⟩
    rcases h2 with hr | hlen
    · refine ⟨fun data' h => ?_, fun _ => ⟨_, udp_parse_refused cfg hr⟩⟩
      have e0 : data' 0 = data 0 := cell_eq_of_read_eq h (by omega) (by omega)
      rw [udp_parse_refused cfg hr, udp_parse_refused cfg (e0.symm ▸ hr)]
    · refine ⟨fun data' h => udp_parse_congr cfg hlen h, fun hs => ?_⟩
      by_cases hr : HeadRefused (data 0)
      · exact ⟨_, udp_parse_refused cfg hr⟩
      · rcases hs with hs | hs | hs
        · have : coapHeaderLen ≤ dataLen.toNat := le_trans (Nat.le_add_right _ _) hlen
          omega
        · omega
        · rw [udp_parse_eq cfg hr]
          exact listMessage_truncated cfg _ _ hs

/-- the datagram `40`: code, message id and the missing bytes come from behind it -/
theorem readsOnlyDatagram_fails : ¬ ReadsOnlyDatagram defaultConfig fullOf40 1 := by
  rintro ⟨_, h⟩
  obtain ⟨e, he⟩ := h (Or.inl (by decide))
  obtain ⟨q, hq⟩ := udp_parse_no_options defaultConfig fullOf40 1 fullOf40_accepted (by decide)
  rw [he] at hq
  cases hq

end Coap
