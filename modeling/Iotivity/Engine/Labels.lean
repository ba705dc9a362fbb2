import Iotivity.Engine.Trace

/-!
# Block labels and block contents

A message that carries a part of a buffered representation says which part it is in its Block
option: Block2 in the response of a server, Block1 in the follow-up request of a client.

* `LabelsMatch`       the payload is the part that the option, as the peer decodes it, announces;
* `Labelable`         number and size of the message that is answered stay clear of the places where
                      offset and announced size are computed from different sizes;
* `processRequest_labels`, `receiveResponse_labels`   a server and a client label their blocks as they
                      are, in answer to a message that is `Labelable`.
-/

namespace Coap
open Memory

/-! ## definitions -/

/-- the option value, as the peer decodes it, says which part of `P` the payload is -/
def LabelMatches (o : BlockOption) (payload P : List UInt8) : Prop :=
  let d := parseBlockOption (blockValue o)
  payload = (P.drop (d.num.toNat * d.size.toNat)).take d.size.toNat ∧
    (d.more = 1 ↔ (d.num.toNat + 1) * d.size.toNat < P.length)

/-- a packet of a server: if it has Block2, its payload is the part of its source that the option
announces -/
def ServerLabel (p : Message) (source : Option BlockwiseState) : Prop :=
  coapOptionBlock2 ∈ p.options →
    ∃ b, source = some b ∧ LabelMatches p.block2 p.payload b.payload

/-- the same for Block1 in a packet of a client -/
def ClientLabel (p : Message) (source : Option BlockwiseState) : Prop :=
  coapOptionBlock1 ∈ p.options →
    ∃ b, source = some b ∧ LabelMatches p.block1 p.payload b.payload

def LabelsMatch (es : List Event) : Prop :=
  ∀ e m p source, Event.sending e m p source ∈ es →
    (m.IsRequest → ServerLabel p source) ∧ (¬ m.IsRequest → ClientLabel p source)

/-- the sizes of buffers are `uint32_t` -/
def State.Fits (s : State) : Prop :=
  (∀ b ∈ s.requests, b.payloadSize < 2^32) ∧ (∀ b ∈ s.responses, b.payloadSize < 2^32)

/-- a server: the offset comes from the size of the peer, the announced size is cut to
`OC_BLOCK_SIZE` -/
def ServerLabelable (cfg : Config) (endpoint : Endpoint) (m : Message) : Prop :=
  match coapGetHeaderBlock1 m, coapGetHeaderBlock2 m with
  | none, some b => ocEndpointCompare endpoint endpoint = false ∨ b.num = 0 ∨
      b.size.toNat ≤ cfg.blockSize ∨ 0xFFFFF < b.num.toNat
  | _, _ => True

/-- a client: the same with Block1, and after `4.13` the size comes from Size1 -/
def ClientLabelable (cfg : Config) (m : Message) : Prop :=
  match coapGetHeaderBlock1 m with
  | some b => b.num = 0 ∨ b.size.toNat ≤ cfg.blockSize ∨ 0xFFFFF < b.num.toNat + 1
  | none => m.code = requestEntityTooLarge413 →
      (mtuSize cfg m).toNat < 16 ∨ ∃ e, (mtuSize cfg m).toNat = 2^e

def Labelable (cfg : Config) (endpoint : Endpoint) (m : Message) : Prop :=
  (m.IsRequest → ServerLabelable cfg endpoint m) ∧ (¬ m.IsRequest → ClientLabelable cfg m)

/-! ## labels -/

/-- a Block option as the peer decodes it -/
theorem decoded_label (o : BlockOption) (hn : o.num.toNat < 2^28) (hs : o.size.toNat ≤ 2048) :
    (parseBlockOption (blockValue o)).num.toNat = o.num.toNat ∧
      ((parseBlockOption (blockValue o)).more = 1 ↔ o.more ≠ 0) ∧
      (parseBlockOption (blockValue o)).size.toNat = 16 * 2^szx o.size.toNat := by
  have hv := toNat_blockValue o hn hs
  have hlt := szx_lt o.size.toNat hs
  by_cases hm : o.more = 0
  · rw [if_neg (not_not.mpr hm)] at hv
    obtain ⟨h1, h2, h3, _⟩ := parseBlockOption_eq (blockValue o) o.num.toNat 0 (szx o.size.toNat)
      (by omega) hlt (by omega)
    refine ⟨h1, iff_of_false (fun h => ?_) (not_not.mpr hm), h3⟩
    rw [h] at h2
    exact absurd h2 (by decide)
  · rw [if_pos hm] at hv
    obtain ⟨h1, h2, h3, _⟩ := parseBlockOption_eq (blockValue o) o.num.toNat 1 (szx o.size.toNat)
      (by omega) hlt (by omega)
    exact ⟨h1, iff_of_true (UInt8.toNat_inj.mp h2) hm, h3⟩

/-- a size that a Block option can express is decoded as it is -/
theorem szx_of_pow {n e : Nat} (h : n = 16 * 2^e) : 16 * 2^szx n = n := by
  unfold szx
  rw [h, Nat.mul_div_cancel_left _ (by decide), Nat.log2_two_pow]

/-- any other size is decoded as a smaller one -/
theorem szx_le {n : Nat} (h : 16 ≤ n) : 16 * 2^szx n ≤ n := by
  have h1 := Nat.log2_self_le (n := n / 16) (by omega)
  unfold szx
  omega

/-- a label with a size that can be expressed -/
theorem labelMatches_iff (o : BlockOption) (payload P : List UInt8) (hn : o.num.toNat < 2^28)
    (hs : o.size.toNat ≤ 2048) {e : Nat} (he : o.size.toNat = 16 * 2^e) :
    LabelMatches o payload P ↔
      payload = (P.drop (o.num.toNat * o.size.toNat)).take o.size.toNat ∧
        (o.more ≠ 0 ↔ (o.num.toNat + 1) * o.size.toNat < P.length) := by
  obtain ⟨h1, h2, h3⟩ := decoded_label o hn hs
  unfold LabelMatches
  dsimp only
  rw [h1, h2, h3, szx_of_pow he]

/-! ## dispatch -/

/-- the part of the representation that is handed out; the offset is zero or a block away from it -/
theorem dispatch_slice {b b' : BlockwiseState} {off size : Nat} {payload : List UInt8}
    (hoff : off = 0 ∨ size ≤ off)
    (h : ocBlockwiseDispatchBlock b off size = (some payload, b')) :
    off < b.payloadSize ∧ payload = (b.payload.drop off).take size ∧
      b' = { b with nextBlockOffset := (off + min size (b.payloadSize - off)) % 2^32 } := by
  unfold ocBlockwiseDispatchBlock at h
  split at h
  · rename_i hlt
    obtain ⟨h1, h2⟩ := Prod.mk.inj h
    have h1 := Option.some.inj h1
    have hsize : (if b.payloadSize < size then b.payloadSize else min size (b.payloadSize - off))
        = min size (b.payloadSize - off) := by
      split <;> omega
    rw [hsize] at h1 h2
    refine ⟨hlt, ?_, h2.symm⟩
    unfold BlockwiseState.payload
    rw [← h1, read_drop _ _ _ _ (by omega), Nat.zero_add]
    by_cases hs : size ≤ b.payloadSize - off
    · rw [read_take _ _ _ _ hs, Nat.min_eq_left hs]
    · rw [List.take_of_length_le (by rw [length_read]; omega), Nat.min_eq_right (by omega)]
  · exact absurd (Prod.mk.inj h).1 (by simp)

theorem dispatch_none {b b' : BlockwiseState} {off size : Nat}
    (h : ocBlockwiseDispatchBlock b off size = (none, b')) : b.payloadSize ≤ off ∧ b' = b := by
  unfold ocBlockwiseDispatchBlock at h
  split at h
  · exact absurd (Prod.mk.inj h).1 (by simp)
  · exact ⟨by omega, (Prod.mk.inj h).2.symm⟩

theorem length_payload (b : BlockwiseState) : b.payload.length = b.payloadSize := length_read _ _ _

/-- is there more behind the part that is handed out? -/
theorem next_lt_iff {b : BlockwiseState} {off : Nat} (size : Nat) (hb : b.payloadSize < 2^32)
    (hlt : off < b.payloadSize) :
    (off + min size (b.payloadSize - off)) % 2^32 < b.payloadSize ↔ off + size < b.payload.length := by
  rw [Nat.mod_eq_of_lt (by omega), length_payload]
  omega

/-! ## sizes -/

theorem toNat_min (a b : UInt16) : (min a b).toNat = min a.toNat b.toNat := by
  show (if a ≤ b then a else b).toNat = _
  split
  · rename_i h
    exact (Nat.min_eq_left h).symm
  · rename_i h
    have h : ¬ a.toNat ≤ b.toNat := h
    exact (Nat.min_eq_right (by omega)).symm

theorem Config.toNat_blockSize (cfg : Config) : (UInt16.ofNat cfg.blockSize).toNat = cfg.blockSize := by
  have := cfg.blockSize_le
  rw [UInt16.toNat_ofNat', Nat.mod_eq_of_lt (by omega)]

/-- `OC_BLOCK_SIZE` as a Block option expresses it -/
theorem Config.blockSize_sixteen (cfg : Config) : ∃ e, cfg.blockSize = 16 * 2^e := by
  obtain ⟨k, h1, _, h3⟩ := cfg.blockSize_pow
  refine ⟨k - 4, ?_⟩
  rw [h3, show (16 : Nat) = 2^4 from rfl, ← Nat.pow_add, Nat.add_sub_cancel' h1]

/-- the size of a Block option, cut to `OC_BLOCK_SIZE`, is one that can be expressed -/
theorem blockParams_size (cfg : Config) {b : BlockOption} (hb : b.Parsed) :
    (blockParams cfg (some b)).size.toNat = min b.size.toNat cfg.blockSize ∧
      ((blockParams cfg (some b)).size.toNat = 0 ∨
        ∃ e, (blockParams cfg (some b)).size.toNat = 16 * 2^e) := by
  have h : (blockParams cfg (some b)).size.toNat = min b.size.toNat cfg.blockSize := by
    show (min b.size (UInt16.ofNat cfg.blockSize)).toNat = _
    rw [toNat_min, cfg.toNat_blockSize]
  refine ⟨h, ?_⟩
  rw [h]
  rcases hb.fields.2 with rfl | ⟨e, _, he⟩
  · exact Or.inl (Nat.zero_min _)
  · rcases Nat.le_total b.size.toNat cfg.blockSize with hle | hle
    · rw [Nat.min_eq_left hle]
      exact Or.inr ⟨e, he⟩
    · rw [Nat.min_eq_right hle]
      exact Or.inr cfg.blockSize_sixteen

theorem blockRefused_false {num : UInt32} {size : UInt16} (h : blockRefused num size = false) :
    num.toNat ≤ 0xFFFFF ∧ 16 ≤ size.toNat ∧ size.toNat ≤ 2048 := by
  unfold blockRefused at h
  simp only [Bool.or_eq_false_iff, decide_eq_false_iff_not] at h
  obtain ⟨⟨h1, h2⟩, h3⟩ := h
  have h1 : ¬ size.toNat < 16 := h1
  have h2 : ¬ 2048 < size.toNat := h2
  have h3 : ¬ 0xFFFFF < num.toNat := h3
  omega

/-- a payload of a block is never cut -/
theorem coapSetPayload_eq (cfg : Config) (p : Message) {payload : List UInt8}
    (h : payload.length ≤ cfg.blockSize) :
    coapSetPayload cfg p payload = { p with payload := payload } := by
  have hbs := cfg.blockSize_le
  unfold coapSetPayload
  split
  · rw [Nat.mod_eq_of_lt (by omega), List.take_length]
  · rw [Nat.min_eq_right h, Nat.mod_eq_of_lt (by omega), List.take_length]

theorem coapSetPayload_options (cfg : Config) (p : Message) (payload : List UInt8) :
    (coapSetPayload cfg p payload).options = p.options := by
  unfold coapSetPayload
  split <;> rfl

/-! ## the server -/

/-- a response without Block2 and payload -/
def NoBlock2 (p : Message) : Prop := coapOptionBlock2 ∉ p.options ∧ p.payload = []

theorem NoBlock2.label {p : Message} (h : NoBlock2 p) (source : Option BlockwiseState) :
    ServerLabel p source := fun hin => absurd hin h.1

/-- a setter of another option -/
theorem NoBlock2.set {p q : Message} (h : NoBlock2 p) {n : Nat} (hn : n ≠ coapOptionBlock2)
    (ho : q.options = insert n p.options) (hq : q.payload = p.payload) : NoBlock2 q := by
  refine ⟨fun hin => ?_, hq.trans h.2⟩
  rw [ho, Finset.mem_insert] at hin
  exact hin.elim (fun he => hn he.symm) h.1

theorem serverLabel_property : PacketProperty ServerLabel := by
  refine ⟨?_, fun p source hp hin => ?_⟩
  · rintro p q source ⟨token, rfl⟩ h
    exact h
  · rw [hp.1] at hin
    exact absurd hin (Finset.notMem_empty _)

/-- a response with a part of `b`, with this number and size -/
theorem serverLabel_block {cfg : Config} {p : Message} {num : UInt32} {more : UInt8} {size : UInt16}
    {payload : List UInt8} {b : BlockwiseState} (hp : coapOptionBlock2 ∉ p.options) {e : Nat}
    (hsize : size.toNat = 16 * 2^e) (hle : size.toNat ≤ cfg.blockSize)
    (hpayload : payload = (b.payload.drop (num.toNat * size.toNat)).take size.toNat)
    (hmore : more ≠ 0 ↔ (num.toNat + 1) * size.toNat < b.payload.length) :
    ServerLabel (coapSetHeaderBlock2 (coapSetPayload cfg p payload) num more size) (some b) := by
  have hlen : payload.length ≤ cfg.blockSize := by
    rw [hpayload, List.length_take]
    omega
  rw [coapSetPayload_eq cfg p hlen]
  intro hin
  refine ⟨b, rfl, ?_⟩
  unfold coapSetHeaderBlock2 at hin ⊢
  by_cases hr : blockRefused num size = true
  · rw [if_pos hr] at hin
    exact absurd hin hp
  · rw [if_neg hr]
    obtain ⟨h1, _, h3⟩ := blockRefused_false (by simpa using hr)
    refine (labelMatches_iff _ _ _ (show num.toNat < 2^28 by omega) h3 hsize).mpr ⟨hpayload, ?_⟩
    refine Iff.trans ?_ hmore
    show (if more ≠ 0 then (1 : UInt8) else 0) ≠ 0 ↔ more ≠ 0
    split <;> simp_all

/-- options that are set behind the Block option do not count -/
theorem ServerLabel.set {p q : Message} {source : Option BlockwiseState} (h : ServerLabel p source)
    {n : Nat} (hn : n ≠ coapOptionBlock2) (ho : q.options = insert n p.options)
    (hq : q.payload = p.payload) (hb : q.block2 = p.block2) : ServerLabel q source := by
  intro hin
  rw [ho, Finset.mem_insert] at hin
  rw [hb, hq]
  exact h (hin.resolve_left fun he => hn he.symm)

theorem ServerLabel.etag {p : Message} {source : Option BlockwiseState} (h : ServerLabel p source)
    (etag : List UInt8) : ServerLabel (coapSetHeaderEtag p etag) source :=
  h.set (n := coapOptionEtag) (by decide) rfl rfl rfl

theorem ServerLabel.size2 {p : Message} {source : Option BlockwiseState} (h : ServerLabel p source)
    (n : UInt32) : ServerLabel (coapSetHeaderSize2 p n) source :=
  h.set (n := coapOptionSize2) (by decide) rfl rfl rfl

section
variable {cfg : Config} {env : Env} {endpoint : Endpoint} {message : Message} {l : Locals}

theorem dispatchResponse_label {o : BlockOption} {b : BlockwiseState} (ho : o.Parsed)
    (hcond : o.num = 0 ∨ o.size.toNat ≤ cfg.blockSize ∨ 0xFFFFF < o.num.toNat)
    (hl : NoBlock2 l.response) (hb : b.payloadSize < 2^32) :
    ServerLabel (dispatchResponse cfg (blockParams cfg (some o)) l b).1.response
      (dispatchResponse cfg (blockParams cfg (some o)) l b).1.source := by
  obtain ⟨hsize, hpow⟩ := blockParams_size cfg ho
  obtain ⟨hoff, hzero⟩ := ho.fields
  have hnum : (blockParams cfg (some o)).num = o.num := rfl
  have hoff' : (blockParams cfg (some o)).offset = o.offset := rfl
  generalize blockParams cfg (some o) = q at hsize hpow hnum hoff' ⊢
  unfold dispatchResponse
  split
  · exact hl.label _
  · rename_i payload b' hd
    dsimp only
    by_cases hr : blockRefused q.num q.size = true
    · -- the option is left out
      intro hin
      unfold coapSetHeaderBlock2 at hin
      rw [if_pos hr] at hin
      have hin : coapOptionBlock2 ∈ insert coapOptionEtag
          (coapSetPayload cfg l.response payload).options := hin
      rw [coapSetPayload_options, Finset.mem_insert] at hin
      exact absurd (hin.resolve_left (by decide)) hl.1
    · obtain ⟨h1, h2, h3⟩ := blockRefused_false (by simpa using hr)
      obtain ⟨e, he⟩ := hpow.resolve_left (by omega)
      have hlt : o.num.toNat * o.size.toNat < 2^32 := by
        have hs : o.size.toNat ≤ 2048 := by
          rcases hzero with rfl | ⟨k, hk, hk'⟩
          · decide
          · have : 2^k ≤ 2^7 := Nat.pow_le_pow_right (by decide) (by omega)
            omega
        rw [hnum] at h1
        calc o.num.toNat * o.size.toNat ≤ 0xFFFFF * 2048 := Nat.mul_le_mul h1 hs
          _ < 2^32 := by decide
      rw [Nat.mod_eq_of_lt hlt] at hoff
      -- the offset is that of the label
      have hlabel : q.offset.toNat = q.num.toNat * q.size.toNat := by
        rw [hoff', hoff, hnum, hsize]
        rcases hcond with h0 | hle | hbig
        · rw [h0]
          simp
        · rw [Nat.min_eq_left hle]
        · rw [hnum] at h1
          omega
      have hstep : q.offset.toNat = 0 ∨ q.size.toNat ≤ q.offset.toNat := by
        rw [hlabel]
        rcases Nat.eq_zero_or_pos q.num.toNat with h0 | h0
        · rw [h0]
          exact Or.inl (Nat.zero_mul _)
        · exact Or.inr (Nat.le_mul_of_pos_left _ h0)
      obtain ⟨hin, hpayload, rfl⟩ := dispatch_slice hstep hd
      have hmore := next_lt_iff q.size.toNat hb hin
      rw [hlabel] at hpayload
      refine ServerLabel.etag (serverLabel_block hl.1 he ?_ ?_ ?_) _
      · exact hsize ▸ Nat.min_le_right _ _
      · exact hpayload
      · refine Iff.trans ?_ (hmore.trans (by rw [hlabel, Nat.succ_mul]; rfl))
        show (if (q.offset.toNat + min q.size.toNat (b.payloadSize - q.offset.toNat)) % 2^32
          < b.payloadSize then (1 : UInt8) else 0) ≠ 0 ↔ _
        split
        · exact iff_of_true (by decide) ‹_›
        · exact iff_of_false (by decide) ‹_›

/-- the response with a whole representation has no label -/
theorem serverLabel_payload {p : Message} (hp : coapOptionBlock2 ∉ p.options)
    (payload : List UInt8) (source : Option BlockwiseState) :
    ServerLabel (coapSetPayload cfg p payload) source := by
  intro hin
  rw [coapSetPayload_options] at hin
  exact absurd hin hp

/-- the response with the first block of a representation -/
theorem serverLabel_first {p : Message} {z : UInt16} {payload etag : List UInt8} {n : UInt32}
    {b : BlockwiseState} (hp : coapOptionBlock2 ∉ p.options)
    (hz : z.toNat ≤ cfg.blockSize) (hpow : z.toNat = 0 ∨ ∃ e, z.toNat = 16 * 2^e)
    (hpayload : payload = b.payload.take z.toNat) :
    ServerLabel (coapSetHeaderEtag (coapSetHeaderSize2 (coapSetHeaderBlock2
      (coapSetPayload cfg p payload) 0 (if z.toNat < b.payloadSize then 1 else 0) z) n) etag)
        (some b) := by
  refine ServerLabel.etag (ServerLabel.size2 ?_ n) etag
  rcases hpow with h0 | ⟨e, he⟩
  · -- the option is left out
    obtain rfl : z = 0 := UInt16.toNat_inj.mp h0
    exact serverLabel_payload hp payload _
  · refine serverLabel_block hp he hz ?_ ?_
    · show payload = (b.payload.drop (0 * z.toNat)).take z.toNat
      rw [Nat.zero_mul, List.drop_zero]
      exact hpayload
    · show _ ↔ (0 + 1) * z.toNat < b.payload.length
      rw [Nat.zero_add, Nat.one_mul, length_payload]
      split
      · exact iff_of_true (by decide) ‹_›
      · exact iff_of_false (by decide) ‹_›

/-- the size of a first block: `OC_BLOCK_SIZE`, or the one of the request cut to it -/
theorem firstBlock_size (cfg : Config) {block2 : Option BlockOption}
    (ho : ∀ o, block2 = some o → o.Parsed) :
    (blockParams cfg block2).size.toNat ≤ cfg.blockSize ∧
      ((blockParams cfg block2).size.toNat = 0 ∨
        ∃ e, (blockParams cfg block2).size.toNat = 16 * 2^e) := by
  cases block2 with
  | none =>
    have h : (blockParams cfg none).size.toNat = cfg.blockSize := cfg.toNat_blockSize
    rw [h]
    exact ⟨le_refl _, Or.inr cfg.blockSize_sixteen⟩
  | some o =>
    obtain ⟨h1, h2⟩ := blockParams_size cfg (ho o rfl)
    exact ⟨h1 ▸ Nat.min_le_right _ _, h2⟩

theorem firstBlock_label {block2 : Option BlockOption} {b : BlockwiseState}
    (ho : ∀ o, block2 = some o → o.Parsed) (hl : NoBlock2 l.response) :
    ServerLabel (firstBlock cfg block2 l b).response (firstBlock cfg block2 l b).source := by
  obtain ⟨hsize, hpow⟩ := firstBlock_size cfg ho
  unfold firstBlock
  dsimp only
  generalize (blockParams cfg block2).size = z at hsize hpow ⊢
  rcases hd : ocBlockwiseDispatchBlock b 0 z.toNat with ⟨_ | payload, b'⟩
  · -- an empty representation
    obtain ⟨h0, rfl⟩ := dispatch_none hd
    have hnil : b'.payload = [] := List.eq_nil_of_length_eq_zero (by rw [length_payload]; omega)
    have hsame : l.response = coapSetPayload cfg l.response [] := by
      rw [coapSetPayload_eq cfg _ (Nat.zero_le _), ← hl.2]
    dsimp only
    rw [hsame]
    split
    · exact serverLabel_first hl.1 hsize hpow (by rw [hnil, List.take_nil])
    · exact serverLabel_payload hl.1 _ _
  · obtain ⟨_, hpay, hb⟩ := dispatch_slice (Or.inl rfl) hd
    have hsame : b'.payload = b.payload := by rw [hb]; rfl
    dsimp only
    split
    · exact serverLabel_first hl.1 hsize hpow (hsame ▸ hpay)
    · exact serverLabel_payload hl.1 _ _

theorem consumePayload_response (l : Locals) : (consumePayload l).response = l.response := by
  unfold consumePayload
  repeat' split
  all_goals rfl

theorem reachResource_response (l : Locals) :
    (reachResource env endpoint message l).response = l.response := by
  unfold reachResource Locals.allocResponse
  dsimp only
  split
  · split <;> exact consumePayload_response l
  · exact consumePayload_response l

/-- Size1 and the code of a reply -/
theorem NoBlock2.reply {p : Message} (h : NoBlock2 p) (code : Nat) (n : UInt32) :
    NoBlock2 (coapSetStatusCode
      (if code = requestEntityTooLarge413.toNat then coapSetHeaderSize1 p n else p) code) := by
  have h1 : NoBlock2 (if code = requestEntityTooLarge413.toNat then coapSetHeaderSize1 p n else p) := by
    split
    · exact h.set (n := coapOptionSize1) (by decide) rfl rfl
    · exact h
  unfold coapSetStatusCode
  split <;> exact h1

theorem setReply_noBlock2 {code length : Nat} (hl : NoBlock2 l.response) :
    NoBlock2 (setReply cfg message code length l).response := by
  unfold setReply
  dsimp only
  split
  · exact hl.reply code _
  · split
    · have h1 : NoBlock2 (coapSetHeaderContentFormat l.response
          (if coapGetHeaderAccept message = some applicationCbor then applicationCbor
            else applicationVndOcfCbor).toUInt32) :=
        hl.set (n := coapOptionContentFormat) (by decide) rfl rfl
      exact h1.reply code _
    · exact hl.reply code _

theorem entityHandler_noBlock2 (hl : NoBlock2 l.response) :
    NoBlock2 (ocRiInvokeCoapEntityHandler cfg env endpoint message l).2.response := by
  have h1 : NoBlock2 (reachResource env endpoint message l).response := by
    rw [reachResource_response]
    exact hl
  unfold ocRiInvokeCoapEntityHandler
  dsimp only
  split
  · rename_i b _ _
    have h2 : NoBlock2 (observeRequest env message (runHandler env endpoint message
        (requestPayload l) b (reachResource env endpoint message l))).response := by
      unfold observeRequest
      dsimp only
      split
      · exact h1
      · split
        · exact h1.set (n := coapOptionObserve) (by decide) rfl rfl
        · exact h1
    unfold answer
    dsimp only
    split
    · exact h2
    · split
      · exact h2
      · exact setReply_noBlock2 h2
  · exact setReply_noBlock2 h1

theorem requestHandler_label {block2 : Option BlockOption} (ho : ∀ o, block2 = some o → o.Parsed)
    (hl : NoBlock2 l.response) :
    ServerLabel (requestHandler cfg env endpoint message block2 l).1.response
      (requestHandler cfg env endpoint message block2 l).1.source := by
  have h1 : NoBlock2 (ocRiInvokeCoapEntityHandler cfg env endpoint message
      (l.emit (.invoked endpoint message l.requestBuffer))).2.response := entityHandler_noBlock2 hl
  unfold requestHandler
  dsimp only
  split
  · rename_i b _ _
    split
    · -- over TCP there is no Block2
      intro hin
      refine absurd ?_ h1.1
      unfold wholeResponse coapSetPayload at hin
      dsimp only at hin
      repeat' split at hin
      all_goals exact hin
    · exact firstBlock_label ho h1
  · obtain ⟨_, hr, _⟩ := unref_packet (ocRiInvokeCoapEntityHandler cfg env endpoint message
      (l.emit (.invoked endpoint message l.requestBuffer))).2
    rw [hr]
    exact h1.label _

theorem coapSetHeaderBlock1_noBlock2 {p : Message} (h : NoBlock2 p) (num : UInt32) (more : UInt8)
    (size : UInt16) : NoBlock2 (coapSetHeaderBlock1 p num more size) := by
  unfold coapSetHeaderBlock1
  split
  · exact h
  · exact h.set (n := coapOptionBlock1) (by decide) rfl rfl

theorem block1Request_noBlock2 {p : BlockOption} (hl : NoBlock2 l.response) :
    NoBlock2 (block1Request cfg env endpoint message p l).1.response := by
  have h1 : (uploadBuffer env endpoint message p.num l).response = l.response := by
    unfold uploadBuffer
    dsimp only
    repeat' split
    all_goals rfl
  unfold block1Request
  dsimp only
  generalize uploadBuffer env endpoint message p.num l = l1 at h1 ⊢
  rw [← h1] at hl
  repeat' split
  · exact hl
  · exact hl
  · exact coapSetHeaderBlock1_noBlock2 hl _ _ _
  · exact coapSetHeaderBlock1_noBlock2 hl _ _ _

theorem storePayload_response (r : UInt8) (l : Locals) :
    (storePayload cfg env endpoint message r l).1.response = l.response := by
  unfold storePayload
  dsimp only
  repeat' split
  all_goals rfl

/-- a buffer is found only for an endpoint that can be compared -/
theorem findServerResponse_comparable {s : State} {b : BlockwiseState}
    (h : findServerResponse endpoint message s = some b) :
    ocEndpointCompare endpoint endpoint = true := by
  rw [findServerResponse_eq] at h
  obtain ⟨⟨_, hs⟩, _⟩ := findBuffer_some.mp h
  have hc : ocEndpointCompare b.endpoint endpoint = true := hs.2.1
  exact ocEndpointCompare_trans (ocEndpointCompare_symm hc) hc

/-- the branch of a request: no label so far, or a label that matches -/
theorem requestBranch_label (env : Env) (l : Locals) (hg : Genuine message)
    (hcond : ServerLabelable cfg endpoint message)
    (hfits : ∀ b ∈ l.state.responses, b.payloadSize < 2^32) (hl : NoBlock2 l.response) :
    NoBlock2 (requestBranch cfg env endpoint message l).1.response ∨
      ((requestBranch cfg env endpoint message l).2 ≠ .requestHandler ∧
        ServerLabel (requestBranch cfg env endpoint message l).1.response
          (requestBranch cfg env endpoint message l).1.source) := by
  unfold ServerLabelable at hcond
  unfold requestBranch
  cases hb1 : coapGetHeaderBlock1 message with
  | some b1 => exact Or.inl (block1Request_noBlock2 hl)
  | none =>
    cases hb2 : coapGetHeaderBlock2 message with
    | none =>
      refine Or.inl ?_
      show NoBlock2 (regularRequest cfg env endpoint message (blockParams cfg none) l).1.response
      unfold regularRequest
      repeat' split
      · rw [storePayload_response]
        exact hl
      · exact hl
      · exact hl
    | some b2 =>
      rw [hb1, hb2] at hcond
      have hpar : b2.Parsed := hg.getBlock2 hb2
      have h1 : NoBlock2 (l.withResponse
          (coapSetHeaderContentFormat l.response (block2Format message))).response :=
        hl.set (n := coapOptionContentFormat) (by decide) rfl rfl
      show NoBlock2 (block2Request cfg env endpoint message (blockParams cfg (some b2)) l).1.response ∨
        ((block2Request cfg env endpoint message (blockParams cfg (some b2)) l).2 ≠ _ ∧ _)
      unfold block2Request
      dsimp only
      have hfits1 : ∀ b ∈ (l.withResponse (coapSetHeaderContentFormat l.response
        (block2Format message))).state.responses, b.payloadSize < 2^32 := hfits
      generalize l.withResponse (coapSetHeaderContentFormat l.response (block2Format message)) = l1
        at h1 hfits1 ⊢
      split
      · rename_i b hf
        refine Or.inr ⟨?_, ?_⟩
        · unfold dispatchResponse
          split <;> simp
        · have hcond := hcond.resolve_left (by rw [findServerResponse_comparable hf]; decide)
          exact dispatchResponse_label hpar hcond h1 (hfits1 b (findServerResponse_mem hf))
      · refine Or.inl ?_
        unfold openTransfer
        repeat' split
        · exact h1
        · rw [storePayload_response]
          exact h1
        · exact h1
        · exact h1

/-- **A server** labels its blocks as they are. -/
theorem processRequest_labels (hg : Genuine message) (hm : message.IsRequest)
    (hcond : ServerLabelable cfg endpoint message)
    (hfits : ∀ b ∈ l.state.responses, b.payloadSize < 2^32) (hl : Plain l.response)
    (hev : ∀ e ∈ l.events, e.Silent) :
    LabelsMatch (processRequest cfg env endpoint message l).2 := by
  have hno : NoBlock2 l.response := ⟨by rw [hl.1]; exact Finset.notMem_empty _, hl.2⟩
  have hbr := requestBranch_label env (l.emit (.accepted endpoint message)) hg hcond hfits hno
  intro e m p source hin
  obtain ⟨_, rfl, hq⟩ := processRequest_sending serverLabel_property hev rfl
    (fun _ => hbr.elim (fun h => h.label _) (fun h => h.2))
    (fun hlabel => requestHandler_label (fun o ho => hg.getBlock2 ho)
      (hbr.resolve_right fun h => h.1 hlabel)) hin
  exact ⟨fun _ => hq, fun h => absurd hm h⟩

end

/-! ## the client -/

theorem clientLabel_property : PacketProperty ClientLabel := by
  refine ⟨?_, fun p source hp hin => ?_⟩
  · rintro p q source ⟨token, rfl⟩ h
    exact h
  · rw [hp.1] at hin
    exact absurd hin (Finset.notMem_empty _)

/-- options that are set behind the Block option do not count -/
theorem ClientLabel.set {p q : Message} {source : Option BlockwiseState} (h : ClientLabel p source)
    {n : Nat} (hn : n ≠ coapOptionBlock1) (ho : q.options = insert n p.options)
    (hq : q.payload = p.payload) (hb : q.block1 = p.block1) : ClientLabel q source := by
  intro hin
  rw [ho, Finset.mem_insert] at hin
  rw [hb, hq]
  exact h (hin.resolve_left fun he => hn he.symm)

/-- a request with a part of `b`, with this number and size, unless the option is refused -/
theorem clientLabel_block {cfg : Config} {p : Message} {num : UInt32} {more : UInt8} {size : UInt16}
    {payload : List UInt8} {b : BlockwiseState} (hp : coapOptionBlock1 ∉ p.options)
    (h : blockRefused num size = false → (∃ e, size.toNat = 16 * 2^e) ∧ size.toNat ≤ cfg.blockSize ∧
      payload = (b.payload.drop (num.toNat * size.toNat)).take size.toNat ∧
      (more ≠ 0 ↔ (num.toNat + 1) * size.toNat < b.payload.length)) :
    ClientLabel (coapSetHeaderBlock1 (coapSetPayload cfg p payload) num more size) (some b) := by
  intro hin
  unfold coapSetHeaderBlock1 at hin ⊢
  by_cases hr : blockRefused num size = true
  · rw [if_pos hr, coapSetPayload_options] at hin
    exact absurd hin hp
  · have hr' : blockRefused num size = false := by simpa using hr
    obtain ⟨h1, _, h3⟩ := blockRefused_false hr'
    obtain ⟨⟨e, he⟩, hle, hpayload, hmore⟩ := h hr'
    have hlen : payload.length ≤ cfg.blockSize := by
      rw [hpayload, List.length_take]
      omega
    rw [if_neg hr, coapSetPayload_eq cfg p hlen]
    exact ⟨b, rfl, (labelMatches_iff _ _ _ (show num.toNat < 2^28 by omega) h3 he).mpr
      ⟨hpayload, hmore⟩⟩

section
variable {cfg : Config} {env : Env} {endpoint : Endpoint} {message : Message}

/-- the size after `4.13` is not above `OC_BLOCK_SIZE` -/
theorem mtuSize_le (cfg : Config) (message : Message) :
    (mtuSize cfg message).toNat ≤ cfg.blockSize := by
  unfold mtuSize
  split
  · rw [toNat_min, cfg.toNat_blockSize]
    exact Nat.min_le_right _ _
  · rw [cfg.toNat_blockSize]

theorem pow_sixteen {n e : Nat} (h : n = 2^e) (hn : 16 ≤ n) : ∃ k, n = 16 * 2^k := by
  have he : 4 ≤ e := by
    by_contra hlt
    have : 2^e ≤ 2^3 := Nat.pow_le_pow_right (by decide) (by omega)
    omega
  refine ⟨e - 4, ?_⟩
  rw [h, show (16 : Nat) = 2^4 from rfl, ← Nat.pow_add, Nat.add_sub_cancel' he]

/-- offset, number and size of the next block of a request fit together -/
theorem nextBlock_fits (cfg : Config) {o : BlockOption} (ho : o.Parsed)
    (hcond : o.num = 0 ∨ o.size.toNat ≤ cfg.blockSize ∨ 0xFFFFF < o.num.toNat + 1)
    (hr : blockRefused (o.num + 1) (blockParams cfg (some o)).size = false) :
    (∃ e, (blockParams cfg (some o)).size.toNat = 16 * 2^e) ∧
      (blockParams cfg (some o)).size.toNat ≤ cfg.blockSize ∧ 0 < (o.num + 1).toNat ∧
      ((blockParams cfg (some o)).offset.toNat + (blockParams cfg (some o)).size.toNat) % 2^32
        = (o.num + 1).toNat * (blockParams cfg (some o)).size.toNat := by
  obtain ⟨hsize, hpow⟩ := blockParams_size cfg ho
  obtain ⟨hoff, hzero⟩ := ho.fields
  obtain ⟨h1, h2, h3⟩ := blockRefused_false hr
  have hs : o.size.toNat ≤ 2048 := by
    rcases hzero with rfl | ⟨k, hk, hk'⟩
    · decide
    · have : 2^k ≤ 2^7 := Nat.pow_le_pow_right (by decide) (by omega)
      omega
  have hnum : (o.num + 1).toNat = o.num.toNat + 1 := by
    have hlt := ho.num_lt
    rw [UInt32.toNat_add]
    show (o.num.toNat + 1) % 2^32 = _
    omega
  refine ⟨hpow.resolve_left (by omega), hsize ▸ Nat.min_le_right _ _, by omega, ?_⟩
  show (o.offset.toNat + (blockParams cfg (some o)).size.toNat) % 2^32 = _
  rw [hnum] at h1 ⊢
  have hmul : o.num.toNat * o.size.toNat ≤ 0xFFFFF * 2048 := Nat.mul_le_mul (by omega) hs
  rw [hoff, Nat.mod_eq_of_lt (show o.num.toNat * o.size.toNat < 2^32 by omega),
    Nat.mod_eq_of_lt (by omega), Nat.succ_mul, hsize]
  rcases hcond with h0 | hle | hbig
  · rw [h0]
    simp
  · rw [Nat.min_eq_left hle]
  · omega

/-- is the part that is handed out the last one? -/
theorem more_iff {b : BlockwiseState} {off size : Nat} (hb : b.payloadSize < 2^32)
    (hlt : off < b.payloadSize) :
    (if (off + min size (b.payloadSize - off)) % 2^32 < b.payloadSize then (1 : UInt8) else 0) ≠ 0 ↔
      off + size < b.payload.length := by
  refine Iff.trans ?_ (next_lt_iff size hb hlt)
  split
  · exact iff_of_true (by decide) ‹_›
  · exact iff_of_false (by decide) ‹_›

/-- a query behind the Block option does not count -/
theorem ClientLabel.query {p : Message} {source : Option BlockwiseState} (h : ClientLabel p source)
    (query : List UInt8) :
    ClientLabel (if query ≠ [] then coapSetHeaderUriQuery p query else p) source := by
  split
  · exact h.set (n := coapOptionUriQuery) (by decide) rfl rfl rfl
  · exact h

theorem ClientLabel.size1 {p : Message} {source : Option BlockwiseState} (h : ClientLabel p source)
    (n : UInt32) : ClientLabel (coapSetHeaderSize1 p n) source :=
  h.set (n := coapOptionSize1) (by decide) rfl rfl rfl

theorem continueRequest_label {responseMid : UInt16} {l l' : Locals} {b : BlockwiseState}
    {label : Label} (hg : Genuine message) (hcond : ClientLabelable cfg message)
    (hcode : coapGetHeaderBlock1 message = none → message.code = requestEntityTooLarge413)
    (hb : b.payloadSize < 2^32)
    (h : continueRequest cfg env endpoint message responseMid (coapGetHeaderBlock1 message) l b
      = .jump l' label) : ClientLabel l'.response l'.source := by
  have hpath : ∀ (method : UInt8) (uri : List UInt8), coapOptionBlock1 ∉
      (coapSetHeaderUriPath (coapUdpInitMessage .con method responseMid) uri).options :=
    fun _ _ => by simp [coapSetHeaderUriPath, setOption, coapUdpInitMessage, Packet.zero, Fields.zero]
  unfold ClientLabelable at hcond
  unfold continueRequest at h
  cases hb1 : coapGetHeaderBlock1 message with
  | some o =>
    rw [hb1] at h hcond
    have hfits := nextBlock_fits cfg (hg.getBlock1 hb1) hcond
    dsimp only [Option.isSome_some, if_true] at h
    have hnum : (blockParams cfg (some o)).num = o.num := rfl
    rw [hnum] at h
    generalize (blockParams cfg (some o)).size = z at h hfits
    generalize ((blockParams cfg (some o)).offset.toNat + z.toNat) % 2^32 = off at h hfits
    split at h
    · exact absurd h (by simp)
    · rename_i payload b' hd
      split at h
      · exact absurd h (by simp)
      · exact absurd h (by simp)
      · rename_i cb _ _
        obtain ⟨rfl, _⟩ := Flow.jump.inj h
        refine ClientLabel.query (clientLabel_block (hpath cb.method cb.uri) fun hr => ?_) cb.query
        obtain ⟨hpow, hle, hone, hoff⟩ := hfits hr
        have hstep : z.toNat ≤ off := by
          rw [hoff]
          exact Nat.le_mul_of_pos_left _ hone
        obtain ⟨hlt, hpayload, rfl⟩ := dispatch_slice (Or.inr hstep) hd
        rw [hoff] at hpayload
        refine ⟨hpow, hle, hpayload, ?_⟩
        refine (more_iff hb hlt).trans ?_
        rw [hoff, Nat.succ_mul]
        rfl
  | none =>
    rw [hb1] at h hcond
    have hmtu := hcond (hcode hb1)
    have hle := mtuSize_le cfg message
    simp only [Option.isSome_none, Bool.false_eq_true, if_false] at h
    generalize mtuSize cfg message = z at h hmtu hle
    split at h
    · exact absurd h (by simp)
    · rename_i payload b' hd
      split at h
      · exact absurd h (by simp)
      · exact absurd h (by simp)
      · rename_i cb _ _
        obtain ⟨rfl, _⟩ := Flow.jump.inj h
        obtain ⟨hlt, hpayload, rfl⟩ := dispatch_slice (Or.inl rfl) hd
        refine ClientLabel.query (ClientLabel.size1 (clientLabel_block (hpath cb.method cb.uri)
          fun hr => ?_) _) cb.query
        obtain ⟨_, h16, _⟩ := blockRefused_false hr
        obtain ⟨e, he⟩ := hmtu.resolve_left (by omega)
        refine ⟨pow_sixteen he h16, hle, ?_, (more_iff hb hlt).trans ?_⟩
        · show payload = (b.payload.drop (0 * z.toNat)).take z.toNat
          rw [Nat.zero_mul]
          exact hpayload
        · show 0 + z.toNat < b.payload.length ↔ (0 + 1) * z.toNat < b.payload.length
          rw [Nat.zero_add, Nat.zero_add, Nat.one_mul]

theorem clientRequest_label {responseMid : UInt16} {l l' : Locals} {cb : Option ClientCb}
    {label : Label} (hg : Genuine message) (hcond : ClientLabelable cfg message)
    (hfits : ∀ b ∈ l.state.requests, b.payloadSize < 2^32)
    (h : clientRequest cfg env endpoint message responseMid (coapGetHeaderBlock1 message) l cb
      = .jump l' label) : ClientLabel l'.response l'.source := by
  unfold clientRequest at h
  dsimp only at h
  split at h
  · exact absurd h (by simp)
  · rename_i b hf
    split at h
    · rename_i hor
      refine continueRequest_label hg hcond (fun hnone => ?_)
        (hfits b (clientBuffer_some endpoint message hf).1) h
      exact hor.resolve_left (by rw [hnone]; simp)
    · exact absurd h (by simp)

/-- a client asks for the next block without Block1 -/
theorem clientResponse_label {responseMid : UInt16} {l l' : Locals} {cb : Option ClientCb}
    {block2 : Option BlockOption} {label : Label}
    (h : clientResponse cfg env endpoint message responseMid block2 l cb = .jump l' label) :
    ClientLabel l'.response l'.source := by
  have hno : ∀ (cb : ClientCb) (o : BlockOption) (source : Option BlockwiseState), ClientLabel
      (setUri cb (coapSetHeaderBlock2 (coapUdpInitMessage .con cb.method responseMid) (o.num + 1) 0
        o.size)) source := by
    intro cb o source hin
    unfold setUri coapSetHeaderBlock2 at hin
    dsimp only at hin
    split_ifs at hin <;>
      simp [coapSetHeaderUriPath, coapSetHeaderUriQuery, setOption, coapUdpInitMessage, Packet.zero,
        Fields.zero] at hin
  unfold clientResponse at h
  dsimp only at h
  repeat' split at h
  all_goals cases h
  exact hno _ _ _

/-- **A client** labels its blocks as they are. -/
theorem receiveResponse_labels {s : State} {events : List Event} (hg : Genuine message)
    (hm : ¬ message.IsRequest) (hcond : ClientLabelable cfg message) (hfits : s.Fits)
    (hev : ∀ e ∈ events, e.Silent) :
    LabelsMatch (receiveResponse cfg env endpoint message s events).2 := by
  have hsends := receiveResponse_sends cfg env endpoint message clientLabel_property s events hev
    (fun _ l _ _ _ hreq h => clientRequest_label hg hcond (by rw [hreq]; exact hfits.1) h)
    (fun _ _ _ _ _ h => clientResponse_label h)
  intro e m p source hin
  rcases hsends _ hin with h | ⟨p', source', h, hq⟩
  · exact h.elim
  · obtain ⟨_, rfl, rfl, rfl⟩ := Event.sending.inj h
    exact ⟨fun h => absurd h hm, fun _ => hq⟩

end

end Coap
