import Iotivity.Coap.Decoded
import Iotivity.Coap.Values

/-!
# What a parsed message looks like

The engine works on packets that come out of the parsers, not on packets in general.  For these,
whatever the bytes were:

* `parseLoop_follows`   the option loop goes through the entries of the delta code, and the payload is
  what stands behind the payload marker, cut to `OC_BLOCK_SIZE` over UDP;
* `parseLoop_genuine`   Block options are those of some option value, and a query comes with its bit.

No option number is asked to stay below `2^32` here: the framing does not depend on it.
-/

namespace Coap
open Memory DeltaCode

/-! ## rounds of the option loop -/

section
variable {cfg : Config} {dataLen : Nat} {s s' : ParseState}

/-- a round that does not break handles one option -/
theorem parseStep_ok (h : parseStep cfg dataLen s = .ok (s', false)) :
    ∃ n cur len, s.currentOption < cur ∧ cur + len ≤ dataLen ∧
      parseOption (markOption s.pkt n) s.mem n cur len = .ok (s'.pkt, s'.mem) ∧
      s'.currentOption = cur + len := by
  unfold parseStep at h
  dsimp only at h
  split at h
  · exact absurd (Prod.mk.inj (Except.ok.inj h)).2 (by decide)
  · have h1 := le_fieldAt s.mem (s.mem s.currentOption >>> 4).toNat (s.currentOption + 1)
    rw [← optionField_eq] at h1
    generalize optionField s.mem (s.mem s.currentOption >>> 4).toNat (s.currentOption + 1) = d at h h1
    have h2 := le_fieldAt s.mem (s.mem s.currentOption &&& 0x0F).toNat d.2
    rw [← optionField_eq] at h2
    generalize optionField s.mem (s.mem s.currentOption &&& 0x0F).toNat d.2 = l at h h2
    split at h
    · exact absurd h (by simp)
    · split at h
      · exact absurd h (by simp)
      · rename_i pkt m hp
        obtain ⟨rfl, _⟩ := Prod.mk.inj (Except.ok.inj h)
        exact ⟨_, l.2, l.1, by omega, by omega, hp, rfl⟩

/-- a round that breaks sets the payload -/
theorem parseStep_break (h : parseStep cfg dataLen s = .ok (s', true)) :
    ∃ payload, s'.pkt = { s.pkt with payload := payload } := by
  unfold parseStep at h
  dsimp only at h
  split at h
  · obtain ⟨rfl, _⟩ := Prod.mk.inj (Except.ok.inj h)
    exact ⟨_, rfl⟩
  · split at h
    · exact absurd h (by simp)
    · split at h
      · exact absurd h (by simp)
      · exact absurd (Prod.mk.inj (Except.ok.inj h)).2 (by decide)

/-- what every option keeps is kept by the loop -/
theorem parseLoop_invariant (P : Packet Slice → Prop)
    (hoption : ∀ p m n cur len p' m', P p →
      parseOption (markOption p n) m n cur len = .ok (p', m') → P p')
    (hpayload : ∀ p payload, P p → P { p with payload := payload }) :
    ∀ fuel s s', P s.pkt → parseLoop cfg dataLen fuel s = .ok s' → P s'.pkt := by
  intro fuel
  induction fuel with
  | zero =>
    intro s s' hp h
    obtain rfl : s = s' := Except.ok.inj h
    exact hp
  | succ fuel ih =>
    intro s s' hp h
    unfold parseLoop at h
    split at h
    · split at h
      · exact absurd h (by simp)
      · rename_i s1 hs
        obtain rfl : s1 = s' := Except.ok.inj h
        obtain ⟨payload, e⟩ := parseStep_break hs
        rw [e]
        exact hpayload _ _ hp
      · rename_i s1 hs
        obtain ⟨n, cur, len, _, _, ho, _⟩ := parseStep_ok hs
        exact ih s1 s' (hoption _ _ _ _ _ _ _ hp ho) h
    · obtain rfl : s = s' := Except.ok.inj h
      exact hp

end

/-! ## the payload -/

/-- the strings lie in front of `cur`, and there is no payload yet -/
structure Framed (t : TransportType) (p : Packet Slice) (cur : Nat) : Prop where
  transportType : p.transportType = t
  path : p.uriPath.fin ≤ cur
  query : p.uriQuery.fin ≤ cur
  payload : p.payload.len = 0

theorem Framed.markOption {t : TransportType} {p : Packet Slice} {cur : Nat} (h : Framed t p cur)
    (n : Nat) : Framed t (Coap.markOption p n) cur := by
  unfold Coap.markOption
  split_ifs
  · exact ⟨h.transportType, h.path, h.query, h.payload⟩
  · exact h

/-- fields after option `n` with value `v`: a Block option goes to its own field -/
structure Copied (p : Fields) (n : Nat) (v : List UInt8) (q : Fields) : Prop where
  transportType : q.transportType = p.transportType
  code : q.code = p.code
  options : q.options = p.options
  block1 : q.block1 =
    if n = coapOptionBlock1 then parseBlockOption (coapParseIntOption v) else p.block1
  block2 : q.block2 =
    if n = coapOptionBlock2 then parseBlockOption (coapParseIntOption v) else p.block2

theorem ok_ite {ε α : Type} {c : Prop} [Decidable c] {a b : Except ε α} {P : α → Prop}
    (ha : c → ∀ q, a = .ok q → P q) (hb : ¬ c → ∀ q, b = .ok q → P q) (q : α)
    (h : (if c then a else b) = .ok q) : P q := by
  split at h
  · exact ha ‹_› q h
  · exact hb ‹_› q h

theorem parseValueOption_ok (p : Fields) (n : Nat) (v : List UInt8) (q : Fields)
    (h : parseValueOption p n v = .ok q) : Copied p n v q := by
  by_cases h1 : n = coapOptionBlock1
  · subst h1
    obtain rfl : { p with block1 := parseBlockOption (coapParseIntOption v) } = q := Except.ok.inj h
    exact ⟨rfl, rfl, rfl, rfl, rfl⟩
  by_cases h2 : n = coapOptionBlock2
  · subst h2
    obtain rfl : { p with block2 := parseBlockOption (coapParseIntOption v) } = q := Except.ok.inj h
    exact ⟨rfl, rfl, rfl, rfl, rfl⟩
  revert q
  have herr : ∀ (e : Status) (q : Fields), Except.error e = .ok q → Copied p n v q :=
    fun e q h => absurd h (by simp)
  have hsame : ∀ q, (.ok p : Except Status Fields) = .ok q → Copied p n v q := by
    rintro q ⟨⟩
    exact ⟨rfl, rfl, rfl, (if_neg h1).symm, (if_neg h2).symm⟩
  unfold parseValueOption
  refine ok_ite (fun _ => ok_ite (fun _ => herr _) fun _ => ?_) fun _ => ok_ite (fun _ => ?_) fun _ =>
    ok_ite (fun _ => ?_) fun _ => ok_ite (fun _ => ok_ite (fun _ => herr _) fun _ => ?_) fun _ =>
    ok_ite (fun _ => ?_) fun _ => ok_ite (fun _ => ?_) fun _ => ok_ite (fun h => absurd h h2) fun _ =>
    ok_ite (fun h => absurd h h1) fun _ => ok_ite (fun _ => ?_) fun _ => ok_ite (fun _ => ?_) fun _ =>
    ok_ite (fun _ => ok_ite (fun _ => herr _) fun _ => hsame) fun _ =>
    ok_ite (fun _ => herr _) fun _ => hsame
  all_goals
    rintro q ⟨⟩
    exact ⟨rfl, rfl, rfl, (if_neg h1).symm, (if_neg h2).symm⟩

theorem coapParseSignalOptions_transportType {σ : Type} (p : Packet σ) (n : Nat) (v : List UInt8)
    (str : σ) : (coapParseSignalOptions p n v str).transportType = p.transportType := by
  unfold coapParseSignalOptions
  split_ifs <;> rfl

/-- an option keeps the frame and does not touch the memory behind it -/
theorem parseOption_framed {t : TransportType} {p p' : Packet Slice} {m m' : Nat → UInt8}
    {cur₀ n cur len : Nat} (hp : Framed t p cur₀) (hc : cur₀ < cur)
    (h : parseOption p m n cur len = .ok (p', m')) :
    Framed t p' (cur + len) ∧ ∀ a, cur + len ≤ a → m' a = m a := by
  have hpath := hp.path
  have hquery := hp.query
  unfold parseOption at h
  split_ifs at h
  · obtain ⟨rfl, rfl⟩ := Prod.mk.inj (Except.ok.inj h)
    obtain ⟨h1, h2, h3, _, _⟩ := coapParseSignalOptions_strings p n (read m cur len) ⟨cur, len⟩
    refine ⟨⟨?_, ?_, ?_, ?_⟩, fun a _ => rfl⟩
    · rw [coapParseSignalOptions_transportType]
      exact hp.transportType
    · rw [h1]
      omega
    · rw [h2]
      omega
    · rw [h3]
      exact hp.payload
  · have hfin := coapMergeMultiOption_fin p.uriPath m cur len slash (by omega)
    have hframe := coapMergeMultiOption_frame p.uriPath m cur len slash (by omega)
    obtain ⟨rfl, rfl⟩ := Prod.mk.inj (Except.ok.inj h)
    exact ⟨⟨hp.transportType, hfin, show p.uriQuery.fin ≤ _ by omega, hp.payload⟩,
      fun a ha => hframe a (Or.inr (Or.inr ha))⟩
  · have hfin := coapMergeMultiOption_fin p.uriQuery m cur len ampersand (by omega)
    have hframe := coapMergeMultiOption_frame p.uriQuery m cur len ampersand (by omega)
    obtain ⟨rfl, rfl⟩ := Prod.mk.inj (Except.ok.inj h)
    exact ⟨⟨hp.transportType, show p.uriPath.fin ≤ _ by omega, hfin, hp.payload⟩,
      fun a ha => hframe a (Or.inr (Or.inr ha))⟩
  · split at h
    · exact absurd h (by simp)
    · rename_i q hq
      obtain ⟨rfl, rfl⟩ := Prod.mk.inj (Except.ok.inj h)
      have ht := (parseValueOption_ok _ _ _ _ hq).transportType
      exact ⟨⟨ht.trans hp.transportType, show p.uriPath.fin ≤ _ by omega,
        show p.uriQuery.fin ≤ _ by omega, hp.payload⟩, fun a _ => rfl⟩

/-- the bytes that an ending gives as payload -/
def endingPayload : Ending → List UInt8
  | .payload b => b
  | _ => []

theorem keptPayload_nil (cfg : Config) (t : TransportType) : keptPayload cfg t [] = [] := by
  unfold keptPayload
  split <;> simp

section
variable {cfg : Config} {dataLen : Nat} {t : TransportType}

/-- the payload marker -/
theorem parseStep_payload (cfg : Config) (dataLen : Nat) {s : ParseState}
    (hp : Framed t s.pkt s.currentOption)
    (hb : 240 ≤ (s.mem s.currentOption).toNat) :
    ∃ s', parseStep cfg dataLen s = .ok (s', true) ∧ s'.message.payload =
      keptPayload cfg t (read s.mem (s.currentOption + 1) (dataLen - (s.currentOption + 1))) := by
  unfold parseStep
  rw [if_pos ((marker_iff _).mpr hb)]
  refine ⟨_, rfl, ?_⟩
  show read _ (s.currentOption + 1) _ = _
  rw [read_write_disjoint _ _ _ _ _ (Or.inl le_rfl), hp.transportType]
  unfold keptPayload
  by_cases ht : t = .udp
  · rw [if_pos ht]
    by_cases hk : cfg.blockSize < dataLen - (s.currentOption + 1)
    · rw [if_pos ⟨ht, hk⟩, read_take _ _ _ _ (by omega)]
    · rw [if_neg (by simp [hk]), List.take_of_length_le (by rw [length_read]; omega)]
  · rw [if_neg (by simp [ht]), if_neg ht]

theorem framed_payload {s : ParseState} (hp : Framed t s.pkt s.currentOption) :
    s.message.payload = [] :=
  Slice.bytes_of_len s.mem hp.payload

/-- an option that is taken is the next entry of the delta code -/
theorem parseStep_follows {s s' : ParseState} {stop : Bool} {number : Nat}
    (hp : Framed t s.pkt s.currentOption) (hlt : s.currentOption < dataLen)
    (hb : (s.mem s.currentOption).toNat < 240) (hnum : s.optionNumber = number % 2^32)
    (h : parseStep cfg dataLen s = .ok (s', stop)) :
    stop = false ∧ ∃ n cur len,
      (let rest := decode n (read s'.mem s'.currentOption (dataLen - s'.currentOption))
      decode number (read s.mem s.currentOption (dataLen - s.currentOption))
        = ((n, read s.mem cur len) :: rest.1, rest.2)) ∧
      parseOption (markOption s.pkt (n % 2^32)) s.mem (n % 2^32) cur len = .ok (s'.pkt, s'.mem) ∧
      Framed t s'.pkt s'.currentOption ∧ s.currentOption < s'.currentOption ∧
      s'.optionNumber = n % 2^32 := by
  obtain ⟨k, hk⟩ := Nat.exists_eq_add_of_lt hlt
  have hk : dataLen = s.currentOption + 1 + k := by omega
  have e1 : dataLen - s.currentOption = k + 1 := by omega
  by_cases hx : ∃ d n r, takeHeader (s.mem s.currentOption)
      (read s.mem (s.currentOption + 1) k) = some (d, n, r) ∧ n ≤ r.length
  · obtain ⟨d, n, r, hr, hn⟩ := hx
    have hdec := decode_entry number _ _ hb hr hn
    obtain ⟨j, hj, hh, rfl⟩ := headerAt_eq hr
    rw [length_read] at hn
    rw [read_drop _ _ _ _ hn, read_take _ _ _ _ hn] at hdec
    rw [parseStep_option cfg hb hh, if_neg (by omega)] at h
    have hnum1 : (s.optionNumber + d) % 2^32 = (number + d) % 2^32 := by rw [hnum, Nat.mod_add_mod]
    rw [hnum1] at h
    split at h
    · exact absurd h (by simp)
    · rename_i pkt m hpo
      obtain ⟨rfl, rfl⟩ := Prod.mk.inj (Except.ok.inj h)
      obtain ⟨hframed, hmem⟩ := parseOption_framed (hp.markOption _) (by omega) hpo
      -- the rest of the datagram is as it was
      have hrest : read s.mem (s.currentOption + 1 + j + n) (k - j - n)
          = read m (s.currentOption + 1 + j + n) (dataLen - (s.currentOption + 1 + j + n)) := by
        rw [show k - j - n = dataLen - (s.currentOption + 1 + j + n) by omega]
        exact read_congr fun a ha _ => (hmem a ha).symm
      rw [hrest] at hdec
      refine ⟨rfl, number + d, s.currentOption + 1 + j, n, ?_, hpo, hframed, ?_, rfl⟩
      · rw [e1, read_succ]
        exact hdec
      · show s.currentOption < s.currentOption + 1 + j + n
        omega
  · have hx' : ∀ d n r, takeHeader (s.mem s.currentOption)
        (read s.mem (s.currentOption + 1) k) = some (d, n, r) → r.length < n := fun d n r hr => by
      by_contra hc
      exact hx ⟨d, n, r, hr, by omega⟩
    rw [parseStep_truncated cfg hb hk hx'] at h
    exact absurd h (by simp)

/-- The loop goes through the entries of the delta code.  `J` is kept by every option, and says which
entries have been handled; the payload is the one behind the options. -/
theorem parseLoop_follows (J : List (Nat × List UInt8) → Packet Slice → Prop)
    (hoption : ∀ done p m n cur len p' m', J done p →
      parseOption (markOption p (n % 2^32)) m (n % 2^32) cur len = .ok (p', m') →
        J (done ++ [(n, read m cur len)]) p')
    (hpayload : ∀ done p payload, J done p → J done { p with payload := payload }) :
    ∀ fuel (s s' : ParseState) (number : Nat) (done : List (Nat × List UInt8)),
    Framed t s.pkt s.currentOption → dataLen ≤ s.currentOption + fuel →
    s.optionNumber = number % 2^32 → J done s.pkt → parseLoop cfg dataLen fuel s = .ok s' →
    J (done ++ (decode number (read s.mem s.currentOption (dataLen - s.currentOption))).1) s'.pkt ∧
      s'.message.payload = keptPayload cfg t
        (endingPayload (decode number (read s.mem s.currentOption (dataLen - s.currentOption))).2) := by
  have hend : ∀ (s : ParseState) (number : Nat) (done : List (Nat × List UInt8)),
      Framed t s.pkt s.currentOption → dataLen - s.currentOption = 0 → J done s.pkt →
      J (done ++ (decode number (read s.mem s.currentOption (dataLen - s.currentOption))).1) s.pkt ∧
        s.message.payload = keptPayload cfg t
          (endingPayload (decode number (read s.mem s.currentOption (dataLen - s.currentOption))).2) := by
    intro s number done hp e hj
    rw [e, read_zero, decode_nil, framed_payload hp, List.append_nil]
    exact ⟨hj, (keptPayload_nil cfg t).symm⟩
  intro fuel
  induction fuel with
  | zero =>
    intro s s' number done hp hf _ hj h
    obtain rfl : s = s' := Except.ok.inj h
    exact hend s number done hp (by omega) hj
  | succ fuel ih =>
    intro s s' number done hp hf hnum hj h
    unfold parseLoop at h
    by_cases hlt : s.currentOption < dataLen
    · rw [if_pos hlt] at h
      by_cases hb : 240 ≤ (s.mem s.currentOption).toNat
      · obtain ⟨s1, hs1, hm⟩ := parseStep_payload cfg dataLen hp hb
        obtain ⟨payload, hpkt⟩ := parseStep_break hs1
        rw [hs1] at h
        obtain rfl : s1 = s' := Except.ok.inj h
        obtain ⟨k, hk⟩ := Nat.exists_eq_add_of_lt hlt
        rw [show dataLen - s.currentOption = k + 1 by omega, read_succ, hm,
          show dataLen - (s.currentOption + 1) = k by omega, decode_marker _ _ _ hb,
          List.append_nil, hpkt]
        exact ⟨hpayload done _ payload hj, rfl⟩
      · cases hs : parseStep cfg dataLen s with
        | error e =>
          rw [hs] at h
          exact absurd h (by simp)
        | ok r =>
          obtain ⟨s1, stop⟩ := r
          obtain ⟨rfl, n, cur, len, hdec, hpo, hp1, hlt1, hnum1⟩ :=
            parseStep_follows hp hlt (by omega) hnum hs
          rw [hs] at h
          have hnext := ih s1 s' n (done ++ [(n, read s.mem cur len)]) hp1 (by omega) hnum1
            (hoption done s.pkt s.mem n cur len s1.pkt s1.mem hj hpo) h
          rw [List.append_assoc] at hnext
          rw [hdec]
          exact hnext
    · rw [if_neg hlt] at h
      obtain rfl : s = s' := Except.ok.inj h
      exact hend s number done hp (by omega) hj

end

/-! ## Block options and queries -/

/-- a Block option that has not been set, or that some option value gave -/
def BlockOption.Parsed (b : BlockOption) : Prop := b = .zero ∨ ∃ v, b = parseBlockOption v

/-- number, size and offset fit together; the offset is a `uint32_t` -/
theorem BlockOption.Parsed.fields {b : BlockOption} (h : b.Parsed) :
    b.offset.toNat = b.num.toNat * b.size.toNat % 2^32 ∧
      (b = .zero ∨ ∃ e < 8, b.size.toNat = 16 * 2^e) := by
  rcases h with rfl | ⟨v, rfl⟩
  · exact ⟨rfl, Or.inl rfl⟩
  · obtain ⟨h1, _, h2, h3⟩ := parseBlockOption_eq v (v.toNat / 16) (v.toNat / 8 % 2) (v.toNat % 8)
      (by omega) (by omega) (by omega)
    exact ⟨by rw [h3, h1, h2], Or.inr ⟨_, by omega, h2⟩⟩

/-- `2^32` is a multiple of a size on the wire, and so is the offset -/
theorem BlockOption.Parsed.aligned {b : BlockOption} (h : b.Parsed) {e : Nat} (he : e < 8)
    (hz : b.size.toNat = 16 * 2^e) : b.size.toNat ∣ 2^32 ∧ b.size.toNat ∣ b.offset.toNat := by
  have hdvd : b.size.toNat ∣ 2^32 := by
    rw [hz, show 16 * 2^e = 2^(4 + e) from by rw [Nat.pow_add]]
    exact Nat.pow_dvd_pow 2 (by omega)
  refine ⟨hdvd, ?_⟩
  rw [h.fields.1]
  exact (Nat.dvd_mod_iff hdvd).mpr (Nat.dvd_mul_left _ _)

/-- the number of a Block option has 28 bits -/
theorem BlockOption.Parsed.num_lt {b : BlockOption} (h : b.Parsed) : b.num.toNat < 2^28 := by
  rcases h with rfl | ⟨v, rfl⟩
  · decide
  · have hv := v.toNat_lt
    obtain ⟨h1, _, _, _⟩ := parseBlockOption_eq v (v.toNat / 16) (v.toNat / 8 % 2) (v.toNat % 8)
      (by omega) (by omega) (by omega)
    rw [h1]
    omega

structure GenuineSlices (p : Packet Slice) : Prop where
  block1 : p.block1.Parsed
  block2 : p.block2.Parsed
  query : p.uriQuery.len ≠ 0 → coapOptionUriQuery ∈ p.options

/-- what the engine uses of a message being a parsed one -/
structure Genuine (p : Message) : Prop where
  block1 : p.block1.Parsed
  block2 : p.block2.Parsed
  query : p.uriQuery ≠ [] → coapOptionUriQuery ∈ p.options

theorem Genuine.getBlock1 {p : Message} (h : Genuine p) {b : BlockOption}
    (hb : coapGetHeaderBlock1 p = some b) : b.Parsed := by
  unfold coapGetHeaderBlock1 at hb
  split at hb
  · obtain rfl := Option.some.inj hb
    exact h.block1
  · exact absurd hb (by simp)

theorem Genuine.getBlock2 {p : Message} (h : Genuine p) {b : BlockOption}
    (hb : coapGetHeaderBlock2 p = some b) : b.Parsed := by
  unfold coapGetHeaderBlock2 at hb
  split at hb
  · obtain rfl := Option.some.inj hb
    exact h.block2
  · exact absurd hb (by simp)

theorem BlockOption.Parsed.copied {b b' : BlockOption} {v : UInt32} {c : Prop} [Decidable c]
    (h : b.Parsed) (hb : b' = if c then parseBlockOption v else b) : b'.Parsed := by
  rw [hb]
  split
  · exact Or.inr ⟨v, rfl⟩
  · exact h

theorem coapParseSignalOptions_blocks {σ : Type} (p : Packet σ) (n : Nat) (v : List UInt8)
    (str : σ) :
    (coapParseSignalOptions p n v str).block1 = p.block1 ∧
      (coapParseSignalOptions p n v str).block2 = p.block2 ∧
      (coapParseSignalOptions p n v str).options = p.options := by
  unfold coapParseSignalOptions
  split_ifs <;> exact ⟨rfl, rfl, rfl⟩

theorem GenuineSlices.markOption {p : Packet Slice} (h : GenuineSlices p) (n : Nat) :
    GenuineSlices (Coap.markOption p n) := by
  unfold Coap.markOption
  split_ifs
  · exact ⟨h.block1, h.block2, fun hq => Finset.mem_insert_of_mem (h.query hq)⟩
  · exact h

theorem mem_markOption {σ : Type} (p : Packet σ) {n : Nat} (hn : n ≤ coapOptionSize1) :
    n ∈ (markOption p n).options := by
  unfold markOption
  rw [if_pos hn]
  exact Finset.mem_insert_self _ _

theorem parseOption_genuine {p p' : Packet Slice} {m m' : Nat → UInt8} {n cur len : Nat}
    (hp : GenuineSlices p) (h : parseOption (markOption p n) m n cur len = .ok (p', m')) :
    GenuineSlices p' := by
  have hm := hp.markOption n
  have hin : n ≤ coapOptionSize1 → n ∈ (markOption p n).options := fun hn => mem_markOption p hn
  generalize markOption p n = q at h hm hin
  unfold parseOption at h
  split_ifs at h with _ _ hq
  · obtain ⟨rfl, rfl⟩ := Prod.mk.inj (Except.ok.inj h)
    obtain ⟨h1, h2, h3⟩ := coapParseSignalOptions_blocks q n (read m cur len) (⟨cur, len⟩ : Slice)
    obtain ⟨_, h4, _, _, _⟩ := coapParseSignalOptions_strings q n (read m cur len) ⟨cur, len⟩
    exact ⟨h1 ▸ hm.block1, h2 ▸ hm.block2, by rw [h3, h4]; exact hm.query⟩
  · obtain ⟨rfl, rfl⟩ := Prod.mk.inj (Except.ok.inj h)
    exact ⟨hm.block1, hm.block2, hm.query⟩
  · obtain ⟨rfl, rfl⟩ := Prod.mk.inj (Except.ok.inj h)
    exact ⟨hm.block1, hm.block2, fun _ => hq ▸ hin (by rw [hq]; decide)⟩
  · split at h
    · exact absurd h (by simp)
    · rename_i f hf
      obtain ⟨rfl, rfl⟩ := Prod.mk.inj (Except.ok.inj h)
      have hc := parseValueOption_ok _ _ _ _ hf
      refine ⟨hm.block1.copied hc.block1, hm.block2.copied hc.block2, fun hq => ?_⟩
      show coapOptionUriQuery ∈ f.options
      rw [hc.options]
      exact hm.query hq

theorem parseLoop_genuine {cfg : Config} {dataLen fuel : Nat} {s s' : ParseState}
    (hs : GenuineSlices s.pkt) (h : parseLoop cfg dataLen fuel s = .ok s') :
    Genuine s'.message := by
  have hg := parseLoop_invariant GenuineSlices (fun _ _ _ _ _ _ _ hp ho => parseOption_genuine hp ho)
    (fun _ _ hp => ⟨hp.block1, hp.block2, hp.query⟩) fuel s s' hs h
  refine ⟨hg.block1, hg.block2, fun hq => hg.query fun h0 => hq ?_⟩
  exact Slice.bytes_of_len s'.mem h0

/-! ## messages -/

/-- a packet with nothing in it but its header -/
structure Bare (p : Packet Slice) : Prop where
  uriPath : p.uriPath = .null
  uriQuery : p.uriQuery = .null
  payload : p.payload = .null
  block1 : p.block1 = .zero
  block2 : p.block2 = .zero

/-- what every option keeps holds of the parsed message, with all its entries -/
theorem coapParseTokenOption_follows (J : List (Nat × List UInt8) → Packet Slice → Prop)
    (hoption : ∀ done p m n cur len p' m', J done p →
      parseOption (markOption p (n % 2^32)) m (n % 2^32) cur len = .ok (p', m') →
        J (done ++ [(n, read m cur len)]) p')
    (hpayload : ∀ done p payload, J done p → J done { p with payload := payload })
    {cfg : Config} {p : Packet Slice} {tokenLen : Nat}
    {data : Nat → UInt8} {dataLen cur : Nat} {q : Message} (hp : Bare p)
    (h0 : J [] { p with token := read data cur tokenLen, options := ∅ })
    (h : coapParseTokenOption cfg p tokenLen data dataLen cur = .ok q) :
    Genuine q ∧ q.payload = keptPayload cfg p.transportType (endingPayload
      (decode 0 (read data (cur + tokenLen) (dataLen - (cur + tokenLen)))).2) ∧
      ∃ pkt, J (decode 0 (read data (cur + tokenLen) (dataLen - (cur + tokenLen)))).1 pkt ∧
        q.toFields = pkt.toFields := by
  unfold coapParseTokenOption at h
  dsimp only at h
  generalize hs0 : (ParseState.mk _ data (cur + tokenLen) 0) = s0 at h
  cases hl : parseLoop cfg dataLen dataLen s0 with
  | error e =>
    rw [hl] at h
    exact absurd h (by simp [Except.map])
  | ok s1 =>
    rw [hl] at h
    obtain rfl : s1.message = q := Except.ok.inj h
    have hnull : Slice.null.fin = 0 := rfl
    subst hs0
    have hgen : GenuineSlices { p with token := read data cur tokenLen, options := ∅ } :=
      ⟨Or.inl hp.block1, Or.inl hp.block2, fun hq => absurd (by rw [hp.uriQuery]; rfl) hq⟩
    have hframe : Framed p.transportType { p with token := read data cur tokenLen, options := ∅ }
        (cur + tokenLen) := by
      refine ⟨rfl, ?_, ?_, ?_⟩
      · show p.uriPath.fin ≤ _
        rw [hp.uriPath, hnull]
        exact Nat.zero_le _
      · show p.uriQuery.fin ≤ _
        rw [hp.uriQuery, hnull]
        exact Nat.zero_le _
      · show p.payload.len = 0
        rw [hp.payload]
        rfl
    obtain ⟨hj, hpay⟩ := parseLoop_follows J hoption hpayload dataLen _ s1 0 [] hframe
      (Nat.le_add_left _ _) rfl h0 hl
    exact ⟨parseLoop_genuine hgen hl, hpay, s1.pkt, hj, rfl⟩

theorem coapParseTokenOption_received {cfg : Config} {p : Packet Slice} {tokenLen : Nat}
    {data : Nat → UInt8} {dataLen cur : Nat} {q : Message} (hp : Bare p)
    (h : coapParseTokenOption cfg p tokenLen data dataLen cur = .ok q) :
    Genuine q ∧ q.payload = keptPayload cfg p.transportType (endingPayload
      (decode 0 (read data (cur + tokenLen) (dataLen - (cur + tokenLen)))).2) := by
  obtain ⟨hg, hpay, _⟩ := coapParseTokenOption_follows (fun _ _ => True)
    (fun _ _ _ _ _ _ _ _ _ _ => trivial) (fun _ _ _ _ => trivial) hp trivial h
  exact ⟨hg, hpay⟩

theorem coapUdpParseMessage_received {cfg : Config} {data : Nat → UInt8} {dataLen : UInt16}
    {q : Message} (h : coapUdpParseMessage cfg data dataLen = .ok q) :
    Genuine q ∧ q.payload = (endingPayload (decode 0 (read data
      (coapHeaderLen + tokenLength (data 0))
      (dataLen.toNat - (coapHeaderLen + tokenLength (data 0))))).2).take cfg.blockSize := by
  unfold coapUdpParseMessage at h
  dsimp only at h
  split at h
  · exact absurd h (by simp)
  · split at h
    · exact absurd h (by simp)
    · exact coapParseTokenOption_received ⟨rfl, rfl, rfl, rfl, rfl⟩ h

theorem coapTcpParseMessage_received {cfg : Config} {data : Nat → UInt8} {dataLen : UInt32}
    {q : Message} (h : coapTcpParseMessage cfg data dataLen = .ok q) :
    Genuine q ∧ q.payload = endingPayload (decode 0 (read data
      (coapTcpDefaultHeaderLen + (coapTcpParseMessageLength data).2 + tokenLength (data 0))
      (dataLen.toNat - (coapTcpDefaultHeaderLen + (coapTcpParseMessageLength data).2 +
        tokenLength (data 0))))).2 := by
  unfold coapTcpParseMessage at h
  dsimp only at h
  split at h
  · exact absurd h (by simp)
  · exact coapParseTokenOption_received ⟨rfl, rfl, rfl, rfl, rfl⟩ h

end Coap
