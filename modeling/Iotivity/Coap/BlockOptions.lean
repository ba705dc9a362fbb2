import Iotivity.Coap.Received

/-!
# Block options on the wire

`coap_parse_int_option` folds an option value of any length into 32 bits; number, size and offset of a
Block option are bit fields of the result.

* `BlocksExact`      number, size and offset of the Block options of a message are in range and fit
                     together as natural numbers;
* `BlockValuesFit`   the last Block1 and the last Block2 option of a message have a zero as their
                     fourth byte from the end, and the message is not a signal message, which has
                     options of its own under these numbers;
* `blocksExact_iff`  the two are the same for every message that is accepted.
-/

namespace Coap
open Memory DeltaCode

/-! ## definitions -/

structure BlockOption.Exact (o : BlockOption) : Prop where
  num : o.num.toNat ≤ 2^20 - 1
  size : ∃ e, 4 ≤ e ∧ e ≤ 11 ∧ o.size.toNat = 2^e
  offset : o.offset.toNat = o.num.toNat * o.size.toNat

def BlocksExact (m : Message) : Prop :=
  ∀ o, coapGetHeaderBlock1 m = some o ∨ coapGetHeaderBlock2 m = some o → o.Exact

/-- the value of the last option with this number; option numbers are 32 bits wide -/
def lastValue (n : Nat) (os : List (Nat × List UInt8)) : Option (List UInt8) :=
  ((os.filter fun o => o.1 % 2^32 = n).getLast?).map Prod.snd

/-- nothing but zero in the fourth byte from the end -/
def fitsThreeBytes (v : List UInt8) : Prop := v.reverse.getD 3 0 = 0

/-- `signal`: the code of the message is one of a signal message -/
def BlockValuesFit (signal : Bool) (os : List (Nat × List UInt8)) : Prop :=
  ∀ n, n = coapOptionBlock1 ∨ n = coapOptionBlock2 → ∀ v, lastValue n os = some v →
    signal = false ∧ fitsThreeBytes v

/-- the options of a UDP datagram -/
def udpOptions (data : Nat → UInt8) (dataLen : UInt16) : List (Nat × List UInt8) :=
  let start := coapHeaderLen + tokenLength (data 0)
  (decode 0 (read data start (dataLen.toNat - start))).1

/-- the options of a TCP message -/
def tcpOptions (data : Nat → UInt8) (dataLen : UInt32) : List (Nat × List UInt8) :=
  let start := coapTcpDefaultHeaderLen + (coapTcpParseMessageLength data).2 + tokenLength (data 0)
  (decode 0 (read data start (dataLen.toNat - start))).1

/-! ## integers -/

/-- a byte of an option value, counted from its end, is a byte of the integer -/
theorem coapParseIntOption_byte (v : List UInt8) : ∀ k, k < 4 →
    (coapParseIntOption v).toNat / 256^k % 256 = (v.reverse.getD k 0).toNat := by
  induction v using List.reverseRecOn with
  | nil =>
    intro k _
    show 0 / 256^k % 256 = 0
    rw [Nat.zero_div]
  | append_singleton v b ih =>
    intro k hk
    have hb := b.toNat_lt
    have hfold : (coapParseIntOption (v ++ [b])).toNat
        = (coapParseIntOption v).toNat % 2^24 * 256 + b.toNat := by
      unfold coapParseIntOption
      rw [List.foldl_append]
      exact toNat_shift_or _ _
    rw [hfold, List.reverse_append, List.reverse_singleton, List.singleton_append]
    cases k with
    | zero =>
      show _ = b.toNat
      omega
    | succ k =>
      have h1 := ih k (by omega)
      rw [List.getD_cons_succ, ← h1]
      have hk3 : k < 3 := by omega
      interval_cases k <;> omega

theorem fitsThreeBytes_iff (v : List UInt8) :
    fitsThreeBytes v ↔ (coapParseIntOption v).toNat < 2^24 := by
  have h := coapParseIntOption_byte v 3 (by decide)
  have hlt := (coapParseIntOption v).toNat_lt
  unfold fitsThreeBytes
  rw [← UInt8.toNat_inj, ← h]
  show _ = 0 ↔ _
  omega

/-- a Block option is exact if its value has three bytes -/
theorem parseBlockOption_exact_iff (v : UInt32) : (parseBlockOption v).Exact ↔ v.toNat < 2^24 := by
  obtain ⟨h1, _, h2, h3⟩ := parseBlockOption_eq v (v.toNat / 16) (v.toNat / 8 % 2) (v.toNat % 8)
    (by omega) (by omega) (by omega)
  constructor
  · intro h
    have hn := h.num
    omega
  · intro hv
    have hpow : 2^(v.toNat % 8) ≤ 2^7 := Nat.pow_le_pow_right (by decide) (by omega)
    have hmul : v.toNat / 16 * (16 * 2^(v.toNat % 8)) ≤ (2^20 - 1) * (16 * 2^7) :=
      Nat.mul_le_mul (by omega) (by omega)
    refine ⟨by omega, ⟨4 + v.toNat % 8, by omega, by omega, ?_⟩, ?_⟩
    · rw [h2, Nat.pow_add]
    · rw [h3, h1, h2, Nat.mod_eq_of_lt (by omega)]

theorem zero_not_exact : ¬ BlockOption.zero.Exact := by
  intro h
  obtain ⟨e, _, _, he⟩ := h.size
  exact absurd he (Nat.two_pow_pos e).ne

/-! ## the last option of a number -/

theorem lastValue_snoc (n : Nat) (os : List (Nat × List UInt8)) (o : Nat × List UInt8) :
    lastValue n (os ++ [o]) = if o.1 % 2^32 = n then some o.2 else lastValue n os := by
  unfold lastValue
  rw [List.filter_append]
  by_cases h : o.1 % 2^32 = n
  · rw [if_pos h, List.filter_singleton, decide_eq_true h, cond_true, List.getLast?_append]
    rfl
  · rw [if_neg h, List.filter_singleton, decide_eq_false h, cond_false, List.append_nil]

/-! ## one option -/

/-- the Block option that the last value of its number gives -/
def wireBlock (signal : Bool) (v : Option (List UInt8)) : BlockOption :=
  match v with
  | none => .zero
  | some v => if signal then .zero else parseBlockOption (coapParseIntOption v)

/-- the Block options of a packet are the last ones among `done` -/
structure BlocksOf (code : UInt8) (signal : Bool) (done : List (Nat × List UInt8)) (p : Packet Slice) :
    Prop where
  code : p.code = code
  set1 : coapOptionBlock1 ∈ p.options ↔ (lastValue coapOptionBlock1 done).isSome
  set2 : coapOptionBlock2 ∈ p.options ↔ (lastValue coapOptionBlock2 done).isSome
  block1 : p.block1 = wireBlock signal (lastValue coapOptionBlock1 done)
  block2 : p.block2 = wireBlock signal (lastValue coapOptionBlock2 done)

/-- what an option does to the fields that matter here -/
structure Handled (p : Packet Slice) (k : Nat) (v : List UInt8) (p' : Packet Slice) : Prop where
  code : p'.code = p.code
  options : p'.options = p.options
  block1 : p'.block1 = if k = coapOptionBlock1 ∧ coapCheckSignalMessage p = false then
    parseBlockOption (coapParseIntOption v) else p.block1
  block2 : p'.block2 = if k = coapOptionBlock2 ∧ coapCheckSignalMessage p = false then
    parseBlockOption (coapParseIntOption v) else p.block2

theorem parseOption_handled {p p' : Packet Slice} {m m' : Nat → UInt8} {k cur len : Nat}
    (h : parseOption p m k cur len = .ok (p', m')) : Handled p k (read m cur len) p' := by
  unfold parseOption at h
  split_ifs at h with hs h1 h2
  · obtain ⟨rfl, rfl⟩ := Prod.mk.inj (Except.ok.inj h)
    obtain ⟨e1, e2, e3⟩ := coapParseSignalOptions_blocks p k (read m cur len) (⟨cur, len⟩ : Slice)
    have hno : ∀ n, ¬ (k = n ∧ coapCheckSignalMessage p = false) := by
      rintro n ⟨_, hn⟩
      rw [hs] at hn
      exact absurd hn (by decide)
    refine ⟨?_, e3, ?_, ?_⟩
    · unfold coapParseSignalOptions
      split_ifs <;> rfl
    · rw [if_neg (hno _), e1]
    · rw [if_neg (hno _), e2]
  · obtain ⟨rfl, rfl⟩ := Prod.mk.inj (Except.ok.inj h)
    subst h1
    exact ⟨rfl, rfl, rfl, rfl⟩
  · obtain ⟨rfl, rfl⟩ := Prod.mk.inj (Except.ok.inj h)
    subst h2
    exact ⟨rfl, rfl, rfl, rfl⟩
  · have hf : coapCheckSignalMessage p = false := by simpa using hs
    split at h
    · exact absurd h (by simp)
    · rename_i f hv
      obtain ⟨rfl, rfl⟩ := Prod.mk.inj (Except.ok.inj h)
      have hc := parseValueOption_ok _ _ _ _ hv
      refine ⟨hc.code, hc.options, ?_, ?_⟩
      · rw [hf]
        simpa using hc.block1
      · rw [hf]
        simpa using hc.block2

theorem wireBlock_signal (v : Option (List UInt8)) : wireBlock true v = .zero := by
  cases v <;> rfl

/-- a Block option of the packet after one more option -/
theorem wireBlock_snoc (signal : Bool) (n : Nat) (done : List (Nat × List UInt8))
    (o : Nat × List UInt8) :
    wireBlock signal (lastValue n (done ++ [o])) =
      if o.1 % 2^32 = n ∧ signal = false then parseBlockOption (coapParseIntOption o.2)
      else wireBlock signal (lastValue n done) := by
  rw [lastValue_snoc]
  cases signal
  · by_cases h : o.1 % 2^32 = n
    · rw [if_pos h, if_pos ⟨h, rfl⟩]
      rfl
    · rw [if_neg h, if_neg fun hc => h hc.1]
  · rw [wireBlock_signal, wireBlock_signal, if_neg (by simp)]

theorem mem_markOption_iff {σ : Type} (p : Packet σ) (k : Nat) {n : Nat} (hn : n ≤ coapOptionSize1) :
    n ∈ (markOption p k).options ↔ k = n ∨ n ∈ p.options := by
  unfold markOption
  split
  · show n ∈ insert k p.options ↔ _
    rw [Finset.mem_insert, eq_comm]
  · exact ⟨Or.inr, fun h => h.resolve_left fun e => by omega⟩

theorem isSome_lastValue_snoc (n : Nat) (done : List (Nat × List UInt8)) (o : Nat × List UInt8) :
    (lastValue n (done ++ [o])).isSome ↔ o.1 % 2^32 = n ∨ (lastValue n done).isSome := by
  rw [lastValue_snoc]
  split
  · exact iff_of_true rfl (Or.inl ‹_›)
  · exact ⟨Or.inr, fun h => h.resolve_left ‹_›⟩

theorem markOption_fields {σ : Type} (p : Packet σ) (k : Nat) :
    (markOption p k).code = p.code ∧ (markOption p k).block1 = p.block1 ∧
      (markOption p k).block2 = p.block2 := by
  unfold markOption
  split <;> exact ⟨rfl, rfl, rfl⟩

/-- the code of a signal message -/
def signalCode (code : UInt8) : Bool :=
  code == csm701 || code == ping702 || code == pong703 || code == release704 || code == abort705

theorem BlocksOf.option {code : UInt8} {done : List (Nat × List UInt8)} {p p' : Packet Slice}
    {m m' : Nat → UInt8} {n cur len : Nat} (h : BlocksOf code (signalCode code) done p)
    (ho : parseOption (markOption p (n % 2^32)) m (n % 2^32) cur len = .ok (p', m')) :
    BlocksOf code (signalCode code) (done ++ [(n, read m cur len)]) p' := by
  have hh := parseOption_handled ho
  obtain ⟨hcode, hb1, hb2⟩ := markOption_fields p (n % 2^32)
  have hsig : coapCheckSignalMessage (markOption p (n % 2^32)) = signalCode code := by
    unfold coapCheckSignalMessage
    rw [hcode, h.code]
    rfl
  refine ⟨hh.code.trans (hcode.trans h.code), ?_, ?_, ?_, ?_⟩
  · rw [hh.options, mem_markOption_iff p _ (by decide), h.set1, isSome_lastValue_snoc]
  · rw [hh.options, mem_markOption_iff p _ (by decide), h.set2, isSome_lastValue_snoc]
  · rw [hh.block1, hsig, hb1, h.block1, wireBlock_snoc]
  · rw [hh.block2, hsig, hb2, h.block2, wireBlock_snoc]

/-! ## messages -/

theorem wireBlock_exact_iff (signal : Bool) (v : Option (List UInt8)) :
    (v.isSome → (wireBlock signal v).Exact) ↔
      ∀ x, v = some x → signal = false ∧ fitsThreeBytes x := by
  cases v with
  | none => simp
  | some x =>
    cases signal with
    | true =>
      refine iff_of_false (fun h => zero_not_exact (h rfl)) fun h => ?_
      exact absurd (h x rfl).1 (by decide)
    | false =>
      refine Iff.trans ⟨fun h => h rfl, fun h _ => h⟩ ((parseBlockOption_exact_iff _).trans ?_)
      rw [← fitsThreeBytes_iff]
      refine ⟨fun h y hy => ⟨rfl, ?_⟩, fun h => (h x rfl).2⟩
      rw [← Option.some.inj hy]
      exact h

/-- the Block options of an accepted message are the last ones on the wire -/
theorem coapParseTokenOption_blocks {cfg : Config} {p : Packet Slice} {tokenLen : Nat}
    {data : Nat → UInt8} {dataLen cur : Nat} {q : Message} (hp : Bare p)
    (h : coapParseTokenOption cfg p tokenLen data dataLen cur = .ok q) :
    BlocksExact q ↔ BlockValuesFit (signalCode p.code)
      (decode 0 (read data (cur + tokenLen) (dataLen - (cur + tokenLen)))).1 := by
  obtain ⟨_, _, pkt, hj, hq⟩ := coapParseTokenOption_follows (BlocksOf p.code (signalCode p.code))
    (fun _ _ _ _ _ _ _ _ hb ho => hb.option ho)
    (fun _ _ _ hb => ⟨hb.code, hb.set1, hb.set2, hb.block1, hb.block2⟩) hp
    ⟨rfl, by simp [lastValue], by simp [lastValue], hp.block1, hp.block2⟩ h
  generalize (decode 0 (read data (cur + tokenLen) (dataLen - (cur + tokenLen)))).1 = os at hj ⊢
  have hget1 : ∀ o, coapGetHeaderBlock1 q = some o ↔
      (lastValue coapOptionBlock1 os).isSome ∧ pkt.block1 = o := by
    intro o
    unfold coapGetHeaderBlock1 isOption
    rw [hq, ← hj.set1]
    by_cases hin : coapOptionBlock1 ∈ pkt.options <;> simp [hin]
  have hget2 : ∀ o, coapGetHeaderBlock2 q = some o ↔
      (lastValue coapOptionBlock2 os).isSome ∧ pkt.block2 = o := by
    intro o
    unfold coapGetHeaderBlock2 isOption
    rw [hq, ← hj.set2]
    by_cases hin : coapOptionBlock2 ∈ pkt.options <;> simp [hin]
  have h1 := wireBlock_exact_iff (signalCode p.code) (lastValue coapOptionBlock1 os)
  have h2 := wireBlock_exact_iff (signalCode p.code) (lastValue coapOptionBlock2 os)
  rw [← hj.block1] at h1
  rw [← hj.block2] at h2
  constructor
  · intro h n hn
    rcases hn with rfl | rfl
    · exact h1.mp fun hs => h _ (Or.inl ((hget1 _).mpr ⟨hs, rfl⟩))
    · exact h2.mp fun hs => h _ (Or.inr ((hget2 _).mpr ⟨hs, rfl⟩))
  · intro h o ho
    rcases ho with ho | ho
    · obtain ⟨hs, rfl⟩ := (hget1 o).mp ho
      exact h1.mpr (h _ (Or.inl rfl)) hs
    · obtain ⟨hs, rfl⟩ := (hget2 o).mp ho
      exact h2.mpr (h _ (Or.inr rfl)) hs

/-! ## the main result -/

/-- **Block offsets.**  Number, size and offset of the Block options of an accepted message are exact if
and only if the fourth byte of their values from the end, if there is one, is zero; what stands in
front of it is lost. -/
theorem blocksExact_iff (cfg : Config) (data : Nat → UInt8) (q : Message) :
    (∀ dataLen, coapUdpParseMessage cfg data dataLen = .ok q →
      (BlocksExact q ↔ BlockValuesFit (signalCode (data 1)) (udpOptions data dataLen))) ∧
    (∀ dataLen, coapTcpParseMessage cfg data dataLen = .ok q →
      (BlocksExact q ↔ BlockValuesFit
        (signalCode (data (1 + (coapTcpParseMessageLength data).2))) (tcpOptions data dataLen))) := by
  constructor
  · intro dataLen h
    unfold coapUdpParseMessage at h
    dsimp only at h
    split at h
    · exact absurd h (by simp)
    · split at h
      · exact absurd h (by simp)
      · exact coapParseTokenOption_blocks ⟨rfl, rfl, rfl, rfl, rfl⟩ h
  · intro dataLen h
    unfold coapTcpParseMessage at h
    dsimp only at h
    split at h
    · exact absurd h (by simp)
    · exact coapParseTokenOption_blocks ⟨rfl, rfl, rfl, rfl, rfl⟩ h

/-- POST with a Block1 option of one byte -/
def shortBlock : List UInt8 := [0x40, 0x02, 0x00, 0x01, 0xD1, 0x0E, 0x16]

theorem blocksExact_shortBlock : ∃ q,
    coapUdpParseMessage defaultConfig (fun i => shortBlock.getD i 0) 7 = .ok q ∧ BlocksExact q ∧
      ∃ o, coapGetHeaderBlock1 q = some o := by
  have hopt : udpOptions (fun i => shortBlock.getD i 0) 7 = [(27, [0x16])] := by
    show (decode 0 [0xD1, 0x0E, 0x16]).1 = _
    simp [decode, takeHeader, takeField]
  refine ⟨_, rfl, ((blocksExact_iff defaultConfig (fun i => shortBlock.getD i 0) _).1 7 rfl).mpr
    fun n hn v hv => ⟨rfl, ?_⟩, _, rfl⟩
  rw [hopt] at hv
  rcases hn with rfl | rfl
  · obtain rfl : [0x16] = v := Option.some.inj hv
    rfl
  · exact absurd hv (by simp [lastValue, coapOptionBlock2])

/-- POST with a Block1 option of four bytes, number `2^21` and size `2048` -/
def longBlock : List UInt8 := [0x40, 0x02, 0x00, 0x01, 0xD4, 0x0E, 0x02, 0x00, 0x00, 0x07]

/-- a block number of more than 20 bits is accepted, and its offset of `2^32` is taken for zero -/
theorem not_blocksExact : ∃ q,
    coapUdpParseMessage defaultConfig (fun i => longBlock.getD i 0) 10 = .ok q ∧ ¬ BlocksExact q ∧
      ∃ o, coapGetHeaderBlock1 q = some o ∧ o.num.toNat = 2^21 ∧ o.size = 2048 ∧ o.offset = 0 := by
  refine ⟨_, rfl, fun h => ?_, _, rfl, rfl, rfl, rfl⟩
  exact absurd (h _ (Or.inl rfl)).num (by decide)


end Coap
