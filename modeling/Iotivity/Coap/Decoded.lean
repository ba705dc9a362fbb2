import Iotivity.Coap.Parse
import Iotivity.Lib.DeltaCode

/-!
# What the parser reads

The option loop works with a cursor on the receive buffer and merges strings in place.  On the
level of byte strings it is simpler: decode the option list, feed the options one after the other
to the packet, then look at how the list ends.

* `listMessage`             parsing on that level;
* `parseLoop_eq`            the loop computes it;
* `coapParseTokenOption_eq` so does everything behind the header.

The hypothesis is that no option number reaches `2^32`.  The number is an `unsigned int` and would
wrap; `decode_number_le` shows that this takes a message of many kilobytes.
-/

set_option linter.unusedVariables false

namespace Coap
open Memory DeltaCode

/-! ## parsing byte strings -/

def mergeMultiOption (dst v : List UInt8) (separator : UInt8) : List UInt8 :=
  if 0 < dst.length then dst ++ separator :: v else v

/-- one option, numbered and with its value, its bit set already -/
def listMarkedOption (p : Message) (o : Nat × List UInt8) : Except Status Message :=
  if coapCheckSignalMessage p then .ok (coapParseSignalOptions p o.1 o.2 o.2)
  else if o.1 = coapOptionUriPath then
    .ok { p with uriPath := mergeMultiOption p.uriPath o.2 slash }
  else if o.1 = coapOptionUriQuery then
    .ok { p with uriQuery := mergeMultiOption p.uriQuery o.2 ampersand }
  else
    match parseValueOption p.toFields o.1 o.2 with
    | .error e => .error e
    | .ok q => .ok { p with toFields := q }

def listOption (p : Message) (o : Nat × List UInt8) : Except Status Message :=
  listMarkedOption (markOption p o.1) o

/-- the payload as it is kept: UDP cuts it to `OC_BLOCK_SIZE` -/
def keptPayload (cfg : Config) (t : TransportType) (b : List UInt8) : List UInt8 :=
  if t = .udp then b.take cfg.blockSize else b

def listEnding (cfg : Config) (p : Message) : Ending → Except Status Message
  | .empty => .ok p
  | .payload b => .ok { p with payload := keptPayload cfg p.transportType b }
  | .truncated => .error .badOption402

def listOptions (p : Message) : List (Nat × List UInt8) → Except Status Message
  | [] => .ok p
  | o :: os =>
    match listOption p o with
    | .error e => .error e
    | .ok p => listOptions p os

/-- options, then payload -/
def listMessage (cfg : Config) (p : Message) (d : List (Nat × List UInt8) × Ending) :
    Except Status Message :=
  match listOptions p d.1 with
  | .error e => .error e
  | .ok p => listEnding cfg p d.2

theorem listMessage_cons (cfg : Config) (p : Message) (o : Nat × List UInt8)
    (os : List (Nat × List UInt8)) (e : Ending) :
    listMessage cfg p (o :: os, e)
      = match listOption p o with
        | .error e => .error e
        | .ok p => listMessage cfg p (os, e) := by
  unfold listMessage
  simp only [listOptions]
  cases listOption p o <;> rfl

/-! ## packets with strings looked up -/

section
variable {σ τ : Type} (f : σ → τ)

theorem map_markOption (p : Packet σ) (n : Nat) :
    (markOption p n).map f = markOption (p.map f) n := by
  unfold markOption
  split_ifs <;> rfl

theorem map_coapParseSignalOptions (p : Packet σ) (n : Nat) (v : List UInt8) (str : σ) :
    (coapParseSignalOptions p n v str).map f
      = coapParseSignalOptions (p.map f) n v (f str) := by
  unfold coapParseSignalOptions
  simp only [apply_ite (Packet.map f)]
  rfl

end

/-! ## merging in place -/

/-- what merging leaves alone: everything in front of the end of the string, everything behind the
new part, and the whole memory if the string was empty -/
theorem coapMergeMultiOption_frame (dst : Slice) (m : Nat → UInt8) (cur n : Nat) (c : UInt8)
    (hcur : dst.fin < cur) (a : Nat) (ha : dst.len = 0 ∨ a < dst.fin ∨ cur + n ≤ a) :
    (coapMergeMultiOption dst m cur n c).2 a = m a := by
  unfold coapMergeMultiOption
  by_cases h : 0 < dst.len
  · rw [if_pos h]
    show write (write m dst.fin [c]) (dst.fin + 1) _ a = m a
    rcases ha with ha | ha | ha
    · omega
    · rw [write_apply_lt _ _ _ _ (by omega), write_apply_lt _ _ _ _ ha]
    · rw [write_apply_ge _ _ _ _ (by rw [length_read]; omega),
        write_apply_ge _ _ _ _ (by rw [List.length_singleton]; omega)]
  · rw [if_neg h]

theorem coapMergeMultiOption_fin (dst : Slice) (m : Nat → UInt8) (cur n : Nat) (c : UInt8)
    (hcur : dst.fin < cur) : (coapMergeMultiOption dst m cur n c).1.fin ≤ cur + n := by
  unfold coapMergeMultiOption
  by_cases h : 0 < dst.len
  · rw [if_pos h]
    show dst.ptr + (dst.len + 1 + n) ≤ cur + n
    have : dst.ptr + dst.len < cur := hcur
    omega
  · rw [if_neg h]
    exact le_rfl

theorem coapMergeMultiOption_ptr (dst : Slice) (m : Nat → UInt8) (cur n : Nat) (c : UInt8) :
    (coapMergeMultiOption dst m cur n c).1.ptr = if 0 < dst.len then dst.ptr else cur := by
  unfold coapMergeMultiOption
  split_ifs <;> rfl

/-- the merged string is the merge of the two strings -/
theorem coapMergeMultiOption_bytes (dst : Slice) (m : Nat → UInt8) (cur n : Nat) (c : UInt8)
    (hcur : dst.fin < cur) :
    (coapMergeMultiOption dst m cur n c).1.bytes (coapMergeMultiOption dst m cur n c).2
      = mergeMultiOption (dst.bytes m) (read m cur n) c := by
  unfold coapMergeMultiOption mergeMultiOption Slice.bytes
  rw [length_read]
  by_cases h : 0 < dst.len
  · rw [if_pos h, if_pos h]
    have h1 : read (write m dst.fin [c]) cur n = read m cur n :=
      read_write_disjoint _ _ _ _ _ (Or.inr (by rw [List.length_singleton]; omega))
    show read (write (write m dst.fin [c]) (dst.fin + 1) _) dst.ptr (dst.len + 1 + n) = _
    rw [h1]
    have h2 := write_append m dst.fin [c] (read m cur n)
    rw [List.length_singleton] at h2
    rw [← h2, Nat.add_assoc, read_add]
    congr 1
    · exact read_write_disjoint _ _ _ _ _ (Or.inl le_rfl)
    · have h3 := read_write_self m dst.fin ([c] ++ read m cur n)
      rw [List.length_append, List.length_singleton, length_read] at h3
      exact h3
  · rw [if_neg h, if_neg h]

/-! ## the loop invariant -/

/-- What holds in front of an option at `cur`, the previous option number being `number`: the
strings lie in front of `cur`, queries come behind paths, only signal messages have an alternative
address, and there is no payload yet. -/
structure Parsed (p : Packet Slice) (cur number : Nat) : Prop where
  path : p.uriPath.fin ≤ cur
  query : p.uriQuery.fin ≤ cur
  addr : p.altAddr.fin ≤ cur
  payload : p.payload.len = 0
  noAddr : coapCheckSignalMessage p = false → p.altAddr.len = 0
  noQuery : number < coapOptionUriQuery → p.uriQuery.len = 0
  order : p.uriQuery.len = 0 ∨ p.uriPath.fin ≤ p.uriQuery.ptr

theorem Slice.bytes_congr {s : Slice} {m m' : Nat → UInt8}
    (h : ∀ a, s.ptr ≤ a → a < s.fin → m a = m' a) : s.bytes m = s.bytes m' :=
  read_congr h

theorem Slice.bytes_of_len {s : Slice} (m : Nat → UInt8) (h : s.len = 0) : s.bytes m = [] := by
  unfold Slice.bytes
  rw [h, read_zero]

theorem coapCheckSignalMessage_markOption {σ : Type} (p : Packet σ) (n : Nat) :
    coapCheckSignalMessage (markOption p n) = coapCheckSignalMessage p := by
  unfold markOption
  split_ifs <;> rfl

theorem Parsed.markOption {p : Packet Slice} {cur number : Nat} (h : Parsed p cur number)
    (n : Nat) : Parsed (Coap.markOption p n) cur number := by
  unfold Coap.markOption
  split_ifs
  · exact ⟨h.path, h.query, h.addr, h.payload, h.noAddr, h.noQuery, h.order⟩
  · exact h

/-- moving on keeps the invariant -/
theorem Parsed.mono {p : Packet Slice} {cur cur' number number' : Nat} (h : Parsed p cur number)
    (hc : cur ≤ cur') (hn : number ≤ number') : Parsed p cur' number' where
  path := h.path.trans hc
  query := h.query.trans hc
  addr := h.addr.trans hc
  payload := h.payload
  noAddr := h.noAddr
  noQuery hq := h.noQuery (by omega)
  order := h.order

/-- an option handled in place and on byte strings: the same error, or the same packet, the
invariant behind the option and the rest of the memory untouched -/
def OptionAgrees (r : Except Status (Packet Slice × (Nat → UInt8))) (r' : Except Status Message)
    (m : Nat → UInt8) (cur number : Nat) : Prop :=
  (∃ e, r = .error e ∧ r' = .error e) ∨
    ∃ p m', r = .ok (p, m') ∧ r' = .ok (p.map (Slice.bytes m')) ∧ Parsed p cur number
      ∧ ∀ a, cur ≤ a → m' a = m a

section
variable {p : Packet Slice} {m : Nat → UInt8} {cur₀ number₀ cur number n : Nat}

theorem coapParseSignalOptions_strings {σ : Type} (p : Packet σ) (n : Nat) (v : List UInt8)
    (str : σ) :
    (coapParseSignalOptions p n v str).uriPath = p.uriPath
      ∧ (coapParseSignalOptions p n v str).uriQuery = p.uriQuery
      ∧ (coapParseSignalOptions p n v str).payload = p.payload
      ∧ (coapParseSignalOptions p n v str).code = p.code
      ∧ ((coapParseSignalOptions p n v str).altAddr = p.altAddr
        ∨ (coapParseSignalOptions p n v str).altAddr = str) := by
  unfold coapParseSignalOptions
  split_ifs <;> refine ⟨rfl, rfl, rfl, rfl, ?_⟩ <;> first | exact Or.inl rfl | exact Or.inr rfl

theorem signalOption_agrees (h : Parsed p cur₀ number₀) (hc : cur₀ < cur) (hn : number₀ ≤ number)
    (hs : coapCheckSignalMessage p = true) :
    OptionAgrees (parseOption p m number cur n)
      (listMarkedOption (p.map (Slice.bytes m)) (number, read m cur n)) m (cur + n) number := by
  have hs' : coapCheckSignalMessage (p.map (Slice.bytes m)) = true := hs
  unfold parseOption listMarkedOption
  rw [if_pos hs, if_pos hs']
  obtain ⟨h1, h2, h3, h4, h5⟩ := coapParseSignalOptions_strings p number (read m cur n) ⟨cur, n⟩
  refine Or.inr ⟨_, _, rfl, ?_, ?_, fun a ha => rfl⟩
  · rw [map_coapParseSignalOptions]
    rfl
  · have hsig : coapCheckSignalMessage
        (coapParseSignalOptions p number (read m cur n) ⟨cur, n⟩) = true := by
      rw [← hs]
      unfold coapCheckSignalMessage
      rw [h4]
    refine ⟨?_, ?_, ?_, ?_, fun hf => ?_, ?_, ?_⟩
    · rw [h1]
      exact h.path.trans (by omega)
    · rw [h2]
      exact h.query.trans (by omega)
    · rcases h5 with h5 | h5
      · rw [h5]
        exact h.addr.trans (by omega)
      · rw [h5]
        exact le_rfl
    · rw [h3]
      exact h.payload
    · rw [hsig] at hf
      cases hf
    · intro hq
      rw [h2]
      exact h.noQuery (by omega)
    · rw [h1, h2]
      exact h.order

theorem pathOption_agrees (h : Parsed p cur₀ number₀) (hc : cur₀ < cur) (hn : number₀ ≤ number)
    (hs : coapCheckSignalMessage p = false) (hnum : number = coapOptionUriPath) :
    OptionAgrees (parseOption p m number cur n)
      (listMarkedOption (p.map (Slice.bytes m)) (number, read m cur n)) m (cur + n) number := by
  have hs' : coapCheckSignalMessage (p.map (Slice.bytes m)) = false := hs
  have hfin : p.uriPath.fin < cur := by
    have := h.path
    omega
  have hq : p.uriQuery.len = 0 := h.noQuery (lt_of_le_of_lt (hnum ▸ hn) (by decide))
  unfold parseOption listMarkedOption
  rw [if_neg (by rw [hs]; decide), if_pos hnum, if_neg (by rw [hs']; decide), if_pos hnum]
  have hbytes := coapMergeMultiOption_bytes p.uriPath m cur n slash hfin
  have hfin' := coapMergeMultiOption_fin p.uriPath m cur n slash hfin
  have hframe := coapMergeMultiOption_frame p.uriPath m cur n slash hfin
  rcases hr : coapMergeMultiOption p.uriPath m cur n slash with ⟨path, m'⟩
  rw [hr] at hbytes hfin' hframe
  refine Or.inr ⟨_, _, rfl, ?_, ⟨hfin', h.query.trans (by omega), h.addr.trans (by omega),
    h.payload, h.noAddr,
    fun _ => hq, Or.inl hq⟩, fun a ha => hframe a (Or.inr (Or.inr ha))⟩
  have e : ∀ s : Slice, s.len = 0 → s.bytes m = s.bytes m' := fun s hz => by
    rw [s.bytes_of_len m hz, s.bytes_of_len m' hz]
  show Except.ok _ = Except.ok _
  congr 1
  show Packet.mk _ (mergeMultiOption (p.uriPath.bytes m) _ slash) (p.uriQuery.bytes m)
    (p.altAddr.bytes m) (p.payload.bytes m) = Packet.mk _ (path.bytes m') (p.uriQuery.bytes m')
    (p.altAddr.bytes m') (p.payload.bytes m')
  rw [e _ hq, e _ (h.noAddr hs), e _ h.payload, ← hbytes]
  rfl

theorem queryOption_agrees (h : Parsed p cur₀ number₀) (hc : cur₀ < cur) (hn : number₀ ≤ number)
    (hs : coapCheckSignalMessage p = false) (hnum : number = coapOptionUriQuery) :
    OptionAgrees (parseOption p m number cur n)
      (listMarkedOption (p.map (Slice.bytes m)) (number, read m cur n)) m (cur + n) number := by
  have hs' : coapCheckSignalMessage (p.map (Slice.bytes m)) = false := hs
  have hfin : p.uriQuery.fin < cur := by
    have := h.query
    omega
  have hnp : number ≠ coapOptionUriPath := by
    rw [hnum]
    decide
  unfold parseOption listMarkedOption
  rw [if_neg (by rw [hs]; decide), if_neg hnp, if_pos hnum, if_neg (by rw [hs']; decide),
    if_neg hnp, if_pos hnum]
  have hbytes := coapMergeMultiOption_bytes p.uriQuery m cur n ampersand hfin
  have hfin' := coapMergeMultiOption_fin p.uriQuery m cur n ampersand hfin
  have hframe := coapMergeMultiOption_frame p.uriQuery m cur n ampersand hfin
  have hptr := coapMergeMultiOption_ptr p.uriQuery m cur n ampersand
  rcases hr : coapMergeMultiOption p.uriQuery m cur n ampersand with ⟨query, m'⟩
  rw [hr] at hbytes hfin' hframe hptr
  have hpath : p.uriPath.fin ≤ query.ptr := by
    rw [hptr]
    split_ifs with hl
    · exact h.order.resolve_left (by omega)
    · exact h.path.trans (by omega)
  refine Or.inr ⟨_, _, rfl, ?_, ⟨h.path.trans (by omega), hfin', h.addr.trans (by omega),
    h.payload, h.noAddr,
    fun hlt => by omega, Or.inr hpath⟩, fun a ha => hframe a (Or.inr (Or.inr ha))⟩
  have e : ∀ s : Slice, s.len = 0 → s.bytes m = s.bytes m' := fun s hz => by
    rw [s.bytes_of_len m hz, s.bytes_of_len m' hz]
  -- the path ends in front of the query, so the merge did not touch it
  have ep : p.uriPath.bytes m = p.uriPath.bytes m' := by
    apply Slice.bytes_congr
    intro a h1 h2
    refine (hframe a ?_).symm
    rcases Nat.eq_zero_or_pos p.uriQuery.len with hz | hz
    · exact Or.inl hz
    · have := h.order.resolve_left (by omega)
      have : p.uriQuery.ptr ≤ p.uriQuery.fin := Nat.le_add_right _ _
      exact Or.inr (Or.inl (by omega))
  show Except.ok _ = Except.ok _
  congr 1
  show Packet.mk _ (p.uriPath.bytes m) (mergeMultiOption (p.uriQuery.bytes m) _ ampersand)
    (p.altAddr.bytes m) (p.payload.bytes m) = Packet.mk _ (p.uriPath.bytes m') (query.bytes m')
    (p.altAddr.bytes m') (p.payload.bytes m')
  rw [ep, e _ (h.noAddr hs), e _ h.payload, ← hbytes]
  rfl

theorem valueOption_agrees (h : Parsed p cur₀ number₀) (hc : cur₀ < cur) (hn : number₀ ≤ number)
    (hs : coapCheckSignalMessage p = false) (h1 : number ≠ coapOptionUriPath)
    (h2 : number ≠ coapOptionUriQuery) :
    OptionAgrees (parseOption p m number cur n)
      (listMarkedOption (p.map (Slice.bytes m)) (number, read m cur n)) m (cur + n) number := by
  have hs' : coapCheckSignalMessage (p.map (Slice.bytes m)) = false := hs
  unfold parseOption listMarkedOption
  rw [if_neg (by rw [hs]; decide), if_neg h1, if_neg h2, if_neg (by rw [hs']; decide), if_neg h1,
    if_neg h2]
  show OptionAgrees (match parseValueOption p.toFields number (read m cur n) with
    | .error e => _ | .ok q => _) (match parseValueOption p.toFields number (read m cur n) with
    | .error e => _ | .ok q => _) m (cur + n) number
  cases parseValueOption p.toFields number (read m cur n) with
  | error e => exact Or.inl ⟨e, rfl, rfl⟩
  | ok q =>
    exact Or.inr ⟨_, _, rfl, rfl, ⟨h.path.trans (by omega), h.query.trans (by omega),
      h.addr.trans (by omega),
      h.payload, fun _ => h.noAddr hs, fun hq => h.noQuery (by omega), h.order⟩, fun a ha => rfl⟩

theorem parseOption_agrees (h : Parsed p cur₀ number₀) (hc : cur₀ < cur) (hn : number₀ ≤ number) :
    OptionAgrees (parseOption p m number cur n)
      (listMarkedOption (p.map (Slice.bytes m)) (number, read m cur n)) m (cur + n) number := by
  cases hs : coapCheckSignalMessage p with
  | true => exact signalOption_agrees h hc hn hs
  | false =>
    by_cases h1 : number = coapOptionUriPath
    · exact pathOption_agrees h hc hn hs h1
    · by_cases h2 : number = coapOptionUriQuery
      · exact queryOption_agrees h hc hn hs h2
      · exact valueOption_agrees h hc hn hs h1 h2

end

/-! ## the loop -/

theorem byte_cases {P : UInt8 → Prop} (h : ∀ n, n < 256 → P (UInt8.ofNat n)) (b : UInt8) : P b := by
  rw [← UInt8.ofNat_toNat (x := b)]
  exact h b.toNat b.toNat_lt

theorem marker_iff (b : UInt8) : b &&& 0xF0 = 0xF0 ↔ 240 ≤ b.toNat :=
  byte_cases (P := fun b => b &&& 0xF0 = 0xF0 ↔ 240 ≤ b.toNat) (by decide +kernel) b

theorem high_nibble (b : UInt8) : (b >>> 4).toNat = b.toNat / 16 :=
  byte_cases (P := fun b => (b >>> 4).toNat = b.toNat / 16) (by decide +kernel) b

theorem low_nibble (b : UInt8) : (b &&& 0x0F).toNat = b.toNat % 16 :=
  byte_cases (P := fun b => (b &&& 0x0F).toNat = b.toNat % 16) (by decide +kernel) b

theorem optionField_eq (m : Nat → UInt8) (value cur : Nat) :
    optionField m value cur = fieldAt m value cur := by
  unfold optionField fieldAt
  split_ifs with h1 h2
  · rw [h1]
  · rw [h2, Nat.shiftLeft_eq]
    refine Prod.ext ?_ rfl
    show 14 + 255 + (m cur).toNat * 2^8 + (m (cur + 1)).toNat
      = 269 + ((m cur).toNat * 256 + (m (cur + 1)).toNat)
    omega
  · rfl

section
variable (cfg : Config) {dataLen : Nat} {s : ParseState}

theorem parseStep_marker (dataLen : Nat) (h : Parsed s.pkt s.currentOption s.optionNumber)
    (hb : 240 ≤ (s.mem s.currentOption).toNat) :
    ∃ s', parseStep cfg dataLen s = .ok (s', true) ∧ s'.message = { s.message with
      payload := keptPayload cfg s.message.transportType
        (read s.mem (s.currentOption + 1) (dataLen - (s.currentOption + 1))) } := by
  unfold parseStep
  rw [if_pos ((marker_iff _).mpr hb)]
  refine ⟨_, rfl, ?_⟩
  have e : ∀ (t : Slice) (a : Nat), t.fin ≤ s.currentOption → s.currentOption < a →
      t.bytes (write s.mem a [0]) = t.bytes s.mem := fun t a h1 h2 =>
    Slice.bytes_congr fun i _ hi => write_apply_lt _ _ _ _ (by omega)
  have ep : ∀ k, read (write s.mem (s.currentOption + 1 + k) [0]) (s.currentOption + 1) k
      = read s.mem (s.currentOption + 1) k := fun k =>
    read_write_disjoint _ _ _ _ _ (Or.inl le_rfl)
  unfold ParseState.message Packet.map keptPayload
  show Packet.mk s.pkt.toFields _ _ _ _ = Packet.mk s.pkt.toFields _ _ _ _
  congr 1
  · exact e _ _ h.path (by omega)
  · exact e _ _ h.query (by omega)
  · exact e _ _ h.addr (by omega)
  · show read _ (s.currentOption + 1) _ = _
    rw [ep]
    show _ = if s.pkt.transportType = .udp then _ else _
    by_cases ht : s.pkt.transportType = .udp
    · rw [if_pos ht]
      by_cases hk : cfg.blockSize < dataLen - (s.currentOption + 1)
      · rw [if_pos ⟨ht, hk⟩, read_take _ _ _ _ (by omega)]
      · rw [if_neg (by simp [hk]), List.take_of_length_le (by rw [length_read]; omega)]
    · rw [if_neg (by simp [ht]), if_neg ht]

/-- behind an ordinary byte, in the words of the delta code -/
theorem parseStep_option (hb : (s.mem s.currentOption).toNat < 240) {d n cur : Nat}
    (hh : headerAt s.mem (s.mem s.currentOption) (s.currentOption + 1) = (d, n, cur)) :
    parseStep cfg dataLen s =
      if dataLen < cur + n then .error .badOption402
      else
        match parseOption (markOption s.pkt ((s.optionNumber + d) % 2^32)) s.mem
          ((s.optionNumber + d) % 2^32) cur n with
        | .error e => .error e
        | .ok (pkt, m) => .ok (⟨pkt, m, cur + n, (s.optionNumber + d) % 2^32⟩, false) := by
  have hm : ¬ (s.mem s.currentOption &&& 0xF0 = 0xF0) := fun hc => by
    have := (marker_iff _).mp hc
    omega
  have h1 : (fieldAt s.mem ((s.mem s.currentOption).toNat / 16) (s.currentOption + 1)).1 = d :=
    congrArg Prod.fst hh
  have h2 : fieldAt s.mem ((s.mem s.currentOption).toNat % 16)
      (fieldAt s.mem ((s.mem s.currentOption).toNat / 16) (s.currentOption + 1)).2 = (n, cur) :=
    congrArg Prod.snd hh
  unfold parseStep
  rw [if_neg hm]
  simp only [optionField_eq, high_nibble, low_nibble, h1, h2]
  all_goals rfl

/-- an option that fits, with a number that does not wrap -/
theorem parseStep_entry (h : Parsed s.pkt s.currentOption s.optionNumber)
    (hb : (s.mem s.currentOption).toNat < 240) {d n cur : Nat}
    (hh : headerAt s.mem (s.mem s.currentOption) (s.currentOption + 1) = (d, n, cur))
    (hcur : s.currentOption < cur) (hn : cur + n ≤ dataLen) (hd : s.optionNumber + d < 2^32) :
    (∃ e, parseStep cfg dataLen s = .error e
        ∧ listOption s.message (s.optionNumber + d, read s.mem cur n) = .error e)
      ∨ ∃ p' m', parseStep cfg dataLen s = .ok (⟨p', m', cur + n, s.optionNumber + d⟩, false)
        ∧ listOption s.message (s.optionNumber + d, read s.mem cur n)
          = .ok (p'.map (Slice.bytes m'))
        ∧ Parsed p' (cur + n) (s.optionNumber + d) ∧ ∀ a, cur + n ≤ a → m' a = s.mem a := by
  have hlist : listOption s.message (s.optionNumber + d, read s.mem cur n)
      = listMarkedOption ((markOption s.pkt (s.optionNumber + d)).map (Slice.bytes s.mem))
        (s.optionNumber + d, read s.mem cur n) := by
    rw [map_markOption]
    rfl
  rw [parseStep_option cfg hb hh, if_neg (by omega), Nat.mod_eq_of_lt hd, hlist]
  rcases parseOption_agrees (h.markOption (s.optionNumber + d)) hcur
    (Nat.le_add_right s.optionNumber d) with ⟨e, h1, h2⟩ | ⟨p', m', h1, h2, h3, h4⟩
  · exact Or.inl ⟨e, by rw [h1], h2⟩
  · exact Or.inr ⟨p', m', by rw [h1], h2, h3, h4⟩

/-- an option that does not fit -/
theorem parseStep_truncated (hb : (s.mem s.currentOption).toNat < 240) {k : Nat}
    (hk : dataLen = s.currentOption + 1 + k)
    (hx : ∀ d n r, takeHeader (s.mem s.currentOption) (read s.mem (s.currentOption + 1) k)
      = some (d, n, r) → r.length < n) : parseStep cfg dataLen s = .error .badOption402 := by
  have hpast := headerAt_past hx
  rcases hh : headerAt s.mem (s.mem s.currentOption) (s.currentOption + 1) with ⟨d, n, cur⟩
  rw [hh] at hpast
  have hpast' : s.currentOption + 1 + k < cur + n := hpast
  rw [parseStep_option cfg hb hh, if_pos (by omega)]

theorem parseLoop_done (fuel : Nat) (hc : dataLen ≤ s.currentOption) :
    (parseLoop cfg dataLen fuel s).map ParseState.message
      = listMessage cfg s.message
          (decode s.optionNumber (read s.mem s.currentOption (dataLen - s.currentOption))) := by
  have e : dataLen - s.currentOption = 0 := by omega
  rw [e, read_zero, decode_nil]
  cases fuel with
  | zero => rfl
  | succ fuel =>
    unfold parseLoop
    rw [if_neg (by omega)]
    rfl

/-- **The option loop computes `listMessage`** on the rest of the datagram, whatever the buffer
holds behind it. -/
theorem parseLoop_eq (fuel : Nat) : ∀ s : ParseState,
    Parsed s.pkt s.currentOption s.optionNumber → dataLen ≤ s.currentOption + fuel →
    (∀ o ∈ (decode s.optionNumber (read s.mem s.currentOption (dataLen - s.currentOption))).1,
      o.1 < 2^32) →
    (parseLoop cfg dataLen fuel s).map ParseState.message
      = listMessage cfg s.message
          (decode s.optionNumber (read s.mem s.currentOption (dataLen - s.currentOption))) := by
  induction fuel with
  | zero =>
    intro s hp hf hnum
    exact parseLoop_done cfg 0 hf
  | succ fuel ih =>
    intro s hp hf hnum
    by_cases hlt : s.currentOption < dataLen
    · obtain ⟨k, hk⟩ := Nat.exists_eq_add_of_lt hlt
      have hk : dataLen = s.currentOption + 1 + k := by omega
      have e1 : dataLen - s.currentOption = k + 1 := by omega
      have e2 : dataLen - (s.currentOption + 1) = k := by omega
      unfold parseLoop
      rw [if_pos hlt]
      rw [e1, read_succ] at hnum ⊢
      by_cases hb : 240 ≤ (s.mem s.currentOption).toNat
      · obtain ⟨s', hs', hm⟩ := parseStep_marker cfg dataLen hp hb
        rw [hs', decode_marker _ _ _ hb]
        show Except.ok s'.message = Except.ok _
        rw [hm, e2]
      · by_cases hx : ∃ d n r, takeHeader (s.mem s.currentOption)
            (read s.mem (s.currentOption + 1) k) = some (d, n, r) ∧ n ≤ r.length
        · obtain ⟨d, n, r, hr, hn⟩ := hx
          have hdec := decode_entry s.optionNumber _ _ (by omega) hr hn
          obtain ⟨j, hj, hh, rfl⟩ := headerAt_eq hr
          rw [length_read] at hn
          rw [read_take _ _ _ _ hn, read_drop _ _ _ _ hn] at hdec
          rw [hdec] at hnum ⊢
          rw [listMessage_cons]
          rcases parseStep_entry cfg hp (by omega) hh (by omega)
            (show s.currentOption + 1 + j + n ≤ dataLen by omega)
            (hnum _ (List.mem_cons_self ..)) with ⟨e, h1, h2⟩ | ⟨p', m', h1, h2, h3, h4⟩
          · rw [h1, h2]
            rfl
          · -- the rest of the datagram is as it was
            have hrest : read s.mem (s.currentOption + 1 + j + n) (k - j - n)
                = read m' (s.currentOption + 1 + j + n)
                  (dataLen - (s.currentOption + 1 + j + n)) := by
              rw [show k - j - n = dataLen - (s.currentOption + 1 + j + n) by omega]
              exact read_congr fun a ha _ => (h4 a ha).symm
            rw [h1, h2]
            rw [hrest] at hnum ⊢
            exact ih ⟨p', m', s.currentOption + 1 + j + n, s.optionNumber + d⟩ h3
              (show dataLen ≤ s.currentOption + 1 + j + n + fuel by omega)
              (fun o ho => hnum o (List.mem_cons_of_mem _ ho))
        · have hx' : ∀ d n r, takeHeader (s.mem s.currentOption)
              (read s.mem (s.currentOption + 1) k) = some (d, n, r) → r.length < n :=
            fun d n r hr => by
              by_contra hc
              exact hx ⟨d, n, r, hr, by omega⟩
          rw [parseStep_truncated cfg (by omega) hk hx', decode_truncated _ _ _ (by omega) hx']
          rfl
    · exact parseLoop_done cfg (fuel + 1) (by omega)

/-- **Everything behind the header**: token and `listMessage` of the option area. -/
theorem coapParseTokenOption_eq (p : Packet Slice) (tokenLen : Nat) (data : Nat → UInt8)
    (cur : Nat) (hp : p.uriPath = .null ∧ p.uriQuery = .null ∧ p.altAddr = .null
      ∧ p.payload = .null)
    (hnum : ∀ o ∈ (decode 0 (read data (cur + tokenLen) (dataLen - (cur + tokenLen)))).1,
      o.1 < 2^32) :
    coapParseTokenOption cfg p tokenLen data dataLen cur
      = listMessage cfg
          { p.map (fun _ => []) with token := read data cur tokenLen, options := ∅ }
          (decode 0 (read data (cur + tokenLen) (dataLen - (cur + tokenLen)))) := by
  obtain ⟨h1, h2, h3, h4⟩ := hp
  have h0 : Slice.null.fin = 0 := rfl
  have hstart : Parsed { p with token := read data cur tokenLen, options := ∅ } (cur + tokenLen) 0 := by
    refine ⟨?_, ?_, ?_, ?_, fun _ => ?_, fun _ => ?_, Or.inl ?_⟩
    · show p.uriPath.fin ≤ _
      rw [h1, h0]
      omega
    · show p.uriQuery.fin ≤ _
      rw [h2, h0]
      omega
    · show p.altAddr.fin ≤ _
      rw [h3, h0]
      omega
    · show p.payload.len = 0
      rw [h4]
      rfl
    · show p.altAddr.len = 0
      rw [h3]
      rfl
    · show p.uriQuery.len = 0
      rw [h2]
      rfl
    · show p.uriQuery.len = 0
      rw [h2]
      rfl
  unfold coapParseTokenOption
  rw [parseLoop_eq cfg dataLen _ hstart (show dataLen ≤ cur + tokenLen + dataLen by omega) hnum]
  have hz : ∀ s : Slice, s = .null → s.bytes data = [] := fun s hs => by
    rw [hs]
    rfl
  congr 1
  unfold ParseState.message Packet.map
  rw [hz _ h1, hz _ h2, hz _ h3, hz _ h4]

end

end Coap
