import Iotivity.Coap.Values

/-!
# Packets under construction

A packet is built by an init function and any sequence of setters.

* `Setter`, `SignalSetter`   the setters, with the arguments they get;
* `build`, `buildSignal`     the packet they leave;
* `Built`, `SignalBuilt`     what holds of it, by induction over the sequence: only the options
  that were set are present, their fields are encodable, all other fields are zero.
-/

set_option linter.unusedVariables false

namespace Coap

/-! ## ordinary packets -/

/-- a call of one of the setters of `coap.h` -/
inductive Setter where
  | token (token : List UInt8)
  | etag (etag : List UInt8)
  | observe (observe : UInt32)
  | uriPath (path : List UInt8)
  | contentFormat (format : UInt32)
  | uriQuery (query : List UInt8)
  | accept (accept : UInt32)
  | block2 (num : UInt32) (more : UInt8) (size : UInt16)
  | block1 (num : UInt32) (more : UInt8) (size : UInt16)
  | size2 (size : UInt32)
  | size1 (size : UInt32)
  | payload (payload : List UInt8)

def Setter.apply (cfg : Config) (p : Message) : Setter → Message
  | .token t => coapSetToken p t
  | .etag e => coapSetHeaderEtag p e
  | .observe o => coapSetHeaderObserve p o
  | .uriPath s => coapSetHeaderUriPath p s
  | .contentFormat f => coapSetHeaderContentFormat p f
  | .uriQuery s => coapSetHeaderUriQuery p s
  | .accept a => coapSetHeaderAccept p a
  | .block2 n m s => coapSetHeaderBlock2 p n m s
  | .block1 n m s => coapSetHeaderBlock1 p n m s
  | .size2 s => coapSetHeaderSize2 p s
  | .size1 s => coapSetHeaderSize1 p s
  | .payload b => coapSetPayload cfg p b

/-- a Block size: a power of two from 16 to 2048 -/
def BlockSize (size : UInt16) : Prop := ∃ e, e < 8 ∧ size.toNat = 16 * 2^e

/-- the arguments a caller may use -/
def Setter.Allowed : Setter → Prop
  | .contentFormat f => f = 60 ∨ f = 10000
  | .accept a => a = 60 ∨ a = 10000
  | .block2 n m s => n.toNat ≤ 0xFFFFF ∧ m.toNat ≤ 1 ∧ BlockSize s
  | .block1 n m s => n.toNat ≤ 0xFFFFF ∧ m.toNat ≤ 1 ∧ BlockSize s
  | _ => True

/-- the packet after a sequence of setter calls -/
def build (cfg : Config) (p : Message) (calls : List Setter) : Message :=
  calls.foldl (Setter.apply cfg) p

/-- options an ordinary packet can carry -/
def ordinaryNumbers : List Nat := [4, 6, 11, 12, 15, 17, 23, 27, 28, 60]

def FormatField (f : UInt16) : Prop := f = 60 ∨ f = 10000

structure BlockField (b : BlockOption) : Prop where
  num : b.num.toNat ≤ 0xFFFFF
  more : b.more.toNat ≤ 1
  size : BlockSize b.size
  offset : b.offset = 0

/-- a field that goes with option `n`: zero while the option is absent, good once it is there -/
structure OptionField (options : Finset Nat) (n : Nat) (zero good : Prop) : Prop where
  absent : n ∉ options → zero
  present : n ∈ options → good

/-- an ordinary packet whose options were put in by setters -/
structure Built (cfg : Config) (p : Message) : Prop where
  token : p.token.length ≤ 8
  options : ∀ x ∈ p.options, x ∈ ordinaryNumbers
  etag : OptionField p.options 4 (p.etag = []) (p.etag.length ≤ 8)
  observe : OptionField p.options 6 (p.observe = 0) True
  uriPath : OptionField p.options 11 (p.uriPath = []) True
  format : OptionField p.options 12 (p.contentFormat = 0) (FormatField p.contentFormat)
  uriQuery : OptionField p.options 15 (p.uriQuery = []) True
  accept : OptionField p.options 17 (p.accept = 0) (FormatField p.accept)
  block2 : OptionField p.options 23 (p.block2 = .zero) (BlockField p.block2)
  block1 : OptionField p.options 27 (p.block1 = .zero) (BlockField p.block1)
  size2 : OptionField p.options 28 (p.size2 = 0) True
  size1 : OptionField p.options 60 (p.size1 = 0) True
  rest : p.maxAge = 0 ∧ p.uriPort = 0 ∧ p.maxMsgSize = 0 ∧ p.blockwiseTransfer = 0
    ∧ p.custody = 0 ∧ p.holdOff = 0 ∧ p.badCsmOpt = 0 ∧ p.altAddr = []
  udpPayload : p.transportType = .udp → p.payload.length ≤ cfg.blockSize

/-- the fields no setter touches -/
def SameHead (p q : Message) : Prop :=
  p.transportType = q.transportType ∧ p.version = q.version ∧ p.type = q.type ∧ p.code = q.code
    ∧ p.mid = q.mid

theorem Setter.apply_sameHead (cfg : Config) (p : Message) (s : Setter) :
    SameHead (s.apply cfg p) p := by
  cases s with
  | block2 n m z =>
    show SameHead (coapSetHeaderBlock2 p n m z) p
    unfold coapSetHeaderBlock2
    split_ifs <;> exact ⟨rfl, rfl, rfl, rfl, rfl⟩
  | block1 n m z =>
    show SameHead (coapSetHeaderBlock1 p n m z) p
    unfold coapSetHeaderBlock1
    split_ifs <;> exact ⟨rfl, rfl, rfl, rfl, rfl⟩
  | payload b =>
    show SameHead (coapSetPayload cfg p b) p
    unfold coapSetPayload
    split <;> exact ⟨rfl, rfl, rfl, rfl, rfl⟩
  | _ => exact ⟨rfl, rfl, rfl, rfl, rfl⟩

theorem build_sameHead (cfg : Config) (calls : List Setter) :
    ∀ p, SameHead (build cfg p calls) p := by
  induction calls with
  | nil =>
    intro p
    exact ⟨rfl, rfl, rfl, rfl, rfl⟩
  | cons s calls ih =>
    intro p
    obtain ⟨h1, h2, h3, h4, h5⟩ := ih (s.apply cfg p)
    obtain ⟨g1, g2, g3, g4, g5⟩ := s.apply_sameHead cfg p
    exact ⟨h1.trans g1, h2.trans g2, h3.trans g3, h4.trans g4, h5.trans g5⟩

section
variable {options : Finset Nat} {n k : Nat} {zero good : Prop}

theorem OptionField.other (h : OptionField options n zero good) (k : Nat) (hne : n ≠ k) :
    OptionField (insert k options) n zero good where
  absent hn := h.absent fun hm => hn (Finset.mem_insert_of_mem hm)
  present hn := h.present ((Finset.mem_insert.mp hn).resolve_left hne)

theorem OptionField.self (options : Finset Nat) (n : Nat) (zero : Prop) (h : good) :
    OptionField (insert n options) n zero good where
  absent hn := absurd (Finset.mem_insert_self n options) hn
  present _ := h

theorem options_insert {l : List Nat} (h : ∀ x ∈ options, x ∈ l) (k : Nat) (hk : k ∈ l) :
    ∀ x ∈ insert k options, x ∈ l := by
  intro x hx
  rcases Finset.mem_insert.mp hx with rfl | hx
  · exact hk
  · exact h x hx

end

theorem formatField_toUInt16 (f : UInt32) (h : f = 60 ∨ f = 10000) : FormatField f.toUInt16 := by
  rcases h with rfl | rfl
  · exact Or.inl rfl
  · exact Or.inr rfl

/-- the Block setters accept what callers may use -/
theorem blockRefused_eq_false (num : UInt32) (size : UInt16) (hn : num.toNat ≤ 0xFFFFF)
    (hs : BlockSize size) : blockRefused num size = false := by
  obtain ⟨e, he, hsize⟩ := hs
  have h1 : 2^e ≤ 2^7 := Nat.pow_le_pow_right (by decide) (by omega)
  have h2 : 0 < 2^e := Nat.two_pow_pos e
  have hlo : ¬ size < 16 := by
    rw [UInt16.lt_iff_toNat_lt]
    show ¬ size.toNat < 16
    omega
  have hhi : ¬ size > 2048 := by
    rw [gt_iff_lt, UInt16.lt_iff_toNat_lt]
    show ¬ 2048 < size.toNat
    omega
  have hnum : ¬ num > 0x0FFFFF := by
    rw [gt_iff_lt, UInt32.lt_iff_toNat_lt]
    show ¬ 0xFFFFF < num.toNat
    omega
  unfold blockRefused
  simp only [hlo, hhi, hnum, decide_false, Bool.or_self]

theorem Built.block2Option {cfg : Config} {p : Message} (h : Built cfg p) :
    p.block2.offset = 0 := by
  by_cases hm : 23 ∈ p.options
  · exact (h.block2.present hm).offset
  · rw [h.block2.absent hm]
    rfl

theorem Built.block1Option {cfg : Config} {p : Message} (h : Built cfg p) :
    p.block1.offset = 0 := by
  by_cases hm : 27 ∈ p.options
  · exact (h.block1.present hm).offset
  · rw [h.block1.absent hm]
    rfl

/-- one setter call -/
theorem Built.step {cfg : Config} {p : Message} (h : Built cfg p) (s : Setter) (hs : s.Allowed) :
    Built cfg (s.apply cfg p) := by
  cases s with
  | token t =>
    have ht : (t.take coapTokenLen).length ≤ 8 := by
      rw [List.length_take]
      exact Nat.min_le_left _ _
    exact ⟨ht, h.options, h.etag, h.observe, h.uriPath, h.format, h.uriQuery, h.accept, h.block2,
      h.block1, h.size2, h.size1, h.rest, h.udpPayload⟩
  | etag e =>
    have he : (e.take coapEtagLen).length ≤ 8 := by
      rw [List.length_take]
      exact Nat.min_le_left _ _
    exact ⟨h.token, options_insert h.options 4 (by decide), .self _ 4 _ he,
      h.observe.other 4 (by decide), h.uriPath.other 4 (by decide), h.format.other 4 (by decide),
      h.uriQuery.other 4 (by decide), h.accept.other 4 (by decide), h.block2.other 4 (by decide),
      h.block1.other 4 (by decide), h.size2.other 4 (by decide), h.size1.other 4 (by decide),
      h.rest, h.udpPayload⟩
  | observe o =>
    exact ⟨h.token, options_insert h.options 6 (by decide), h.etag.other 6 (by decide),
      .self _ 6 _ trivial, h.uriPath.other 6 (by decide), h.format.other 6 (by decide),
      h.uriQuery.other 6 (by decide), h.accept.other 6 (by decide), h.block2.other 6 (by decide),
      h.block1.other 6 (by decide), h.size2.other 6 (by decide), h.size1.other 6 (by decide),
      h.rest, h.udpPayload⟩
  | uriPath u =>
    exact ⟨h.token, options_insert h.options 11 (by decide), h.etag.other 11 (by decide),
      h.observe.other 11 (by decide), .self _ 11 _ trivial, h.format.other 11 (by decide),
      h.uriQuery.other 11 (by decide), h.accept.other 11 (by decide), h.block2.other 11 (by decide),
      h.block1.other 11 (by decide), h.size2.other 11 (by decide), h.size1.other 11 (by decide),
      h.rest, h.udpPayload⟩
  | contentFormat f =>
    exact ⟨h.token, options_insert h.options 12 (by decide), h.etag.other 12 (by decide),
      h.observe.other 12 (by decide), h.uriPath.other 12 (by decide),
      .self _ 12 _ (formatField_toUInt16 f hs), h.uriQuery.other 12 (by decide),
      h.accept.other 12 (by decide), h.block2.other 12 (by decide), h.block1.other 12 (by decide),
      h.size2.other 12 (by decide), h.size1.other 12 (by decide), h.rest, h.udpPayload⟩
  | uriQuery q =>
    exact ⟨h.token, options_insert h.options 15 (by decide), h.etag.other 15 (by decide),
      h.observe.other 15 (by decide), h.uriPath.other 15 (by decide), h.format.other 15 (by decide),
      .self _ 15 _ trivial, h.accept.other 15 (by decide), h.block2.other 15 (by decide),
      h.block1.other 15 (by decide), h.size2.other 15 (by decide), h.size1.other 15 (by decide),
      h.rest, h.udpPayload⟩
  | accept a =>
    exact ⟨h.token, options_insert h.options 17 (by decide), h.etag.other 17 (by decide),
      h.observe.other 17 (by decide), h.uriPath.other 17 (by decide), h.format.other 17 (by decide),
      h.uriQuery.other 17 (by decide), .self _ 17 _ (formatField_toUInt16 a hs),
      h.block2.other 17 (by decide), h.block1.other 17 (by decide), h.size2.other 17 (by decide),
      h.size1.other 17 (by decide), h.rest, h.udpPayload⟩
  | block2 num more size =>
    obtain ⟨h1, h2, h3⟩ := hs
    have hmore : (if more ≠ 0 then (1 : UInt8) else 0).toNat ≤ 1 := by
      split_ifs <;> decide
    show Built cfg (coapSetHeaderBlock2 p num more size)
    unfold coapSetHeaderBlock2
    rw [blockRefused_eq_false num size h1 h3]
    exact ⟨h.token, options_insert h.options 23 (by decide), h.etag.other 23 (by decide),
      h.observe.other 23 (by decide), h.uriPath.other 23 (by decide), h.format.other 23 (by decide),
      h.uriQuery.other 23 (by decide), h.accept.other 23 (by decide),
      .self _ 23 _ ⟨h1, hmore, h3, h.block2Option⟩, h.block1.other 23 (by decide),
      h.size2.other 23 (by decide), h.size1.other 23 (by decide), h.rest, h.udpPayload⟩
  | block1 num more size =>
    obtain ⟨h1, h2, h3⟩ := hs
    show Built cfg (coapSetHeaderBlock1 p num more size)
    unfold coapSetHeaderBlock1
    rw [blockRefused_eq_false num size h1 h3]
    exact ⟨h.token, options_insert h.options 27 (by decide), h.etag.other 27 (by decide),
      h.observe.other 27 (by decide), h.uriPath.other 27 (by decide), h.format.other 27 (by decide),
      h.uriQuery.other 27 (by decide), h.accept.other 27 (by decide), h.block2.other 27 (by decide),
      .self _ 27 _ ⟨h1, h2, h3, h.block1Option⟩, h.size2.other 27 (by decide),
      h.size1.other 27 (by decide), h.rest, h.udpPayload⟩
  | size2 z =>
    exact ⟨h.token, options_insert h.options 28 (by decide), h.etag.other 28 (by decide),
      h.observe.other 28 (by decide), h.uriPath.other 28 (by decide), h.format.other 28 (by decide),
      h.uriQuery.other 28 (by decide), h.accept.other 28 (by decide), h.block2.other 28 (by decide),
      h.block1.other 28 (by decide), .self _ 28 _ trivial, h.size1.other 28 (by decide),
      h.rest, h.udpPayload⟩
  | size1 z =>
    exact ⟨h.token, options_insert h.options 60 (by decide), h.etag.other 60 (by decide),
      h.observe.other 60 (by decide), h.uriPath.other 60 (by decide), h.format.other 60 (by decide),
      h.uriQuery.other 60 (by decide), h.accept.other 60 (by decide), h.block2.other 60 (by decide),
      h.block1.other 60 (by decide), h.size2.other 60 (by decide), .self _ 60 _ trivial,
      h.rest, h.udpPayload⟩
  | payload b =>
    show Built cfg (coapSetPayload cfg p b)
    unfold coapSetPayload
    cases ht : p.transportType with
    | tcp =>
      refine ⟨h.token, h.options, h.etag, h.observe, h.uriPath, h.format, h.uriQuery, h.accept,
        h.block2, h.block1, h.size2, h.size1, h.rest, fun hu => ?_⟩
      have hu' : p.transportType = .udp := hu
      rw [ht] at hu'
      cases hu'
    | udp =>
      refine ⟨h.token, h.options, h.etag, h.observe, h.uriPath, h.format, h.uriQuery, h.accept,
        h.block2, h.block1, h.size2, h.size1, h.rest, fun _ => ?_⟩
      show (b.take _).length ≤ cfg.blockSize
      have h1 := Nat.mod_le (min cfg.blockSize b.length) (2^16)
      have h2 := Nat.min_le_left cfg.blockSize b.length
      rw [List.length_take]
      omega

/-- both init functions -/
theorem built_init (cfg : Config) (t : TransportType) (type : MessageType) (code : UInt8)
    (mid : UInt16) : Built cfg { Packet.zero [] t with type, code, mid } := by
  have hf : ∀ {n : Nat} {zero good : Prop}, zero → OptionField ∅ n zero good := fun hz =>
    ⟨fun _ => hz, fun hm => absurd hm (Finset.notMem_empty _)⟩
  exact ⟨Nat.zero_le _, fun x hx => absurd hx (Finset.notMem_empty _), hf rfl, hf rfl, hf rfl,
    hf rfl, hf rfl, hf rfl, hf rfl, hf rfl, hf rfl, hf rfl,
    ⟨rfl, rfl, rfl, rfl, rfl, rfl, rfl, rfl⟩, fun _ => Nat.zero_le _⟩

/-- **Every sequence of allowed setter calls leaves a built packet.** -/
theorem Built.build {cfg : Config} (calls : List Setter) (hc : ∀ s ∈ calls, s.Allowed) :
    ∀ p, Built cfg p → Built cfg (Coap.build cfg p calls) := by
  induction calls with
  | nil =>
    intro p hp
    exact hp
  | cons s calls ih =>
    intro p hp
    exact ih (fun t ht => hc t (List.mem_cons_of_mem _ ht)) _
      (hp.step s (hc s (List.mem_cons_self ..)))

/-! ## signal packets -/

/-- a call of one of the setters of `coap_signal.h`, or of the two that fit any packet -/
inductive SignalSetter where
  | token (token : List UInt8)
  | maxMsgSize (size : UInt32)
  | blockwiseTransfer
  | custody
  | altAddr (addr : List UInt8)
  | holdOff (timeSeconds : UInt32)
  | badCsm (opt : UInt16)
  | payload (payload : List UInt8)

def SignalSetter.apply (cfg : Config) (p : Message) : SignalSetter → Message
  | .token t => coapSetToken p t
  | .maxMsgSize s => coapSignalSetMaxMsgSize p s
  | .blockwiseTransfer => coapSignalSetBlockwiseTransfer p 1
  | .custody => coapSignalSetCustody p 1
  | .altAddr a => coapSignalSetAltAddr p a
  | .holdOff t => coapSignalSetHoldOff p t
  | .badCsm o => coapSignalSetBadCsm p o
  | .payload b => coapSetPayload cfg p b

def buildSignal (cfg : Config) (p : Message) (calls : List SignalSetter) : Message :=
  calls.foldl (SignalSetter.apply cfg) p

/-- a field that goes with option `n` in messages of its own code and is zero in all others -/
structure SignalField (own : Prop) (options : Finset Nat) (n : Nat) (zero good : Prop) : Prop where
  mine : own → OptionField options n zero good
  other : ¬ own → zero

structure SignalBuilt (p : Message) : Prop where
  token : p.token.length ≤ 8
  options : ∀ x ∈ p.options, x ∈ [2, 4]
  noSecond : p.code ≠ csm701 → p.code ≠ release704 → 4 ∉ p.options
  maxMsgSize : SignalField (p.code = csm701) p.options 2 (p.maxMsgSize = 0) True
  blockwiseTransfer :
    SignalField (p.code = csm701) p.options 4 (p.blockwiseTransfer = 0) (p.blockwiseTransfer = 1)
  custody :
    SignalField (p.code = ping702 ∨ p.code = pong703) p.options 2 (p.custody = 0) (p.custody = 1)
  altAddr : SignalField (p.code = release704) p.options 2 (p.altAddr = []) True
  holdOff : SignalField (p.code = release704) p.options 4 (p.holdOff = 0) True
  badCsm : SignalField (p.code = abort705) p.options 2 (p.badCsmOpt = 0) True
  rest : p.etag = [] ∧ p.observe = 0 ∧ p.uriPath = [] ∧ p.contentFormat = 0 ∧ p.uriQuery = []
    ∧ p.accept = 0 ∧ p.block2 = .zero ∧ p.block1 = .zero ∧ p.size2 = 0 ∧ p.size1 = 0
    ∧ p.maxAge = 0 ∧ p.uriPort = 0

theorem SignalSetter.apply_sameHead (cfg : Config) (p : Message) (s : SignalSetter) :
    SameHead (s.apply cfg p) p := by
  have h : ∀ (c : Prop) [Decidable c] (q : Message), SameHead q p →
      SameHead (if c then p else q) p := by
    intro c _ q hq
    split_ifs
    · exact ⟨rfl, rfl, rfl, rfl, rfl⟩
    · exact hq
  cases s with
  | token t => exact ⟨rfl, rfl, rfl, rfl, rfl⟩
  | payload b =>
    show SameHead (coapSetPayload cfg p b) p
    unfold coapSetPayload
    split <;> exact ⟨rfl, rfl, rfl, rfl, rfl⟩
  | _ => exact h _ _ ⟨rfl, rfl, rfl, rfl, rfl⟩

theorem buildSignal_sameHead (cfg : Config) (calls : List SignalSetter) :
    ∀ p, SameHead (buildSignal cfg p calls) p := by
  induction calls with
  | nil =>
    intro p
    exact ⟨rfl, rfl, rfl, rfl, rfl⟩
  | cons s calls ih =>
    intro p
    obtain ⟨h1, h2, h3, h4, h5⟩ := ih (s.apply cfg p)
    obtain ⟨g1, g2, g3, g4, g5⟩ := s.apply_sameHead cfg p
    exact ⟨h1.trans g1, h2.trans g2, h3.trans g3, h4.trans g4, h5.trans g5⟩

section
variable {own : Prop} {options : Finset Nat} {n : Nat} {zero good : Prop}

/-- a field of the same code and another option -/
theorem SignalField.insert (h : SignalField own options n zero good) (k : Nat) (hne : n ≠ k) :
    SignalField own (Insert.insert k options) n zero good where
  mine ho := (h.mine ho).other k hne
  other := h.other

/-- a field of another code -/
theorem SignalField.foreign (h : SignalField own options n zero good) (hno : ¬ own)
    (options' : Finset Nat) : SignalField own options' n zero good where
  mine ho := absurd ho hno
  other := h.other

theorem SignalField.self (ho : own) (options : Finset Nat) (n : Nat) (h : good) :
    SignalField own (Insert.insert n options) n zero good where
  mine _ := .self options n zero h
  other hno := absurd ho hno

end

theorem signal_ne : csm701 ≠ ping702 ∧ csm701 ≠ pong703 ∧ csm701 ≠ release704 ∧ csm701 ≠ abort705
    ∧ ping702 ≠ release704 ∧ ping702 ≠ abort705 ∧ pong703 ≠ release704 ∧ pong703 ≠ abort705
    ∧ release704 ≠ abort705 := by
  decide

/-- one signal setter call -/
theorem SignalBuilt.step {cfg : Config} {p : Message} (h : SignalBuilt p)
    (s : SignalSetter) : SignalBuilt (s.apply cfg p) := by
  obtain ⟨n1, n2, n3, n4, n5, n6, n7, n8, n9⟩ := signal_ne
  cases s with
  | token t =>
    have ht : (t.take coapTokenLen).length ≤ 8 := by
      rw [List.length_take]
      exact Nat.min_le_left _ _
    exact ⟨ht, h.options, h.noSecond, h.maxMsgSize, h.blockwiseTransfer, h.custody, h.altAddr,
      h.holdOff, h.badCsm, h.rest⟩
  | maxMsgSize z =>
    show SignalBuilt (coapSignalSetMaxMsgSize p z)
    unfold coapSignalSetMaxMsgSize
    by_cases hc : p.code = csm701
    · rw [if_neg (not_not.mpr hc)]
      exact ⟨h.token, options_insert h.options 2 (by decide), fun h1 _ => absurd hc h1,
        .self hc _ 2 trivial, h.blockwiseTransfer.insert 2 (by decide),
        h.custody.foreign (by rw [hc]; exact not_or.mpr ⟨n1, n2⟩) _,
        h.altAddr.foreign (by rw [hc]; exact n3) _, h.holdOff.foreign (by rw [hc]; exact n3) _,
        h.badCsm.foreign (by rw [hc]; exact n4) _, h.rest⟩
    · rw [if_pos hc]
      exact h
  | blockwiseTransfer =>
    show SignalBuilt (coapSignalSetBlockwiseTransfer p 1)
    unfold coapSignalSetBlockwiseTransfer
    by_cases hc : p.code = csm701
    · rw [if_neg (by simp [hc])]
      exact ⟨h.token, options_insert h.options 4 (by decide), fun h1 _ => absurd hc h1,
        h.maxMsgSize.insert 4 (by decide), .self hc _ 4 rfl,
        h.custody.foreign (by rw [hc]; exact not_or.mpr ⟨n1, n2⟩) _,
        h.altAddr.foreign (by rw [hc]; exact n3) _, h.holdOff.foreign (by rw [hc]; exact n3) _,
        h.badCsm.foreign (by rw [hc]; exact n4) _, h.rest⟩
    · rw [if_pos (Or.inl hc)]
      exact h
  | custody =>
    show SignalBuilt (coapSignalSetCustody p 1)
    unfold coapSignalSetCustody
    by_cases hc : p.code = ping702 ∨ p.code = pong703
    · have hcsm : p.code ≠ csm701 := by
        rcases hc with hc | hc <;> rw [hc]
        · exact n1.symm
        · exact n2.symm
      have hrel : p.code ≠ release704 := by
        rcases hc with hc | hc <;> rw [hc]
        · exact n5
        · exact n7
      have habo : p.code ≠ abort705 := by
        rcases hc with hc | hc <;> rw [hc]
        · exact n6
        · exact n8
      rw [if_neg (by simp only [ne_eq, not_or, not_and_or, not_not]; exact ⟨hc, by decide⟩)]
      exact ⟨h.token, options_insert h.options 2 (by decide),
        fun h1 h2 hm => h.noSecond h1 h2 ((Finset.mem_insert.mp hm).resolve_left (by decide)),
        h.maxMsgSize.foreign hcsm _, h.blockwiseTransfer.foreign hcsm _, .self hc _ 2 rfl,
        h.altAddr.foreign hrel _, h.holdOff.foreign hrel _, h.badCsm.foreign habo _, h.rest⟩
    · rw [if_pos (Or.inl (not_or.mp hc))]
      exact h
  | altAddr a =>
    show SignalBuilt (coapSignalSetAltAddr p a)
    unfold coapSignalSetAltAddr
    by_cases hc : p.code = release704
    · by_cases ha : a = []
      · rw [if_pos (Or.inr ha)]
        exact h
      · rw [if_neg (by simp [hc, ha])]
        exact ⟨h.token, options_insert h.options 2 (by decide), fun _ h2 => absurd hc h2,
          h.maxMsgSize.foreign (by rw [hc]; exact n3.symm) _,
          h.blockwiseTransfer.foreign (by rw [hc]; exact n3.symm) _,
          h.custody.foreign (by rw [hc]; exact not_or.mpr ⟨n5.symm, n7.symm⟩) _,
          .self hc _ 2 trivial, h.holdOff.insert 2 (by decide),
          h.badCsm.foreign (by rw [hc]; exact n9) _, h.rest⟩
    · rw [if_pos (Or.inl hc)]
      exact h
  | holdOff t =>
    show SignalBuilt (coapSignalSetHoldOff p t)
    unfold coapSignalSetHoldOff
    by_cases hc : p.code = release704
    · rw [if_neg (not_not.mpr hc)]
      exact ⟨h.token, options_insert h.options 4 (by decide), fun _ h2 => absurd hc h2,
        h.maxMsgSize.foreign (by rw [hc]; exact n3.symm) _,
        h.blockwiseTransfer.foreign (by rw [hc]; exact n3.symm) _,
        h.custody.foreign (by rw [hc]; exact not_or.mpr ⟨n5.symm, n7.symm⟩) _,
        h.altAddr.insert 4 (by decide), .self hc _ 4 trivial,
        h.badCsm.foreign (by rw [hc]; exact n9) _, h.rest⟩
    · rw [if_pos hc]
      exact h
  | badCsm o =>
    show SignalBuilt (coapSignalSetBadCsm p o)
    unfold coapSignalSetBadCsm
    by_cases hc : p.code = abort705
    · rw [if_neg (not_not.mpr hc)]
      exact ⟨h.token, options_insert h.options 2 (by decide),
        fun h1 h2 hm => h.noSecond h1 h2 ((Finset.mem_insert.mp hm).resolve_left (by decide)),
        h.maxMsgSize.foreign (by rw [hc]; exact n4.symm) _,
        h.blockwiseTransfer.foreign (by rw [hc]; exact n4.symm) _,
        h.custody.foreign (by rw [hc]; exact not_or.mpr ⟨n6.symm, n8.symm⟩) _,
        h.altAddr.foreign (by rw [hc]; exact n9.symm) _,
        h.holdOff.foreign (by rw [hc]; exact n9.symm) _, .self hc _ 2 trivial, h.rest⟩
    · rw [if_pos hc]
      exact h
  | payload b =>
    show SignalBuilt (coapSetPayload cfg p b)
    unfold coapSetPayload
    split <;> exact ⟨h.token, h.options, h.noSecond, h.maxMsgSize, h.blockwiseTransfer, h.custody,
      h.altAddr, h.holdOff, h.badCsm, h.rest⟩

theorem signalBuilt_init (code : UInt8) : SignalBuilt (coapTcpInitMessage code) := by
  have hf : ∀ {own zero good : Prop} {n : Nat}, zero → SignalField own ∅ n zero good := fun hz =>
    ⟨fun _ => ⟨fun _ => hz, fun hm => absurd hm (Finset.notMem_empty _)⟩, fun _ => hz⟩
  exact ⟨Nat.zero_le _, fun x hx => absurd hx (Finset.notMem_empty _),
    fun _ _ => Finset.notMem_empty _, hf rfl, hf rfl, hf rfl, hf rfl, hf rfl, hf rfl,
    ⟨rfl, rfl, rfl, rfl, rfl, rfl, rfl, rfl, rfl, rfl, rfl, rfl⟩⟩

theorem SignalBuilt.build {cfg : Config} (calls : List SignalSetter) :
    ∀ p, SignalBuilt p → SignalBuilt (buildSignal cfg p calls) := by
  induction calls with
  | nil =>
    intro p hp
    exact hp
  | cons s calls ih =>
    intro p hp
    exact ih _ (hp.step s)

end Coap
