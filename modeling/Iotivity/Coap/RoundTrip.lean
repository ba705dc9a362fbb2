import Iotivity.Coap.Build
import Iotivity.Coap.Splitting
import Mathlib.Data.Finset.Filter

/-!
# Serialize, then parse

* `packetOptions_encodable`       the option list of a serialized packet can be decoded;
* `listOptions_ordinaryOptions`   feeding it to a packet rebuilds the packet, option by option;
* `udp_round_trip`, `tcp_round_trip`, `tcp_signal_round_trip`   the three codecs.
-/

set_option linter.unusedVariables false

namespace Coap
open Memory DeltaCode

/-! ## the option list is decodable -/

/-- with short values, the list is encodable and its numbers stay below `b` -/
def Climbs (os : List (Nat × List UInt8)) (b : Nat) : Prop :=
  (∀ o ∈ os, o.2.length < 65805) →
    Encodable 0 os ∧ lastNumber 0 os ≤ b ∧ ∀ o ∈ os, o.1 ≤ b

theorem Climbs.nil : Climbs [] 0 := fun _ => ⟨trivial, le_rfl, fun _ h => absurd h List.not_mem_nil⟩

theorem lastNumber_segment_le (c b : Nat) (set : Bool) (vs : List (List UInt8)) (hcb : c ≤ b) :
    lastNumber c (segment set b vs) ≤ b := by
  unfold segment
  split_ifs
  · by_cases hv : vs = []
    · rw [hv]
      exact hcb
    · rw [lastNumber_map c b vs hv]
  · exact hcb

theorem Climbs.segment {os : List (Nat × List UInt8)} {a : Nat} (h : Climbs os a) (set : Bool)
    (b : Nat) (vs : List (List UInt8)) (hab : a ≤ b) (hb : b < 65805) :
    Climbs (os ++ Coap.segment set b vs) b := by
  intro hlen
  obtain ⟨h1, h2, h3⟩ := h fun o ho => hlen o (List.mem_append_left _ ho)
  have hvs : ∀ o ∈ Coap.segment set b vs, o.1 = b ∧ o.2.length < 65805 := by
    intro o ho
    refine ⟨?_, hlen o (List.mem_append_right _ ho)⟩
    unfold Coap.segment at ho
    split_ifs at ho
    · obtain ⟨v, _, rfl⟩ := List.mem_map.mp ho
      rfl
    · cases ho
  refine ⟨(encodable_append 0 os _).mpr ⟨h1, ?_⟩, ?_, ?_⟩
  · unfold Coap.segment at hvs ⊢
    split_ifs at hvs ⊢
    · exact encodable_map _ b vs hb (fun v hv => (hvs (b, v) (List.mem_map_of_mem hv)).2)
        (h2.trans hab)
    · trivial
  · rw [lastNumber_append]
    exact lastNumber_segment_le _ _ _ _ (h2.trans hab)
  · intro o ho
    rcases List.mem_append.mp ho with ho | ho
    · exact (h3 o ho).trans hab
    · exact le_of_eq (hvs o ho).1

theorem Climbs.mono {os : List (Nat × List UInt8)} {a b : Nat} (h : Climbs os a) (hab : a ≤ b) :
    Climbs os b := fun hlen =>
  have ⟨h1, h2, h3⟩ := h hlen
  ⟨h1, h2.trans hab, fun o ho => (h3 o ho).trans hab⟩

theorem packetOptions_climbs (p : Message) : Climbs (packetOptions p) 2053 := by
  unfold packetOptions
  split_ifs
  · unfold signalOptions
    split_ifs
    · exact ((Climbs.nil.segment _ 2 _ (by decide) (by decide)).segment _ 4 _ (by decide)
        (by decide)).mono (by decide)
    · rw [List.append_nil]
      exact (Climbs.nil.segment _ 2 _ (by decide) (by decide)).mono (by decide)
    · exact (Climbs.nil.segment _ 2 _ (by decide) (by decide)).mono (by decide)
    · exact Climbs.nil.mono (by decide)
    · exact ((Climbs.nil.segment _ 2 _ (by decide) (by decide)).segment _ 4 _ (by decide)
        (by decide)).mono (by decide)
    · exact (Climbs.nil.segment _ 2 _ (by decide) (by decide)).mono (by decide)
    · exact Climbs.nil.mono (by decide)
  · exact ((((((((((((Climbs.nil.segment _ 4 _ (by decide) (by decide)).segment _ 6 _ (by decide)
      (by decide)).segment _ 7 _ (by decide) (by decide)).segment _ 11 _ (by decide)
      (by decide)).segment _ 12 _ (by decide) (by decide)).segment _ 15 _ (by decide)
      (by decide)).segment _ 17 _ (by decide) (by decide)).segment _ 23 _ (by decide)
      (by decide)).segment _ 27 _ (by decide) (by decide)).segment _ 28 _ (by decide)
      (by decide)).segment _ 60 _ (by decide) (by decide)).segment _ 2049 _ (by decide)
      (by decide)).segment _ 2053 _ (by decide) (by decide)

/-- no value is longer than the code -/
theorem length_le_length_encode (os : List (Nat × List UInt8)) :
    ∀ number, ∀ o ∈ os, o.2.length ≤ (encode number os).length := by
  induction os with
  | nil =>
    intro number o ho
    cases ho
  | cons x os ih =>
    intro number o ho
    obtain ⟨n, v⟩ := x
    simp only [encode, List.length_append]
    rcases List.mem_cons.mp ho with rfl | ho
    · show v.length ≤ _
      omega
    · have := ih n o ho
      omega

/-- behind the header check the options are decodable -/
theorem packetOptions_encodable (p : Message)
    (h : (encode 0 (packetOptions p)).length ≤ coapMaxHeaderSize) :
    Encodable 0 (packetOptions p) ∧ ∀ o ∈ packetOptions p, o.1 < 2^32 := by
  have hmax : coapMaxHeaderSize = 111 := rfl
  obtain ⟨h1, h2, h3⟩ := packetOptions_climbs p fun o ho => by
    have := length_le_length_encode (packetOptions p) 0 o ho
    omega
  refine ⟨h1, fun o ho => ?_⟩
  have := h3 o ho
  omega

/-! ## rebuilding an ordinary packet -/

/-- the Block option with the offset the parser computes -/
def BlockOption.located (b : BlockOption) : BlockOption :=
  { b with offset := UInt32.ofNat (b.num.toNat * b.size.toNat) }

/-- the packet with the options up to number `n`, and no payload -/
def upTo (p : Message) (n : Nat) : Message :=
  { p with
    options := p.options.filter (· ≤ n)
    etag := if 4 ≤ n then p.etag else []
    observe := if 6 ≤ n then p.observe else 0
    uriPath := if 11 ≤ n then p.uriPath else []
    contentFormat := if 12 ≤ n then p.contentFormat else 0
    uriQuery := if 15 ≤ n then p.uriQuery else []
    accept := if 17 ≤ n then p.accept else 0
    block2 := if 23 ≤ n then p.block2.located else .zero
    block1 := if 27 ≤ n then p.block1.located else .zero
    size2 := if 28 ≤ n then p.size2 else 0
    size1 := if 60 ≤ n then p.size1 else 0
    payload := [] }

theorem listOptions_append (a b : List (Nat × List UInt8)) : ∀ (p q : Message),
    listOptions p a = .ok q → listOptions p (a ++ b) = listOptions q b := by
  induction a with
  | nil =>
    intro p q h
    cases h
    rfl
  | cons o a ih =>
    intro p q h
    simp only [List.cons_append, listOptions] at h ⊢
    cases ho : listOption p o with
    | error e =>
      rw [ho] at h
      cases h
    | ok r =>
      rw [ho] at h
      exact ih r q h

theorem filter_le_succ {s : Finset Nat} {a b : Nat} (h : ∀ x ∈ s, x ≤ a ∨ b ≤ x) (hab : a < b) :
    s.filter (· ≤ b) = if b ∈ s then insert b (s.filter (· ≤ a)) else s.filter (· ≤ a) := by
  ext x
  have hx : x ∈ s → x ≤ b → x ≤ a ∨ x = b := fun h1 h2 => (h x h1).imp_right fun h3 => by omega
  split_ifs with hb
  · simp only [Finset.mem_filter, Finset.mem_insert]
    constructor
    · rintro ⟨h1, h2⟩
      rcases hx h1 h2 with h3 | h3
      · exact Or.inr ⟨h1, h3⟩
      · exact Or.inl h3
    · rintro (h1 | ⟨h1, h2⟩)
      · rw [h1]
        exact ⟨hb, le_rfl⟩
      · exact ⟨h1, by omega⟩
  · simp only [Finset.mem_filter]
    constructor
    · rintro ⟨h1, h2⟩
      rcases hx h1 h2 with h3 | h3
      · exact ⟨h1, h3⟩
      · exact absurd (h3 ▸ h1) hb
    · rintro ⟨h1, h2⟩
      exact ⟨h1, by omega⟩

section
variable {cfg : Config} {p : Message}

theorem Built.gap (hp : Built cfg p) (a b : Nat)
    (h : ∀ x ∈ ordinaryNumbers, x ≤ a ∨ b ≤ x) : ∀ x ∈ p.options, x ≤ a ∨ b ≤ x :=
  fun x hx => h x (hp.options x hx)

/-- an option that goes into a field of the packet -/
theorem listOptions_value (q : Message) (n : Nat) (v : List UInt8) (f : Fields)
    (hs : coapCheckSignalMessage q = false) (h1 : n ≠ coapOptionUriPath)
    (h2 : n ≠ coapOptionUriQuery)
    (hf : parseValueOption (markOption q n).toFields n v = .ok f) :
    listOptions q [(n, v)] = .ok { q with toFields := f } := by
  have hs' : coapCheckSignalMessage (markOption q n) = false := by
    rw [coapCheckSignalMessage_markOption, hs]
  simp only [listOptions, listOption, listMarkedOption]
  rw [if_neg (by rw [hs']; decide), if_neg h1, if_neg h2, hf]
  unfold markOption
  split_ifs <;> rfl

/-- One segment of an option list: present, it brings the packet from `q` to `r`; absent, there is
nothing to bring. -/
theorem listOptions_segment {q r : Message} {b : Nat} {vs : List (List UInt8)}
    (hin : b ∈ p.options → listOptions q (vs.map (b, ·)) = .ok r)
    (hout : b ∉ p.options → q = r) :
    listOptions q (segment (isOption p b) b vs) = .ok r := by
  unfold segment isOption
  by_cases h : b ∈ p.options
  · rw [if_pos (decide_eq_true h)]
    exact hin h
  · rw [if_neg (by simp [h]), hout h]
    rfl

theorem upTo_etag (hp : Built cfg p) (hs : coapCheckSignalMessage p = false) :
    listOptions (upTo p 0) (segment (isOption p 4) 4 (stringParts p.etag 0)) = .ok (upTo p 4) := by
  have hfil := filter_le_succ (hp.gap 0 4 (by decide)) (by decide)
  have hup : upTo p 4 = { upTo p 0 with options := p.options.filter (· ≤ 4), etag := p.etag } := rfl
  refine listOptions_segment (fun h => ?_) (fun h => ?_)
  · have hv : p.etag.take coapEtagLen = p.etag :=
      List.take_of_length_le (hp.etag.present h)
    have hl := listOptions_value (upTo p 0) 4 p.etag _ hs (by decide) (by decide) rfl
    rw [hv] at hl
    rw [if_pos h] at hfil
    rw [hup, hfil]
    exact hl
  · rw [if_neg h] at hfil
    rw [hup, hfil, hp.etag.absent h]
    rfl

theorem upTo_observe (hp : Built cfg p) (hs : coapCheckSignalMessage p = false) :
    listOptions (upTo p 4) (segment (isOption p 6) 6 [intBytes p.observe]) = .ok (upTo p 6) := by
  have hfil := filter_le_succ (hp.gap 4 6 (by decide)) (by decide)
  have hup : upTo p 6
      = { upTo p 4 with options := p.options.filter (· ≤ 6), observe := p.observe } := rfl
  refine listOptions_segment (fun h => ?_) (fun h => ?_)
  · have hv := coapParseIntOption_intBytes p.observe
    have hl := listOptions_value (upTo p 4) 6 (intBytes p.observe) _ hs (by decide) (by decide) rfl
    rw [hv] at hl
    rw [if_pos h] at hfil
    rw [hup, hfil]
    exact hl
  · rw [if_neg h] at hfil
    rw [hup, hfil, hp.observe.absent h]
    rfl

/-- no packet here has a Uri-Port -/
theorem upTo_uriPort (hp : Built cfg p) :
    listOptions (upTo p 6) (segment (isOption p 7) 7 [intBytes p.uriPort.toUInt32])
      = .ok (upTo p 6) := by
  have h : 7 ∉ p.options := fun hm => absurd (hp.options 7 hm) (by decide)
  unfold segment isOption
  rw [if_neg (by simp [h])]
  rfl

/-- a string field whose parts are merged one after the other -/
structure StringOption (n : Nat) (c : UInt8) (get : Message → List UInt8)
    (set : Message → List UInt8 → Message) : Prop where
  one : ∀ q v, coapCheckSignalMessage q = false →
    listOption q (n, v) = .ok (set (setOption q n) (mergeMultiOption (get q) v c))
  get_set : ∀ q s, get (set q s) = s
  set_set : ∀ q s t, set (set q s) t = set q t
  option_set : ∀ q s, setOption (set (setOption q n) s) n = set (setOption q n) s
  signal : ∀ q s, coapCheckSignalMessage (set (setOption q n) s) = coapCheckSignalMessage q

theorem StringOption.all {n : Nat} {c : UInt8} {get : Message → List UInt8}
    {set : Message → List UInt8 → Message} (h : StringOption n c get set)
    (vs : List (List UInt8)) (hv : vs ≠ []) : ∀ q : Message, coapCheckSignalMessage q = false →
    listOptions q (vs.map (n, ·))
      = .ok (set (setOption q n) (vs.foldl (mergeMultiOption · · c) (get q))) := by
  induction vs with
  | nil => exact absurd rfl hv
  | cons v vs ih =>
    intro q hs
    simp only [List.map_cons, listOptions, h.one q v hs, List.foldl_cons]
    by_cases hvs : vs = []
    · subst hvs
      rfl
    · rw [ih hvs _ ((h.signal q _).trans hs), h.option_set, h.get_set, h.set_set]

theorem uriPath_option :
    StringOption 11 slash (·.uriPath) (fun q s => { q with uriPath := s }) where
  one q v hs := by
    have hs' : coapCheckSignalMessage (markOption q 11) = false := by
      rw [coapCheckSignalMessage_markOption, hs]
    show (if coapCheckSignalMessage (markOption q 11) then _ else _) = _
    rw [if_neg (by rw [hs']; decide)]
    rfl
  get_set _ _ := rfl
  set_set _ _ _ := rfl
  option_set q s := by
    unfold setOption
    simp only [Finset.insert_idem]
  signal _ _ := rfl

theorem uriQuery_option :
    StringOption 15 ampersand (·.uriQuery) (fun q s => { q with uriQuery := s }) where
  one q v hs := by
    have hs' : coapCheckSignalMessage (markOption q 15) = false := by
      rw [coapCheckSignalMessage_markOption, hs]
    show (if coapCheckSignalMessage (markOption q 15) then _ else _) = _
    rw [if_neg (by rw [hs']; decide)]
    rfl
  get_set _ _ := rfl
  set_set _ _ _ := rfl
  option_set q s := by
    unfold setOption
    simp only [Finset.insert_idem]
  signal _ _ := rfl

/-- a string that survives splitting and merging -/
def Splittable (s : List UInt8) (c : UInt8) : Prop := s.head? ≠ some c ∧ s.getLast? ≠ some c

instance (s : List UInt8) (c : UInt8) : Decidable (Splittable s c) :=
  inferInstanceAs (Decidable (_ ∧ _))

theorem upTo_uriPath (hp : Built cfg p) (hs : coapCheckSignalMessage p = false)
    (hpath : Splittable p.uriPath slash) :
    listOptions (upTo p 6) (segment (isOption p 11) 11 (stringParts p.uriPath slash))
      = .ok (upTo p 11) := by
  have hfil := filter_le_succ (hp.gap 6 11 (by decide)) (by decide)
  have hup : upTo p 11
      = { upTo p 6 with options := p.options.filter (· ≤ 11), uriPath := p.uriPath } := rfl
  refine listOptions_segment (fun h => ?_) (fun h => ?_)
  · have hv := foldl_mergeMultiOption_stringParts p.uriPath slash (by decide) hpath.1 hpath.2
    have hl := uriPath_option.all _ (stringParts_ne_nil p.uriPath slash) (upTo p 6) hs
    rw [show (upTo p 6).uriPath = [] from rfl, hv] at hl
    rw [if_pos h] at hfil
    rw [hup, hfil]
    exact hl
  · rw [if_neg h] at hfil
    rw [hup, hfil, hp.uriPath.absent h]
    rfl

theorem upTo_uriQuery (hp : Built cfg p) (hs : coapCheckSignalMessage p = false)
    (hquery : Splittable p.uriQuery ampersand) :
    listOptions (upTo p 12) (segment (isOption p 15) 15 (stringParts p.uriQuery ampersand))
      = .ok (upTo p 15) := by
  have hfil := filter_le_succ (hp.gap 12 15 (by decide)) (by decide)
  have hup : upTo p 15
      = { upTo p 12 with options := p.options.filter (· ≤ 15), uriQuery := p.uriQuery } := rfl
  refine listOptions_segment (fun h => ?_) (fun h => ?_)
  · have hv := foldl_mergeMultiOption_stringParts p.uriQuery ampersand (by decide) hquery.1 hquery.2
    have hl := uriQuery_option.all _ (stringParts_ne_nil p.uriQuery ampersand) (upTo p 12) hs
    rw [show (upTo p 12).uriQuery = [] from rfl, hv] at hl
    rw [if_pos h] at hfil
    rw [hup, hfil]
    exact hl
  · rw [if_neg h] at hfil
    rw [hup, hfil, hp.uriQuery.absent h]
    rfl

/-- a content format there and back -/
theorem parse_format (v : UInt16) : (coapParseIntOption (intBytes v.toUInt32)).toUInt16 = v := by
  rw [coapParseIntOption_intBytes]
  apply UInt16.toNat_inj.mp
  rw [UInt32.toNat_toUInt16, UInt16.toNat_toUInt32]
  have := v.toNat_lt
  omega

theorem FormatField.supported {v : UInt16} (h : FormatField v) : unsupportedFormat v = false := by
  rcases h with h | h <;> rw [h] <;> decide

theorem upTo_contentFormat (hp : Built cfg p) (hs : coapCheckSignalMessage p = false) :
    listOptions (upTo p 11) (segment (isOption p 12) 12 [intBytes p.contentFormat.toUInt32])
      = .ok (upTo p 12) := by
  have hfil := filter_le_succ (hp.gap 11 12 (by decide)) (by decide)
  have hup : upTo p 12 = { upTo p 11 with
      options := p.options.filter (· ≤ 12), contentFormat := p.contentFormat } := rfl
  refine listOptions_segment (fun h => ?_) (fun h => ?_)
  · have hval : parseValueOption (markOption (upTo p 11) 12).toFields 12
        (intBytes p.contentFormat.toUInt32)
          = .ok { (markOption (upTo p 11) 12).toFields with contentFormat := p.contentFormat } := by
      show (if unsupportedFormat _ then _ else _) = _
      rw [parse_format, (hp.format.present h).supported]
      rfl
    rw [if_pos h] at hfil
    rw [hup, hfil]
    exact listOptions_value (upTo p 11) 12 _ _ hs (by decide) (by decide) hval
  · rw [if_neg h] at hfil
    rw [hup, hfil, hp.format.absent h]
    rfl

theorem upTo_accept (hp : Built cfg p) (hs : coapCheckSignalMessage p = false) :
    listOptions (upTo p 15) (segment (isOption p 17) 17 [intBytes p.accept.toUInt32])
      = .ok (upTo p 17) := by
  have hfil := filter_le_succ (hp.gap 15 17 (by decide)) (by decide)
  have hup : upTo p 17 = { upTo p 15 with
      options := p.options.filter (· ≤ 17), accept := p.accept } := rfl
  refine listOptions_segment (fun h => ?_) (fun h => ?_)
  · have hval : parseValueOption (markOption (upTo p 15) 17).toFields 17
        (intBytes p.accept.toUInt32)
          = .ok { (markOption (upTo p 15) 17).toFields with accept := p.accept } := by
      show (if unsupportedFormat _ then _ else _) = _
      rw [parse_format, (hp.accept.present h).supported]
      rfl
    rw [if_pos h] at hfil
    rw [hup, hfil]
    exact listOptions_value (upTo p 15) 17 _ _ hs (by decide) (by decide) hval
  · rw [if_neg h] at hfil
    rw [hup, hfil, hp.accept.absent h]
    rfl

/-- a Block option there and back -/
theorem BlockField.parse {b : BlockOption} (h : BlockField b) :
    parseBlockOption (coapParseIntOption (intBytes (blockValue b))) = b.located := by
  obtain ⟨e, he, hsize⟩ := h.size
  have h2e : 2^e ≤ 2^7 := Nat.pow_le_pow_right (by decide) (by omega)
  have hszx : szx b.size.toNat = e := by
    unfold szx
    rw [hsize, Nat.mul_div_cancel_left _ (by decide), Nat.log2_two_pow]
  have hnum := h.num
  have hmore := h.more
  have hv := toNat_blockValue b (by omega) (by omega)
  have hm : (if b.more ≠ 0 then 8 else 0) = 8 * b.more.toNat := by
    by_cases h0 : b.more = 0
    · rw [if_neg (not_not.mpr h0), h0]
      rfl
    · rw [if_pos h0]
      have : b.more.toNat ≠ 0 := fun hc => h0 (UInt8.toNat_inj.mp hc)
      omega
  rw [hm, hszx] at hv
  obtain ⟨e1, e2, e3, e4⟩ := parseBlockOption_eq (blockValue b) _ _ e hmore he hv
  rw [coapParseIntOption_intBytes]
  rw [← hsize] at e3 e4
  unfold BlockOption.located
  rcases hr : parseBlockOption (blockValue b) with ⟨n, m, z, o⟩
  rw [hr] at e1 e2 e3 e4
  obtain ⟨n', m', z', o'⟩ := b
  simp only [BlockOption.mk.injEq]
  exact ⟨UInt32.toNat_inj.mp e1, UInt8.toNat_inj.mp e2, UInt16.toNat_inj.mp e3,
    UInt32.toNat_inj.mp (by rw [e4, UInt32.toNat_ofNat'])⟩

theorem upTo_block2 (hp : Built cfg p) (hs : coapCheckSignalMessage p = false) :
    listOptions (upTo p 17) (segment (isOption p 23) 23 [intBytes (blockValue p.block2)])
      = .ok (upTo p 23) := by
  have hfil := filter_le_succ (hp.gap 17 23 (by decide)) (by decide)
  have hup : upTo p 23 = { upTo p 17 with
      options := p.options.filter (· ≤ 23), block2 := p.block2.located } := rfl
  refine listOptions_segment (fun h => ?_) (fun h => ?_)
  · have hl := listOptions_value (upTo p 17) 23 (intBytes (blockValue p.block2)) _ hs (by decide)
      (by decide) rfl
    rw [(hp.block2.present h).parse] at hl
    rw [if_pos h] at hfil
    rw [hup, hfil]
    exact hl
  · rw [if_neg h] at hfil
    rw [hup, hfil, hp.block2.absent h]
    rfl

theorem upTo_block1 (hp : Built cfg p) (hs : coapCheckSignalMessage p = false) :
    listOptions (upTo p 23) (segment (isOption p 27) 27 [intBytes (blockValue p.block1)])
      = .ok (upTo p 27) := by
  have hfil := filter_le_succ (hp.gap 23 27 (by decide)) (by decide)
  have hup : upTo p 27 = { upTo p 23 with
      options := p.options.filter (· ≤ 27), block1 := p.block1.located } := rfl
  refine listOptions_segment (fun h => ?_) (fun h => ?_)
  · have hl := listOptions_value (upTo p 23) 27 (intBytes (blockValue p.block1)) _ hs (by decide)
      (by decide) rfl
    rw [(hp.block1.present h).parse] at hl
    rw [if_pos h] at hfil
    rw [hup, hfil]
    exact hl
  · rw [if_neg h] at hfil
    rw [hup, hfil, hp.block1.absent h]
    rfl

theorem upTo_size2 (hp : Built cfg p) (hs : coapCheckSignalMessage p = false) :
    listOptions (upTo p 27) (segment (isOption p 28) 28 [intBytes p.size2]) = .ok (upTo p 28) := by
  have hfil := filter_le_succ (hp.gap 27 28 (by decide)) (by decide)
  have hup : upTo p 28 = { upTo p 27 with
      options := p.options.filter (· ≤ 28), size2 := p.size2 } := rfl
  refine listOptions_segment (fun h => ?_) (fun h => ?_)
  · have hl := listOptions_value (upTo p 27) 28 (intBytes p.size2) _ hs (by decide) (by decide) rfl
    rw [coapParseIntOption_intBytes p.size2] at hl
    rw [if_pos h] at hfil
    rw [hup, hfil]
    exact hl
  · rw [if_neg h] at hfil
    rw [hup, hfil, hp.size2.absent h]
    rfl

theorem upTo_size1 (hp : Built cfg p) (hs : coapCheckSignalMessage p = false) :
    listOptions (upTo p 28) (segment (isOption p 60) 60 [intBytes p.size1]) = .ok (upTo p 60) := by
  have hfil := filter_le_succ (hp.gap 28 60 (by decide)) (by decide)
  have hup : upTo p 60 = { upTo p 28 with
      options := p.options.filter (· ≤ 60), size1 := p.size1 } := rfl
  refine listOptions_segment (fun h => ?_) (fun h => ?_)
  · have hl := listOptions_value (upTo p 28) 60 (intBytes p.size1) _ hs (by decide) (by decide) rfl
    rw [coapParseIntOption_intBytes p.size1] at hl
    rw [if_pos h] at hfil
    rw [hup, hfil]
    exact hl
  · rw [if_neg h] at hfil
    rw [hup, hfil, hp.size1.absent h]
    rfl

/-- the version options are only checked -/
theorem listOptions_version (q : Message) (hs : coapCheckSignalMessage q = false) (set : Bool)
    (format : UInt16) (n : Nat)
    (hn : n = ocfOptionContentFormatVer ∨ n = ocfOptionAcceptContentFormatVer) :
    listOptions q (segment set n [intBytes (versionValue format)]) = .ok q := by
  unfold segment
  cases set with
  | false => rfl
  | true =>
    have hmark : markOption q n = q := by
      unfold markOption
      rw [if_neg (by rcases hn with hn | hn <;> rw [hn] <;> decide)]
    have hval : parseValueOption (markOption q n).toFields n (intBytes (versionValue format))
        = .ok q.toFields := by
      have hver : (versionValue format).toUInt16.toNat = ocfVer100
          ∨ (versionValue format).toUInt16.toNat = oicVer110 := by
        unfold versionValue
        split_ifs
        · exact Or.inr rfl
        · exact Or.inl rfl
      rw [hmark]
      rcases hn with hn | hn <;> subst hn
      · show (if _ ∧ _ then _ else _) = _
        rw [coapParseIntOption_intBytes, if_neg]
        rintro ⟨h1, h2⟩
        exact hver.elim h1 h2
      · show (if _ ∧ _ then _ else _) = _
        rw [coapParseIntOption_intBytes, if_neg]
        rintro ⟨h1, h2⟩
        exact hver.elim h1 h2
    have hne : n ≠ coapOptionUriPath ∧ n ≠ coapOptionUriQuery := by
      rcases hn with hn | hn <;> rw [hn] <;> decide
    exact listOptions_value q n _ _ hs hne.1 hne.2 hval

/-- **The options of a built packet rebuild it.** -/
theorem listOptions_ordinaryOptions (hp : Built cfg p) (hs : coapCheckSignalMessage p = false)
    (hpath : Splittable p.uriPath slash) (hquery : Splittable p.uriQuery ampersand) :
    listOptions (upTo p 0) (ordinaryOptions p) = .ok (upTo p 60) := by
  unfold ordinaryOptions
  simp only [List.append_assoc]
  rw [listOptions_append _ _ _ _ (upTo_etag hp hs), listOptions_append _ _ _ _ (upTo_observe hp hs),
    listOptions_append _ _ _ _ (upTo_uriPort hp),
    listOptions_append _ _ _ _ (upTo_uriPath hp hs hpath),
    listOptions_append _ _ _ _ (upTo_contentFormat hp hs),
    listOptions_append _ _ _ _ (upTo_uriQuery hp hs hquery),
    listOptions_append _ _ _ _ (upTo_accept hp hs), listOptions_append _ _ _ _ (upTo_block2 hp hs),
    listOptions_append _ _ _ _ (upTo_block1 hp hs), listOptions_append _ _ _ _ (upTo_size2 hp hs),
    listOptions_append _ _ _ _ (upTo_size1 hp hs),
    listOptions_append _ _ _ _ (listOptions_version (upTo p 60) hs _ _ _ (Or.inr rfl))]
  exact listOptions_version (upTo p 60) hs _ _ _ (Or.inl rfl)

/-- what the parser makes of a serialized packet -/
def received (p : Message) : Message :=
  { p with block2 := p.block2.located, block1 := p.block1.located }

/-- how the option list of a packet ends -/
def ending (p : Message) : Ending := if 0 < p.payload.length then .payload p.payload else .empty

theorem upTo_sixty (hp : Built cfg p) :
    { upTo p 60 with payload := p.payload } = received p := by
  have hfil : p.options.filter (· ≤ 60) = p.options := by
    rw [Finset.filter_eq_self]
    intro x hx
    have h : ∀ x ∈ ordinaryNumbers, x ≤ 60 := by decide
    exact h x (hp.options x hx)
  show { received p with options := p.options.filter (· ≤ 60) } = received p
  rw [hfil]
  rfl

/-- options and payload of a packet, fed to a packet that has its header only -/
theorem listMessage_ordinary (hp : Built cfg p) (hs : coapCheckSignalMessage p = false)
    (hpath : Splittable p.uriPath slash) (hquery : Splittable p.uriQuery ampersand) :
    listMessage cfg (upTo p 0) (ordinaryOptions p, ending p) = .ok (received p) := by
  unfold listMessage ending
  rw [listOptions_ordinaryOptions hp hs hpath hquery, ← upTo_sixty hp]
  by_cases h : 0 < p.payload.length
  · rw [if_pos h]
    show Except.ok { upTo p 60 with payload := keptPayload cfg p.transportType p.payload } = _
    unfold keptPayload
    by_cases ht : p.transportType = .udp
    · rw [if_pos ht, List.take_of_length_le (hp.udpPayload ht)]
    · rw [if_neg ht]
  · rw [if_neg h]
    have h0 : p.payload = [] := List.length_eq_zero_iff.mp (by omega)
    rw [h0]
    rfl

theorem upTo_zero (hp : Built cfg p) : upTo p 0 = { Packet.zero [] p.transportType with
    version := p.version, type := p.type, code := p.code, mid := p.mid, token := p.token } := by
  have hfil : p.options.filter (· ≤ 0) = ∅ := by
    rw [Finset.filter_eq_empty_iff]
    intro x hx h0
    have h : ∀ x ∈ ordinaryNumbers, 0 < x := by decide
    have := h x (hp.options x hx)
    omega
  obtain ⟨h1, h2, h3, h4, h5, h6, h7, h8⟩ := hp.rest
  unfold upTo
  rw [hfil, h1, h2, h3, h4, h5, h6, h7, h8]
  rfl

end

/-- decoding the body of a serialized packet -/
theorem decode_body (p : Message) (henc : Encodable 0 (packetOptions p)) :
    decode 0 (encode 0 (packetOptions p) ++ if 0 < p.payload.length then 0xFF :: p.payload else [])
      = (packetOptions p, ending p) := by
  apply decode_encode 0 _ _ _ henc
  intro n
  unfold ending
  split_ifs
  · exact decode_marker n _ _ (by decide)
  · exact decode_nil n

end Coap
