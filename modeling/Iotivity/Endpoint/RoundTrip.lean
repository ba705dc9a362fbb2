import Iotivity.Endpoint.Reading

/-!
# Endpoints printed and read back

An IPv4 endpoint comes back from its string.  For IPv6 the address that is read has the zeros at one
place, so that an address with another group between two zero groups does not come back.

* `roundTrips_ipv4`, `roundTrips_ipv6_iff`   the two kinds of endpoint;
* `round_trip_iff`                           both.
-/

namespace EndpointString
open Security Coap

/-! ## dotted addresses -/

/-- octets with dots between them -/
def dotted : List UInt8 → Bytes
  | [] => []
  | [o] => Numeral.decimal o.toNat
  | o :: os => Numeral.decimal o.toNat ++ 46 :: dotted os

/-- the octets stored, the last one at index 3 -/
def place (addr : Bytes) : List UInt8 → Bytes
  | [] => addr
  | o :: os => place (addr.set (3 - os.length) o) os

section
variable {x r : Bytes} {len i : Nat} {addr : Bytes} (hx : len ≤ x.length) (ha : 4 ≤ addr.length)
include hx ha

/-- one octet of a dotted address -/
theorem ipv4Loop_octet (o : UInt8) {c : UInt8} (hc : Numeral.isDigit c = false)
    (ht : (x ++ [0]).drop i = Numeral.decimal o.toNat ++ c :: r) (hi : i < len) (n : Nat) :
    ipv4Loop (x ++ [0]) len (n + 1) i addr = ipv4Loop (x ++ [0]) len n
      (if n ≠ 0 then i + (Numeral.decimal o.toNat).length + 1 else i) (addr.set (3 - n) o) := by
  have hlt : o.toNat < 2 ^ 64 := Nat.lt_of_lt_of_le o.toNat_lt (by decide)
  have hread : strtoulAt (x ++ [0]) i = .ok (o.toNat, i + (Numeral.decimal o.toNat).length) := by
    rw [strtoulAt_eq (by omega), ht, Numeral.strtoul_decimal hlt]
    rintro d ⟨⟩
    exact hc
  rw [ipv4Loop, if_pos hi, hread]
  show (store addr (3 - n) (UInt8.ofNat o.toNat) >>= _) = _
  rw [store_eq (by omega), UInt8.ofNat_toNat]
  rfl

theorem ipv4Loop_dotted (os : List UInt8) (ht : (x ++ [0]).drop i = dotted os ++ 58 :: r)
    (hlen : len = i + (dotted os).length) :
    ipv4Loop (x ++ [0]) len os.length i addr = .ok (place addr os) := by
  induction os generalizing i addr with
  | nil => rfl
  | cons o os ih =>
    have hpos : 0 < (Numeral.decimal o.toNat).length :=
      List.length_pos_of_ne_nil (Numeral.decimal_ne_nil _)
    have hset : 4 ≤ (addr.set (3 - os.length) o).length := by
      rw [List.length_set]
      exact ha
    cases os with
    | nil =>
      have hi : i < len := by
        rw [hlen]
        exact Nat.lt_add_of_pos_right hpos
      exact ipv4Loop_octet hx ha o (by decide) ht hi 0
    | cons o' os =>
      have hd : dotted (o :: o' :: os) = Numeral.decimal o.toNat ++ 46 :: dotted (o' :: os) := rfl
      have ht0 : (x ++ [0]).drop i = Numeral.decimal o.toNat ++ 46 :: (dotted (o' :: os) ++ 58 :: r) := by
        rw [ht, hd, List.append_assoc]
        rfl
      have ht1 : (x ++ [0]).drop (i + (Numeral.decimal o.toNat).length + 1) =
          dotted (o' :: os) ++ 58 :: r := by
        refine drop_succ_of_drop (c := 46) ?_
        rw [← List.drop_drop, ht0, List.drop_left]
      have hi : i < len := by
        rw [hlen, hd, List.length_append]
        omega
      have hlen1 : len = i + (Numeral.decimal o.toNat).length + 1 + (dotted (o' :: os)).length := by
        rw [hlen, hd, List.length_append, List.length_cons]
        omega
      rw [List.length_cons, ipv4Loop_octet hx ha o (by decide) ht0 hi,
        if_pos (show (o' :: os).length ≠ 0 from Nat.succ_ne_zero _)]
      exact ih hset ht1 hlen1

end

/-! ## the string of an endpoint -/

/-- the endpoint is one of the build: it has an address of one of the versions, and its flags stand for
what is compiled in -/
structure Fits (b : Build) (ep : Endpoint) : Prop where
  version : ep.flags.ipv4 = !ep.flags.ipv6
  ipv4 : ep.flags.ipv4 → b.ipv4
  tcp : ep.flags.tcp → b.tcp
  address : ep.address.length = 16

theorem Fits.ipv4_of_ipv6 {b : Build} {ep : Endpoint} (h : Fits b ep) {v : Bool} (hv : ep.flags.ipv6 = v) :
    ep.flags.ipv4 = !v := by
  rw [h.version, hv]

/-- the flags behind the scheme -/
def schemeFlags (f : TransportFlags) : TransportFlags := { noFlags with tcp := f.tcp, secured := f.secured }

theorem scheme_mem {b : Build} {f : TransportFlags} (h : f.tcp → b.tcp) :
    (scheme b f, schemeFlags f) ∈ schemes b.tcp := by
  have hall : ∀ tcp t s : Bool, (t → tcp) →
      ((if tcp ∧ t then if s then schemeCoapsTcp else schemeCoapTcp
        else if s then schemeCoaps else schemeCoap), { noFlags with tcp := t, secured := s }) ∈
        schemes tcp := by decide
  exact hall b.tcp f.tcp f.secured h

theorem le_length_scheme {tcp : Bool} : ∀ p ∈ schemes tcp, 7 ≤ p.1.length := by
  revert tcp
  decide

theorem decimal_text (n : Nat) : ∀ c ∈ Numeral.decimal n, c ≠ 58 ∧ c ≠ 0 ∧ c ≠ 91 ∧ isLetter c = false := by
  intro c hc
  have hall : ∀ c, Numeral.isDigit c = true → c ≠ 58 ∧ c ≠ 0 ∧ c ≠ 91 ∧ isLetter c = false :=
    forall_byte (by decide +kernel)
  exact hall c (Numeral.decimal_digits n c hc)

/-- the parse of a printed endpoint -/
theorem parse_text {b : Build} {ep : Endpoint} (h : ep.flags.tcp → b.tcp) {host : Bytes}
    (hz : 0 ∉ host) (hl : 2 ≤ host.length) (hlast : isLetter (host.getLastD 47) = false)
    (fuel : Nat) (old : Endpoint) :
    ocStringToEndpoint b fuel (scheme b ep.flags ++ (host ++ 58 :: Numeral.decimal ep.port.toNat)) old =
      parseFound b fuel (schemeFlags ep.flags) (Numeral.decimal ep.port.toNat) old host
        (behind host (Numeral.decimal ep.port.toNat)) := by
  have hs : HasScheme b.tcp (scheme b ep.flags ++ (host ++ 58 :: Numeral.decimal ep.port.toNat))
      (schemeFlags ep.flags) (host ++ 58 :: Numeral.decimal ep.port.toNat) := ⟨_, scheme_mem h, rfl⟩
  have hc : LastColon (host ++ 58 :: Numeral.decimal ep.port.toNat) host (Numeral.decimal ep.port.toNat) :=
    ⟨rfl, hz, fun hm => (decimal_text _ _ (List.takeWhile_subset _ hm)).1 rfl⟩
  have hb : tested b.tcp ≤
      (scheme b ep.flags ++ (host ++ 58 :: Numeral.decimal ep.port.toNat)).length + 1 := by
    have hsch := le_length_scheme _ (scheme_mem h)
    have hpos : 0 < (Numeral.decimal ep.port.toNat).length :=
      List.length_pos_of_ne_nil (Numeral.decimal_ne_nil _)
    have ht : tested b.tcp ≤ 12 := by cases b.tcp <;> decide
    simp only [List.length_append, List.length_cons]
    simp only at hsch
    omega
  rw [parse_host hb hs hc, found, if_neg (by rw [hlast]; exact Bool.false_ne_true)]

/-! ## the round trip -/

/-- the same address, port, version and kind of connection -/
structure Agree (ep e : Endpoint) : Prop where
  address : if ep.flags.ipv6 then e.address = ep.address else e.address.take 4 = ep.address.take 4
  port : e.port = ep.port
  ipv6 : e.flags.ipv6 = ep.flags.ipv6
  ipv4 : e.flags.ipv4 = ep.flags.ipv4
  secured : e.flags.secured = ep.flags.secured
  tcp : e.flags.tcp = ep.flags.tcp

/-- the string of an endpoint is parsed into what agrees with it -/
def RoundTrips (b : Build) (ep : Endpoint) : Prop :=
  ∃ text, ocEndpointToString b ep = some text ∧ ∀ old, 4 ≤ old.address.length →
    ∃ fuel e uri, ocStringToEndpoint b fuel text old = .ok (some (e, uri)) ∧ Agree ep e

theorem strtoul_port (port : UInt16) :
    UInt16.ofNat (Numeral.strtoul (Numeral.decimal port.toNat ++ [0])).1 = port := by
  have hlt : port.toNat < 2 ^ 64 := Nat.lt_of_lt_of_le port.toNat_lt (by decide)
  rw [Numeral.strtoul_decimal hlt (by rintro c ⟨⟩; rfl), UInt16.ofNat_toNat]

theorem ipv4Text_eq {ep : Endpoint} {o₀ o₁ o₂ o₃ : UInt8} {rest : Bytes}
    (h : ep.address = o₀ :: o₁ :: o₂ :: o₃ :: rest) :
    ipv4Text ep = dotted [o₀, o₁, o₂, o₃] ++ 58 :: Numeral.decimal ep.port.toNat := by
  rw [ipv4Text, h]
  simp [dotted]

theorem dotted_text (os : List UInt8) : ∀ c ∈ dotted os, c ≠ 0 ∧ c ≠ 91 := by
  induction os with
  | nil => exact fun c hc => nomatch hc
  | cons o os ih =>
    have hd : ∀ c ∈ Numeral.decimal o.toNat, c ≠ 0 ∧ c ≠ 91 := fun c hc =>
      ⟨(decimal_text _ c hc).2.1, (decimal_text _ c hc).2.2.1⟩
    cases os with
    | nil => exact hd
    | cons o' os => exact List.forall_mem_append.mpr ⟨hd, List.forall_mem_cons.mpr ⟨by decide, ih⟩⟩

theorem place_take {addr : Bytes} (h : 4 ≤ addr.length) (o₀ o₁ o₂ o₃ : UInt8) :
    (place addr [o₀, o₁, o₂, o₃]).take 4 = [o₀, o₁, o₂, o₃] := by
  match addr, h with
  | _ :: _ :: _ :: _ :: addr, _ => rfl

/-- a dotted address ends with a digit -/
theorem dotted_last (o₀ o₁ o₂ o₃ : UInt8) :
    isLetter ((dotted [o₀, o₁, o₂, o₃]).getLastD 47) = false ∧ 2 ≤ (dotted [o₀, o₁, o₂, o₃]).length := by
  obtain ⟨w, c, hw⟩ : ∃ w c, Numeral.decimal o₃.toNat = w ++ [c] :=
    (List.eq_nil_or_concat' _).resolve_left (Numeral.decimal_ne_nil _)
  have hcut : dotted [o₀, o₁, o₂, o₃] = dotted [o₀, o₁, o₂] ++ 46 :: w ++ [c] := by
    simp [dotted, hw]
  rw [hcut, List.getLastD_concat]
  exact ⟨(decimal_text o₃.toNat c (hw ▸ List.mem_append_right _ List.mem_cons_self)).2.2.2, by simp; omega⟩

theorem roundTrips_ipv4 {b : Build} {ep : Endpoint} (h : Fits b ep) (hv : ep.flags.ipv6 = false) :
    RoundTrips b ep := by
  have hv4 : ep.flags.ipv4 = true := h.ipv4_of_ipv6 hv
  obtain ⟨o₀, o₁, o₂, o₃, rest, ha⟩ : ∃ o₀ o₁ o₂ o₃ rest, ep.address = o₀ :: o₁ :: o₂ :: o₃ :: rest := by
    match ep.address, h.address with
    | o₀ :: o₁ :: o₂ :: o₃ :: rest, _ => exact ⟨o₀, o₁, o₂, o₃, rest, rfl⟩
  obtain ⟨hlast, hlen⟩ := dotted_last o₀ o₁ o₂ o₃
  have hmem := dotted_text [o₀, o₁, o₂, o₃]
  have hnb : ¬ Bracketed (dotted [o₀, o₁, o₂, o₃]) := fun ⟨t, ht⟩ =>
    (hmem 91 (ht ▸ List.mem_cons_self)).2 rfl
  refine ⟨scheme b ep.flags ++ (dotted [o₀, o₁, o₂, o₃] ++ 58 :: Numeral.decimal ep.port.toNat), ?_,
    fun old hold => ?_⟩
  · rw [ocEndpointToString, if_neg (by rw [hv]; exact Bool.false_ne_true), if_pos ⟨h.ipv4 hv4, hv4⟩,
      ipv4Text_eq ha]
  · have hbehind : behind (dotted [o₀, o₁, o₂, o₃]) (Numeral.decimal ep.port.toNat) =
        58 :: (Numeral.decimal ep.port.toNat ++ [0]) := by
      rw [behind, if_neg (by rw [hlast]; exact Bool.false_ne_true)]
    have haddr : ocParseIpv4Address (dotted [o₀, o₁, o₂, o₃] ++
        behind (dotted [o₀, o₁, o₂, o₃]) (Numeral.decimal ep.port.toNat))
        (dotted [o₀, o₁, o₂, o₃]).length old.address = .ok (place old.address [o₀, o₁, o₂, o₃]) := by
      have htext : dotted [o₀, o₁, o₂, o₃] ++ 58 :: (Numeral.decimal ep.port.toNat ++ [0]) =
          (dotted [o₀, o₁, o₂, o₃] ++ 58 :: Numeral.decimal ep.port.toNat) ++ [0] := by simp
      have hrun := ipv4Loop_dotted (x := dotted [o₀, o₁, o₂, o₃] ++ 58 :: Numeral.decimal ep.port.toNat)
        (i := 0) (by simp) hold [o₀, o₁, o₂, o₃] (by rw [List.drop_zero, ← htext]) (Nat.zero_add _).symm
      rw [hbehind, htext]
      exact hrun
    have hfound := parseFound_plain b 0 (schemeFlags ep.flags) (dotted [o₀, o₁, o₂, o₃])
      (Numeral.decimal ep.port.toNat) old hnb
    rw [if_pos (h.ipv4 hv4), haddr] at hfound
    refine ⟨0, _, _, (parse_text h.tcp (fun hm => (hmem 0 hm).1 rfl) hlen hlast 0 old).trans hfound, ?_⟩
    refine ⟨?_, strtoul_port ep.port, hv.symm, hv4.symm, rfl, rfl⟩
    rw [if_neg (by rw [hv]; exact Bool.false_ne_true), ha]
    exact place_take hold o₀ o₁ o₂ o₃

/-- the group at an index of the address is zero -/
def ZeroGroup (addr : Bytes) (i : Nat) : Prop := addr.getD (2 * i) 0 = 0 ∧ addr.getD (2 * i + 1) 0 = 0

instance (addr : Bytes) (i : Nat) : Decidable (ZeroGroup addr i) := inferInstanceAs (Decidable (_ ∧ _))

/-- no other group is between two zero groups of the address -/
def OneRun (addr : Bytes) : Prop :=
  ∀ i j k, i < j → j < k → k < 8 → ZeroGroup addr i → ZeroGroup addr k → ZeroGroup addr j

theorem oneRun_flat {gs : List Group} (hl : gs.length = 8) : OneRun (flat gs) ↔ OneGap gs := by
  have hz : ∀ i, ZeroGroup (flat gs) i ↔ gs.getD i (0, 0) = (0, 0) := fun i => by
    rw [← getD_flat, Prod.mk.injEq]
    rfl
  unfold OneRun OneGap
  simp only [hz, hl]

/-- a bracketed text is read back as the address that its parse comes to -/
theorem roundTrips_bracketed {b : Build} {ep : Endpoint} (h : Fits b ep) (hv : ep.flags.ipv6 = true)
    {t a : Bytes} (hz : 0 ∉ t)
    (htext : ipv6Text ep = 91 :: t ++ [93, 58] ++ Numeral.decimal ep.port.toNat)
    (hparse : ∀ more, (∃ fuel, ocParseIpv6Address fuel (inBrackets t more) t.length = .ok a) ∧
      ∀ fuel a', ocParseIpv6Address fuel (inBrackets t more) t.length = .ok a' → a' = a) :
    RoundTrips b ep ↔ a = ep.address := by
  have hs : ocEndpointToString b ep = some (scheme b ep.flags ++
      (91 :: (t ++ [93]) ++ 58 :: Numeral.decimal ep.port.toNat)) := by
    rw [ocEndpointToString, if_pos hv, htext]
    simp
  have hzero : 0 ∉ 91 :: (t ++ [93]) := by
    simpa using hz
  have hlast : isLetter ((91 :: (t ++ [93])).getLastD 47) = false := by
    rw [← List.cons_append, List.getLastD_concat]
    rfl
  have hall := fun fuel old => parse_text h.tcp hzero (by simp) hlast fuel old
  obtain ⟨⟨fuel, hf⟩, huniq⟩ := hparse (behind (91 :: (t ++ [93])) (Numeral.decimal ep.port.toNat))
  constructor
  · rintro ⟨text, he, hback⟩
    obtain rfl := Option.some.inj (hs.symm.trans he)
    obtain ⟨fuel', e, uri, hr, hag⟩ := hback blankEndpoint (by decide)
    rw [hall, parseFound_brackets] at hr
    have haddr := hag.address
    rw [if_pos hv] at haddr
    cases hp : ocParseIpv6Address fuel' (inBrackets t
        (behind (91 :: (t ++ [93])) (Numeral.decimal ep.port.toNat))) t.length with
    | error e =>
      rw [hp] at hr
      cases hr
    | ok a' =>
      rw [hp] at hr
      have he : a' = e.address := congrArg (fun r => r.1.address) (Option.some.inj (Except.ok.inj hr))
      rw [← huniq fuel' a' hp, ← haddr, he]
  · intro ha
    refine ⟨_, hs, fun old _ => ?_⟩
    have h4 : ep.flags.ipv4 = false := h.ipv4_of_ipv6 hv
    have hfound := parseFound_brackets b fuel (schemeFlags ep.flags) (91 :: (t ++ [93]))
      (Numeral.decimal ep.port.toNat) old t
    rw [hf] at hfound
    refine ⟨fuel, _, _, (hall fuel old).trans hfound, ?_⟩
    refine ⟨?_, strtoul_port ep.port, hv.symm, h4.symm, rfl, rfl⟩
    rw [if_pos hv]
    exact ha

theorem words_text {gs : List Group} (h : ∀ g ∈ gs, g ≠ (0, 0)) : 0 ∉ words gs := by
  intro hm
  obtain ⟨g, hg, hc⟩ := List.mem_flatMap.mp hm
  rcases List.mem_cons.mp hc with he | hc
  · cases he
  · exact (word_text (h g hg) 0 hc).2 rfl

theorem body_text (gs : List Group) : 0 ∉ body gs := by
  cases gs with
  | nil => exact List.not_mem_nil
  | cons g gs =>
    rw [body, List.mem_append]
    refine not_or.mpr ⟨?_, words_text fun g hg => printed_ne hg⟩
    split
    · exact List.not_mem_nil
    · next hg => exact fun hm => (word_text hg 0 hm).2 rfl

theorem ending_text (gs : List Group) : ending gs = [] ∨ ending gs = [58] := by
  unfold ending
  split
  · exact Or.inr rfl
  · exact Or.inl rfl

theorem roundTrips_ipv6_iff {b : Build} {ep : Endpoint} (h : Fits b ep) (hv : ep.flags.ipv6 = true) :
    RoundTrips b ep ↔ OneRun ep.address := by
  obtain ⟨gs, hl, ha⟩ := exists_groups (n := 8) h.address
  rw [ha, oneRun_flat hl]
  by_cases hz : (0, 0) ∈ gs
  · obtain ⟨j, hj, he, ht⟩ := ipv6Text_gap hl ha hz
    obtain ⟨x, hx⟩ := words_ending hj
    have hne : ∀ g ∈ printed (gs.drop j), g ≠ (0, 0) := fun g hg => printed_ne hg
    -- the zero group itself is not printed
    have hsplit : (printed (gs.take j)).length + (printed (gs.drop j)).length < 8 := by
      have hlt : (printed gs).length < gs.length :=
        List.length_filter_lt_length_iff_exists.mpr ⟨(0, 0), hz, by decide⟩
      rw [← hl, ← List.length_append, ← printed_append, List.take_append_drop]
      exact hlt
    have hfront : (gs.take j).length ≤ 8 := by
      rw [List.length_take]
      omega
    have htext0 : 0 ∉ body (gs.take j) ++ 58 :: (words (printed (gs.drop j)) ++ ending gs) := by
      rw [List.mem_append, List.mem_cons, List.mem_append]
      refine not_or.mpr ⟨body_text _, not_or.mpr ⟨by decide, not_or.mpr ⟨words_text hne, ?_⟩⟩⟩
      rcases ending_text gs with hen | hen <;> rw [hen] <;> decide
    rw [roundTrips_bracketed h hv htext0 ht fun more =>
      parse_gap hne hsplit hfront (ending_text gs) hx (by rw [hx]) more, oneGap_iff hj he, ha, hl]
    exact ⟨fun hf => (flat_inj hf).symm, fun hg => congrArg flat hg.symm⟩
  · refine iff_of_true ?_ ?_
    · exact (roundTrips_bracketed h hv (body_text gs) (ipv6Text_plain hl ha hz)
        fun more => parse_plain hl hz more).mpr ha.symm
    · intro i j k hij hjk hk hi _
      have hlt : i < gs.length := Nat.lt_trans hij (Nat.lt_trans hjk hk)
      rw [List.getD_eq_getElem _ _ hlt] at hi
      exact absurd (hi ▸ List.getElem_mem hlt) hz

/-- an endpoint comes back from its string unless it is for IPv6 and zero groups of its address have
another group between them -/
theorem round_trip_iff {b : Build} {ep : Endpoint} (h : Fits b ep) :
    RoundTrips b ep ↔ (ep.flags.ipv6 = true → OneRun ep.address) := by
  cases hv : ep.flags.ipv6 with
  | true => exact (roundTrips_ipv6_iff h hv).trans ⟨fun hr _ => hr, fun hr => hr rfl⟩
  | false => exact iff_of_true (roundTrips_ipv4 h hv) fun hc => nomatch hc

def ipv6Endpoint (address : Bytes) : Endpoint :=
  ⟨0, { noFlags with ipv6 := true, secured := true, tcp := true }, 5684, address⟩

/-- `[fe80::1:2:3:4]` comes back -/
theorem round_trip_link_local :
    RoundTrips ⟨true, true, none, false⟩
      (ipv6Endpoint [0xfe, 0x80, 0, 0, 0, 0, 0, 0, 0, 1, 0, 2, 0, 3, 0, 4]) := by
  refine (round_trip_iff ⟨rfl, fun _ => rfl, fun _ => rfl, rfl⟩).mpr fun _ => ?_
  have hall : ∀ k < 8, ∀ j < k, ∀ i < j,
      ZeroGroup [0xfe, 0x80, 0, 0, 0, 0, 0, 0, 0, 1, 0, 2, 0, 3, 0, 4] i →
      ZeroGroup [0xfe, 0x80, 0, 0, 0, 0, 0, 0, 0, 1, 0, 2, 0, 3, 0, 4] k →
      ZeroGroup [0xfe, 0x80, 0, 0, 0, 0, 0, 0, 0, 1, 0, 2, 0, 3, 0, 4] j := by decide
  exact fun i j k hij hjk hk => hall k hk j hjk i hij

/-- two runs of zeros: the printed `[2001:3::6:7:]` is read as another address -/
theorem round_trip_two_runs :
    ¬ RoundTrips ⟨true, true, none, false⟩
      (ipv6Endpoint [0x20, 1, 0, 3, 0, 0, 0, 0, 0, 0, 0, 6, 0, 7, 0, 0]) := by
  intro hr
  have hone := (roundTrips_ipv6_iff ⟨rfl, fun _ => rfl, fun _ => rfl, rfl⟩ rfl).mp hr
  have hz : ZeroGroup [0x20, 1, 0, 3, 0, 0, 0, 0, 0, 0, 0, 6, 0, 7, 0, 0] 5 :=
    hone 4 5 7 (by decide) (by decide) (by decide) ⟨rfl, rfl⟩ ⟨rfl, rfl⟩
  exact absurd hz (by decide)

end EndpointString
