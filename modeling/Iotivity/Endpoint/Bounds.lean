import Iotivity.Endpoint.Parts

/-!
# What endpoint parsing reads, writes and accepts

Strings come from users and from the discovery responses of peers.

* `parsing_ends_iff`     parsing ends unless one of the first eight segments between the brackets has
                         more than four characters; then the loop of `oc_parse_ipv6_address` stays at
                         that segment for ever;
* `parsing_inside_iff`   it stays inside of the string and the address field and refuses what is no
                         `scheme://host:port` on the strings that are long enough for the tests of the
                         schemes, have a colon behind the scheme where names are looked up, and are
                         well formed or refused for another reason.
-/

namespace EndpointString
open Security Coap

/-! ## the text of an address -/

/-- an address in brackets -/
def Bracketed (a : Bytes) : Prop := ∃ t, a = 91 :: (t ++ [93])

theorem behind_head (host more : Bytes) : ∃ c x, behind host more = c :: x ∧ c ≠ 91 := by
  unfold behind
  split
  · exact ⟨0, [], rfl, by decide⟩
  · exact ⟨58, more ++ [0], rfl, by decide⟩

theorem behind_last (host more : Bytes) : ∃ x, behind host more = x ++ [0] := by
  unfold behind
  split
  · exact ⟨[], rfl⟩
  · exact ⟨58 :: more, rfl⟩

/-- the last character of the text -/
theorem charAt_last (c d : UInt8) (t x : Bytes) :
    charAt (c :: (t ++ [d]) ++ x) (sizeDiff (c :: (t ++ [d])).length 1) = .ok d := by
  have hi : sizeDiff (c :: (t ++ [d])).length 1 = (c :: t).length := by
    rw [sizeDiff, if_pos (by simp)]
    simp
  rw [hi, show c :: (t ++ [d]) ++ x = (c :: t) ++ d :: x by simp]
  exact charAt_append_cons _ _ _

theorem bracketed_eq_true (t x : Bytes) :
    bracketed (91 :: (t ++ [93]) ++ x) (91 :: (t ++ [93])).length = .ok true := by
  show (charAt (91 :: (t ++ [93]) ++ x) (sizeDiff (91 :: (t ++ [93])).length 1) >>= fun d => _) = _
  rw [charAt_last]
  rfl

theorem bracketed_eq_false {a : Bytes} (h : ¬ Bracketed a) {c : UInt8} (hc : c ≠ 91) (x : Bytes) :
    bracketed (a ++ c :: x) a.length = .ok false := by
  cases a with
  | nil => exact if_neg hc
  | cons e a =>
    by_cases he : e = 91
    · rcases List.eq_nil_or_concat' a with rfl | ⟨t, d, rfl⟩
      · rw [he]
        rfl
      · show (if e = 91 then (charAt (e :: (t ++ [d]) ++ c :: x) _ >>= fun d => _) else _) = _
        rw [if_pos he, charAt_last]
        refine congrArg Except.ok (decide_eq_false ?_)
        rintro rfl
        exact h ⟨t, by rw [he]⟩
    · exact if_neg he

section
variable (b : Build) (fuel : Nat) (flags : TransportFlags) (host more : Bytes) (ep : Endpoint)

theorem parseFound_brackets (t : Bytes) :
    parseFound b fuel flags more ep (91 :: (t ++ [93])) (behind host more) = (do
      let address ← ocParseIpv6Address fuel (inBrackets t (behind host more)) t.length
      let port := Numeral.strtoul (more ++ [0])
      return some ({ ep with
        flags := { flags with ipv6 := true }
        port := UInt16.ofNat port.1
        address := address }, more.drop port.2)) := by
  have ht : (91 :: (t ++ [93]) ++ behind host more).drop 1 = inBrackets t (behind host more) := by
    simp
  have hl : sizeDiff (91 :: (t ++ [93])).length 2 = t.length := by
    rw [sizeDiff, if_pos (by simp)]
    simp
  rw [parseFound, parseAddress, bracketed_eq_true]
  show ((ocParseIpv6Address fuel (List.drop 1 _) (sizeDiff _ 2) >>= _) >>= _) = _
  rw [ht, hl]
  cases ocParseIpv6Address fuel (inBrackets t (behind host more)) t.length <;> rfl

theorem parseFound_plain {a : Bytes} (h : ¬ Bracketed a) :
    parseFound b fuel flags more ep a (behind host more) =
      if b.ipv4 then (do
        let address ← ocParseIpv4Address (a ++ behind host more) a.length ep.address
        let port := Numeral.strtoul (more ++ [0])
        return some ({ ep with
          flags := { flags with ipv4 := true }
          port := UInt16.ofNat port.1
          address := address }, more.drop port.2))
      else .ok none := by
  obtain ⟨c, x, hx, hc⟩ := behind_head host more
  rw [parseFound, parseAddress, hx, bracketed_eq_false h hc, ← hx]
  show ((if b.ipv4 = true then _ else _) >>= _) = _
  by_cases hv : b.ipv4 = true
  · rw [if_pos hv, if_pos hv]
    cases ocParseIpv4Address (a ++ behind host more) a.length ep.address <;> rfl
  · rw [if_neg hv, if_neg hv]
    rfl

end

/-! ## addresses are filled inside -/

/-- the start of the loop of `oc_parse_ipv6_address` -/
def Parse.start : Parse := ⟨0, 0, none, List.replicate 16 0⟩

theorem sound_start : Parse.start.Sound :=
  ⟨rfl, rfl, Nat.zero_le 16, fun _ h => nomatch h⟩

theorem shiftTail_safe (split : Nat) {i dst : Nat} {addr : Bytes} (hl : addr.length = 16)
    (hi : i ≤ 16) (hd : dst < 16) : ∃ a, shiftTail split i dst addr = .ok a ∧ a.length = 16 := by
  induction i generalizing dst addr with
  | zero => exact ⟨addr, rfl, hl⟩
  | succ i ih =>
    unfold shiftTail
    split
    · rw [store_eq (by omega)]
      show ∃ a, (store (addr.set dst (addr.getD i 0)) i 0 >>= _) = _ ∧ _
      rw [store_eq (by rw [List.length_set]; omega)]
      exact ih (by rw [List.length_set, List.length_set]; exact hl) (by omega) (by omega)
    · exact ⟨addr, rfl, hl⟩

/-- behind the loop the gap is opened, if there is one -/
theorem parseIpv6_of_loop {t more : Bytes} {fuel : Nat} {st : Parse}
    (he : ipv6Loop (inBrackets t more) t.length fuel Parse.start = .ok st) :
    ocParseIpv6Address fuel (inBrackets t more) t.length =
      match st.split with
      | none => .ok st.addr
      | some split => shiftTail split st.addrIdx 15 st.addr := by
  show (ipv6Loop (inBrackets t more) t.length fuel Parse.start >>= _) = _
  rw [he]
  rfl

theorem parseIpv6_cases (t more : Bytes) (fuel : Nat) :
    ipv6Loop (inBrackets t more) t.length fuel Parse.start = .error .running ∧
        ocParseIpv6Address fuel (inBrackets t more) t.length = .error .running ∨
      ∃ st a, ipv6Loop (inBrackets t more) t.length fuel Parse.start = .ok st ∧
        ocParseIpv6Address fuel (inBrackets t more) t.length = .ok a := by
  rcases loop_safe more sound_start fuel with hr | ⟨st, he, hs⟩
  · refine Or.inl ⟨hr, ?_⟩
    show (ipv6Loop (inBrackets t more) t.length fuel Parse.start >>= _) = _
    rw [hr]
    rfl
  · rw [parseIpv6_of_loop he]
    cases st.split with
    | none => exact Or.inr ⟨st, st.addr, he, rfl⟩
    | some split =>
      obtain ⟨a, ha, -⟩ := shiftTail_safe split hs.length_addr hs.le (show 15 < 16 by decide)
      exact Or.inr ⟨st, a, he, ha⟩

theorem ipv4Loop_safe {x : Bytes} {len : Nat} (hlen : len ≤ x.length) {n i : Nat} {addr : Bytes}
    (ha : 4 ≤ addr.length) : ∃ a, ipv4Loop (x ++ [0]) len n i addr = .ok a := by
  induction n generalizing i addr with
  | zero => exact ⟨addr, rfl⟩
  | succ n ih =>
    unfold ipv4Loop
    split
    · next hi =>
      rw [strtoulAt_eq (Nat.le_of_lt (Nat.lt_of_lt_of_le hi hlen))]
      show ∃ a, (store addr (3 - n) (UInt8.ofNat _) >>= _) = _
      rw [store_eq (Nat.lt_of_lt_of_le (Nat.lt_succ_of_le (Nat.sub_le 3 n)) ha)]
      exact ih (by rw [List.length_set]; exact ha)
    · exact ⟨addr, rfl⟩

/-! ## parsing ends -/

/-- the string is long enough for the tests of the schemes and `a` is the text in it, or found for it,
that is parsed as an address -/
def AddressText (b : Build) (s a : Bytes) : Prop :=
  tested b.tcp ≤ s.length + 1 ∧ ∃ flags rest host more,
    HasScheme b.tcp s flags rest ∧ LastColon rest host more ∧ found b flags host = some a

/-- a segment that the loop gets to and does not take -/
def LongSegment (t : Bytes) : Prop := ∃ seg ∈ (segments t).take 8, 4 < seg.length

/-- the states of the loop of `oc_parse_ipv6_address` on a text in brackets -/
inductive Reaches (text : Bytes) (len : Nat) : Parse → Prop
  | start : Reaches text len Parse.start
  | step {st st' : Parse} : Reaches text len st → st.addrIdx < 15 ∧ st.strIdx < len →
      st.step text len = .ok st' → Reaches text len st'

/-- each iteration gets on in the text or in the address, whatever is behind the brackets -/
def Progresses (t : Bytes) : Prop :=
  ∀ more st st', Reaches (inBrackets t more) t.length st → st.addrIdx < 15 ∧ st.strIdx < t.length →
    st.step (inBrackets t more) t.length = .ok st' → st.strIdx < st'.strIdx ∨ st.addrIdx < st'.addrIdx

theorem short_start {t : Bytes} : Parse.start.Short t ↔ ¬ LongSegment t := by
  show (∀ seg ∈ (segments t).take 8, seg.length ≤ 4) ↔ _
  unfold LongSegment
  push Not
  rfl

theorem reaches_short {t more : Bytes} (hl : ¬ LongSegment t) {st : Parse}
    (h : Reaches (inBrackets t more) t.length st) : st.Sound ∧ st.Short t := by
  induction h with
  | start => exact ⟨sound_start, short_start.mpr hl⟩
  | step _ hg hstep ih =>
    rw [step_eq ih.1 hg.1 hg.2] at hstep
    obtain rfl := Except.ok.inj hstep
    refine ⟨ih.1.next hg.1 t, ?_⟩
    rcases next_cases ih.1 hg with ⟨-, hiff⟩ | ⟨-, -, hno⟩
    · exact hiff.mpr ih.2
    · exact absurd ih.2 hno

theorem progresses {t : Bytes} (hl : ¬ LongSegment t) : Progresses t := by
  intro more st st' hr hg hstep
  obtain ⟨hs, hshort⟩ := reaches_short hl hr
  rw [step_eq hs hg.1 hg.2] at hstep
  obtain rfl := Except.ok.inj hstep
  rcases next_cases hs hg with ⟨hlt, -⟩ | ⟨-, -, hno⟩
  · exact Or.inl hlt
  · exact absurd hshort hno

theorem ipv4Loop_ne_running (text : Bytes) (len n i : Nat) (addr : Bytes) :
    ipv4Loop text len n i addr ≠ .error .running := by
  induction n generalizing i addr with
  | zero => exact fun h => nomatch h
  | succ n ih =>
    unfold ipv4Loop
    split
    · unfold strtoulAt store
      split
      · show (if _ then _ else _ : Checked Bytes) >>= _ ≠ _
        split
        · exact ih _ _
        · exact fun h => nomatch h
      · exact fun h => nomatch h
    · exact fun h => nomatch h

/-- brackets around a long segment: no amount of fuel is enough -/
theorem parse_runs {b : Build} {s t : Bytes} (h : AddressText b s (91 :: (t ++ [93])))
    (hl : LongSegment t) (fuel : Nat) (ep : Endpoint) :
    ocStringToEndpoint b fuel s ep = .error .running := by
  obtain ⟨hb, flags, rest, host, more, hs, hc, hf⟩ := h
  rw [parse_host hb hs hc, hf]
  show parseFound b fuel flags more ep (91 :: (t ++ [93])) (behind host more) = _
  rw [parseFound_brackets]
  rcases parseIpv6_cases t (behind host more) fuel with ⟨-, hr⟩ | ⟨st, a, hr, -⟩
  · rw [hr]
    rfl
  · rw [loop_runs _ sound_start (fun hc => short_start.mp hc hl)] at hr
    cases hr

theorem parse_ends {b : Build} {s : Bytes}
    (h : ∀ t, AddressText b s (91 :: (t ++ [93])) → ¬ LongSegment t) (ep : Endpoint) :
    ∃ fuel, ocStringToEndpoint b fuel s ep ≠ .error .running := by
  by_cases hb : tested b.tcp ≤ s.length + 1
  swap
  · exact ⟨0, by rw [parse_short (Nat.lt_of_not_le hb)]; exact fun h => nomatch h⟩
  by_cases hs : ∃ flags rest, HasScheme b.tcp s flags rest
  swap
  · exact ⟨0, by rw [parse_noScheme hb fun f r hr => hs ⟨f, r, hr⟩]; exact fun h => nomatch h⟩
  obtain ⟨flags, rest, hs⟩ := hs
  by_cases hc : 58 ∈ cstr rest
  swap
  · refine ⟨0, ?_⟩
    rw [parse_noHost hb hs hc]
    split <;> exact fun h => nomatch h
  obtain ⟨host, more, hc⟩ := exists_lastColon hc
  cases hf : found b flags host with
  | none => exact ⟨0, by rw [parse_host hb hs hc, hf]; exact fun h => nomatch h⟩
  | some a =>
    by_cases ha : Bracketed a
    · obtain ⟨t, rfl⟩ := ha
      have hshort := short_start.mpr (h t ⟨hb, flags, rest, host, more, hs, hc, hf⟩)
      obtain ⟨fuel, st, he⟩ := loop_ends (behind host more) sound_start hshort
      refine ⟨fuel, ?_⟩
      rw [parse_host hb hs hc, hf]
      show parseFound b fuel flags more ep (91 :: (t ++ [93])) (behind host more) ≠ _
      rw [parseFound_brackets]
      rcases parseIpv6_cases t (behind host more) fuel with ⟨hr, -⟩ | ⟨st', a, -, ha⟩
      · rw [he] at hr
        cases hr
      · rw [ha]
        exact fun h => nomatch h
    · refine ⟨0, ?_⟩
      rw [parse_host hb hs hc, hf]
      show parseFound b 0 flags more ep a (behind host more) ≠ _
      rw [parseFound_plain b 0 flags host more ep ha]
      split
      · show (ocParseIpv4Address _ _ _ >>= _) ≠ _
        have hne := ipv4Loop_ne_running (a ++ behind host more) a.length 4 0 ep.address
        show (ipv4Loop _ _ 4 0 _ >>= _) ≠ _
        cases he : ipv4Loop (a ++ behind host more) a.length 4 0 ep.address with
        | error e =>
          rw [he] at hne
          exact fun h => hne (congrArg Except.error (Except.error.inj h))
        | ok v => exact fun h => nomatch h
      · exact fun h => nomatch h

/-- parsing ends, and its loop gets on with each iteration, on exactly the strings whose address has no
segment of more than four characters that the loop gets to -/
theorem parsing_ends_iff (b : Build) (s : Bytes) (ep : Endpoint) :
    ((∃ fuel, ocStringToEndpoint b fuel s ep ≠ .error .running) ∧
      ∀ t, AddressText b s (91 :: (t ++ [93])) → Progresses t) ↔
        ∀ t, AddressText b s (91 :: (t ++ [93])) → ¬ LongSegment t := by
  constructor
  · rintro ⟨⟨fuel, hne⟩, -⟩ t ht hl
    exact hne (parse_runs ht hl fuel ep)
  · exact fun h => ⟨parse_ends h ep, fun t ht => progresses (h t ht)⟩

/-- the endpoint that a string is parsed into, before that -/
def blankEndpoint : Endpoint := ⟨0, noFlags, 0, List.replicate 16 0⟩

/-- five digits in a group: the loop does not end -/
theorem parsing_five_digits :
    ¬ ∃ fuel, ocStringToEndpoint ⟨false, true, none, false⟩ fuel (ascii "coap://[12345]:1") blankEndpoint ≠
      .error .running := by
  have hc : LastColon (ascii "[12345]:1") (ascii "[12345]") (ascii "1") :=
    ⟨by decide, by decide, by decide⟩
  rintro ⟨fuel, hne⟩
  refine hne (parse_runs (t := ascii "12345") ⟨by decide, noFlags, _, _, _, ?_, hc, by decide⟩ ?_ _ _)
  · exact ⟨schemeCoap, by decide, by decide⟩
  · exact ⟨ascii "12345", by decide, by decide⟩

/-! ## parsing stays inside -/

section
variable (b : Build) (s : Bytes)

/-- `scheme://host:port`, with or without a path -/
def WellFormed : Prop :=
  ∃ flags host port uri, HasScheme b.tcp s flags (host ++ 58 :: (port ++ uri)) ∧
    host ≠ [] ∧ 47 ∉ host ∧ port ≠ [] ∧ (∀ c ∈ port, Numeral.isDigit c = true) ∧
    (uri = [] ∨ uri.head? = some 47)

/-- all reads and writes are in the string and in the address field -/
def Inside : Prop :=
  ∀ fuel ep, 4 ≤ ep.address.length →
    ocStringToEndpoint b fuel s ep ≠ .error .read ∧ ocStringToEndpoint b fuel s ep ≠ .error .write

/-- parsing ends with -1 -/
def Rejected : Prop :=
  ∀ ep, 4 ≤ ep.address.length → ∃ fuel, ocStringToEndpoint b fuel s ep = .ok none

/-- the tests of the schemes have enough to read, and behind the scheme there is a colon or names are
not looked up -/
def Roomy : Prop :=
  tested b.tcp ≤ s.length + 1 ∧
    (b.dnsLookup = none ∨ ∀ flags rest, HasScheme b.tcp s flags rest → 58 ∈ rest)

/-- no scheme of the build, no colon behind it, a name that is not found, or an address of a kind that
is not compiled in -/
def Refused : Prop :=
  ∀ flags rest host more, HasScheme b.tcp s flags rest → LastColon rest host more →
    ∀ a, found b flags host = some a → ¬ Bracketed a ∧ b.ipv4 = false

end

theorem roomy_of_inside {b : Build} {s : Bytes} (hz : 0 ∉ s) (h : Inside b s) : Roomy b s := by
  have hb : tested b.tcp ≤ s.length + 1 := by
    by_contra hb
    exact (h 0 blankEndpoint (by decide)).1 (parse_short (Nat.lt_of_not_le hb) _ _)
  refine ⟨hb, or_iff_not_imp_left.mpr fun hd flags rest hs => ?_⟩
  by_contra hc
  obtain ⟨sch, hm, he⟩ := hs
  have hr : cstr rest = rest :=
    (cstr_eq_self_iff rest).mpr fun hr => hz (he ▸ List.mem_append_right _ hr)
  refine (h 0 blankEndpoint (by decide)).2 ?_
  rw [parse_noHost hb ⟨sch, hm, he⟩ (by rw [hr]; exact hc), if_neg (by simpa using hd)]

/-- what a parse with an address comes to: it runs, or accepts, or refuses what it has no branch for -/
theorem parseFound_cases (b : Build) (fuel : Nat) (flags : TransportFlags) (host more a : Bytes)
    {ep : Endpoint} (he : 4 ≤ ep.address.length) :
    parseFound b fuel flags more ep a (behind host more) = .error .running ∨
    (∃ r, parseFound b fuel flags more ep a (behind host more) = .ok (some r)) ∨
    (¬ Bracketed a ∧ b.ipv4 = false ∧ parseFound b fuel flags more ep a (behind host more) = .ok none) := by
  by_cases ha : Bracketed a
  · obtain ⟨t, rfl⟩ := ha
    rw [parseFound_brackets]
    rcases parseIpv6_cases t (behind host more) fuel with ⟨-, hr⟩ | ⟨st, address, -, hr⟩
    · rw [hr]
      exact Or.inl rfl
    · rw [hr]
      exact Or.inr (Or.inl ⟨_, rfl⟩)
  · rw [parseFound_plain b fuel flags host more ep ha]
    split
    · obtain ⟨x, hx⟩ := behind_last host more
      obtain ⟨address, hr⟩ : ∃ v, ipv4Loop ((a ++ x) ++ [0]) a.length 4 0 ep.address = .ok v :=
        ipv4Loop_safe (by simp) he
      rw [List.append_assoc, ← hx] at hr
      refine Or.inr (Or.inl ?_)
      show ∃ r, (ipv4Loop _ _ 4 0 _ >>= _) = _
      rw [hr]
      exact ⟨_, rfl⟩
    · next hv => exact Or.inr (Or.inr ⟨ha, by simpa using hv, rfl⟩)

/-- a roomy string has the text of an address, or is refused at once -/
theorem parse_cases {b : Build} {s : Bytes} (hz : 0 ∉ s) (h : Roomy b s) :
    (∃ flags rest host more a, HasScheme b.tcp s flags rest ∧ LastColon rest host more ∧
      found b flags host = some a ∧ ∀ fuel ep,
        ocStringToEndpoint b fuel s ep = parseFound b fuel flags more ep a (behind host more)) ∨
    (Refused b s ∧ ∀ fuel ep, ocStringToEndpoint b fuel s ep = .ok none) := by
  by_cases hs : ∃ flags rest, HasScheme b.tcp s flags rest
  swap
  · exact Or.inr ⟨fun flags rest _ _ hr => absurd ⟨flags, rest, hr⟩ hs,
      parse_noScheme h.1 fun f r hr => hs ⟨f, r, hr⟩⟩
  obtain ⟨flags, rest, hs⟩ := hs
  by_cases hc : 58 ∈ cstr rest
  · obtain ⟨host, more, hc⟩ := exists_lastColon hc
    cases hf : found b flags host with
    | none =>
      refine Or.inr ⟨fun flags' rest' host' more' hs' hc' a ha => ?_, fun fuel ep => ?_⟩
      · obtain ⟨rfl, rfl⟩ := hs.unique hs'
        rw [← hc.unique hc', hf] at ha
        cases ha
      · rw [parse_host h.1 hs hc, hf]
    | some a =>
      exact Or.inl ⟨flags, rest, host, more, a, hs, hc, hf, fun fuel ep => by
        rw [parse_host h.1 hs hc, hf]⟩
  · refine Or.inr ⟨fun flags' rest' host' more' hs' hc' a ha => absurd ?_ hc, fun fuel ep => ?_⟩
    · rw [(hs.unique hs').2, hc'.cstr_eq]
      exact List.mem_append_right _ List.mem_cons_self
    · have hd : b.dnsLookup = none := h.2.resolve_right fun hall => hc ?_
      · rw [parse_noHost h.1 hs hc, hd]
        rfl
      · obtain ⟨sch, hm, rfl⟩ := hs
        rw [(cstr_eq_self_iff rest).mpr fun hr => hz (List.mem_append_right _ hr)]
        exact hall flags rest ⟨sch, hm, rfl⟩

theorem inside_of_roomy {b : Build} {s : Bytes} (hz : 0 ∉ s) (h : Roomy b s) : Inside b s := by
  intro fuel ep he
  -- the parse ends, or its fuel runs out, and neither of the two is an access
  have hends : ∀ r, ocStringToEndpoint b fuel s ep = .ok r →
      ocStringToEndpoint b fuel s ep ≠ .error .read ∧ ocStringToEndpoint b fuel s ep ≠ .error .write := by
    intro r hr
    rw [hr]
    exact ⟨fun hc => (nomatch hc), fun hc => nomatch hc⟩
  rcases parse_cases hz h with ⟨flags, rest, host, more, a, -, -, -, hall⟩ | ⟨-, hall⟩
  · rcases parseFound_cases b fuel flags host more a he with hr | ⟨r, hr⟩ | ⟨-, -, hr⟩
    · rw [hall, hr]
      exact ⟨fun hc => (nomatch hc), fun hc => nomatch hc⟩
    · exact hends (some r) ((hall fuel ep).trans hr)
    · exact hends none ((hall fuel ep).trans hr)
  · exact hends none (hall fuel ep)

theorem rejected_iff_refused {b : Build} {s : Bytes} (hz : 0 ∉ s) (h : Roomy b s) :
    Rejected b s ↔ Refused b s := by
  rcases parse_cases hz h with ⟨flags, rest, host, more, a, hs, hc, hf, hall⟩ | ⟨href, hall⟩
  · constructor
    · intro hrej flags' rest' host' more' hs' hc' a' ha'
      obtain ⟨rfl, rfl⟩ := hs.unique hs'
      rw [← hc.unique hc', hf] at ha'
      obtain rfl := Option.some.inj ha'
      obtain ⟨fuel, hnone⟩ := hrej blankEndpoint (by decide)
      rw [hall] at hnone
      rcases parseFound_cases b fuel flags host more a (show 4 ≤ blankEndpoint.address.length by decide)
        with hr | ⟨r, hr⟩ | ⟨ha, hv, -⟩
      · rw [hr] at hnone
        cases hnone
      · rw [hr] at hnone
        cases hnone
      · exact ⟨ha, hv⟩
    · intro href ep _
      obtain ⟨ha, hv⟩ := href flags rest host more hs hc a hf
      refine ⟨0, ?_⟩
      rw [hall, parseFound_plain b 0 flags host more ep ha, hv]
      rfl
  · exact ⟨fun _ => href, fun _ ep _ => ⟨0, hall 0 ep⟩⟩

/-- parsing stays inside of the string and the address field and refuses what is not well formed on
exactly the roomy strings that are well formed or refused for another reason -/
theorem parsing_inside_iff (b : Build) {s : Bytes} (hz : 0 ∉ s) :
    (Inside b s ∧ (¬ WellFormed b s → Rejected b s)) ↔
      Roomy b s ∧ (WellFormed b s ∨ Refused b s) := by
  constructor
  · rintro ⟨hin, hrej⟩
    have hroom := roomy_of_inside hz hin
    exact ⟨hroom, or_iff_not_imp_left.mpr fun hw => (rejected_iff_refused hz hroom).mp (hrej hw)⟩
  · rintro ⟨hroom, hw⟩
    exact ⟨inside_of_roomy hz hroom, fun hn =>
      (rejected_iff_refused hz hroom).mpr (hw.resolve_left hn)⟩

theorem parsing_inside_dotted :
    Inside ⟨true, true, none, false⟩ (ascii "coap://10.0.0.1:5683/oic") ∧
      (¬ WellFormed ⟨true, true, none, false⟩ (ascii "coap://10.0.0.1:5683/oic") →
        Rejected ⟨true, true, none, false⟩ (ascii "coap://10.0.0.1:5683/oic")) := by
  refine (parsing_inside_iff ⟨true, true, none, false⟩ (by decide)).mpr
    ⟨⟨by decide, Or.inl rfl⟩, Or.inl ?_⟩
  have hdigits : (ascii "5683").all Numeral.isDigit = true := by decide
  exact ⟨noFlags, ascii "10.0.0.1", ascii "5683", ascii "/oic", ⟨schemeCoap, by decide, by decide⟩,
    by decide, by decide, by decide, List.all_eq_true.mp hdigits, Or.inr (by decide)⟩

/-- an empty host is accepted -/
theorem parsing_empty_host :
    ¬ (Inside ⟨true, true, none, false⟩ (ascii "coap://:5683") ∧
      (¬ WellFormed ⟨true, true, none, false⟩ (ascii "coap://:5683") →
        Rejected ⟨true, true, none, false⟩ (ascii "coap://:5683"))) := by
  have hs : HasScheme true (ascii "coap://:5683") noFlags (ascii ":5683") :=
    ⟨schemeCoap, by decide, by decide⟩
  have hroom : Roomy ⟨true, true, none, false⟩ (ascii "coap://:5683") := ⟨by decide, Or.inl rfl⟩
  rintro ⟨-, hrej⟩
  refine absurd ((rejected_iff_refused (by decide) hroom).mp (hrej ?_)) fun href => ?_
  · rintro ⟨flags, host, port, uri, hw, hne, -⟩
    obtain ⟨c, h, rfl⟩ := List.exists_cons_of_ne_nil hne
    have he : ascii ":5683" = c :: (h ++ 58 :: (port ++ uri)) := (hs.unique hw).2
    have hm : 58 ∈ ascii "5683" := by
      rw [show ascii "5683" = h ++ 58 :: (port ++ uri) from (List.cons.inj he).2]
      exact List.mem_append_right _ List.mem_cons_self
    exact absurd hm (by decide)
  · have hc : LastColon (ascii ":5683") [] (ascii "5683") := ⟨by decide, by decide, by decide⟩
    exact absurd (href _ _ _ _ hs hc [] (by decide)).2 (by decide)

end EndpointString
