import Iotivity.Endpoint.Segments
import Iotivity.Security.Persist

/-!
# The parts of an endpoint string

`oc_parse_endpoint_string` takes a string apart at its first slash and its last colon.  Behind the
scheme the text in front of the last colon is the host; a host that ends with a letter is looked up.

* `parseScheme_eq`     the tests find the scheme of the build that the string begins with;
* `resolve_eq`         the text that is parsed as an address, from the host;
* `parse_host`         the whole parse, for a string with a scheme and a colon behind it.

The other strings are `parse_short`, `parse_noScheme` and `parse_noHost`.
-/

namespace EndpointString
open Security Coap

/-! ## the scheme -/

/-- the schemes in the order of the tests, with their flags -/
def schemes (tcp : Bool) : List (Bytes × TransportFlags) :=
  (if tcp then [(schemeCoapsTcp, { noFlags with tcp := true, secured := true }),
    (schemeCoapTcp, { noFlags with tcp := true })] else []) ++
    [(schemeCoaps, { noFlags with secured := true }), (schemeCoap, noFlags)]

/-- how many characters the tests read -/
def tested (tcp : Bool) : Nat := if tcp then 12 else 8

/-- the string is a scheme of the build, and `rest` -/
def HasScheme (tcp : Bool) (s : Bytes) (flags : TransportFlags) (rest : Bytes) : Prop :=
  ∃ sch, (sch, flags) ∈ schemes tcp ∧ s = sch ++ rest

theorem parseScheme_foldr (b : Build) (buf : Bytes) :
    parseScheme b buf =
      (schemes b.tcp).foldr (fun p next => tryScheme p.1 p.2 buf next) (.ok none) := by
  rcases b with ⟨_ | _, i, d, d6⟩
  · rfl
  · rfl

theorem tryScheme_eq {lit buf : Bytes} (h : lit.length ≤ buf.length) (flags : TransportFlags)
    (next : Checked (Option TransportFlags)) :
    tryScheme lit flags buf next = if lit <+: buf then .ok (some flags) else next := by
  rw [tryScheme, memcmpLit, if_pos h]
  show (if decide _ = true then Except.ok (some flags) else next) = _
  refine if_congr ?_ rfl rfl
  rw [decide_eq_true_iff, List.prefix_iff_eq_take, eq_comm]

theorem length_scheme {tcp : Bool} : ∀ p ∈ schemes tcp, p.1.length ≤ tested tcp := by
  revert tcp
  decide

theorem scheme_unique {tcp : Bool} : ∀ p ∈ schemes tcp, ∀ q ∈ schemes tcp, p.1 <+: q.1 → p = q := by
  revert tcp
  decide

/-- a scheme is a name that ends with a letter, and `://` -/
theorem scheme_name {tcp : Bool} : ∀ p ∈ schemes tcp, ∃ name l, p.1 = name ++ [l] ++ [58, 47, 47] ∧
    isLetter l = true ∧ 47 ∉ name ++ [l] ∧ 0 ∉ p.1 := by
  have hall : ∀ tcp, ∀ p ∈ schemes tcp,
      p.1 = p.1.take (p.1.length - 4) ++ [p.1.getD (p.1.length - 4) 0] ++ [58, 47, 47] ∧
      isLetter (p.1.getD (p.1.length - 4) 0) = true ∧
      47 ∉ p.1.take (p.1.length - 4) ++ [p.1.getD (p.1.length - 4) 0] ∧ 0 ∉ p.1 := by decide
  exact fun p hp => ⟨_, _, hall tcp p hp⟩

theorem HasScheme.unique {tcp : Bool} {s rest rest' : Bytes} {flags flags' : TransportFlags}
    (h : HasScheme tcp s flags rest) (h' : HasScheme tcp s flags' rest') :
    flags = flags' ∧ rest = rest' := by
  obtain ⟨sch, hm, he⟩ := h
  obtain ⟨sch', hm', he'⟩ := h'
  have hpq : (sch, flags) = (sch', flags') := by
    rcases List.prefix_or_prefix_of_prefix ⟨rest, he.symm⟩ ⟨rest', he'.symm⟩ with hp | hp
    · exact scheme_unique _ hm _ hm' hp
    · exact (scheme_unique _ hm' _ hm hp).symm
  cases hpq
  exact ⟨rfl, List.append_cancel_left (he.symm.trans he')⟩

theorem parseScheme_eq {b : Build} {buf : Bytes} (h : tested b.tcp ≤ buf.length) :
    parseScheme b buf = .ok (((schemes b.tcp).find? fun p => p.1.isPrefixOf buf).map (·.2)) := by
  have hl : ∀ p ∈ schemes b.tcp, p.1.length ≤ buf.length := fun p hp => (length_scheme p hp).trans h
  rw [parseScheme_foldr]
  generalize schemes b.tcp = ps at hl
  induction ps with
  | nil => rfl
  | cons p ps ih =>
    rw [List.foldr_cons, tryScheme_eq (hl p List.mem_cons_self),
      ih fun q hq => hl q (List.mem_cons_of_mem _ hq), List.find?_cons]
    cases hp : p.1.isPrefixOf buf with
    | true => exact if_pos (List.isPrefixOf_iff_prefix.mp hp)
    | false =>
      refine if_neg fun hc => ?_
      rw [List.isPrefixOf_iff_prefix.mpr hc] at hp
      cases hp

theorem parseScheme_short {b : Build} {buf : Bytes} (h : buf.length < tested b.tcp) :
    parseScheme b buf = .error .read := by
  have hm : ∀ lit : Bytes, buf.length < lit.length → memcmpLit lit buf = .error .read :=
    fun lit hl => if_neg (Nat.not_le_of_lt hl)
  rcases b with ⟨_ | _, i, d, d6⟩
  · show (memcmpLit schemeCoaps buf >>= fun _ => _) = _
    rw [hm schemeCoaps h]
    rfl
  · show (memcmpLit schemeCoapsTcp buf >>= fun _ => _) = _
    rw [hm schemeCoapsTcp h]
    rfl

theorem HasScheme.find {tcp : Bool} {s rest : Bytes} {flags : TransportFlags}
    (h : HasScheme tcp s flags rest) :
    ((schemes tcp).find? fun p => p.1.isPrefixOf (s ++ [0])).map (·.2) = some flags := by
  obtain ⟨sch, hm, he⟩ := h
  have hp : sch <+: s ++ [0] := ⟨rest ++ [0], by rw [he, List.append_assoc]⟩
  cases hf : (schemes tcp).find? fun p => p.1.isPrefixOf (s ++ [0]) with
  | none =>
    have hno := List.find?_eq_none.mp hf _ hm
    exact absurd (List.isPrefixOf_iff_prefix.mpr hp) hno
  | some q =>
    have hq := List.mem_of_find?_eq_some hf
    have hqt : q.1.isPrefixOf (s ++ [0]) = true :=
      List.find?_some (p := fun p : Bytes × TransportFlags => p.1.isPrefixOf (s ++ [0])) hf
    have hqp := List.isPrefixOf_iff_prefix.mp hqt
    have hqs : q = (sch, flags) := by
      rcases List.prefix_or_prefix_of_prefix hqp hp with hpq | hpq
      · exact scheme_unique _ hq _ hm hpq
      · exact (scheme_unique _ hm _ hq hpq).symm
    rw [hqs]
    rfl

theorem find_noScheme {tcp : Bool} {s : Bytes} (h : ∀ flags rest, ¬ HasScheme tcp s flags rest) :
    ((schemes tcp).find? fun p => p.1.isPrefixOf (s ++ [0])).map (·.2) = none := by
  rw [Option.map_eq_none_iff, List.find?_eq_none]
  intro p hp hc
  rcases List.prefix_concat_iff.mp (List.isPrefixOf_iff_prefix.mp hc) with he | ⟨rest, he⟩
  · obtain ⟨-, -, -, -, -, hz⟩ := scheme_name p hp
    exact hz (he ▸ List.mem_append_right _ List.mem_cons_self)
  · exact h p.2 rest ⟨p.1, hp, he.symm⟩

/-! ## the last colon -/

/-- the last colon that `strrchr` sees -/
structure LastColon (rest host more : Bytes) : Prop where
  eq : rest = host ++ 58 :: more
  text : 0 ∉ host
  last : 58 ∉ cstr more

theorem cstr_append {a : Bytes} (h : 0 ∉ a) (x : Bytes) : cstr (a ++ x) = a ++ cstr x :=
  List.takeWhile_append_of_pos fun c hc => by
    simp only [ne_eq, decide_not, Bool.not_eq_eq_eq_not, Bool.not_true, decide_eq_false_iff_not]
    rintro rfl
    exact h hc

theorem cstr_zero (a : Bytes) : cstr (a ++ [0]) = cstr a := by
  induction a with
  | nil => rfl
  | cons c a ih =>
    by_cases hc : c = 0
    · rw [hc]
      rfl
    · have ht : ∀ x, cstr (c :: x) = c :: cstr x := fun x => List.takeWhile_cons_of_pos (by simpa using hc)
      rw [List.cons_append, ht, ht, ih]

theorem strrchr_eq {text a tail : Bytes} {c : UInt8} (h : cstr text = a ++ c :: tail) (ht : c ∉ tail) :
    strrchr c text = some a.length := by
  have hn : tail.reverse.findIdx? (fun x => decide (x = c)) = none := by
    rw [List.findIdx?_eq_none_iff]
    intro x hx
    refine decide_eq_false ?_
    rintro rfl
    exact ht (List.mem_reverse.mp hx)
  have hf : (cstr text).reverse.findIdx? (fun x => decide (x = c)) = some tail.length := by
    rw [h, List.reverse_append, List.reverse_cons, List.append_assoc, List.findIdx?_append, hn]
    simp [List.findIdx?_cons]
  rw [strrchr, hf, h, Option.map_some, List.length_append, List.length_cons]
  exact congrArg some (by omega)

theorem exists_lastColon {rest : Bytes} (h : 58 ∈ cstr rest) :
    ∃ host more, LastColon rest host more := by
  obtain ⟨as, bs, he, hn⟩ := List.eq_append_cons_of_mem (List.mem_reverse.mpr h)
  have hc : cstr rest = bs.reverse ++ 58 :: as.reverse := by
    rw [← List.reverse_reverse (cstr rest), he, List.reverse_append, List.reverse_cons, List.append_assoc]
    rfl
  have hz : 0 ∉ bs.reverse := fun hm => zero_not_mem_cstr rest (hc ▸ List.mem_append_left _ hm)
  have hr : rest = bs.reverse ++ 58 :: (as.reverse ++ rest.dropWhile (· ≠ 0)) := by
    conv => lhs; rw [← List.takeWhile_append_dropWhile (p := (· ≠ 0)) (l := rest)]
    show cstr rest ++ _ = _
    rw [hc, List.append_assoc]
    rfl
  refine ⟨_, _, hr, hz, fun hm => hn (List.mem_reverse.mp ?_)⟩
  have hcm : cstr rest = bs.reverse ++ 58 :: cstr (as.reverse ++ rest.dropWhile (· ≠ 0)) := by
    conv => lhs; rw [hr]
    exact cstr_append hz _
  rw [hc] at hcm
  rw [(List.cons.inj (List.append_cancel_left hcm)).2]
  exact hm

theorem LastColon.cstr_eq {rest host more : Bytes} (h : LastColon rest host more) :
    cstr rest = host ++ 58 :: cstr more := by
  rw [h.eq, cstr_append h.text]
  rfl

theorem LastColon.unique {rest host more host' more' : Bytes} (h : LastColon rest host more)
    (h' : LastColon rest host' more') : host = host' := by
  have hl := (strrchr_eq h.cstr_eq h.last).symm.trans (strrchr_eq h'.cstr_eq h'.last)
  exact (List.append_inj (h.eq.symm.trans h'.eq) (Option.some.inj hl)).1

/-! ## the host -/

/-- the text that is parsed as an address: what is found for a name, or the host; an empty host has the
slash of the scheme in front of it -/
def found (b : Build) (flags : TransportFlags) (host : Bytes) : Option Bytes :=
  if isLetter (host.getLastD 47) then b.lookup flags host else some host

/-- what is behind that text in its buffer -/
def behind (host more : Bytes) : Bytes :=
  if isLetter (host.getLastD 47) then [0] else 58 :: (more ++ [0])

theorem charAt_append_cons (a x : Bytes) (c : UInt8) : charAt (a ++ c :: x) a.length = .ok c := by
  rw [charAt, List.getElem?_append_right (Nat.le_refl _), Nat.sub_self]
  rfl

/-- the character in front of the last colon -/
theorem charAt_host (pre host x : Bytes) :
    charAt (pre ++ [47] ++ host ++ x) (pre.length + 1 + host.length - 1) = .ok (host.getLastD 47) := by
  rcases List.eq_nil_or_concat' host with rfl | ⟨h, c, rfl⟩
  · rw [List.append_nil, List.append_assoc]
    exact charAt_append_cons pre x 47
  · rw [List.getLastD_concat, show pre ++ [47] ++ (h ++ [c]) ++ x = (pre ++ [47] ++ h) ++ c :: x by simp]
    have hl : pre.length + 1 + (h ++ [c]).length - 1 = (pre ++ [47] ++ h).length := by
      simp only [List.length_append, List.length_cons, List.length_nil]
      omega
    rw [hl]
    exact charAt_append_cons _ x c

theorem resolve_eq (b : Build) (flags : TransportFlags) (pre : Bytes) {rest host more : Bytes}
    (h : LastColon rest host more) :
    resolve b flags (pre ++ [47] ++ rest ++ [0]) (pre.length + 1) (pre.length + 1 + host.length) =
      .ok ((found b flags host).map fun a => (a ++ behind host more, a.length)) := by
  have hbuf : pre ++ [47] ++ rest ++ [0] = pre ++ [47] ++ host ++ 58 :: (more ++ [0]) := by
    rw [h.eq]
    simp
  have hdrop : (pre ++ [47] ++ host ++ 58 :: (more ++ [0])).drop (pre.length + 1) =
      host ++ 58 :: (more ++ [0]) := by
    rw [List.append_assoc (pre ++ [47])]
    exact List.drop_left' (by simp)
  have hlen : sizeDiff (pre.length + 1 + host.length) (pre.length + 1) = host.length := by
    rw [sizeDiff, if_pos (Nat.le_add_right _ _), Nat.add_sub_cancel_left]
  rw [hbuf, resolve, charAt_host]
  show (if isLetter (host.getLastD 47) = true then _ else _) = _
  unfold found behind
  by_cases hc : isLetter (host.getLastD 47) = true
  · rw [if_pos hc, if_pos hc, if_pos hc, if_neg (Nat.not_lt.mpr (Nat.le_add_right _ _)), hlen, hdrop,
      List.take_left]
    split
    · next hd =>
      rw [Build.lookup, Option.isNone_iff_eq_none.mp hd]
      rfl
    · rfl
  · rw [if_neg hc, if_neg hc, if_neg hc, hlen, hdrop]
    rfl

/-! ## the whole string -/

/-- the parse from the text of the address on -/
def parseFound (b : Build) (fuel : Nat) (flags : TransportFlags) (more : Bytes) (ep : Endpoint)
    (a behind : Bytes) : Checked (Option (Endpoint × Bytes)) := do
  let port := Numeral.strtoul (more ++ [0])
  let ep ← parseAddress b fuel flags (UInt16.ofNat port.1) ep (a ++ behind) a.length
  return ep.map (·, more.drop port.2)

theorem strtoulAt_eq {x : Bytes} {i : Nat} (h : i ≤ x.length) :
    strtoulAt (x ++ [0]) i = .ok ((Numeral.strtoul ((x ++ [0]).drop i)).1,
      i + (Numeral.strtoul ((x ++ [0]).drop i)).2) := by
  have hm : 0 ∈ (x ++ [0]).drop i := by
    rw [List.drop_append_of_le_length h]
    exact List.mem_append_right _ List.mem_cons_self
  have hl := Numeral.lookedAt_le hm
  rw [List.length_drop] at hl
  refine if_pos ?_
  rw [List.length_append, List.length_singleton] at hl ⊢
  omega

section
variable {b : Build} {s rest : Bytes} {flags : TransportFlags}

theorem parse_short (h : s.length + 1 < tested b.tcp) (fuel : Nat) (ep : Endpoint) :
    ocStringToEndpoint b fuel s ep = .error .read := by
  have hl : (s ++ [0]).length < tested b.tcp := by
    rw [List.length_append]
    exact h
  show (parseScheme b (s ++ [0]) >>= _) = _
  rw [parseScheme_short hl]
  rfl

variable (hb : tested b.tcp ≤ s.length + 1)
include hb

theorem parseScheme_text : parseScheme b (s ++ [0]) =
    .ok (((schemes b.tcp).find? fun p => p.1.isPrefixOf (s ++ [0])).map (·.2)) :=
  parseScheme_eq (by rw [List.length_append]; exact hb)

theorem parse_noScheme (h : ∀ flags rest, ¬ HasScheme b.tcp s flags rest) (fuel : Nat) (ep : Endpoint) :
    ocStringToEndpoint b fuel s ep = .ok none := by
  show (parseScheme b (s ++ [0]) >>= _) = _
  rw [parseScheme_text hb, find_noScheme h]
  rfl

/-- what the string is parsed as once its last colon is known; `w` is the name of the scheme -/
theorem parse_colon {w : Bytes} {colon : Nat}
    (hf : ((schemes b.tcp).find? fun p => p.1.isPrefixOf (s ++ [0])).map (·.2) = some flags)
    (he : s = w ++ [58, 47, 47] ++ rest) (hw : 47 ∉ w)
    (hc : strrchr 58 (s ++ [0]) = some colon) (hlt : colon < s.length) (fuel : Nat) (ep : Endpoint) :
    ocStringToEndpoint b fuel s ep = (do
      match ← resolve b flags (s ++ [0]) (w.length + 3) colon with
      | none => return none
      | some (text, len) =>
        let port := Numeral.strtoul ((s ++ [0]).drop (colon + 1))
        let ep ← parseAddress b fuel flags (UInt16.ofNat port.1) ep text len
        return ep.map (·, s.drop (colon + 1 + port.2))) := by
  have hn : w.findIdx? (fun x => decide (x = 47)) = none := by
    rw [List.findIdx?_eq_none_iff]
    intro x hx
    refine decide_eq_false ?_
    rintro rfl
    exact hw hx
  have hslash : memchrAt (s ++ [0]) 0 47 s.length = .ok (some (w.length + 1)) := by
    have hi : s.findIdx? (fun x => decide (x = 47)) = some (w.length + 1) := by
      rw [he, List.append_assoc, List.findIdx?_append, hn]
      simp [List.findIdx?_cons, Nat.add_comm]
    rw [memchrAt, List.drop_zero, List.take_left, hi]
  show (parseScheme b (s ++ [0]) >>= _) = _
  rw [parseScheme_text hb, hf]
  dsimp only [bind, Except.bind]
  rw [hc]
  show (strtoulAt (s ++ [0]) (colon + 1) >>= _) = _
  rw [strtoulAt_eq hlt]
  show (memchrAt (s ++ [0]) 0 47 s.length >>= _) = _
  rw [hslash]
  rfl

variable (hs : HasScheme b.tcp s flags rest)
include hs

/-- behind the scheme there is no colon: the last one is its own, in front of the address -/
theorem parse_noHost (h : 58 ∉ cstr rest) (fuel : Nat) (ep : Endpoint) :
    ocStringToEndpoint b fuel s ep = if b.dnsLookup.isNone then .ok none else .error .write := by
  have hf := hs.find
  obtain ⟨sch, hm, he⟩ := hs
  obtain ⟨name, l, hsch, hl, hw, hz⟩ := scheme_name _ hm
  have hst : cstr (s ++ [0]) = (name ++ [l]) ++ 58 :: (47 :: 47 :: cstr rest) := by
    rw [cstr_zero, he, cstr_append hz, show sch = _ from hsch, List.append_assoc]
    rfl
  have hno : 58 ∉ 47 :: 47 :: cstr rest := by simpa using h
  have hlen : s = name ++ [l] ++ 58 :: (47 :: 47 :: rest) := by
    rw [he, show sch = _ from hsch, List.append_assoc]
    rfl
  rw [parse_colon hb hf (he.trans (by rw [show sch = _ from hsch])) hw (strrchr_eq hst hno)
    (by rw [hlen]; simp)]
  have hc : charAt (s ++ [0]) ((name ++ [l]).length - 1) = .ok l := by
    rw [hlen, List.length_append, List.length_singleton, Nat.add_sub_cancel]
    simpa using charAt_append_cons name (58 :: 47 :: 47 :: (rest ++ [0])) l
  rw [resolve, hc]
  show ((if isLetter l = true then _ else _) >>= _) = _
  rw [if_pos hl, if_pos (show (name ++ [l]).length < (name ++ [l]).length + 3 by omega)]
  split <;> rfl

theorem parse_host {host more : Bytes} (h : LastColon rest host more) (fuel : Nat) (ep : Endpoint) :
    ocStringToEndpoint b fuel s ep = match found b flags host with
      | none => .ok none
      | some a => parseFound b fuel flags more ep a (behind host more) := by
  have hf := hs.find
  obtain ⟨sch, hm, he⟩ := hs
  obtain ⟨name, l, hsch, hl, hw, hz⟩ := scheme_name _ hm
  have hst : cstr (s ++ [0]) = (sch ++ host) ++ 58 :: cstr more := by
    rw [cstr_zero, he, cstr_append hz, h.cstr_eq, List.append_assoc]
  have hcut : s = (sch ++ host) ++ 58 :: more := by
    rw [he, h.eq, List.append_assoc]
  have hpre : sch = name ++ [l] ++ [58, 47] ++ [47] := by
    rw [show sch = _ from hsch]
    simp
  have hlen : (sch ++ host).length = (name ++ [l] ++ [58, 47]).length + 1 + host.length := by
    rw [hpre]
    simp only [List.length_append, List.length_cons, List.length_nil]
  rw [parse_colon hb hf (he.trans (by rw [show sch = _ from hsch])) hw (strrchr_eq hst h.last)
    (by rw [hcut]; simp), hlen]
  have hr := resolve_eq b flags (name ++ [l] ++ [58, 47]) h
  rw [← hpre, ← he] at hr
  rw [show (name ++ [l]).length + 3 = (name ++ [l] ++ [58, 47]).length + 1 by simp, hr]
  have hdrop : ∀ n x, ((sch ++ host) ++ 58 :: x).drop ((sch ++ host).length + 1 + n) = x.drop n :=
    fun n x => by
      rw [Nat.add_assoc, List.drop_length_add_append, Nat.add_comm 1]
      rfl
  have hmore : (s ++ [0]).drop ((sch ++ host).length + 1) = more ++ [0] := by
    rw [hcut, List.append_assoc]
    exact hdrop 0 _
  have hu : ∀ n, s.drop ((sch ++ host).length + 1 + n) = more.drop n := fun n => by
    rw [hcut]
    exact hdrop n more
  rw [← hlen]
  cases found b flags host with
  | none => rfl
  | some a =>
    show (do
      let ep ← parseAddress b fuel flags (UInt16.ofNat
        (Numeral.strtoul ((s ++ [0]).drop ((sch ++ host).length + 1))).1) ep _ _
      return ep.map (·, s.drop ((sch ++ host).length + 1 +
        (Numeral.strtoul ((s ++ [0]).drop ((sch ++ host).length + 1))).2))) = _
    rw [hmore]
    simp only [hu]
    rfl

end

end EndpointString
