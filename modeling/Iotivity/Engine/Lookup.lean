import Iotivity.Engine.Blockwise

/-!
# Looking up a block-wise buffer

`oc_blockwise_find_buffer` takes the first buffer of a list whose endpoint, method, role and query
are those of the request and whose path agrees with the request's on the first `href_len` bytes, as
`strncmp` counts them: the path of the request may be a proper beginning of the path of the buffer,
may be empty, and is not compared behind a NUL.

* `LookupExact`   a buffer that is found has the path of the request;
* `Unshadowed`    in front of every buffer that only looks like it there is one with the path;
* `lookupExact_iff`   the two are the same.
-/

namespace Coap

/-- the arguments of a lookup -/
structure Lookup where
  href : List UInt8
  endpoint : Endpoint
  method : UInt8
  query : List UInt8
  role : Role

def Lookup.findRequest (r : Lookup) (s : Buffers) : Option BlockwiseState :=
  ocBlockwiseFindRequestBuffer s r.href r.endpoint r.method r.query r.role

def Lookup.findResponse (r : Lookup) (s : Buffers) : Option BlockwiseState :=
  ocBlockwiseFindResponseBuffer s r.href r.endpoint r.method r.query r.role

/-- endpoint, method, role and query of the buffer are those of the request -/
def Lookup.Serves (r : Lookup) (b : BlockwiseState) : Prop :=
  b.uriQuery = r.query ∧ ocEndpointCompare b.endpoint r.endpoint = true ∧ b.method = r.method ∧
    b.role = r.role

/-- the buffer is the request's own -/
def Lookup.Owns (r : Lookup) (b : BlockwiseState) : Prop := b.href = r.href ∧ r.Serves b

/-- whatever is found is the request's own -/
def LookupExact (s : Buffers) (r : Lookup) : Prop :=
  (∀ b, r.findRequest s = some b → r.Owns b) ∧ (∀ b, r.findResponse s = some b → r.Owns b)

/-- two requests get hold of the same buffer -/
def SharesBuffer (s : Buffers) (r r' : Lookup) : Prop :=
  (∃ b, r.findRequest s = some b ∧ r'.findRequest s = some b) ∨
    (∃ b, r.findResponse s = some b ∧ r'.findResponse s = some b)

/-- A buffer of another path that `strncmp` takes for the request's stands behind one of the
request's own. -/
def Unshadowed (l : List BlockwiseState) (r : Lookup) : Prop :=
  ∀ front b back, l = front ++ b :: back → r.Serves b → b.href ≠ r.href →
    strncmpEq r.href b.href r.href.length = true → ∃ b' ∈ front, r.Owns b'

/-! ## endpoints -/

theorem ocEndpointCompare_iff (a b : Endpoint) : ocEndpointCompare a b = true ↔
    a.flags.unicast = b.flags.unicast ∧ a.device = b.device ∧ a.port = b.port ∧
      ((a.flags.ipv6 = true ∧ a.address.take 16 = b.address.take 16) ∨
        (a.flags.ipv6 = false ∧ a.flags.ipv4 = true ∧ a.address.take 4 = b.address.take 4)) := by
  unfold ocEndpointCompare
  split
  · rename_i h
    refine iff_of_false (by simp) ?_
    rintro ⟨h1, h2, _⟩
    exact h.elim (fun h => h h1) (fun h => h h2)
  · rename_i h
    obtain ⟨h1, h2⟩ := not_or.mp h
    cases h6 : a.flags.ipv6 <;> cases h4 : a.flags.ipv4 <;>
      simp [not_not.mp h1, not_not.mp h2, and_comm]

theorem sameFamily {a b : Endpoint} (h : a.flags.unicast = b.flags.unicast) :
    a.flags.ipv6 = b.flags.ipv6 ∧ a.flags.ipv4 = b.flags.ipv4 := by
  have h6 : a.flags.unicast.ipv6 = b.flags.unicast.ipv6 := by rw [h]
  have h4 : a.flags.unicast.ipv4 = b.flags.unicast.ipv4 := by rw [h]
  exact ⟨h6, h4⟩

theorem ocEndpointCompare_symm {a b : Endpoint} (h : ocEndpointCompare a b = true) :
    ocEndpointCompare b a = true := by
  obtain ⟨h1, h2, h3, h4⟩ := (ocEndpointCompare_iff a b).mp h
  obtain ⟨h6, h7⟩ := sameFamily h1
  rw [h6, h7] at h4
  exact (ocEndpointCompare_iff b a).mpr ⟨h1.symm, h2.symm, h3.symm,
    h4.imp (fun ⟨x, y⟩ => ⟨x, y.symm⟩) (fun ⟨x, y, z⟩ => ⟨x, y, z.symm⟩)⟩

theorem ocEndpointCompare_trans {a b c : Endpoint} (h : ocEndpointCompare a b = true)
    (h' : ocEndpointCompare b c = true) : ocEndpointCompare a c = true := by
  obtain ⟨h1, h2, h3, h4⟩ := (ocEndpointCompare_iff a b).mp h
  obtain ⟨g1, g2, g3, g4⟩ := (ocEndpointCompare_iff b c).mp h'
  obtain ⟨h6, h7⟩ := sameFamily h1
  refine (ocEndpointCompare_iff a c).mpr ⟨h1.trans g1, h2.trans g2, h3.trans g3, ?_⟩
  rcases h4 with ⟨x, y⟩ | ⟨x, y, z⟩ <;> rcases g4 with ⟨x', y'⟩ | ⟨x', y', z'⟩
  · exact Or.inl ⟨x, y.trans y'⟩
  · rw [h6, x'] at x
    exact absurd x (by decide)
  · rw [h6, x'] at x
    exact absurd x (by decide)
  · exact Or.inr ⟨x, y, z.trans z'⟩

/-! ## lemmas -/

theorem strncmpFrom_self (a : Nat → UInt8) (i n : Nat) : strncmpFrom a a i n = true := by
  induction n generalizing i with
  | zero => rfl
  | succ n ih =>
    unfold strncmpFrom
    rw [if_neg (by simp)]
    split
    · rfl
    · exact ih (i + 1)

theorem serves_iff (r : Lookup) (b : BlockwiseState) :
    b.serves r.endpoint r.method r.query r.role = true ↔ r.Serves b := by
  unfold BlockwiseState.serves Lookup.Serves
  simp only [Bool.and_eq_true, beq_iff_eq]
  constructor
  · rintro ⟨⟨⟨⟨he, hm⟩, hr⟩, hl⟩, hq⟩
    rw [hl, List.take_length] at hq
    exact ⟨hq.symm, he, hm, hr⟩
  · rintro ⟨hq, he, hm, hr⟩
    refine ⟨⟨⟨⟨he, hm⟩, hr⟩, by rw [hq]⟩, ?_⟩
    rw [← hq, List.take_length]

/-- the test a buffer has to pass -/
theorem matches_iff (r : Lookup) (b : BlockwiseState) :
    (strncmpEq r.href b.href r.href.length && b.serves r.endpoint r.method r.query r.role) = true ↔
      strncmpEq r.href b.href r.href.length = true ∧ r.Serves b := by
  rw [Bool.and_eq_true, serves_iff]

theorem Lookup.Owns.looksAlike {r : Lookup} {b : BlockwiseState} (h : r.Owns b) :
    strncmpEq r.href b.href r.href.length = true := by
  rw [h.1]
  exact strncmpFrom_self _ _ _

/-- what a lookup gives is found at its first place in the list -/
theorem findBuffer_some {l : List BlockwiseState} {r : Lookup} {b : BlockwiseState} :
    ocBlockwiseFindBuffer l r.href r.endpoint r.method r.query r.role = some b ↔
      (strncmpEq r.href b.href r.href.length = true ∧ r.Serves b) ∧
        ∃ front back, l = front ++ b :: back ∧
          ∀ x ∈ front, ¬ (strncmpEq r.href x.href r.href.length = true ∧ r.Serves x) := by
  unfold ocBlockwiseFindBuffer
  rw [List.find?_eq_some_iff_append, matches_iff]
  refine and_congr_right fun _ => exists₂_congr fun front back => and_congr_right fun _ => ?_
  refine forall₂_congr fun x _ => ?_
  rw [Bool.not_eq_true', ← Bool.not_eq_true, matches_iff]

theorem findBuffer_none {l : List BlockwiseState} {r : Lookup} :
    ocBlockwiseFindBuffer l r.href r.endpoint r.method r.query r.role = none ↔
      ∀ x ∈ l, ¬ (strncmpEq r.href x.href r.href.length = true ∧ r.Serves x) := by
  unfold ocBlockwiseFindBuffer
  rw [List.find?_eq_none]
  refine forall₂_congr fun x _ => ?_
  rw [matches_iff]

/-- a lookup in one list is exact if and only if the list has no impostor in front -/
theorem findBuffer_exact_iff (l : List BlockwiseState) (r : Lookup) :
    (∀ b, ocBlockwiseFindBuffer l r.href r.endpoint r.method r.query r.role = some b → r.Owns b) ↔
      Unshadowed l r := by
  constructor
  · intro h front b back hl hs hne hlike
    cases hf : ocBlockwiseFindBuffer l r.href r.endpoint r.method r.query r.role with
    | none =>
      have hb : b ∈ l := by simp [hl]
      exact absurd ⟨hlike, hs⟩ (findBuffer_none.mp hf b hb)
    | some x =>
      have hx := h x hf
      obtain ⟨_, front', back', hl', hfirst⟩ := findBuffer_some.mp hf
      -- `x` is the first match and `b` matches too, so `x` stands in front of `b`
      rw [hl] at hl'
      rcases List.append_eq_append_iff.mp hl' with ⟨c, rfl, hc⟩ | ⟨c, rfl, hc⟩
      · cases c with
        | nil =>
          obtain ⟨rfl, _⟩ := List.cons.inj hc
          exact absurd hx.1 hne
        | cons y c =>
          obtain ⟨rfl, _⟩ := List.cons.inj hc
          exact absurd ⟨hlike, hs⟩ (hfirst b (by simp))
      · cases c with
        | nil =>
          obtain ⟨rfl, _⟩ := List.cons.inj hc
          exact absurd hx.1 hne
        | cons y c =>
          obtain ⟨rfl, _⟩ := List.cons.inj hc
          exact ⟨x, by simp, hx⟩
  · intro h b hf
    obtain ⟨⟨hlike, hs⟩, front, back, hl, hfirst⟩ := findBuffer_some.mp hf
    by_cases hne : b.href = r.href
    · exact ⟨hne, hs⟩
    · obtain ⟨x, hx, hown⟩ := h front b back hl hs hne hlike
      exact absurd ⟨hown.looksAlike, hown.2⟩ (hfirst x hx)

/-! ## the main result -/

/-- **Lookup.**  Both lookups are exact if and only if neither list has an impostor in front, and then
requests of different paths do not share a buffer. -/
theorem lookupExact_iff (s : Buffers) (r : Lookup) :
    (LookupExact s r ↔ Unshadowed s.requests r ∧ Unshadowed s.responses r) ∧
      ∀ r' : Lookup, (Unshadowed s.requests r ∧ Unshadowed s.responses r) →
        (Unshadowed s.requests r' ∧ Unshadowed s.responses r') → r.href ≠ r'.href →
        ¬ SharesBuffer s r r' := by
  have hiff : ∀ r, LookupExact s r ↔ Unshadowed s.requests r ∧ Unshadowed s.responses r := fun r =>
    and_congr (findBuffer_exact_iff s.requests r) (findBuffer_exact_iff s.responses r)
  refine ⟨hiff r, ?_⟩
  rintro r' h h' hne (⟨b, h1, h2⟩ | ⟨b, h1, h2⟩)
  · exact hne (((hiff r).mpr h).1 b h1 |>.1.symm.trans (((hiff r').mpr h').1 b h2).1)
  · exact hne (((hiff r).mpr h).2 b h1 |>.1.symm.trans (((hiff r').mpr h').2 b h2).1)

/-- The path `a` finds the buffer of a transfer to `ab`, and shares it with that transfer. -/
theorem not_lookupExact :
    let s : Buffers := ⟨[freshBuffer], [], 1⟩
    let a : Lookup := ⟨[0x61], freshBuffer.endpoint, coapPost, [], .server⟩
    let ab : Lookup := ⟨[0x61, 0x62], freshBuffer.endpoint, coapPost, [], .server⟩
    ¬ LookupExact s a ∧ a.href ≠ ab.href ∧ SharesBuffer s a ab := by
  intro s a ab
  have h : a.findRequest s = some freshBuffer := rfl
  refine ⟨fun hex => absurd (hex.1 freshBuffer h).1 (by decide), by decide, Or.inl ?_⟩
  exact ⟨freshBuffer, h, rfl⟩

end Coap
