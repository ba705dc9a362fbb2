import Iotivity.Payload.Arrays

/-!
# The nodes that a payload needs

`_alloc_rep` returns `NULL` when the pool is used up.  The loops of `oc_parse_rep` and the ones for the
objects of an array find the error before they come to the node; the loop over the members of a map that
is the value of a property writes through it first.

* `Request`, `asked`          what a payload asks for, and the nodes among it;
* `ask`                       how far it gets with a number of blocks;
* `Serves`                    a program that gets as far as its requests;
* `pool_exhaustion_iff`       a used up pool is reported, unless the first node that is missing is for a
                              member of such a map.
-/

namespace Payload
open Triple

/-! ## requests -/

/-- * `error`   `*err |= e`;
* `test`    the function returns if there is an error, and so do its callers;
* `node`    `_alloc_rep`, for a member of a map that is parsed at this site, or for an object;
* `abort`   an assertion of tinycbor fails. -/
inductive Request where
  | error (e : CborError)
  | test
  | node (site : Option Site)
  | abort

/-- the nodes that are asked for, where all of them are there -/
def asked : List Request → Bool → List (Option Site)
  | [], _ => []
  | .error e :: rs, failed => asked rs (failed || e != 0)
  | .test :: rs, failed => if failed then [] else asked rs failed
  | .node site :: rs, failed => site :: asked rs failed
  | .abort :: _, _ => []

inductive Standing where
  | going
  | returned
  | aborted
  | exhausted (site : Option Site)
deriving DecidableEq

/-- how far a program has got, with the blocks that are left -/
structure Ask where
  failed : Bool
  left : Option Nat
  standing : Standing

def Ask.step (p : Ask) (q : Request) : Ask :=
  match p.standing, q with
  | .going, .error e => { p with failed := p.failed || e != 0 }
  | .going, .test => if p.failed then { p with standing := .returned } else p
  | .going, .node site =>
    if p.left = some 0 then { p with standing := .exhausted site }
    else { p with left := p.left.map (· - 1) }
  | .going, .abort => { p with standing := .aborted }
  | _, _ => p

def ask (rs : List Request) (p : Ask) : Ask := rs.foldl Ask.step p

theorem ask_cons (q : Request) (rs : List Request) (p : Ask) : ask (q :: rs) p = ask rs (p.step q) := rfl

theorem ask_append (rs rs' : List Request) (p : Ask) : ask (rs ++ rs') p = ask rs' (ask rs p) :=
  List.foldl_append

theorem ask_of_not_going {p : Ask} (h : p.standing ≠ .going) (rs : List Request) : ask rs p = p := by
  induction rs with
  | nil => rfl
  | cons q rs ih =>
    have hstep : p.step q = p := by
      unfold Ask.step
      split <;> first | rfl | exact absurd ‹_› h
    rw [ask_cons, hstep, ih]

/-- the node that is missing is the one behind those that are left -/
theorem exhausted_iff (rs : List Request) (failed : Bool) (left : Option Nat) (site : Option Site) :
    (ask rs ⟨failed, left, .going⟩).standing = .exhausted site ↔
      ∃ k, left = some k ∧ (asked rs failed)[k]? = some site := by
  induction rs generalizing failed left with
  | nil => exact ⟨fun h => (nomatch h), fun ⟨k, _, h⟩ => nomatch h⟩
  | cons q rs ih =>
    rw [ask_cons]
    cases q with
    | error e => exact ih _ _
    | test =>
      cases failed with
      | false => exact ih false left
      | true =>
        rw [ask_of_not_going (p := Ask.step ⟨true, left, .going⟩ .test) fun h => Standing.noConfusion h]
        exact ⟨fun h => (nomatch h), fun ⟨k, _, h⟩ => nomatch h⟩
    | abort =>
      rw [ask_of_not_going (p := Ask.step ⟨failed, left, .going⟩ .abort) fun h => Standing.noConfusion h]
      exact ⟨fun h => (nomatch h), fun ⟨k, _, h⟩ => nomatch h⟩
    | node s =>
      by_cases hl : left = some 0
      · have hstep : Ask.step ⟨failed, left, .going⟩ (.node s) = ⟨failed, left, .exhausted s⟩ := if_pos hl
        rw [hstep, ask_of_not_going fun h => Standing.noConfusion h, hl]
        constructor
        · rintro ⟨⟩
          exact ⟨0, rfl, rfl⟩
        · rintro ⟨k, hk, hs⟩
          obtain rfl := Option.some.inj hk
          obtain rfl : s = site := Option.some.inj hs
          rfl
      · have hstep : Ask.step ⟨failed, left, .going⟩ (.node s) = ⟨failed, left.map (· - 1), .going⟩ :=
          if_neg hl
        rw [hstep, ih]
        cases left with
        | none => exact ⟨fun ⟨k, h, _⟩ => (nomatch h), fun ⟨k, h, _⟩ => nomatch h⟩
        | some n =>
          obtain ⟨m, rfl⟩ : ∃ m, n = m + 1 := Nat.exists_eq_succ_of_ne_zero fun h => hl (congrArg some h)
          constructor
          · rintro ⟨k, hk, hs⟩
            obtain rfl : m = k := Option.some.inj hk
            exact ⟨m + 1, rfl, hs⟩
          · rintro ⟨k, hk, hs⟩
            obtain rfl := Option.some.inj hk
            exact ⟨m, rfl, hs⟩

/-! ## the requests of a payload -/

section
variable (d : Bool)

/-- a text or byte string as a value -/
def stringRequests (s : CborString) : List Request :=
  let len := (s.length + 1) % 2^64
  .error s.lengthError :: .test :: if len = 0 then [] else [.error (s.copy len).1]

def countRequests : CborValue → List Request
  | .atEnd => []
  | .item _ _ _ advance next => .test :: .error advance :: countRequests next

def lengthRequests (length : Option Nat) (content : CborValue) : List Request :=
  if length.getD 0 = 0 then countRequests content else []

/-- an element of an array that is no map -/
def scalarRequests (i : CborItem) : List Request :=
  match i with
  | .integer _ e => [.error e]
  | .double _ e => [.error e]
  | .boolean _ e => [.error e]
  | .byteString s => [.error s.lengthError, .error (s.copy (byteItemLength d s)).1]
  | .textString s => [.error s.lengthError, .error (s.copy (textItemLength d s)).1]
  | _ => []

/-- a key, with the requests of the value -/
def keyRequests (key : CborItem) (advance : CborError) (value : List Request) : List Request :=
  match key with
  | .textString s =>
    let len := (s.length + 1) % 2^64
    .error s.lengthError :: .test :: if len = 0 then []
      else .error (s.copy len).1 :: .test :: .error advance :: value
  | _ => [.error cborErrorIllegalType]

mutual

/-- a value -/
def valueRequests : CborValue → List Request
  | .atEnd => [.error cborErrorIllegalType]
  | .item i enter content _ _ =>
    match i with
    | .integer _ e => [.error e]
    | .boolean _ e => [.error e]
    | .double _ e => [.error e]
    | .byteString s => stringRequests s
    | .textString s => stringRequests s
    | .map => .error enter :: memberRequests .property content
    | .array length => .error enter :: (lengthRequests length content ++ elementRequests content 0 ocRepNil)
    | .invalid => [.error cborErrorIllegalType]
    | _ => []

/-- the members of a map -/
def memberRequests (site : Site) : CborValue → List Request
  | .atEnd => []
  | .item key _ _ advance rest =>
    if site = .root ∧ key matches .invalid then []
    else .node (some site) :: (keyRequests key advance (valueRequests rest) ++ .test ::
      if key.moves then
        match rest with
        | .atEnd => []
        | .item _ _ _ advance next => .error advance :: memberRequests site next
      else .error advance :: memberRequests site rest)

/-- the elements of an array, from index `k` on -/
def elementRequests : CborValue → Nat → Nat → List Request
  | .atEnd, _, _ => []
  | .item i enter content advance next, k, type =>
    let type := elementType k type i
    (if type &&& i.code ≠ i.code then [.error cborErrorIllegalType, .test]
      else match i with
        | .map => .node none :: .error enter :: memberRequests .object content
        | _ => scalarRequests d i) ++
      .test :: .error advance :: elementRequests next (k + 1) type

end

/-- the objects of a payload that is an array -/
def objectRequests : CborValue → List Request
  | .atEnd => []
  | .item i enter content advance next =>
    if i matches .invalid then []
    else .node none :: if i.isContainer then
      .error enter :: (memberRequests d .root content ++ .test :: .error advance :: objectRequests next)
    else [.abort]

def payloadRequests (init : CborError) (root : CborValue) : List Request :=
  .error init :: match root with
    | .item .map enter content _ _ => .error enter :: memberRequests d .root content
    | .item (.array _) enter content _ _ => .error enter :: objectRequests d content
    | _ => []

/-- the nodes that a payload needs, in the order of their allocation -/
def nodes (init : CborError) (root : CborValue) : List (Option Site) :=
  asked (payloadRequests d init root) false

end

/-! ## programs that serve requests -/

/-- the blocks that are left -/
def Pools.left (s : Pools) : Option Nat := s.repCapacity.map (· - s.reps)

/-- where a program is, with what is left -/
def Run.rest (r : Run) : Ask := ⟨r.err != 0, r.pools.left, .going⟩

variable {α β : Type}

/-- A program has returned `a`: it is behind its requests, or it has been given up at an error or at a
node that is missing. -/
inductive Served (p : Ask) (V N : α → Prop) (a : α) (r : Run) : Prop where
  | on (hp : p = r.rest) (hv : V a)
  | back (hp : p.standing = .returned) (he : r.err ≠ 0) (hn : N a)
  | out (site : Option Site) (hp : p.standing = .exhausted site) (hs : site ≠ some .property)
      (he : r.err = cborErrorOutOfMemory) (hn : N a)

/-- a program has written through `NULL` where the node of a member is missing -/
def Broke (p : Ask) (f : Fault) : Prop := f = .nullWrite → p.standing = .exhausted (some .property)

/-- the program gets as far as its requests; what it returns is `V` behind them, and `N` if it has been
given up -/
def Serves (m : Parser α) (r : Run) (rs : List Request) (V N : α → Prop) : Prop :=
  Sat m r (Served (ask rs r.rest) V N) fun f _ => Broke (ask rs r.rest) f

/-- the program returns, and the error stays -/
def Hands (m : Parser α) (r : Run) (N : α → Prop) : Prop :=
  Sat m r (fun a r' => r'.err = r.err ∧ N a) fun _ _ => False

section
variable {m : Parser α} {f : α → Parser β} {r : Run} {rs rs' : List Request} {V N : α → Prop}
  {W M : β → Prop}

theorem Serves.pure {a : α} (h : V a) : Serves (Pure.pure a) r [] V N := Sat.pure (.on rfl h)

theorem Hands.pure {a : α} (h : N a) : Hands (Pure.pure a) r N := Sat.pure ⟨rfl, h⟩

theorem Serves.ite {c : Prop} [Decidable c] {m' : Parser α} (ht : c → Serves m r rs V N)
    (hf : ¬ c → Serves m' r rs V N) : Serves (if c then m else m') r rs V N :=
  Sat.ite ht hf

theorem Broke.mono {p : Ask} {g : Fault} (h : Broke p g) (rs : List Request) : Broke (ask rs p) g := by
  intro hg
  rw [ask_of_not_going (by rw [h hg]; exact Standing.noConfusion)]
  exact h hg

/-- One program after the other: the second one serves the rest of the requests, and hands back what has
been given up. -/
theorem Serves.bind (hm : Serves m r rs V N) (hgo : ∀ a r', V a → Serves (f a) r' rs' W M)
    (hquit : ∀ a r', N a → r'.err ≠ 0 → Hands (f a) r' M) : Serves (m >>= f) r (rs ++ rs') W M := by
  unfold Serves
  rw [ask_append]
  refine Sat.bind (hm.imp (fun _ _ h => h) fun _ _ h => h.mono rs') fun a r' h => ?_
  cases h with
  | on hp hv =>
    rw [hp]
    exact hgo a r' hv
  | back hp he hn =>
    rw [ask_of_not_going (by rw [hp]; exact Standing.noConfusion)]
    exact (hquit a r' hn he).imp (fun b r'' hb => .back hp (by rw [hb.1]; exact he) hb.2)
      fun _ _ hb => hb.elim
  | out site hp hs he hn =>
    rw [ask_of_not_going (by rw [hp]; exact Standing.noConfusion)]
    have hne : r'.err ≠ 0 := by
      rw [he]
      decide
    exact (hquit a r' hn hne).imp (fun b r'' hb => .out site hp hs (hb.1.trans he) hb.2)
      fun _ _ hb => hb.elim

/-- behind the last request -/
theorem Serves.last (hm : Serves m r rs V N) (hgo : ∀ a r', V a → Serves (f a) r' [] W M)
    (hquit : ∀ a r', N a → r'.err ≠ 0 → Hands (f a) r' M) : Serves (m >>= f) r rs W M := by
  have h := hm.bind hgo hquit
  rwa [List.append_nil] at h

theorem Serves.map {g : α → β} (hm : Serves m r rs V N) (hv : ∀ a, V a → W (g a))
    (hn : ∀ a, N a → M (g a)) : Serves (m >>= fun a => Pure.pure (g a)) r rs W M :=
  hm.last (fun a _ ha => Serves.pure (hv a ha)) fun a _ ha _ => Hands.pure (hn a ha)

/-! ## rules for the steps -/

/-- a step that has its request -/
theorem Serves.cons {q : Request} {r₁ : Run} (h : Serves m r₁ rs V N) (hp : r.rest.step q = r₁.rest) :
    Sat m r₁ (Served (ask (q :: rs) r.rest) V N) fun f _ => Broke (ask (q :: rs) r.rest) f := by
  rw [ask_cons, hp]
  exact h

theorem serves_orError {f : Unit → Parser α} {e : CborError}
    (h : Serves (f ()) { r with err := r.err ||| e } rs V N) :
    Serves (orError e >>= f) r (.error e :: rs) V N := by
  refine sat_orError (h.cons ?_)
  show (⟨r.err != 0 || e != 0, r.pools.left, .going⟩ : Ask) = ⟨r.err ||| e != 0, r.pools.left, .going⟩
  rw [or_bne_zero]

theorem serves_setError {f : Unit → Parser α} {e : CborError} (hr : r.err = 0 ∨ e ≠ 0)
    (h : Serves (f ()) { r with err := e } rs V N) :
    Serves (setError e >>= f) r (.error e :: rs) V N := by
  refine sat_setError (h.cons ?_)
  show (⟨r.err != 0 || e != 0, r.pools.left, .going⟩ : Ask) = ⟨e != 0, r.pools.left, .going⟩
  rcases hr with hr | he
  · rw [hr]
    rfl
  · rw [bne_iff_ne.mpr he, Bool.or_true]

/-- stores ask for nothing -/
theorem serves_store {f : Unit → Parser α} {x : Store}
    (h : Serves (f ()) { r with stores := r.stores ++ [x] } rs V N) :
    Serves (store x >>= f) r rs V N := sat_store h

theorem step_test (hr : r.err ≠ 0) : (r.rest.step .test).standing = .returned := by
  show (if (r.err != 0) = true then ({ r.rest with standing := .returned } : Ask) else r.rest).standing = _
  rw [if_pos (bne_iff_ne.mpr hr)]

/-- the test of the error -/
theorem serves_failed {f : Bool → Parser α} (hquit : r.err ≠ 0 → Hands (f true) r N)
    (hgo : r.err = 0 → Serves (f false) r rs V N) :
    Serves (failed >>= f) r (.test :: rs) V N := by
  by_cases hr : r.err = 0
  · refine sat_failed ?_
    rw [hr]
    refine (hgo hr).cons ?_
    show (if (r.err != 0) = true then _ else r.rest) = r.rest
    rw [hr]
    rfl
  · have hstep := step_test hr
    unfold Serves
    rw [ask_cons, ask_of_not_going (by rw [hstep]; exact Standing.noConfusion)]
    refine sat_failed ?_
    rw [bne_iff_ne.mpr hr]
    exact (hquit hr).imp (fun a r' h => .back hstep (by rw [h.1]; exact hr) h.2) fun _ _ h => h.elim

theorem hands_failed {f : Bool → Parser α} (hr : r.err ≠ 0) (h : Hands (f true) r N) :
    Hands (failed >>= f) r N := by
  refine sat_failed ?_
  rw [bne_iff_ne.mpr hr]
  exact h

/-- an element is refused -/
theorem serves_refused {f : Unit → Parser α}
    (h : Hands (f ()) { r with err := r.err ||| cborErrorIllegalType } N) :
    Serves (orError cborErrorIllegalType >>= f) r ([.error cborErrorIllegalType, .test] ++ rs) V N := by
  have he : r.err ||| cborErrorIllegalType ≠ 0 := fun hc =>
    absurd (Nat.or_eq_zero_iff.mp hc).2 (by decide)
  have hstep := step_test (r := { r with err := r.err ||| cborErrorIllegalType }) he
  have hret : Serves (f ()) { r with err := r.err ||| cborErrorIllegalType } (.test :: rs) V N := by
    unfold Serves
    rw [ask_cons, ask_of_not_going (by rw [hstep]; exact Standing.noConfusion)]
    exact h.imp (fun a r' h => .back hstep (by rw [h.1]; exact he) h.2) fun _ _ h => h.elim
  exact serves_orError hret

theorem left_eq_zero_iff (s : Pools) : s.left = some 0 ↔ s.repCapacity.any (· ≤ s.reps) = true := by
  unfold Pools.left
  cases s.repCapacity with
  | none => exact ⟨fun h => (nomatch h), fun h => nomatch h⟩
  | some n =>
    rw [Option.map_some, Option.some.injEq, Option.any_some, decide_eq_true_iff]
    exact Nat.sub_eq_zero_iff_le

theorem left_take (s : Pools) :
    ({ s with reps := s.reps + 1 } : Pools).left = s.left.map (· - 1) := by
  unfold Pools.left
  cases s.repCapacity with
  | none => rfl
  | some n => rfl

/-- a node of an object -/
theorem serves_allocRep {f : Bool → Parser α} {site : Option Site} (hs : site ≠ some .property)
    (hno : Sat (f false) r (fun a r' => r'.err = cborErrorOutOfMemory ∧ N a) fun _ _ => False)
    (hyes : Serves (f true) { r with pools := { r.pools with reps := r.pools.reps + 1 } } rs V N) :
    Serves (allocRep >>= f) r (.node site :: rs) V N := by
  have halloc := allocRep_eq r
  by_cases hl : r.pools.left = some 0
  · rw [if_pos ((left_eq_zero_iff _).mp hl)] at halloc
    have hstep : r.rest.step (.node site) = { r.rest with standing := .exhausted site } := if_pos hl
    unfold Serves
    rw [ask_cons, hstep, ask_of_not_going fun h => Standing.noConfusion h]
    exact Sat.bind_ok halloc (hno.imp (fun a r' h => .out site rfl hs h.1 h.2) fun _ _ h => h.elim)
  · rw [if_neg fun h => hl ((left_eq_zero_iff _).mpr h)] at halloc
    refine Sat.bind_ok halloc (hyes.cons ?_)
    show (if r.pools.left = some 0 then _ else { r.rest with left := r.pools.left.map (· - 1) } : Ask) = _
    rw [if_neg hl, ← left_take]
    rfl

theorem serves_ocMalloc {f : Unit → Parser α} {p : Pool} {n : Nat}
    (h : Serves (f ()) { r with pools := r.pools.take p n } rs V N) :
    Serves (ocMalloc p n >>= f) r rs V N :=
  sat_ocMalloc (fun hf => Fault.noConfusion hf) fun _ => h

/-- behind a property whose node is there -/
theorem serves_leaveMembers {site : Site} {rep : OcRep} {f : Bool → Parser α} (hrep : rep ≠ .null)
    (hquit : ∀ cut, r.err ≠ 0 → Hands (f true) { r with cut := cut } N)
    (hgo : ∀ cut, r.err = 0 → Serves (f false) { r with cut := cut } rs V N) :
    Serves (leaveMembers site rep >>= f) r (.test :: rs) V N := by
  have hplain : Serves (failed >>= f) r (.test :: rs) V N := serves_failed (hquit r.cut) (hgo r.cut)
  cases site with
  | root => exact hplain
  | object => exact hplain
  | property =>
    cases rep with
    | null => exact absurd rfl hrep
    | node =>
      have h : Serves (failed >>= f) { r with cut := r.cut || r.err != 0 } (.test :: rs) V N :=
        serves_failed (hquit _) (hgo _)
      exact h

theorem hands_leaveMembers {site : Site} {rep : OcRep} {f : Bool → Parser α} (hr : r.err ≠ 0)
    (hrep : rep ≠ .null) (h : ∀ cut, Hands (f true) { r with cut := cut } N) :
    Hands (leaveMembers site rep >>= f) r N := by
  cases site with
  | root => exact hands_failed hr (h r.cut)
  | object => exact hands_failed hr (h r.cut)
  | property =>
    cases rep with
    | null => exact absurd rfl hrep
    | node =>
      have hq : Hands (failed >>= f) { r with cut := r.cut || r.err != 0 } N := hands_failed hr (h _)
      exact hq

end

/-! ## strings, lengths and elements -/

variable {r : Run} {d : Bool}

theorem parseString_serves (s : CborString) :
    Serves (parseString s) r (stringRequests s) (fun _ => True) fun _ => True := by
  unfold parseString stringRequests
  refine serves_orError (serves_failed (fun he => ?_) fun _ => ?_)
  · rw [if_pos (Or.inl rfl)]
    exact Hands.pure trivial
  · by_cases hlen : (s.length + 1) % 2^64 = 0
    · rw [if_pos (Or.inr hlen), if_pos hlen]
      exact Serves.pure trivial
    · rw [if_neg fun h => h.elim Bool.noConfusion hlen, if_neg hlen]
      exact serves_ocMalloc (serves_orError (Serves.pure trivial))

theorem countElements_serves (v : CborValue) : ∀ (len : Nat) (r : Run),
    Serves (countElements v len) r (countRequests v) (fun x => x ≠ none) fun x => x = none := by
  induction v with
  | atEnd => exact fun len r => Serves.pure (Option.some_ne_none len)
  | item i enter content advance next _ ih =>
    intro len r
    unfold countElements
    refine serves_failed (fun _ => Hands.pure rfl) fun hr => serves_setError (Or.inl hr) ?_
    exact ih (len + 1) _

theorem arrayLength_serves (length : Option Nat) (v : CborValue) :
    Serves (arrayLength length v) r (lengthRequests length v) (fun x => x ≠ none) fun x => x = none := by
  unfold arrayLength lengthRequests
  by_cases h : length.getD 0 = 0
  · rw [if_pos h, if_pos h]
    exact countElements_serves v 0 r
  · rw [if_neg h, if_neg h]
    refine Serves.pure fun hn => h ?_
    rw [hn]
    rfl

/-- the type behind an element -/
def TypeOf (k : Nat) (i : CborItem) (cur : Cur) (x : Option Cur) : Prop :=
  ∃ cur', x = some cur' ∧ cur'.type = elementType k cur.type i

theorem openArray_serves {k units : Nat} {i : CborItem} {pool : Pool} {cur : Cur} (hcode : i.code ≠ 0) :
    Serves (openArray i.code pool units k cur) r
      (if elementType k cur.type i &&& i.code ≠ i.code then [.error cborErrorIllegalType, .test] else [])
      (fun x => TypeOf k i cur x ∧ elementType k cur.type i &&& i.code = i.code)
      fun x => x = none := by
  unfold openArray
  by_cases hk : k = 0
  · have htype : elementType k cur.type i = i.code ||| ocRepArray := if_pos ⟨hk, hcode⟩
    rw [if_pos hk, if_neg (not_not_intro (htype ▸ or_and_self _ _))]
    refine serves_ocMalloc (Serves.pure ⟨⟨_, rfl, htype.symm⟩, ?_⟩)
    rw [htype]
    exact or_and_self _ _
  · have htype : elementType k cur.type i = cur.type := if_neg fun h => hk h.1
    rw [if_neg hk, htype]
    by_cases hm : cur.type &&& i.code ≠ i.code
    · rw [if_pos hm, if_pos hm, ← List.append_nil [Request.error cborErrorIllegalType, .test]]
      exact serves_refused (Hands.pure rfl)
    · rw [if_neg hm, if_neg hm]
      exact Serves.pure ⟨⟨cur, rfl, htype.symm⟩, Decidable.not_not.mp hm⟩

/-- the requests of an element that is no map -/
def elementErrors (d : Bool) (k : Nat) (i : CborItem) (cur : Cur) : List Request :=
  if elementType k cur.type i &&& i.code ≠ i.code then [.error cborErrorIllegalType, .test]
  else scalarRequests d i

theorem putElement_serves {k units : Nat} {i : CborItem} {pool : Pool} {cur : Cur}
    {write : Nat → Parser Unit} (hcode : i.code ≠ 0)
    (hwrite : ∀ block r, Serves (write block) r (scalarRequests d i) (fun _ => True) fun _ => False) :
    Serves (putElement i.code pool units k i cur write) r (elementErrors d k i cur) (TypeOf k i cur)
      fun _ => True := by
  have hrequests : elementErrors d k i cur =
      (if elementType k cur.type i &&& i.code ≠ i.code then [.error cborErrorIllegalType, .test] else []) ++
        if elementType k cur.type i &&& i.code ≠ i.code then [] else scalarRequests d i := by
    unfold elementErrors
    split
    · exact (List.append_nil _).symm
    · rfl
  rw [hrequests]
  refine (openArray_serves hcode).bind (fun x r' hx => ?_) fun x r' hx _ => ?_
  · obtain ⟨⟨cur', rfl, ht⟩, hm⟩ := hx
    rw [if_neg (not_not_intro hm)]
    exact (hwrite _ r').map (fun _ _ => ⟨_, rfl, ht⟩) fun _ h => h.elim
  · rw [hx]
    exact Hands.pure trivial

theorem parseScalar_serves (len k : Nat) {i : CborItem} (hi : i ≠ .map) (cur : Cur) :
    Serves (parseScalar d len k i cur) r (elementErrors d k i cur) (TypeOf k i cur) fun _ => True := by
  have hother : i.code = 0 → scalarRequests d i = [] →
      Serves (pure (some cur)) r (elementErrors d k i cur) (TypeOf k i cur) fun _ => True := by
    intro hcode hw
    have htype : elementType k cur.type i = cur.type := if_neg fun h => h.2 hcode
    unfold elementErrors
    rw [hcode, Nat.and_zero, if_neg (not_not_intro rfl), hw]
    exact Serves.pure ⟨cur, rfl, htype.symm⟩
  unfold parseScalar
  cases i with
  | map => exact absurd rfl hi
  | integer v e =>
    refine putElement_serves (i := .integer v e) (Nat.succ_ne_zero _) fun _ _ => ?_
    exact serves_store (serves_orError (Serves.pure trivial))
  | double v e =>
    refine putElement_serves (i := .double v e) (Nat.succ_ne_zero _) fun _ _ => ?_
    exact serves_store (serves_orError (Serves.pure trivial))
  | boolean v e =>
    refine putElement_serves (i := .boolean v e) (Nat.succ_ne_zero _) fun _ _ => ?_
    exact serves_store (serves_orError (Serves.pure trivial))
  | byteString s =>
    refine putElement_serves (i := .byteString s) (Nat.succ_ne_zero _) fun _ _ => ?_
    exact serves_orError (serves_store (serves_store (serves_orError (Serves.pure trivial))))
  | textString s =>
    refine putElement_serves (i := .textString s) (Nat.succ_ne_zero _) fun _ _ => ?_
    exact serves_orError (serves_store (serves_orError (Serves.pure trivial)))
  | array length => exact hother rfl rfl
  | tag => exact hother rfl rfl
  | other => exact hother rfl rfl
  | invalid => exact hother rfl rfl

/-! ## keys -/

theorem run_bind {m : Parser α} {f : α → Parser β} {a : α} {r' : Run} (h : m r = .ok a r') :
    (m >>= f) r = f a r' := by
  show EStateM.bind m f r = _
  unfold EStateM.bind
  rw [h]

/-- a key without a node: the caller gets `NULL` -/
theorem parseKey_full (key : CborItem) (advance : CborError) (value : OcString → Parser OcRep)
    (hl : r.pools.left = some 0) : parseKey key advance value r =
      .ok ⟨.null, false⟩ { r with err := cborErrorOutOfMemory } := by
  have halloc := allocRep_eq r
  rw [if_pos ((left_eq_zero_iff _).mp hl)] at halloc
  unfold parseKey
  rw [run_bind halloc]
  rfl

theorem parseKey_serves (key : CborItem) (advance : CborError) {value : OcString → Parser OcRep}
    {rs : List Request} (site : Site)
    (hv : ∀ name r, Serves (value name) r rs (fun rep => rep ≠ .null) fun rep => rep ≠ .null)
    (hl : r.pools.left ≠ some 0) :
    Serves (parseKey key advance value) r (.node (some site) :: keyRequests key advance rs)
      (fun p => p.rep ≠ .null ∧ p.moved = key.moves) fun p => p.rep ≠ .null := by
  have hblank : OcRep.blank ≠ .null := OcRep.noConfusion
  have halloc := allocRep_eq r
  rw [if_neg fun h => hl ((left_eq_zero_iff _).mpr h)] at halloc
  have hstep : r.rest.step (.node (some site)) =
      Run.rest { r with pools := { r.pools with reps := r.pools.reps + 1 } } := by
    show (if r.pools.left = some 0 then _ else { r.rest with left := r.pools.left.map (· - 1) } : Ask) = _
    rw [if_neg hl, ← left_take]
    rfl
  unfold parseKey keyRequests
  refine Sat.bind_ok halloc (Serves.cons ?_ hstep)
  rw [if_neg (by decide)]
  cases key with
  | textString s =>
    refine serves_orError (serves_failed (fun he => ?_) fun _ => ?_)
    · rw [if_pos (Or.inl rfl)]
      exact Hands.pure hblank
    · by_cases hlen : (s.length + 1) % 2^64 = 0
      · rw [if_pos (Or.inr hlen), if_pos hlen]
        exact Serves.pure ⟨hblank, (bne_eq_false_iff_eq.mpr hlen).symm⟩
      · rw [if_neg fun h => h.elim Bool.noConfusion hlen, if_neg hlen]
        refine serves_ocMalloc (serves_orError (serves_failed (fun he => ?_) fun _ => ?_))
        · exact Hands.pure OcRep.noConfusion
        · refine serves_orError ((hv _ _).map (fun rep h => ⟨h, ?_⟩) fun rep h => h)
          exact (bne_iff_ne.mpr hlen).symm
  | _ => exact serves_setError (Or.inr (by decide)) (Serves.pure ⟨hblank, rfl⟩)

/-! ## the parser -/

/-- what the three loops ask for from an iterator on -/
structure Asks (d : Bool) (v : CborValue) : Prop where
  value : ∀ name r, Serves (parseValue d name v) r (valueRequests d v) (fun rep => rep ≠ .null)
    fun rep => rep ≠ .null
  members : ∀ site r, Serves (parseMembers d site v) r (memberRequests d site v) (fun x => x.2 = false)
    fun _ => True
  elements : ∀ len k cur r, Serves (parseElements d len v k cur) r (elementRequests d v k cur.type)
    (fun _ => True) fun _ => True

variable {i : CborItem} {enter advance : CborError} {content next : CborValue}

theorem parseValue_serves (hc : Asks d content) (name : OcString) (r : Run) :
    Serves (parseValue d name (.item i enter content advance next)) r
      (valueRequests d (.item i enter content advance next)) (fun rep => rep ≠ .null)
      fun rep => rep ≠ .null := by
  have hnode : ∀ {type value object}, OcRep.node type name value object .null ≠ .null :=
    OcRep.noConfusion
  unfold parseValue valueRequests
  cases i with
  | integer v e => exact serves_orError (Serves.pure hnode)
  | boolean v e => exact serves_orError (Serves.pure hnode)
  | double v e => exact serves_orError (Serves.pure hnode)
  | byteString s =>
    refine (parseString_serves s).last (fun v r' _ => ?_) fun v r' _ _ => ?_
    · cases v <;> exact Serves.pure hnode
    · cases v <;> exact Hands.pure hnode
  | textString s =>
    refine (parseString_serves s).last (fun v r' _ => ?_) fun v r' _ _ => ?_
    · cases v <;> exact Serves.pure hnode
    · cases v <;> exact Hands.pure hnode
  | map => exact serves_orError ((hc.members .property _).map (fun _ _ => hnode) fun _ _ => hnode)
  | array length =>
    refine serves_orError ((arrayLength_serves length content).bind (fun x r' hx => ?_) fun x r' hx _ => ?_)
    · cases x with
      | none => exact absurd rfl hx
      | some len =>
        exact (hc.elements len 0 ⟨ocRepNil, .none, []⟩ r').map (fun _ _ => hnode) fun _ _ => hnode
    · rw [hx]
      exact Hands.pure hnode
  | invalid => exact serves_orError (Serves.pure hnode)
  | tag => exact Serves.pure hnode
  | other => exact Serves.pure hnode

theorem memberRequests_stop {site : Site} (h : site = .root ∧ (i matches .invalid) = true) :
    memberRequests d site (.item i enter content advance next) = [] := by
  unfold memberRequests
  exact if_pos h

theorem memberRequests_key {site : Site} (h : ¬ (site = .root ∧ (i matches .invalid) = true)) :
    memberRequests d site (.item i enter content advance next) =
      .node (some site) :: (keyRequests i advance (valueRequests d next) ++ .test ::
        if i.moves then
          match next with
          | .atEnd => []
          | .item _ _ _ advance next => .error advance :: memberRequests d site next
        else .error advance :: memberRequests d site next) := by
  rw [memberRequests.eq_def]
  exact if_neg h

/-- the node of a member is missing: the error is found, or `NULL` is written through -/
theorem leaveMembers_full (site : Site) {f : Bool → Parser β} (N : β → Prop)
    (h : ∀ r, Hands (f true) r N) :
    Sat (leaveMembers site .null >>= f) { r with err := cborErrorOutOfMemory }
      (fun a r' => site ≠ .property ∧ r'.err = cborErrorOutOfMemory ∧ N a)
      fun g _ => g = .nullWrite → site = .property := by
  have hplain : ∀ s : Site, s ≠ .property →
      Sat (failed >>= f) { r with err := cborErrorOutOfMemory }
        (fun a r' => s ≠ .property ∧ r'.err = cborErrorOutOfMemory ∧ N a)
        fun g _ => g = .nullWrite → s = .property := fun s hs =>
    (hands_failed (show cborErrorOutOfMemory ≠ 0 by decide) (h _)).imp (fun a r' ha => ⟨hs, ha.1, ha.2⟩)
      fun _ _ ha => ha.elim
  cases site with
  | root => exact hplain .root Site.noConfusion
  | object => exact hplain .object Site.noConfusion
  | property => exact fun _ => rfl

theorem parseMembers_serves (hn : Asks d next)
    (hnn : ∀ i e c a n, next = .item i e c a n → ∀ site r, Serves (parseMembers d site n) r
      (memberRequests d site n) (fun x => x.2 = false) fun _ => True)
    (site : Site) (r : Run) :
    Serves (parseMembers d site (.item i enter content advance next)) r
      (memberRequests d site (.item i enter content advance next)) (fun x => x.2 = false)
      fun _ => True := by
  unfold parseMembers
  refine Serves.ite (fun hroot => ?_) fun hroot => ?_
  · rw [memberRequests_stop hroot]
    exact Serves.pure rfl
  rw [memberRequests_key hroot]
  by_cases hl : r.pools.left = some 0
  · have hstep : r.rest.step (.node (some site)) = { r.rest with standing := .exhausted (some site) } :=
      if_pos hl
    unfold Serves
    rw [ask_cons, hstep, ask_of_not_going fun h => Standing.noConfusion h]
    refine Sat.bind_ok (parseKey_full i advance _ hl)
      ((leaveMembers_full site (fun _ => True) fun _ => ?_).imp ?_ ?_)
    · exact Hands.pure trivial
    · rintro a r' ⟨hs, he, hn⟩
      exact .out (some site) rfl (fun hc => hs (Option.some.inj hc)) he hn
    · intro g r' h hg
      rw [h hg]
  · refine (parseKey_serves i advance site (fun name r => hn.value name r) hl).bind (fun p r₁ hp => ?_)
      fun p r₁ hp he => ?_
    · obtain ⟨hrep, hmoved⟩ := hp
      refine serves_leaveMembers hrep (fun cut he => ?_) fun cut _ => ?_
      · exact Hands.pure trivial
      · rw [if_neg (by decide), hmoved]
        cases hm : i.moves with
        | true =>
          rw [if_pos rfl, if_pos rfl]
          cases hnext : next with
          | atEnd => exact Serves.pure rfl
          | item i' e' c' a' n' =>
            exact serves_orError ((hnn _ _ _ _ _ hnext site _).map (fun _ h => h) fun _ h => h)
        | false =>
          rw [if_neg (by decide), if_neg (by decide)]
          exact serves_orError ((hn.members site _).map (fun _ h => h) fun _ h => h)
    · exact hands_leaveMembers he hp fun cut => Hands.pure trivial

/-- behind an element -/
theorem parseElements_goes (hn : Asks d next) (len k : Nat) {cur : Cur} {r : Run} {type : Nat}
    (htype : cur.type = type) :
    Serves (failed >>= fun b => if b then pure cur else do
        orError advance
        parseElements d len next (k + 1) cur) r
      (.test :: .error advance :: elementRequests d next (k + 1) type) (fun _ => True)
      fun _ => True := by
  rw [← htype]
  refine serves_failed (fun _ => Hands.pure trivial) fun _ => serves_orError ?_
  exact hn.elements len (k + 1) cur _

theorem parseElements_serves (hc : Asks d content) (hn : Asks d next) (len k : Nat) (cur : Cur)
    (r : Run) :
    Serves (parseElements d len (.item i enter content advance next) k cur) r
      (elementRequests d (.item i enter content advance next) k cur.type)
      (fun _ => True) fun _ => True := by
  have hscalar : i ≠ .map → Serves (parseElements d len (.item i enter content advance next) k cur) r
      (elementErrors d k i cur ++ .test :: .error advance :: elementRequests d next (k + 1)
        (elementType k cur.type i)) (fun _ => True) fun _ => True := by
    intro hi
    rw [parseElements_item hi]
    refine (parseScalar_serves len k hi cur).bind (fun x r' hx => ?_) fun x r' _ he => ?_
    · obtain ⟨cur', rfl, htype⟩ := hx
      exact parseElements_goes hn len k htype
    · cases x with
      | none => exact Hands.pure trivial
      | some cur' => exact hands_failed he (Hands.pure trivial)
  unfold elementRequests
  cases i with
  | map =>
    unfold parseElements
    obtain ⟨cur', hcur, htype, -⟩ := exists_objectCur k cur
    show Serves (let cur := if k = 0 then { cur with type := ocRepObject ||| ocRepArray } else cur; _) r
      ((if elementType k cur.type .map &&& ocRepObject ≠ ocRepObject then
          [.error cborErrorIllegalType, .test]
        else .node none :: .error enter :: memberRequests d .object content) ++ .test :: .error advance ::
          elementRequests d next (k + 1) (elementType k cur.type .map)) _ _
    rw [hcur, ← htype]
    refine Serves.ite (fun hm => ?_) fun hm => ?_
    · rw [if_pos hm]
      exact serves_refused (Hands.pure trivial)
    · rw [if_neg hm]
      refine serves_allocRep (Option.some_ne_none _).symm ?_ ?_
      · exact ⟨rfl, trivial⟩
      · refine Serves.ite (fun h => Bool.noConfusion h) fun _ => serves_orError ?_
        refine (hc.members .object _).bind (fun x r₁ hx => ?_) fun x r₁ _ he => ?_
        · refine Serves.ite (fun h => Bool.noConfusion (hx.symm.trans h)) fun _ => ?_
          exact parseElements_goes hn len k rfl
        · refine Sat.ite (fun _ => Hands.pure trivial) fun _ => ?_
          exact hands_failed he (Hands.pure trivial)
  | integer v e => exact hscalar CborItem.noConfusion
  | double v e => exact hscalar CborItem.noConfusion
  | boolean v e => exact hscalar CborItem.noConfusion
  | byteString s => exact hscalar CborItem.noConfusion
  | textString s => exact hscalar CborItem.noConfusion
  | array length => exact hscalar CborItem.noConfusion
  | tag => exact hscalar CborItem.noConfusion
  | other => exact hscalar CborItem.noConfusion
  | invalid => exact hscalar CborItem.noConfusion

/-! ## payloads -/

theorem asks (d : Bool) (v : CborValue) : Asks d v ∧ ∀ i e c a n, v = .item i e c a n →
    ∀ site r, Serves (parseMembers d site n) r (memberRequests d site n) (fun x => x.2 = false)
      fun _ => True := by
  induction v with
  | atEnd =>
    refine ⟨⟨fun name r => ?_, fun site r => Serves.pure rfl, fun _ _ _ _ => Serves.pure trivial⟩,
      fun _ _ _ _ _ h => CborValue.noConfusion h⟩
    exact serves_orError (Serves.pure OcRep.noConfusion)
  | item i enter content advance next ihc ihn =>
    refine ⟨⟨parseValue_serves ihc.1, parseMembers_serves ihn.1 ihn.2, ?_⟩, ?_⟩
    · exact fun len k cur r => parseElements_serves ihc.1 ihn.1 len k cur r
    · intro _ _ _ _ _ h
      obtain ⟨-, -, -, -, rfl⟩ := CborValue.item.inj h
      exact ihn.1.members

theorem parseObjects_serves (d : Bool) (v : CborValue) : ∀ r,
    Serves (parseObjects d v) r (objectRequests d v) (fun _ => True) fun _ => True := by
  induction v with
  | atEnd => exact fun r => Serves.pure trivial
  | item i enter content advance next _ ihn =>
    intro r
    have hobject : ∀ r, Serves (parseMembers d .root content >>= fun x =>
          let object := OcRep.node ocRepObject .none .none x.1 .null
          if x.2 then pure object else do
            if ← failed then return object
            orError advance
            let objects ← parseObjects d next
            return object.link objects) r
        (memberRequests d .root content ++ .test :: .error advance :: objectRequests d next)
        (fun _ => True) fun _ => True := by
      intro r
      refine ((asks d content).1.members .root r).bind (fun x r₁ hx => ?_) fun x r₁ _ he => ?_
      · refine Serves.ite (fun h => Bool.noConfusion (hx.symm.trans h)) fun _ => ?_
        refine serves_failed (fun he => Hands.pure trivial) fun _ => serves_orError ?_
        exact (ihn _).map (fun _ _ => trivial) fun _ _ => trivial
      · refine Sat.ite (fun _ => Hands.pure trivial) fun _ => ?_
        exact hands_failed he (Hands.pure trivial)
    unfold parseObjects
    refine Serves.ite (fun hi => ?_) fun hi => ?_
    · have hnil : objectRequests d (.item i enter content advance next) = [] := if_pos hi
      rw [hnil]
      exact Serves.pure trivial
    · have hrequests : objectRequests d (.item i enter content advance next) =
          .node none :: if i.isContainer then .error enter :: (memberRequests d .root content ++ .test ::
            .error advance :: objectRequests d next) else [.abort] := if_neg hi
      rw [hrequests]
      refine serves_allocRep (Option.some_ne_none _).symm ?_ ?_
      · exact ⟨rfl, trivial⟩
      · refine Serves.ite (fun h => Bool.noConfusion h) fun _ => ?_
        unfold enterContainer
        cases i.isContainer with
        | true => exact serves_orError (hobject _)
        | false => exact fun hf => Fault.noConfusion hf

theorem ocParseRep_serves (d : Bool) (init : CborError) (root : CborValue) (r : Run) :
    Serves (ocParseRep d init root) r (payloadRequests d init root) (fun _ => True) fun _ => True := by
  unfold ocParseRep payloadRequests
  refine serves_orError ?_
  cases root with
  | atEnd => exact Serves.pure trivial
  | item i enter content advance next =>
    cases i with
    | map =>
      refine serves_orError (((asks d content).1.members .root _).map ?_ ?_)
      · exact fun _ _ => trivial
      · exact fun _ _ => trivial
    | array length => exact serves_orError (parseObjects_serves d content _)
    | _ => exact Serves.pure trivial

/-- No node that is missing is written through, and a payload that needs more nodes than there are is
reported. -/
def Reported (needed : Nat) (left : Option Nat) : EStateM.Result Fault Run OcRep → Prop
  | .ok _ r => ∀ k, left = some k → k < needed → r.err = cborErrorOutOfMemory
  | .error f _ => f ≠ .nullWrite

/-- `{"a": {"b": 1}}` -/
def nestedMember : CborValue :=
  .item .map 0 (.item (keyItem 0x61) 0 .atEnd 0 (.item .map 0
    (.item (keyItem 0x62) 0 .atEnd 0 (.item (.integer 1 0) 0 .atEnd 0 .atEnd)) 0 .atEnd)) 0 .atEnd

end Payload
