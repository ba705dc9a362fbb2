import Iotivity.Payload.Release

/-!
# The kinds of the elements of an array

An element after the first one is refused if its code is not among the bits of the type of the array; the
codes share bits.  What the parser does with the error and with the blocks of arrays is a list of events,
made from the payload alone.

* `Event`, `play`     events, and how far a program gets with them;
* `payloadEvents`     those of a payload;
* `Follows`           a program that does what the events say, as long as there is memory;
* `Inside`            events that store into the blocks of their arrays;
* `mixed_arrays_iff`.
-/

namespace Payload
open Triple

/-! ## arrays of a payload -/

/-- the code of a kind; 0 for the items that are no element -/
def CborItem.code : CborItem → Nat
  | .integer _ _ => ocRepInt
  | .boolean _ _ => ocRepBool
  | .double _ _ => ocRepDouble
  | .byteString _ => ocRepByteString
  | .textString _ => ocRepString
  | .map => ocRepObject
  | _ => 0

/-- the items that an iterator comes to -/
def CborValue.heads : CborValue → List CborItem
  | .atEnd => []
  | .item i _ _ _ next => i :: next.heads

/-- the elements of the arrays that an iterator comes to, at any depth -/
def CborValue.arrays : CborValue → List (List CborItem)
  | .atEnd => []
  | .item i _ content _ next =>
    (match i with | .array _ => [content.heads] | _ => []) ++ content.arrays ++ next.arrays

/-- all elements are of one of the six kinds -/
def Uniform (items : List CborItem) : Prop :=
  ∀ i ∈ items, i.code ≠ 0 ∧ ∀ j ∈ items, i.code = j.code

instance (items : List CborItem) : Decidable (Uniform items) :=
  inferInstanceAs (Decidable (∀ i ∈ items, _))

/-- the item that an iterator is at, alone -/
def CborValue.alone : CborValue → CborValue
  | .atEnd => .atEnd
  | .item i enter content advance _ => .item i enter content advance .atEnd

/-- a payload has an array whose elements are not -/
def Mixed (root : CborValue) : Prop := ∃ items ∈ root.alone.arrays, ¬ Uniform items

instance (root : CborValue) : Decidable (Mixed root) :=
  inferInstanceAs (Decidable (∃ items ∈ _, _))

/-- the kinds that are taken for another one: the first element, and a later one -/
def confusions : List (Nat × Nat) :=
  [(ocRepBool, ocRepInt), (ocRepBool, ocRepDouble), (ocRepString, ocRepInt),
    (ocRepString, ocRepByteString), (ocRepObject, ocRepDouble), (ocRepObject, ocRepByteString)]

/-- the test of a later element -/
theorem mask_iff : ∀ first ∈ [1, 2, 3, 4, 5, 6], ∀ code ∈ [1, 2, 3, 4, 5, 6],
    ((first ||| ocRepArray) &&& code = code ↔ first = code ∨ (first, code) ∈ confusions) := by
  decide

/-! ## events -/

/-- * `error`   `*err |= e`;
* `test`    the function returns if there is an error, and so do its callers;
* `store`   a store of an element;
* `abort`   an assertion fails, of `oc_malloc` or of tinycbor. -/
inductive Event where
  | error (e : CborError)
  | test
  | store (s : Store)
  | abort

inductive Progress where
  | going
  | returned
  | aborted
deriving DecidableEq

/-- how far a program has got -/
structure Play where
  failed : Bool
  stores : List Store
  progress : Progress

def Play.step (p : Play) (e : Event) : Play :=
  match p.progress, e with
  | .going, .error e => { p with failed := p.failed || e != 0 }
  | .going, .test => if p.failed then { p with progress := .returned } else p
  | .going, .store s => { p with stores := p.stores ++ [s] }
  | .going, .abort => { p with progress := .aborted }
  | _, _ => p

def play (es : List Event) (p : Play) : Play := es.foldl Play.step p

theorem play_cons (e : Event) (es : List Event) (p : Play) : play (e :: es) p = play es (p.step e) :=
  rfl

theorem play_append (es es' : List Event) (p : Play) :
    play (es ++ es') p = play es' (play es p) := List.foldl_append

theorem step_of_not_going {p : Play} (h : p.progress ≠ .going) (e : Event) : p.step e = p := by
  unfold Play.step
  split <;> first | rfl | exact absurd ‹_› h

theorem play_of_not_going {p : Play} (h : p.progress ≠ .going) (es : List Event) : play es p = p := by
  induction es with
  | nil => rfl
  | cons e es ih => rw [play_cons, step_of_not_going h, ih]

theorem prefix_step (p : Play) (e : Event) : p.stores <+: (p.step e).stores := by
  unfold Play.step
  split
  · exact List.prefix_rfl
  · split <;> exact List.prefix_rfl
  · exact List.prefix_append _ _
  · exact List.prefix_rfl
  · exact List.prefix_rfl

theorem prefix_play (es : List Event) (p : Play) : p.stores <+: (play es p).stores := by
  induction es generalizing p with
  | nil => exact List.prefix_rfl
  | cons e es ih => exact (prefix_step p e).trans (ih _)

/-- what has been left with an error has an error -/
def Play.Fair (p : Play) : Prop := p.progress = .returned → p.failed = true

theorem fair_step {p : Play} (h : p.Fair) (e : Event) : (p.step e).Fair := by
  cases hp : p.progress with
  | returned => rwa [step_of_not_going (by rw [hp]; decide)]
  | aborted => rwa [step_of_not_going (by rw [hp]; decide)]
  | going =>
    obtain ⟨failed, stores, progress⟩ := p
    obtain rfl : progress = .going := hp
    cases e with
    | error e => exact fun hr => Progress.noConfusion hr
    | store s => exact fun hr => Progress.noConfusion hr
    | abort => exact fun hr => Progress.noConfusion hr
    | test =>
      cases failed with
      | true => exact fun _ => rfl
      | false => exact fun hr => Progress.noConfusion hr

theorem fair_play {p : Play} (h : p.Fair) (es : List Event) : (play es p).Fair := by
  induction es generalizing p with
  | nil => exact h
  | cons e es ih => exact ih (fair_step h e)

/-! ## the events of a payload -/

section
variable (d : Bool)

def illegal : List Event := [.error cborErrorIllegalType, .test]

/-- `oc_malloc`, where there is memory -/
def mallocEvents (bytes : Nat) : List Event := if bytes % 2^32 = 0 then [.abort] else []

/-- a text or byte string as a value -/
def stringEvents (s : CborString) : List Event :=
  let len := (s.length + 1) % 2^64
  .error s.lengthError :: .test :: if len = 0 then [] else mallocEvents len ++ [.error (s.copy len).1]

/-- one more element that is counted -/
def countEvents : CborValue → List Event
  | .atEnd => []
  | .item _ _ _ advance next => .test :: .error advance :: countEvents next

def lengthEvents (length : Option Nat) (content : CborValue) : List Event :=
  if length.getD 0 = 0 then countEvents content else []

/-- the number of elements that the block has room for -/
def elementCount (length : Option Nat) (content : CborValue) : Nat :=
  if length.getD 0 = 0 then content.heads.length else length.getD 0

/-- the bytes that are allocated if the first element is `i` -/
def blockOf (len : Nat) (i : CborItem) : Nat :=
  match i with
  | .integer _ _ => 4 * len
  | .double _ _ => 8 * len
  | .boolean _ _ => len
  | .byteString _ => len * stringArrayItemMaxLen d
  | .textString _ => len * stringArrayItemMaxLen d
  | _ => 0

/-- the type of the array behind the element at index `k` -/
def elementType (k type : Nat) (i : CborItem) : Nat :=
  if k = 0 ∧ i.code ≠ 0 then i.code ||| ocRepArray else type

def elementBlock (len k block : Nat) (i : CborItem) : Nat :=
  if k = 0 ∧ i.code ≠ 0 then blockOf d len i else block

/-- the block is allocated with the first element -/
def blockEvents (len k : Nat) (i : CborItem) : List Event :=
  if k = 0 ∧ i.code ≠ 0 then mallocEvents (blockOf d len i) else []

/-- the element goes to the place that its own kind has at this index -/
def writeEvents (block k : Nat) (i : CborItem) : List Event :=
  let item := stringArrayItemMaxLen d
  match i with
  | .integer _ e => [.store ⟨block, 4 * k, 4⟩, .error e]
  | .double _ e => [.store ⟨block, 8 * k, 8⟩, .error e]
  | .boolean _ e => [.store ⟨block, k, 1⟩, .error e]
  | .byteString s => [.error s.lengthError, .store ⟨block, k * item, 1⟩,
      .store ⟨block, k * item + 1, byteItemLength d s⟩, .error (s.copy (byteItemLength d s)).1]
  | .textString s => [.error s.lengthError, .store ⟨block, k * item, textItemLength d s⟩,
      .error (s.copy (textItemLength d s)).1]
  | _ => []

/-- `oc_parse_rep_value` goes on behind the key -/
def CborItem.moves : CborItem → Bool
  | .textString s => (s.length + 1) % 2^64 != 0
  | _ => false

/-- a key, with the events of the value -/
def keyEvents (key : CborItem) (advance : CborError) (value : List Event) : List Event :=
  match key with
  | .textString s =>
    let len := (s.length + 1) % 2^64
    .error s.lengthError :: .test :: if len = 0 then []
      else mallocEvents len ++ .error (s.copy len).1 :: .test :: .error advance :: value
  | _ => [.error cborErrorIllegalType]

mutual

/-- a value -/
def valueEvents : CborValue → List Event
  | .atEnd => [.error cborErrorIllegalType]
  | .item i enter content _ _ =>
    match i with
    | .integer _ e => [.error e]
    | .boolean _ e => [.error e]
    | .double _ e => [.error e]
    | .byteString s => stringEvents s
    | .textString s => stringEvents s
    | .map => .error enter :: memberEvents .property content
    | .array length => .error enter :: (lengthEvents length content ++
        elementEvents (elementCount length content) content 0 ocRepNil 0)
    | .invalid => [.error cborErrorIllegalType]
    | _ => []

/-- the members of a map; nobody comes behind the test if the key is refused -/
def memberEvents (site : Site) : CborValue → List Event
  | .atEnd => []
  | .item key _ _ advance rest =>
    if site = .root ∧ key matches .invalid then []
    else keyEvents key advance (valueEvents rest) ++ .test ::
      if key.moves then
        match rest with
        | .atEnd => []
        | .item _ _ _ advance next => .error advance :: memberEvents site next
      else .error advance :: memberEvents site rest

/-- the elements of an array, from index `k` on -/
def elementEvents (len : Nat) : CborValue → Nat → Nat → Nat → List Event
  | .atEnd, _, _, _ => []
  | .item i enter content advance next, k, type, block =>
    let type := elementType k type i
    let block := elementBlock d len k block i
    (if type &&& i.code ≠ i.code then illegal
      else match i with
        | .map => .error enter :: memberEvents .object content
        | _ => blockEvents d len k i ++ writeEvents d block k i) ++
      .test :: .error advance :: elementEvents len next (k + 1) type block

end

/-- the objects of a payload that is an array -/
def objectEvents : CborValue → List Event
  | .atEnd => []
  | .item i enter content advance next =>
    if i matches .invalid then []
    else if i.isContainer then
      .error enter :: (memberEvents d .root content ++ .test :: .error advance :: objectEvents next)
    else [.abort]

def payloadEvents (init : CborError) (root : CborValue) : List Event :=
  .error init :: match root with
    | .item .map enter content _ _ => .error enter :: memberEvents d .root content
    | .item (.array _) enter content _ _ => .error enter :: objectEvents d content
    | _ => []

end

/-! ## programs that follow events -/

/-- `OC_DYNAMIC_ALLOCATION`: there is always memory -/
def Pools.Unbounded (s : Pools) : Prop := s.repCapacity = none ∧ ∀ p, s.capacity p = none

/-- where a program stands -/
def Run.point (r : Run) : Play := ⟨r.err != 0, r.stores, .going⟩

variable {α β : Type}

/-- A program has returned `a`: it stands behind the events, or it has been given up at an error, for want
of memory or where the events say. -/
structure Went (u : Prop) (p : Play) (V N : α → Prop) (a : α) (r : Run) : Prop where
  pools : r.pools.Unbounded ↔ u
  run : p = r.point ∧ V a ∨ r.err ≠ 0 ∧ N a ∧ r.stores <+: p.stores ∧
    (u → p.progress = .returned ∧ r.stores = p.stores)

/-- a program has been stopped by a fault -/
structure Fell (u : Prop) (p : Play) (f : Fault) (r : Run) : Prop where
  stores : r.stores <+: p.stores
  aborted : u → p.progress = .aborted ∧ r.stores = p.stores

/-- the program follows the events; what it returns is `V` behind them, and `N` if it has been given up -/
def Follows (m : Parser α) (r : Run) (es : List Event) (V N : α → Prop) : Prop :=
  Sat m r (Went r.pools.Unbounded (play es r.point) V N) (Fell r.pools.Unbounded (play es r.point))

/-- the program returns with an error, and stores nothing -/
def Quits (m : Parser α) (r : Run) (N : α → Prop) : Prop :=
  Sat m r (fun a r' => r'.err ≠ 0 ∧ N a ∧ r'.stores = r.stores ∧
      (r'.pools.Unbounded ↔ r.pools.Unbounded))
    fun _ r' => ¬ r.pools.Unbounded ∧ r'.stores = r.stores

section
variable {m : Parser α} {f : α → Parser β} {r : Run} {es es' : List Event} {V N : α → Prop}
  {W M : β → Prop}

theorem Follows.pure {a : α} (h : V a) : Follows (Pure.pure a) r [] V N :=
  Sat.pure ⟨Iff.rfl, Or.inl ⟨rfl, h⟩⟩

theorem Quits.pure {a : α} (he : r.err ≠ 0) (h : N a) : Quits (Pure.pure a) r N :=
  Sat.pure ⟨he, h, rfl, Iff.rfl⟩

theorem Follows.ite {c : Prop} [Decidable c] {m' : Parser α} (ht : c → Follows m r es V N)
    (hf : ¬ c → Follows m' r es V N) : Follows (if c then m else m') r es V N :=
  Sat.ite ht hf

/-- One program after the other: the second one follows the rest of the events, and quits at an error. -/
theorem Follows.bind (hm : Follows m r es V N)
    (hgo : ∀ a r', V a → (r'.pools.Unbounded ↔ r.pools.Unbounded) → Follows (f a) r' es' W M)
    (hquit : ∀ a r', N a → r'.err ≠ 0 → (r'.pools.Unbounded ↔ r.pools.Unbounded) →
      Quits (f a) r' M) :
    Follows (m >>= f) r (es ++ es') W M := by
  unfold Follows
  rw [play_append]
  have hfell : ∀ g r', Fell r.pools.Unbounded (play es r.point) g r' →
      Fell r.pools.Unbounded (play es' (play es r.point)) g r' := by
    intro g r' h
    refine ⟨h.stores.trans (prefix_play es' _), fun hu => ?_⟩
    obtain ⟨hp, hs⟩ := h.aborted hu
    rw [play_of_not_going (by rw [hp]; decide)]
    exact ⟨hp, hs⟩
  refine Sat.bind (hm.imp (fun _ _ h => h) hfell) fun a r' h => ?_
  rcases h.run with ⟨hpoint, hv⟩ | ⟨herr, hn, hstores, hexact⟩
  · have h' := hgo a r' hv h.pools
    unfold Follows at h'
    rw [hpoint]
    refine h'.imp (fun b r'' hb => ?_) fun g r'' hg => ?_
    · exact ⟨hb.pools.trans h.pools, hb.run.imp id fun hb =>
        ⟨hb.1, hb.2.1, hb.2.2.1, fun hu => hb.2.2.2 (h.pools.mpr hu)⟩⟩
    · exact ⟨hg.stores, fun hu => hg.aborted (h.pools.mpr hu)⟩
  · have hpre : r'.stores <+: (play es' (play es r.point)).stores := hstores.trans (prefix_play es' _)
    refine (hquit a r' hn herr h.pools).imp (fun b r'' hb => ?_) fun g r'' hg => ?_
    · obtain ⟨hberr, hm, hsame, hpools⟩ := hb
      refine ⟨hpools.trans h.pools, Or.inr ⟨hberr, hm, by rw [hsame]; exact hpre, fun hu => ?_⟩⟩
      obtain ⟨hp, hs⟩ := hexact hu
      rw [play_of_not_going (by rw [hp]; decide), hsame]
      exact ⟨hp, hs⟩
    · exact ⟨by rw [hg.2]; exact hpre, fun hu => absurd (h.pools.mpr hu) hg.1⟩

/-- behind the last event -/
theorem Follows.last (hm : Follows m r es V N) (hgo : ∀ a r', V a → Follows (f a) r' [] W M)
    (hquit : ∀ a r', N a → r'.err ≠ 0 → Quits (f a) r' M) : Follows (m >>= f) r es W M := by
  have h := hm.bind (fun a r' ha _ => hgo a r' ha) fun a r' ha he _ => hquit a r' ha he
  rwa [List.append_nil] at h

/-- nothing but a result is made of what a program returns -/
theorem Follows.map {g : α → β} (hm : Follows m r es V N) (hv : ∀ a, V a → W (g a))
    (hn : ∀ a, N a → M (g a)) : Follows (m >>= fun a => Pure.pure (g a)) r es W M :=
  hm.last (fun a _ ha => Follows.pure (hv a ha)) fun a _ ha he => Quits.pure he (hn a ha)

/-- a program that gives up where the events say so -/
theorem Quits.follows (hm : Quits m r N) (hp : play es r.point = ⟨true, r.stores, .returned⟩) :
    Follows m r es V N := by
  refine hm.imp (fun a r' h => ?_) fun g r' h => ?_
  · obtain ⟨herr, hn, hsame, hpools⟩ := h
    rw [hp]
    exact ⟨hpools, Or.inr ⟨herr, hn, hsame ▸ List.prefix_rfl, fun _ => ⟨rfl, hsame⟩⟩⟩
  · rw [hp]
    exact ⟨h.2 ▸ List.prefix_rfl, fun hu => absurd hu h.1⟩

/-! ## rules for the steps -/

theorem or_bne_zero (a b : CborError) : (a ||| b != 0) = (a != 0 || b != 0) := by
  by_cases ha : a = 0
  · rw [ha, Nat.zero_or]
    rfl
  · have h : a ||| b ≠ 0 := fun h => ha (Nat.or_eq_zero_iff.mp h).1
    rw [bne_iff_ne.mpr h, bne_iff_ne.mpr ha]
    rfl

/-- a step that has its event -/
theorem Follows.cons {e : Event} {r₁ : Run} (h : Follows m r₁ es V N) (hp : r.point.step e = r₁.point)
    (hu : r₁.pools = r.pools) : Sat m r₁ (Went r.pools.Unbounded (play (e :: es) r.point) V N)
      (Fell r.pools.Unbounded (play (e :: es) r.point)) := by
  rw [play_cons, hp, ← hu]
  exact h

theorem follows_orError {f : Unit → Parser α} {e : CborError}
    (h : Follows (f ()) { r with err := r.err ||| e } es V N) :
    Follows (orError e >>= f) r (.error e :: es) V N := by
  refine sat_orError (h.cons ?_ rfl)
  show (⟨r.err != 0 || e != 0, r.stores, .going⟩ : Play) = ⟨r.err ||| e != 0, r.stores, .going⟩
  rw [or_bne_zero]

theorem follows_setError {f : Unit → Parser α} {e : CborError} (hr : r.err = 0 ∨ e ≠ 0)
    (h : Follows (f ()) { r with err := e } es V N) :
    Follows (setError e >>= f) r (.error e :: es) V N := by
  refine sat_setError (h.cons ?_ rfl)
  show (⟨r.err != 0 || e != 0, r.stores, .going⟩ : Play) = ⟨e != 0, r.stores, .going⟩
  rcases hr with hr | he
  · rw [hr]
    rfl
  · rw [bne_iff_ne.mpr he, Bool.or_true]

theorem follows_store {f : Unit → Parser α} {x : Store}
    (h : Follows (f ()) { r with stores := r.stores ++ [x] } es V N) :
    Follows (store x >>= f) r (.store x :: es) V N :=
  sat_store (h.cons rfl rfl)

/-- the test of the error -/
theorem follows_failed {f : Bool → Parser α} (hquit : r.err ≠ 0 → Quits (f true) r N)
    (hgo : r.err = 0 → Follows (f false) r es V N) :
    Follows (failed >>= f) r (.test :: es) V N := by
  by_cases hr : r.err = 0
  · refine sat_failed ?_
    rw [hr]
    refine (hgo hr).cons ?_ rfl
    show (if (r.err != 0) = true then _ else r.point) = r.point
    rw [hr]
    rfl
  · have hb : (r.err != 0) = true := bne_iff_ne.mpr hr
    refine Quits.follows (sat_failed ?_) ?_
    · rw [hb]
      exact hquit hr
    · rw [play_cons]
      have hstep : r.point.step .test = ⟨true, r.stores, .returned⟩ := by
        show (if (r.err != 0) = true then (⟨r.err != 0, r.stores, .returned⟩ : Play) else _) = _
        rw [hb]
        rfl
      rw [hstep, play_of_not_going fun h => Progress.noConfusion h]

theorem quits_failed {f : Bool → Parser α} (hr : r.err ≠ 0) (h : Quits (f true) r N) :
    Quits (failed >>= f) r N := by
  refine sat_failed ?_
  rw [bne_iff_ne.mpr hr]
  exact h

/-- an element or a key is refused -/
theorem follows_refused {f : Unit → Parser α}
    (h : Quits (f ()) { r with err := r.err ||| cborErrorIllegalType } N) :
    Follows (orError cborErrorIllegalType >>= f) r (illegal ++ es) V N := by
  refine Quits.follows (sat_orError h) ?_
  rw [play_append]
  have hplay : play illegal r.point = ⟨true, r.stores, .returned⟩ := by
    show Play.step ⟨r.err != 0 || true, r.stores, .going⟩ .test = _
    rw [Bool.or_true]
    rfl
  rw [hplay, play_of_not_going fun h => Progress.noConfusion h]

theorem follows_allocRep {f : Bool → Parser α} (hno : ¬ r.pools.Unbounded → Quits (f false) r N)
    (hyes : Follows (f true) { r with pools := { r.pools with reps := r.pools.reps + 1 } } es V N) :
    Follows (allocRep >>= f) r es V N := by
  have halloc := allocRep_eq r
  split at halloc
  · rename_i hfull
    have hu : ¬ r.pools.Unbounded := fun h => by rw [h.1] at hfull; cases hfull
    refine Sat.bind_ok halloc ((hno hu).imp (fun a r' h => ?_) fun g r' h => ?_)
    · obtain ⟨herr, hn, hsame, hpools⟩ := h
      refine ⟨hpools, Or.inr ⟨herr, hn, ?_, fun h => absurd h hu⟩⟩
      rw [hsame]
      exact prefix_play es r.point
    · refine ⟨?_, fun h => absurd h hu⟩
      rw [h.2]
      exact prefix_play es r.point
  · exact Sat.bind_ok halloc hyes

theorem follows_ocMalloc {f : Unit → Parser α} {p : Pool} {n bytes : Nat} (hbytes : p.width * n = bytes)
    (hyes : Follows (f ()) { r with pools := r.pools.take p n } es V N) :
    Follows (ocMalloc p n >>= f) r (mallocEvents bytes ++ es) V N := by
  have halloc := ocMalloc_eq p n r
  rw [hbytes] at halloc
  unfold mallocEvents
  by_cases hzero : bytes % 2^32 = 0
  · rw [if_pos (Or.inl hzero)] at halloc
    rw [if_pos hzero]
    have hplay : play ([.abort] ++ es) r.point = ⟨r.err != 0, r.stores, .aborted⟩ :=
      play_of_not_going (fun h => Progress.noConfusion h) es
    refine Sat.bind_error halloc ⟨prefix_play _ r.point, fun _ => ?_⟩
    rw [hplay]
    exact ⟨rfl, rfl⟩
  · rw [if_neg hzero]
    by_cases hfull : (r.pools.capacity p).any (· < r.pools.units p + n)
    · rw [if_pos (Or.inr hfull)] at halloc
      have hu : ¬ r.pools.Unbounded := by
        intro h
        rw [h.2 p] at hfull
        exact Bool.noConfusion hfull
      exact Sat.bind_error halloc ⟨prefix_play es r.point, fun h => absurd h hu⟩
    · rw [if_neg fun h => h.elim hzero hfull] at halloc
      exact Sat.bind_ok halloc hyes

/-- behind a property: its node is there, if there is memory -/
theorem follows_leaveMembers {site : Site} {rep : OcRep} {f : Bool → Parser α} (hrep : rep ≠ .null)
    (hquit : ∀ cut, r.err ≠ 0 → Quits (f true) { r with cut := cut } N)
    (hgo : ∀ cut, r.err = 0 → Follows (f false) { r with cut := cut } es V N) :
    Follows (leaveMembers site rep >>= f) r (.test :: es) V N := by
  have hplain : Follows (failed >>= f) r (.test :: es) V N :=
    follows_failed (hquit r.cut) (hgo r.cut)
  cases site with
  | root => exact hplain
  | object => exact hplain
  | property =>
    cases rep with
    | null => exact absurd rfl hrep
    | node =>
      have h : Follows (failed >>= f) { r with cut := r.cut || r.err != 0 } (.test :: es) V N :=
        follows_failed (hquit _) (hgo _)
      exact h

theorem quits_leaveMembers {site : Site} {rep : OcRep} {f : Bool → Parser α} (hr : r.err ≠ 0)
    (hrep : r.pools.Unbounded → rep ≠ .null) (h : ∀ cut, Quits (f true) { r with cut := cut } N) :
    Quits (leaveMembers site rep >>= f) r N := by
  cases site with
  | root => exact quits_failed hr (h r.cut)
  | object => exact quits_failed hr (h r.cut)
  | property =>
    cases rep with
    | null => exact ⟨fun hu => hrep hu rfl, rfl⟩
    | node =>
      have hq : Quits (failed >>= f) { r with cut := r.cut || r.err != 0 } N := quits_failed hr (h _)
      exact hq

end

/-! ## strings and lengths -/

variable {r : Run} {d : Bool}

theorem parseString_follows (s : CborString) :
    Follows (parseString s) r (stringEvents s) (fun _ => True) fun _ => True := by
  unfold parseString stringEvents
  refine follows_orError (follows_failed (fun he => ?_) fun _ => ?_)
  · rw [if_pos (Or.inl rfl)]
    exact Quits.pure he trivial
  · by_cases hlen : (s.length + 1) % 2^64 = 0
    · rw [if_pos (Or.inr hlen), if_pos hlen]
      exact Follows.pure trivial
    · rw [if_neg fun h => h.elim Bool.noConfusion hlen, if_neg hlen]
      exact follows_ocMalloc (Nat.one_mul _) (follows_orError (Follows.pure trivial))

theorem countElements_follows (v : CborValue) : ∀ (len : Nat) (r : Run),
    Follows (countElements v len) r (countEvents v) (fun x => x = some (len + v.heads.length))
      fun x => x = none := by
  induction v with
  | atEnd => exact fun len r => Follows.pure rfl
  | item i enter content advance next _ ih =>
    intro len r
    unfold countElements
    refine follows_failed (fun he => Quits.pure he rfl) fun hr => follows_setError (Or.inl hr) ?_
    have h := ih (len + 1) { r with err := advance }
    have hlen : len + 1 + next.heads.length =
        len + (CborValue.item i enter content advance next).heads.length := by
      show _ = len + (next.heads.length + 1)
      omega
    rw [hlen] at h
    exact h

theorem arrayLength_follows (length : Option Nat) (v : CborValue) :
    Follows (arrayLength length v) r (lengthEvents length v)
      (fun x => x = some (elementCount length v)) fun x => x = none := by
  unfold arrayLength lengthEvents elementCount
  by_cases h : length.getD 0 = 0
  · rw [if_pos h, if_pos h, if_pos h]
    have hcount := countElements_follows v 0 r
    rwa [Nat.zero_add] at hcount
  · rw [if_neg h, if_neg h, if_neg h]
    refine Follows.pure ?_
    cases length with
    | none => exact absurd rfl h
    | some n => rfl

/-! ## elements -/

theorem block_array (p : Pool) (n : Nat) (elements : List (Nat × CborItem)) :
    (RepValue.array p n elements).block = p.width * n := by
  cases p with
  | byte => exact (Nat.one_mul n).symm
  | int => rfl
  | double => rfl

theorem block_put (v : RepValue) (k : Nat) (i : CborItem) : (v.put k i).block = v.block := by
  cases v with
  | array p _ _ => cases p <;> rfl
  | _ => rfl

/-- what an element leaves of the type and the block of the array -/
def Opened (d : Bool) (len k : Nat) (i : CborItem) (cur : Cur) (x : Option Cur) : Prop :=
  ∃ cur', x = some cur' ∧ cur'.type = elementType k cur.type i ∧
    cur'.value.block = elementBlock d len k cur.value.block i

/-- the events of an element that is no map -/
def scalarEvents (d : Bool) (len k : Nat) (i : CborItem) (cur : Cur) : List Event :=
  if elementType k cur.type i &&& i.code ≠ i.code then illegal
  else blockEvents d len k i ++ writeEvents d (elementBlock d len k cur.value.block i) k i

/-- the first element passes the test, too -/
theorem or_and_self (a b : Nat) : (a ||| b) &&& a = a := by
  refine Nat.eq_of_testBit_eq fun n => ?_
  rw [Nat.testBit_and, Nat.testBit_or]
  cases a.testBit n <;> cases b.testBit n <;> rfl

theorem openArray_follows {len k units : Nat} {i : CborItem} {pool : Pool} {cur : Cur}
    (hcode : i.code ≠ 0)
    (hblock : (RepValue.array pool units []).block = blockOf d len i) :
    Follows (openArray i.code pool units k cur) r
      (if elementType k cur.type i &&& i.code ≠ i.code then illegal else blockEvents d len k i)
      (fun x => Opened d len k i cur x ∧ elementType k cur.type i &&& i.code = i.code)
      fun x => x = none := by
  unfold openArray
  by_cases hk : k = 0
  · have htype : elementType k cur.type i = i.code ||| ocRepArray := if_pos ⟨hk, hcode⟩
    have hb : elementBlock d len k cur.value.block i = blockOf d len i := if_pos ⟨hk, hcode⟩
    have hevents : blockEvents d len k i = mallocEvents (blockOf d len i) ++ [] :=
      (if_pos ⟨hk, hcode⟩).trans (List.append_nil _).symm
    rw [if_pos hk, if_neg (not_not_intro (htype ▸ or_and_self _ _)), hevents]
    refine follows_ocMalloc ((block_array _ _ _).symm.trans hblock) (Follows.pure ⟨?_, ?_⟩)
    · exact ⟨_, rfl, htype.symm, hblock.trans hb.symm⟩
    · rw [htype]
      exact or_and_self _ _
  · have htype : elementType k cur.type i = cur.type := if_neg fun h => hk h.1
    have hb : elementBlock d len k cur.value.block i = cur.value.block := if_neg fun h => hk h.1
    rw [if_neg hk, htype]
    by_cases hm : cur.type &&& i.code ≠ i.code
    · rw [if_pos hm, if_pos hm, ← List.append_nil illegal]
      refine follows_refused (Quits.pure ?_ rfl)
      exact fun h => absurd (Nat.or_eq_zero_iff.mp h).2 (by decide)
    · have hevents : blockEvents d len k i = [] := if_neg fun h => hk h.1
      rw [if_neg hm, if_neg hm, hevents]
      exact Follows.pure ⟨⟨cur, rfl, htype.symm, hb.symm⟩, Decidable.not_not.mp hm⟩

theorem putElement_follows {len k units : Nat} {i : CborItem} {pool : Pool} {cur : Cur}
    {write : Nat → Parser Unit} (hcode : i.code ≠ 0)
    (hblock : (RepValue.array pool units []).block = blockOf d len i)
    (hwrite : ∀ block r, Follows (write block) r (writeEvents d block k i) (fun _ => True) fun _ => False) :
    Follows (putElement i.code pool units k i cur write) r (scalarEvents d len k i cur)
      (Opened d len k i cur) fun _ => True := by
  have hevents : scalarEvents d len k i cur =
      (if elementType k cur.type i &&& i.code ≠ i.code then illegal else blockEvents d len k i) ++
        if elementType k cur.type i &&& i.code ≠ i.code then []
        else writeEvents d (elementBlock d len k cur.value.block i) k i := by
    unfold scalarEvents
    split
    · exact (List.append_nil _).symm
    · rfl
  rw [hevents]
  refine (openArray_follows hcode hblock).bind (fun x r' hx _ => ?_) fun x r' hx he _ => ?_
  · obtain ⟨⟨cur', rfl, ht, hb⟩, hm⟩ := hx
    rw [if_neg (not_not_intro hm), ← hb]
    refine (hwrite _ r').map (fun _ _ => ⟨_, rfl, ht, ?_⟩) fun _ h => h.elim
    exact (block_put _ k i).trans hb
  · rw [hx]
    exact Quits.pure he trivial

theorem item_pos (d : Bool) : 0 < stringArrayItemMaxLen d := by cases d <;> decide

theorem parseScalar_follows (len k : Nat) {i : CborItem} (hi : i ≠ .map)
    (cur : Cur) : Follows (parseScalar d len k i cur) r (scalarEvents d len k i cur)
      (Opened d len k i cur) fun _ => True := by
  have hother : i.code = 0 → writeEvents d (elementBlock d len k cur.value.block i) k i = [] →
      Follows (pure (some cur)) r (scalarEvents d len k i cur) (Opened d len k i cur)
        fun _ => True := by
    intro hcode hw
    have htype : elementType k cur.type i = cur.type := if_neg fun h => h.2 hcode
    have hb : elementBlock d len k cur.value.block i = cur.value.block := if_neg fun h => h.2 hcode
    unfold scalarEvents
    have hevents : blockEvents d len k i = [] := if_neg fun h => h.2 hcode
    rw [hcode, Nat.and_zero, if_neg (not_not_intro rfl), hw, hevents]
    exact Follows.pure ⟨cur, rfl, htype.symm, hb.symm⟩
  unfold parseScalar
  cases i with
  | map => exact absurd rfl hi
  | integer v e =>
    refine putElement_follows (i := .integer v e) (Nat.succ_ne_zero _) rfl fun _ _ => ?_
    exact follows_store (follows_orError (Follows.pure trivial))
  | double v e =>
    refine putElement_follows (i := .double v e) (Nat.succ_ne_zero _) rfl fun _ _ => ?_
    exact follows_store (follows_orError (Follows.pure trivial))
  | boolean v e =>
    refine putElement_follows (i := .boolean v e) (Nat.succ_ne_zero _) rfl fun _ _ => ?_
    exact follows_store (follows_orError (Follows.pure trivial))
  | byteString s =>
    refine putElement_follows (i := .byteString s) (Nat.succ_ne_zero _) rfl fun _ _ => ?_
    exact follows_orError (follows_store (follows_store (follows_orError (Follows.pure trivial))))
  | textString s =>
    refine putElement_follows (i := .textString s) (Nat.succ_ne_zero _) rfl fun _ _ => ?_
    exact follows_orError (follows_store (follows_orError (Follows.pure trivial)))
  | array length => exact hother rfl rfl
  | tag => exact hother rfl rfl
  | other => exact hother rfl rfl
  | invalid => exact hother rfl rfl

/-! ## keys -/

theorem parseKey_follows (key : CborItem) (advance : CborError) {value : OcString → Parser OcRep}
    {es : List Event}
    (hv : ∀ name r, Follows (value name) r es (fun rep => rep ≠ .null) fun rep => rep ≠ .null) :
    Follows (parseKey key advance value) r (keyEvents key advance es)
      (fun p => p.rep ≠ .null ∧ p.moved = key.moves)
      fun p => r.pools.Unbounded → p.rep ≠ .null := by
  have hblank : OcRep.blank ≠ .null := OcRep.noConfusion
  unfold parseKey keyEvents
  refine follows_allocRep (fun hu => ?_) ?_
  · exact ⟨show cborErrorOutOfMemory ≠ 0 by decide, fun h => absurd h hu, rfl, Iff.rfl⟩
  · rw [if_neg (by decide)]
    cases key with
    | textString s =>
      refine follows_orError (follows_failed (fun he => ?_) fun _ => ?_)
      · rw [if_pos (Or.inl rfl)]
        exact Quits.pure he fun _ => hblank
      · by_cases hlen : (s.length + 1) % 2^64 = 0
        · rw [if_pos (Or.inr hlen), if_pos hlen]
          exact Follows.pure ⟨hblank, (bne_eq_false_iff_eq.mpr hlen).symm⟩
        · rw [if_neg fun h => h.elim Bool.noConfusion hlen, if_neg hlen]
          refine follows_ocMalloc (Nat.one_mul _) (follows_orError (follows_failed ?_ fun _ => ?_))
          · exact fun he => Quits.pure he fun _ => OcRep.noConfusion
          · refine follows_orError ((hv _ _).map (fun rep h => ⟨h, ?_⟩) fun rep h _ => h)
            exact (bne_iff_ne.mpr hlen).symm
    | _ => exact follows_setError (Or.inr (by decide)) (Follows.pure ⟨hblank, rfl⟩)

/-! ## the parser -/

/-- what the three loops do from an iterator on -/
structure Traced (d : Bool) (v : CborValue) : Prop where
  value : ∀ name r, Follows (parseValue d name v) r (valueEvents d v) (fun rep => rep ≠ .null)
    fun rep => rep ≠ .null
  members : ∀ site r, Follows (parseMembers d site v) r (memberEvents d site v) (fun x => x.2 = false)
    fun _ => True
  elements : ∀ len k cur r, (k = 0 → cur.value.block = 0) →
    Follows (parseElements d len v k cur) r (elementEvents d len v k cur.type cur.value.block)
      (fun _ => True) fun _ => True

variable {i : CborItem} {enter advance : CborError} {content next : CborValue}

theorem parseValue_follows (hc : Traced d content) (name : OcString) (r : Run) :
    Follows (parseValue d name (.item i enter content advance next)) r
      (valueEvents d (.item i enter content advance next)) (fun rep => rep ≠ .null)
      fun rep => rep ≠ .null := by
  have hnode : ∀ {type value object}, OcRep.node type name value object .null ≠ .null :=
    OcRep.noConfusion
  unfold parseValue valueEvents
  cases i with
  | integer v e => exact follows_orError (Follows.pure hnode)
  | boolean v e => exact follows_orError (Follows.pure hnode)
  | double v e => exact follows_orError (Follows.pure hnode)
  | byteString s =>
    refine (parseString_follows s).last (fun v r' _ => ?_) fun v r' _ he => ?_
    · cases v <;> exact Follows.pure hnode
    · cases v <;> exact Quits.pure he hnode
  | textString s =>
    refine (parseString_follows s).last (fun v r' _ => ?_) fun v r' _ he => ?_
    · cases v <;> exact Follows.pure hnode
    · cases v <;> exact Quits.pure he hnode
  | map =>
    exact follows_orError ((hc.members .property _).map (fun _ _ => hnode) fun _ _ => hnode)
  | array length =>
    refine follows_orError ((arrayLength_follows length content).bind (fun x r' hx _ => ?_)
      fun x r' hx he _ => ?_)
    · rw [hx]
      exact (hc.elements _ 0 ⟨ocRepNil, .none, []⟩ r' fun _ => rfl).map (fun _ _ => hnode)
        fun _ _ => hnode
    · rw [hx]
      exact Quits.pure he hnode
  | invalid => exact follows_orError (Follows.pure hnode)
  | tag => exact Follows.pure hnode
  | other => exact Follows.pure hnode

theorem memberEvents_stop {site : Site} (h : site = .root ∧ (i matches .invalid) = true) :
    memberEvents d site (.item i enter content advance next) = [] := by
  unfold memberEvents
  exact if_pos h

theorem memberEvents_key {site : Site} (h : ¬ (site = .root ∧ (i matches .invalid) = true)) :
    memberEvents d site (.item i enter content advance next) =
      keyEvents i advance (valueEvents d next) ++ .test ::
        if i.moves then
          match next with
          | .atEnd => []
          | .item _ _ _ advance next => .error advance :: memberEvents d site next
        else .error advance :: memberEvents d site next := by
  rw [memberEvents.eq_def]
  exact if_neg h

theorem parseMembers_follows (hn : Traced d next)
    (hnn : ∀ i e c a n, next = .item i e c a n → ∀ site r, Follows (parseMembers d site n) r
      (memberEvents d site n) (fun x => x.2 = false) fun _ => True)
    (site : Site) (r : Run) :
    Follows (parseMembers d site (.item i enter content advance next)) r
      (memberEvents d site (.item i enter content advance next)) (fun x => x.2 = false)
      fun _ => True := by
  unfold parseMembers
  refine Follows.ite (fun hroot => ?_) fun hroot => ?_
  · rw [memberEvents_stop hroot]
    exact Follows.pure rfl
  rw [memberEvents_key hroot]
  refine (parseKey_follows i advance fun name r => hn.value name r).bind (fun p r₁ hp _ => ?_)
    fun p r₁ hp he hu => ?_
  · obtain ⟨hrep, hmoved⟩ := hp
    refine follows_leaveMembers hrep (fun cut he => ?_) fun cut _ => ?_
    · exact Quits.pure he trivial
    · rw [if_neg (by decide), hmoved]
      cases hm : i.moves with
      | true =>
        rw [if_pos rfl, if_pos rfl]
        cases hnext : next with
        | atEnd => exact Follows.pure rfl
        | item i' e' c' a' n' =>
          exact follows_orError ((hnn _ _ _ _ _ hnext site _).map (fun _ h => h) fun _ h => h)
      | false =>
        rw [if_neg (by decide), if_neg (by decide)]
        exact follows_orError ((hn.members site _).map (fun _ h => h) fun _ h => h)
  · exact quits_leaveMembers he (fun h => hp (hu.mp h)) fun cut => Quits.pure he trivial

/-- an element that is no object -/
theorem parseElements_item {i : CborItem} (hi : i ≠ .map) (len k : Nat) (cur : Cur) :
    parseElements d len (.item i enter content advance next) k cur =
      (parseScalar d len k i cur >>= fun x => match x with
        | none => pure cur
        | some cur => do
          if ← failed then return cur
          orError advance
          parseElements d len next (k + 1) cur) := by
  conv => lhs; unfold parseElements
  cases i with
  | map => exact absurd rfl hi
  | integer v e => rfl
  | double v e => rfl
  | boolean v e => rfl
  | byteString s => rfl
  | textString s => rfl
  | array length => rfl
  | tag => rfl
  | other => rfl
  | invalid => rfl

/-- behind an element -/
theorem parseElements_next (hn : Traced d next) {len k : Nat} {cur : Cur} {r : Run}
    {type block : Nat} (htype : cur.type = type) (hblock : cur.value.block = block) :
    Follows (failed >>= fun b => if b then pure cur else do
        orError advance
        parseElements d len next (k + 1) cur) r
      (.test :: .error advance :: elementEvents d len next (k + 1) type block) (fun _ => True)
      fun _ => True := by
  rw [← htype, ← hblock]
  refine follows_failed (fun he => Quits.pure he trivial) fun _ => follows_orError ?_
  exact hn.elements len (k + 1) cur _ fun h => absurd h (Nat.succ_ne_zero k)

/-- an object that is the first element sets the type of the array, and no value -/
theorem exists_objectCur (k : Nat) (cur : Cur) : ∃ cur' : Cur,
    (if k = 0 then { cur with type := ocRepObject ||| ocRepArray } else cur) = cur' ∧
      cur'.type = elementType k cur.type .map ∧ cur'.value = cur.value := by
  refine ⟨_, rfl, ?_⟩
  by_cases h0 : k = 0
  · rw [if_pos h0]
    exact ⟨(if_pos ⟨h0, Nat.succ_ne_zero 5⟩).symm, rfl⟩
  · rw [if_neg h0]
    exact ⟨(if_neg fun h => h0 h.1).symm, rfl⟩

theorem parseElements_follows (hc : Traced d content) (hn : Traced d next) (len k : Nat) (cur : Cur)
    (hk : k = 0 → cur.value.block = 0) (r : Run) :
    Follows (parseElements d len (.item i enter content advance next) k cur) r
      (elementEvents d len (.item i enter content advance next) k cur.type cur.value.block)
      (fun _ => True) fun _ => True := by
  have hscalar : i ≠ .map → Follows (parseElements d len (.item i enter content advance next) k cur) r
      (scalarEvents d len k i cur ++ .test :: .error advance :: elementEvents d len next (k + 1)
        (elementType k cur.type i) (elementBlock d len k cur.value.block i)) (fun _ => True)
      fun _ => True := by
    intro hi
    rw [parseElements_item hi]
    refine (parseScalar_follows len k hi cur).bind (fun x r' hx _ => ?_) fun x r' _ he _ => ?_
    · obtain ⟨cur', rfl, htype, hblock⟩ := hx
      exact parseElements_next hn htype hblock
    · cases x with
      | none => exact Quits.pure he trivial
      | some cur' => exact quits_failed he (Quits.pure he trivial)
  unfold elementEvents
  cases i with
  | map =>
    unfold parseElements
    obtain ⟨cur', hcur, htype, hvalue⟩ := exists_objectCur k cur
    have hblock : cur'.value.block = elementBlock d len k cur.value.block .map := by
      rw [hvalue]
      unfold elementBlock
      split
      · rename_i h
        exact hk h.1
      · rfl
    show Follows (let cur := if k = 0 then { cur with type := ocRepObject ||| ocRepArray } else cur; _) r
      ((if elementType k cur.type .map &&& ocRepObject ≠ ocRepObject then illegal
        else .error enter :: memberEvents d .object content) ++ .test :: .error advance ::
          elementEvents d len next (k + 1) (elementType k cur.type .map)
            (elementBlock d len k cur.value.block .map)) _ _
    rw [hcur, ← htype]
    refine Follows.ite (fun hm => ?_) fun hm => ?_
    · rw [if_pos hm]
      refine follows_refused (Quits.pure ?_ trivial)
      exact fun h => absurd (Nat.or_eq_zero_iff.mp h).2 (by decide)
    · rw [if_neg hm]
      refine follows_allocRep (fun _ => ?_) ?_
      · exact ⟨show cborErrorOutOfMemory ≠ 0 by decide, trivial, rfl, Iff.rfl⟩
      · refine Follows.ite (fun h => Bool.noConfusion h) fun _ => follows_orError ?_
        refine (hc.members .object _).bind (fun x r₁ hx _ => ?_) fun x r₁ _ he _ => ?_
        · refine Follows.ite (fun h => Bool.noConfusion (hx.symm.trans h)) fun _ => ?_
          exact parseElements_next hn rfl hblock
        · refine Sat.ite (fun _ => Quits.pure he trivial) fun _ => ?_
          exact quits_failed he (Quits.pure he trivial)
  | integer v e => exact hscalar CborItem.noConfusion
  | double v e => exact hscalar CborItem.noConfusion
  | boolean v e => exact hscalar CborItem.noConfusion
  | byteString s => exact hscalar CborItem.noConfusion
  | textString s => exact hscalar CborItem.noConfusion
  | array length => exact hscalar CborItem.noConfusion
  | tag => exact hscalar CborItem.noConfusion
  | other => exact hscalar CborItem.noConfusion
  | invalid => exact hscalar CborItem.noConfusion

/-! ## payloads -/

theorem traced (d : Bool) (v : CborValue) : Traced d v ∧ ∀ i e c a n, v = .item i e c a n →
    ∀ site r, Follows (parseMembers d site n) r (memberEvents d site n) (fun x => x.2 = false)
      fun _ => True := by
  induction v with
  | atEnd =>
    refine ⟨⟨fun name r => ?_, fun site r => Follows.pure rfl, fun _ _ _ _ _ => ?_⟩,
      fun _ _ _ _ _ h => CborValue.noConfusion h⟩
    · exact follows_orError (Follows.pure OcRep.noConfusion)
    · exact Follows.pure trivial
  | item i enter content advance next ihc ihn =>
    refine ⟨⟨parseValue_follows ihc.1, parseMembers_follows ihn.1 ihn.2, ?_⟩, ?_⟩
    · exact fun len k cur r hk => parseElements_follows ihc.1 ihn.1 len k cur hk r
    · intro _ _ _ _ _ h
      obtain ⟨-, -, -, -, rfl⟩ := CborValue.item.inj h
      exact ihn.1.members

theorem parseObjects_follows (d : Bool) (v : CborValue) : ∀ r,
    Follows (parseObjects d v) r (objectEvents d v) (fun _ => True) fun _ => True := by
  induction v with
  | atEnd => exact fun r => Follows.pure trivial
  | item i enter content advance next _ ihn =>
    intro r
    have hobject : ∀ r, Follows (parseMembers d .root content >>= fun x =>
          let object := OcRep.node ocRepObject .none .none x.1 .null
          if x.2 then pure object else do
            if ← failed then return object
            orError advance
            let objects ← parseObjects d next
            return object.link objects) r
        (memberEvents d .root content ++ .test :: .error advance :: objectEvents d next)
        (fun _ => True) fun _ => True := by
      intro r
      refine ((traced d content).1.members .root r).bind (fun x r₁ hx _ => ?_) fun x r₁ _ he _ => ?_
      · refine Follows.ite (fun h => Bool.noConfusion (hx.symm.trans h)) fun _ => ?_
        refine follows_failed (fun he => Quits.pure he trivial) fun _ => follows_orError ?_
        exact (ihn _).map (fun _ _ => trivial) fun _ _ => trivial
      · refine Sat.ite (fun _ => Quits.pure he trivial) fun _ => ?_
        exact quits_failed he (Quits.pure he trivial)
    unfold parseObjects
    refine Follows.ite (fun hi => ?_) fun hi => ?_
    · have hnil : objectEvents d (.item i enter content advance next) = [] := if_pos hi
      rw [hnil]
      exact Follows.pure trivial
    · have hevents : objectEvents d (.item i enter content advance next) =
          if i.isContainer then .error enter :: (memberEvents d .root content ++ .test ::
            .error advance :: objectEvents d next) else [.abort] := if_neg hi
      rw [hevents]
      refine follows_allocRep (fun _ => ?_) ?_
      · exact ⟨show cborErrorOutOfMemory ≠ 0 by decide, trivial, rfl, Iff.rfl⟩
      · refine Follows.ite (fun h => Bool.noConfusion h) fun _ => ?_
        unfold enterContainer
        cases i.isContainer with
        | true => exact follows_orError (hobject _)
        | false => exact ⟨List.prefix_rfl, fun _ => ⟨rfl, rfl⟩⟩

theorem ocParseRep_follows (d : Bool) (init : CborError) (root : CborValue) (r : Run) :
    Follows (ocParseRep d init root) r (payloadEvents d init root) (fun _ => True) fun _ => True := by
  unfold ocParseRep payloadEvents
  refine follows_orError ?_
  cases root with
  | atEnd => exact Follows.pure trivial
  | item i enter content advance next =>
    cases i with
    | map =>
      refine follows_orError (((traced d content).1.members .root _).map ?_ ?_)
      · exact fun _ _ => trivial
      · exact fun _ _ => trivial
    | array length => exact follows_orError (parseObjects_follows d content _)
    | _ => exact Follows.pure trivial

/-- how far `oc_parse_rep` gets with a payload if there is memory -/
def played (d : Bool) (init : CborError) (root : CborValue) : Play :=
  play (payloadEvents d init root) ⟨false, [], .going⟩

theorem parse_follows (d : Bool) (init : CborError) (root : CborValue) (pools : Pools) :
    match parse d init root pools with
    | .ok _ r => Went pools.Unbounded (played d init root) (fun _ => True) (fun _ => True) () r
    | .error f r => Fell pools.Unbounded (played d init root) f r := by
  have h := ocParseRep_follows d init root ⟨0, pools, [], false⟩
  have hparse : parse d init root pools = ocParseRep d init root ⟨0, pools, [], false⟩ := rfl
  unfold Follows Sat at h
  rw [← hparse] at h
  cases hres : parse d init root pools with
  | ok rep r =>
    rw [hres] at h
    exact ⟨h.pools, h.run⟩
  | error f r =>
    rw [hres] at h
    exact h

/-- An array of several kinds is refused, and all stores are inside. -/
def Strict (root : CborValue) : EStateM.Result Fault Run OcRep → Prop
  | .ok _ r => (Mixed root → r.err ≠ 0) ∧ ∀ s ∈ r.stores, s.Inside
  | .error _ r => ∀ s ∈ r.stores, s.Inside

/-- The events refuse an array of several kinds, and store inside. -/
def Play.Strict (root : CborValue) (p : Play) : Prop :=
  (Mixed root → p.failed = true ∨ p.progress = .aborted) ∧ ∀ s ∈ p.stores, s.Inside

/-- what `OC_DYNAMIC_ALLOCATION` starts with -/
def dynamicPools : Pools := ⟨none, fun _ => none, 0, fun _ => 0, fun _ => 0⟩

theorem unbounded_dynamicPools : dynamicPools.Unbounded := ⟨rfl, fun _ => rfl⟩

theorem strict_of_played {d : Bool} {init : CborError} {root : CborValue}
    (h : (played d init root).Strict root) (pools : Pools) :
    Payload.Strict root (parse d init root pools) := by
  have hfollows := parse_follows d init root pools
  have hinside : ∀ {r : Run}, r.stores <+: (played d init root).stores → ∀ s ∈ r.stores, s.Inside :=
    fun hpre s hs => h.2 s (hpre.subset hs)
  cases hres : parse d init root pools with
  | ok rep r =>
    rw [hres] at hfollows
    rcases hfollows.run with ⟨hp, -⟩ | ⟨herr, -, hpre, -⟩
    · refine ⟨fun hm => ?_, hinside (by rw [hp]; exact List.prefix_rfl)⟩
      have hfailed := h.1 hm
      rw [hp] at hfailed
      exact hfailed.elim (fun hf => bne_iff_ne.mp hf) fun ha => Progress.noConfusion ha
    · exact ⟨fun _ => herr, hinside hpre⟩
  | error f r =>
    rw [hres] at hfollows
    exact hinside hfollows.stores

theorem played_of_strict {d : Bool} {init : CborError} {root : CborValue}
    (h : Payload.Strict root (parse d init root dynamicPools)) : (played d init root).Strict root := by
  have hfollows := parse_follows d init root dynamicPools
  have hu := unbounded_dynamicPools
  cases hres : parse d init root dynamicPools with
  | ok rep r =>
    rw [hres] at h hfollows
    rcases hfollows.run with ⟨hp, -⟩ | ⟨herr, -, -, hexact⟩
    · rw [hp]
      exact ⟨fun hm => Or.inl (bne_iff_ne.mpr (h.1 hm)), h.2⟩
    · obtain ⟨hreturned, hstores⟩ := hexact hu
      refine ⟨fun _ => Or.inl ?_, by rw [← hstores]; exact h.2⟩
      exact fair_play (p := ⟨false, [], .going⟩) (fun h => Progress.noConfusion h) _ hreturned
  | error f r =>
    rw [hres] at h hfollows
    obtain ⟨haborted, hstores⟩ := hfollows.aborted hu
    exact ⟨fun _ => Or.inr haborted, by rw [← hstores]; exact h⟩

/-! ## arrays of one kind -/

/-- all arrays are of one kind, and have no more elements than they say -/
def CborValue.Regular : CborValue → Prop
  | .atEnd => True
  | .item i _ content _ next =>
    (∀ length, i = .array length →
      Uniform content.heads ∧ content.heads.length ≤ elementCount length content) ∧
    content.Regular ∧ next.Regular

def Inside (es : List Event) : Prop := ∀ s, Event.store s ∈ es → s.Inside

theorem Inside.nil : Inside [] := fun _ h => absurd h List.not_mem_nil

theorem Inside.cons {e : Event} {es : List Event} (he : ∀ s, e = .store s → s.Inside)
    (h : Inside es) : Inside (e :: es) := by
  intro s hs
  rcases List.mem_cons.mp hs with hs | hs
  · exact he s hs.symm
  · exact h s hs

theorem Inside.error {e : CborError} {es : List Event} (h : Inside es) : Inside (.error e :: es) :=
  Inside.cons (fun _ h => Event.noConfusion h) h

theorem Inside.test {es : List Event} (h : Inside es) : Inside (.test :: es) :=
  Inside.cons (fun _ h => Event.noConfusion h) h

theorem Inside.store {s : Store} {es : List Event} (hs : s.Inside) (h : Inside es) :
    Inside (.store s :: es) :=
  Inside.cons (fun _ h => Event.store.inj h ▸ hs) h

theorem Inside.append {es es' : List Event} (h : Inside es) (h' : Inside es') : Inside (es ++ es') :=
  fun s hs => (List.mem_append.mp hs).elim (h s) (h' s)

theorem Inside.illegal : Inside illegal := Inside.error (Inside.test Inside.nil)

theorem Inside.ite {c : Prop} [Decidable c] {es es' : List Event} (h : Inside es) (h' : Inside es') :
    Inside (if c then es else es') := by
  split <;> assumption

/-- the stores of a program are those of its events -/
theorem Inside.play {es : List Event} (h : Inside es) : ∀ p : Play, (∀ s ∈ p.stores, s.Inside) →
    ∀ s ∈ (play es p).stores, s.Inside := by
  induction es with
  | nil => exact fun _ hp => hp
  | cons e es ih =>
    intro p hp
    refine ih (fun s hs => h s (List.mem_cons_of_mem _ hs)) _ ?_
    unfold Play.step
    split
    · exact hp
    · split <;> exact hp
    · intro s hs
      rcases List.mem_append.mp hs with hs | hs
      · exact hp s hs
      · exact List.mem_singleton.mp hs ▸ h _ List.mem_cons_self
    · exact hp
    · exact hp

theorem blockOf_code {len : Nat} {i j : CborItem} (h : i.code = j.code) :
    blockOf d len i = blockOf d len j := by
  have hcode : ∀ i : CborItem, blockOf d len i =
      match i.code with
      | 1 => 4 * len
      | 2 => 8 * len
      | 3 => len
      | 4 => len * stringArrayItemMaxLen d
      | 5 => len * stringArrayItemMaxLen d
      | _ => 0 := by
    intro i
    cases i <;> rfl
  rw [hcode i, hcode j, h]

theorem inside_writeEvents {len k : Nat} (hk : k < len) (i : CborItem) :
    Inside (writeEvents d (blockOf d len i) k i) := by
  have hitem := item_pos d
  have hmul : k * stringArrayItemMaxLen d + stringArrayItemMaxLen d ≤ len * stringArrayItemMaxLen d := by
    rw [← Nat.succ_mul]
    exact Nat.mul_le_mul_right _ hk
  unfold writeEvents
  cases i with
  | integer v e => exact Inside.store (show 4 * k + 4 ≤ 4 * len by omega) (Inside.error Inside.nil)
  | double v e => exact Inside.store (show 8 * k + 8 ≤ 8 * len by omega) (Inside.error Inside.nil)
  | boolean v e => exact Inside.store (show k + 1 ≤ len by omega) (Inside.error Inside.nil)
  | byteString s =>
    have hlen : byteItemLength d s + 1 ≤ stringArrayItemMaxLen d := by
      unfold byteItemLength
      split <;> omega
    refine Inside.error (Inside.store ?_ (Inside.store ?_ (Inside.error Inside.nil)))
    · show k * _ + 1 ≤ len * _
      omega
    · show k * _ + 1 + byteItemLength d s ≤ len * _
      omega
  | textString s =>
    have hlen : textItemLength d s ≤ stringArrayItemMaxLen d := by
      unfold textItemLength
      split <;> omega
    refine Inside.error (Inside.store ?_ (Inside.error Inside.nil))
    show k * _ + textItemLength d s ≤ len * _
    omega
  | _ => exact Inside.nil

theorem inside_mallocEvents (bytes : Nat) : Inside (mallocEvents bytes) :=
  Inside.ite (Inside.cons (fun _ h => Event.noConfusion h) Inside.nil) Inside.nil

theorem inside_stringEvents (s : CborString) : Inside (stringEvents s) := by
  refine Inside.error (Inside.test (Inside.ite Inside.nil ?_))
  exact Inside.append (inside_mallocEvents _) (Inside.error Inside.nil)

theorem inside_countEvents (v : CborValue) : Inside (countEvents v) := by
  induction v with
  | atEnd => exact Inside.nil
  | item i enter content advance next _ ih => exact Inside.test (Inside.error ih)

theorem inside_keyEvents (key : CborItem) {es : List Event} (h : Inside es) :
    Inside (keyEvents key advance es) := by
  unfold keyEvents
  cases key with
  | textString s =>
    refine Inside.error (Inside.test (Inside.ite Inside.nil ?_))
    exact Inside.append (inside_mallocEvents _) (Inside.error (Inside.test (Inside.error h)))
  | _ => exact Inside.error Inside.nil

/-- the elements from `k` on fit into a block for elements of their kind -/
def Fits (d : Bool) (len : Nat) (v : CborValue) (k block : Nat) : Prop :=
  k + v.heads.length ≤ len ∧ Uniform v.heads ∧ (k ≠ 0 → ∀ i ∈ v.heads, block = blockOf d len i)

/-- what the three loops store is inside -/
structure Inward (d : Bool) (v : CborValue) : Prop where
  value : Inside (valueEvents d v)
  members : ∀ site, Inside (memberEvents d site v)
  elements : ∀ len k type block, Fits d len v k block → Inside (elementEvents d len v k type block)

theorem inside_elementEvents (hc : Inward d content) (hn : Inward d next) {len k type block : Nat}
    (hfits : Fits d len (.item i enter content advance next) k block) :
    Inside (elementEvents d len (.item i enter content advance next) k type block) := by
  obtain ⟨hlen, huniform, hblock⟩ := hfits
  have hlen : k + (next.heads.length + 1) ≤ len := hlen
  have hi : i ∈ (CborValue.item i enter content advance next).heads := List.mem_cons_self
  have hplace : elementBlock d len k block i = blockOf d len i := by
    unfold elementBlock
    split
    · rfl
    · rename_i h
      exact hblock (fun h0 => h ⟨h0, (huniform i hi).1⟩) i hi
  have hnext : Fits d len next (k + 1) (elementBlock d len k block i) := by
    refine ⟨by omega, fun j hj => ⟨(huniform j (List.mem_cons_of_mem _ hj)).1, fun l hl => ?_⟩,
      fun _ j hj => ?_⟩
    · exact (huniform j (List.mem_cons_of_mem _ hj)).2 l (List.mem_cons_of_mem _ hl)
    · rw [hplace]
      exact blockOf_code ((huniform i hi).2 j (List.mem_cons_of_mem _ hj))
  have hwrite : Inside (blockEvents d len k i ++ writeEvents d (elementBlock d len k block i) k i) := by
    rw [hplace]
    refine Inside.append (Inside.ite (inside_mallocEvents _) Inside.nil) ?_
    exact inside_writeEvents (by omega) i
  unfold elementEvents
  refine Inside.append (Inside.ite Inside.illegal ?_) (Inside.test (Inside.error ?_))
  · cases i with
    | map => exact Inside.error (hc.members _)
    | _ => exact hwrite
  · exact hn.elements _ _ _ _ hnext

theorem inside_memberEvents (hn : Inward d next)
    (hnn : ∀ i e c a n, next = .item i e c a n → ∀ site, Inside (memberEvents d site n)) (site : Site) :
    Inside (memberEvents d site (.item i enter content advance next)) := by
  by_cases hroot : site = .root ∧ (i matches .invalid) = true
  · rw [memberEvents_stop hroot]
    exact Inside.nil
  · rw [memberEvents_key hroot]
    refine Inside.append (inside_keyEvents i hn.value) (Inside.test (Inside.ite ?_ ?_))
    · cases hnext : next with
      | atEnd => exact Inside.nil
      | item i' e' c' a' n' => exact Inside.error (hnn _ _ _ _ _ hnext site)
    · exact Inside.error (hn.members site)

theorem inward_of_regular (v : CborValue) (h : v.Regular) : Inward d v ∧
    ∀ i e c a n, v = .item i e c a n → ∀ site, Inside (memberEvents d site n) := by
  induction v with
  | atEnd =>
    exact ⟨⟨Inside.error Inside.nil, fun _ => Inside.nil, fun _ _ _ _ _ => Inside.nil⟩,
      fun _ _ _ _ _ h => CborValue.noConfusion h⟩
  | item i enter content advance next ihc ihn =>
    obtain ⟨harray, hcontent, hnext⟩ := h
    have hc := (ihc hcontent).1
    have hn := ihn hnext
    refine ⟨⟨?_, fun site => ?_, fun _ _ _ _ hfits => inside_elementEvents hc hn.1 hfits⟩, ?_⟩
    · unfold valueEvents
      cases i with
      | byteString s => exact inside_stringEvents s
      | textString s => exact inside_stringEvents s
      | map => exact Inside.error (hc.members _)
      | array length =>
        obtain ⟨huniform, hcount⟩ := harray length rfl
        refine Inside.error (Inside.append (Inside.ite (inside_countEvents _) Inside.nil) ?_)
        exact hc.elements _ _ _ _ ⟨by omega, huniform, fun h => absurd rfl h⟩
      | tag => exact Inside.nil
      | other => exact Inside.nil
      | _ => exact Inside.error Inside.nil
    · exact inside_memberEvents hn.1 hn.2 site
    · intro _ _ _ _ _ h
      obtain ⟨-, -, -, -, rfl⟩ := CborValue.item.inj h
      exact hn.1.members

theorem inside_objectEvents (v : CborValue) (h : v.Regular) : Inside (objectEvents d v) := by
  induction v with
  | atEnd => exact Inside.nil
  | item i enter content advance next _ ihn =>
    obtain ⟨-, hcontent, hnext⟩ := h
    unfold objectEvents
    refine Inside.ite Inside.nil (Inside.ite (Inside.error ?_) ?_)
    · refine Inside.append ((inward_of_regular content hcontent).1.members _) ?_
      exact Inside.test (Inside.error (ihn hnext))
    · exact Inside.cons (fun _ h => Event.noConfusion h) Inside.nil

/-- Where all arrays are of one kind, all elements are stored inside. -/
theorem regular_inside (init : CborError) (root : CborValue) (h : root.alone.Regular) :
    ∀ s ∈ (played d init root).stores, s.Inside := by
  refine Inside.play (Inside.error ?_) _ fun s hs => absurd hs List.not_mem_nil
  cases root with
  | atEnd => exact Inside.nil
  | item i enter content advance next =>
    obtain ⟨-, hcontent, -⟩ := h
    cases i with
    | map => exact Inside.error ((inward_of_regular content hcontent).1.members _)
    | array length => exact Inside.error (inside_objectEvents content hcontent)
    | _ => exact Inside.nil

theorem uniform_of_regular (v : CborValue) (h : v.Regular) : ∀ items ∈ v.arrays, Uniform items := by
  induction v with
  | atEnd => exact fun _ h => absurd h List.not_mem_nil
  | item i enter content advance next ihc ihn =>
    obtain ⟨harray, hcontent, hnext⟩ := h
    intro items hitems
    unfold CborValue.arrays at hitems
    rcases List.mem_append.mp hitems with hitems | hitems
    · rcases List.mem_append.mp hitems with hitems | hitems
      · cases i with
        | array length => exact List.mem_singleton.mp hitems ▸ (harray length rfl).1
        | _ => exact absurd hitems List.not_mem_nil
      · exact ihc hcontent items hitems
    · exact ihn hnext items hitems

/-- A payload whose arrays are all of one kind does no harm, in any run. -/
theorem strict_of_regular (init : CborError) (root : CborValue) (h : root.alone.Regular) (pools : Pools) :
    Payload.Strict root (parse d init root pools) := by
  refine strict_of_played ⟨fun hm => ?_, regular_inside init root h⟩ pools
  obtain ⟨items, hitems, hnot⟩ := hm
  exact absurd (uniform_of_regular _ h items hitems) hnot

/-- `{"a": [true, 1]}` -/
def boolPayload : CborValue :=
  .item .map 0 (.item (keyItem 0x61) 0 .atEnd 0 (.item (.array (some 2)) 0
    (.item (.boolean true 0) 0 .atEnd 0 (.item (.integer 1 0) 0 .atEnd 0 .atEnd)) 0 .atEnd)) 0 .atEnd

end Payload
