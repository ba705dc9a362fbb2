import Iotivity.Engine.Lookup
import Iotivity.Engine.Transactions
import Iotivity.Lib.Scan
import Mathlib.Data.List.Count

/-!
# Observers: `observe.c`

`observers_list` holds the observers of all resources, and each resource counts its own in the 8-bit
field `num_observers`.  A resource is known by a number, and `uri` gives its URI.

* `addObserver`                     `add_observer`, which first takes out the observer of the same
                                    endpoint and path;
* `coapRemoveObserverBy…`           the removals, each with the number of observers taken out;
* `ObserveOp`                       registrations, removals and notifications, as they come;
* `observers_booked_run`            the counts are right as long as no resource has 256 observers.
-/

namespace Coap

/-! ## the list -/

/-- `coap_observer_t`; `obsCounter` keeps the 32 bits of an `int32_t` -/
structure Observer where
  resource : Nat
  url : List UInt8
  endpoint : Endpoint
  token : List UInt8
  lastMid : UInt16
  block2Size : UInt16
  obsCounter : UInt32
deriving DecidableEq

/-- `observers_list`, `num_observers` of the resources, `observe_counter`, and the block-wise
buffers that a removal reaches -/
structure Observers where
  list : List Observer
  numObservers : Nat → UInt8
  observeCounter : UInt32
  buffers : Buffers

/-- start-up -/
def Observers.init : Observers := ⟨[], fun _ => 0, 3, ⟨[], [], 0⟩⟩

/-- `resource->num_observers--` -/
def Observers.uncount (resource : Nat) (s : Observers) : Observers :=
  { s with numObservers := Function.update s.numObservers resource (s.numObservers resource - 1) }

/-- `resource->num_observers++` -/
def Observers.count (resource : Nat) (s : Observers) : Observers :=
  { s with numObservers := Function.update s.numObservers resource (s.numObservers resource + 1) }

/-- an observer of this endpoint and path -/
def Observer.isAt (endpoint : Endpoint) (uri : List UInt8) (o : Observer) : Bool :=
  ocEndpointCompare o.endpoint endpoint && o.url == uri

/-- an observer of this endpoint with this token -/
def Observer.hasToken (endpoint : Endpoint) (token : List UInt8) (o : Observer) : Bool :=
  ocEndpointCompare o.endpoint endpoint && o.token == token

/-- an observer of this endpoint whose last notification had this message id -/
def Observer.hasMid (endpoint : Endpoint) (mid : UInt16) (o : Observer) : Bool :=
  ocEndpointCompare o.endpoint endpoint && o.lastMid == mid

/-- an observer of this resource, under its path -/
def Observer.isOf (uri : Nat → List UInt8) (resource : Nat) (o : Observer) : Bool :=
  o.resource == resource && o.url == (uri resource).drop 1

/-! ## removals -/

/-- `coap_remove_observer_handle_by_uri` -/
def coapRemoveObserverHandleByUri (endpoint : Endpoint) (path : List UInt8) (s : Observers) :
    Nat × Observers :=
  match s.list.find? (Observer.isAt endpoint path) with
  | none => (0, s)
  | some o => (1, { s.uncount o.resource with list := s.list.eraseP (Observer.isAt endpoint path) })

section
variable (uri : Nat → List UInt8)

/-- the response buffer of an observer, if there is one, is given up -/
def releaseResponse (o : Observer) (s : Buffers) : Buffers :=
  match ocBlockwiseFindResponseBuffer s ((uri o.resource).drop 1) o.endpoint coapGet [] .server with
  | none => s
  | some b => s.putResponse { b with refCount := 0 }

/-- the count and the response buffer of an observer that is taken out -/
def dismiss (s : Observers) (o : Observer) : Observers :=
  { s.uncount o.resource with buffers := releaseResponse uri o s.buffers }

/-- the loops that end at the first observer found -/
def removeFirst (p : Observer → Bool) (s : Observers) : Nat × Observers :=
  match s.list.find? p with
  | none => (0, s)
  | some o => (1, { dismiss uri s o with list := s.list.eraseP p })

/-- the loops that go through the whole list -/
def removeAll (p : Observer → Bool) (s : Observers) : Nat × Observers :=
  ((s.list.filter p).length,
    { (s.list.filter p).foldl (dismiss uri) s with list := s.list.filter fun o => !p o })

def coapRemoveObserverByClient (endpoint : Endpoint) : Observers → Nat × Observers :=
  removeAll uri fun o => ocEndpointCompare o.endpoint endpoint

def coapRemoveObserverByToken (endpoint : Endpoint) (token : List UInt8) :
    Observers → Nat × Observers :=
  removeFirst uri (Observer.hasToken endpoint token)

def coapRemoveObserverByMid (endpoint : Endpoint) (mid : UInt16) : Observers → Nat × Observers :=
  removeFirst uri (Observer.hasMid endpoint mid)

def coapRemoveObserverByResource (resource : Nat) : Observers → Nat × Observers :=
  removeAll uri (Observer.isOf uri resource)

end

/-! ## registration and notification -/

/-- what `add_observer` is called with, and whether `oc_memb_alloc` finds a block -/
structure Registration where
  resource : Nat
  block2Size : UInt16
  endpoint : Endpoint
  token : List UInt8
  path : List UInt8
  granted : Bool

/-- the observer that a registration adds -/
def Registration.observer (x : Registration) (observeCounter : UInt32) : Observer :=
  { resource := x.resource, url := x.path, endpoint := x.endpoint, token := x.token, lastMid := 0
    block2Size := x.block2Size, obsCounter := observeCounter }

/-- `add_observer`: the number of observers replaced, or `-1` -/
def addObserver (x : Registration) (s : Observers) : Int × Observers :=
  let (dup, s) := coapRemoveObserverHandleByUri x.endpoint x.path s
  if x.granted then
    (dup, { s.count x.resource with list := s.list ++ [x.observer s.observeCounter] })
  else (-1, s)

/-- an observer after a notification; `counted` when this carries a new value of the Observe option -/
def Observer.sent (mid : UInt16) (counted : Bool) (o : Observer) : Observer :=
  { o with lastMid := mid, obsCounter := if counted then o.obsCounter + 1 else o.obsCounter }

/-- a notification to the observer at a place of the list -/
def notified (i : Nat) (mid : UInt16) (counted : Bool) (s : Observers) : Observers :=
  { s with
    list := s.list.modify i (Observer.sent mid counted)
    observeCounter := if counted then s.observeCounter + 1 else s.observeCounter }

/-! ## runs -/

inductive ObserveOp where
  | register (x : Registration)
  | removeByUri (endpoint : Endpoint) (path : List UInt8)
  | removeByClient (endpoint : Endpoint)
  | removeByToken (endpoint : Endpoint) (token : List UInt8)
  | removeByMid (endpoint : Endpoint) (mid : UInt16)
  | removeByResource (resource : Nat)
  | notify (i : Nat) (mid : UInt16) (counted : Bool)

def ObserveOp.apply (uri : Nat → List UInt8) (s : Observers) : ObserveOp → Observers
  | .register x => (addObserver x s).2
  | .removeByUri endpoint path => (coapRemoveObserverHandleByUri endpoint path s).2
  | .removeByClient endpoint => (coapRemoveObserverByClient uri endpoint s).2
  | .removeByToken endpoint token => (coapRemoveObserverByToken uri endpoint token s).2
  | .removeByMid endpoint mid => (coapRemoveObserverByMid uri endpoint mid s).2
  | .removeByResource resource => (coapRemoveObserverByResource uri resource s).2
  | .notify i mid counted => notified i mid counted s

def Observers.run (uri : Nat → List UInt8) (s : Observers) (ops : List ObserveOp) : Observers :=
  ops.foldl (ObserveOp.apply uri) s

/-! ## what the observers of a resource are counted as -/

/-- the number of observers of a resource -/
def observersOf (l : List Observer) (resource : Nat) : Nat := l.countP (·.resource == resource)

/-- no two observers have the same endpoint and path -/
def Apart (l : List Observer) : Prop := l.Pairwise fun a b => b.isAt a.endpoint a.url = false

/-- the counts are right up to the width of `num_observers`, and observers are apart -/
structure Kept (s : Observers) : Prop where
  counts : ∀ r, s.numObservers r = UInt8.ofNat (observersOf s.list r)
  apart : Apart s.list

/-- the counts are right, and there is at most one observer of each endpoint and path -/
structure Booked (s : Observers) : Prop where
  counts : ∀ r, (s.numObservers r).toNat = observersOf s.list r
  apart : Apart s.list

section
variable {l : List Observer} {p : Observer → Bool} {o : Observer} {s : Observers} {r : Nat}

theorem observersOf_append (l m : List Observer) (r : Nat) :
    observersOf (l ++ m) r = observersOf l r + observersOf m r := List.countP_append

theorem observersOf_singleton (o : Observer) (r : Nat) :
    observersOf [o] r = if o.resource = r then 1 else 0 := by
  unfold observersOf
  rw [List.countP_singleton]
  simp

/-- one observer is taken out -/
theorem observersOf_eraseP (h : l.find? p = some o) (r : Nat) :
    observersOf l r = observersOf (l.eraseP p) r + if o.resource = r then 1 else 0 := by
  induction l with
  | nil => cases h
  | cons a l ih =>
    cases hp : p a with
    | true =>
      rw [List.find?_cons_of_pos hp] at h
      cases h
      rw [List.eraseP_cons_of_pos hp, ← List.singleton_append, observersOf_append,
        observersOf_singleton, Nat.add_comm]
    | false =>
      have hn : ¬ p a = true := by simp [hp]
      rw [List.find?_cons_of_neg hn] at h
      rw [List.eraseP_cons_of_neg hn, ← List.singleton_append, ← List.singleton_append (l := l.eraseP p),
        observersOf_append, observersOf_append, ih h]
      omega

/-- all observers with a property are taken out -/
theorem observersOf_filter (l : List Observer) (p : Observer → Bool) (r : Nat) :
    observersOf l r = observersOf (l.filter p) r + observersOf (l.filter fun o => !p o) r :=
  List.countP_eq_countP_filter_add l _ p

theorem ofNat_add_sub (a b : Nat) : UInt8.ofNat (a + b) - UInt8.ofNat b = UInt8.ofNat a := by
  rw [UInt8.ofNat_add, UInt8.add_sub_cancel]

/-! ## each operation keeps the books -/

theorem Apart.sublist {m : List Observer} (h : Apart l) (hs : m.Sublist l) : Apart m :=
  List.Pairwise.sublist hs h

theorem uncount_numObservers (s : Observers) (a r : Nat) :
    (s.uncount a).numObservers r = s.numObservers r - UInt8.ofNat (if a = r then 1 else 0) := by
  show Function.update s.numObservers a _ r = _
  by_cases h : a = r
  · rw [h, Function.update_self, if_pos rfl]
    rfl
  · rw [Function.update_of_ne (Ne.symm h), if_neg h]
    simp

/-- one observer found and taken out -/
theorem Kept.erase (h : Kept s) (hf : s.list.find? p = some o) {t : Observers}
    (hl : t.list = s.list.eraseP p) (hn : t.numObservers = (s.uncount o.resource).numObservers) :
    Kept t where
  counts r := by
    rw [hn, hl, uncount_numObservers, h.counts, observersOf_eraseP hf r, ofNat_add_sub]
  apart := by
    rw [hl]
    exact h.apart.sublist List.eraseP_sublist

theorem Kept.removeByUri (h : Kept s) (endpoint : Endpoint) (path : List UInt8) :
    Kept (coapRemoveObserverHandleByUri endpoint path s).2 := by
  unfold coapRemoveObserverHandleByUri
  cases hf : s.list.find? (Observer.isAt endpoint path) with
  | none => exact h
  | some o => exact h.erase hf rfl rfl

theorem Kept.removeFirst (h : Kept s) (uri : Nat → List UInt8) (p : Observer → Bool) :
    Kept (removeFirst uri p s).2 := by
  unfold Coap.removeFirst
  cases hf : s.list.find? p with
  | none => exact h
  | some o => exact h.erase hf rfl rfl

theorem foldl_dismiss (uri : Nat → List UInt8) (l : List Observer) (s : Observers) (r : Nat) :
    (l.foldl (dismiss uri) s).numObservers r = s.numObservers r - UInt8.ofNat (observersOf l r) := by
  induction l generalizing s with
  | nil =>
    show _ = _ - UInt8.ofNat 0
    simp
  | cons o l ih =>
    rw [List.foldl_cons, ih]
    show (s.uncount o.resource).numObservers r - _ = _
    rw [uncount_numObservers, ← List.singleton_append, observersOf_append, observersOf_singleton,
      UInt8.ofNat_add]
    grind

theorem Kept.removeAll (h : Kept s) (uri : Nat → List UInt8) (p : Observer → Bool) :
    Kept (removeAll uri p s).2 where
  counts r := by
    show ((s.list.filter p).foldl (dismiss uri) s).numObservers r =
      UInt8.ofNat (observersOf (s.list.filter fun o => !p o) r)
    rw [foldl_dismiss, h.counts, observersOf_filter s.list p r, Nat.add_comm, ofNat_add_sub]
  apart := h.apart.sublist List.filter_sublist

/-- two observers at the same place are not apart -/
theorem isAt_trans {a b : Observer} {endpoint : Endpoint} {path : List UInt8}
    (ha : a.isAt endpoint path = true) (hb : b.isAt endpoint path = true) :
    b.isAt a.endpoint a.url = true := by
  simp only [Observer.isAt, Bool.and_eq_true, beq_iff_eq] at *
  exact ⟨ocEndpointCompare_trans hb.1 (ocEndpointCompare_symm ha.1), hb.2.trans ha.2.symm⟩

/-- once the observer of an endpoint and path is taken out there is none -/
theorem Apart.eraseP_isAt (h : Apart l) (endpoint : Endpoint) (path : List UInt8) :
    ∀ a ∈ l.eraseP (Observer.isAt endpoint path), a.isAt endpoint path = false := by
  induction l with
  | nil =>
    intro a ha
    cases ha
  | cons b l ih =>
    obtain ⟨hb, hl⟩ := List.pairwise_cons.mp h
    intro a ha
    cases hp : b.isAt endpoint path with
    | true =>
      rw [List.eraseP_cons_of_pos hp] at ha
      cases hq : a.isAt endpoint path with
      | false => rfl
      | true =>
        rw [← hb a ha, isAt_trans hp hq]
    | false =>
      rw [List.eraseP_cons_of_neg (by simp [hp])] at ha
      rcases List.mem_cons.mp ha with rfl | ha
      · exact hp
      · exact ih hl a ha

/-- the observers that a registration leaves of the old ones -/
theorem handleByUri_list (endpoint : Endpoint) (path : List UInt8) (s : Observers) :
    (coapRemoveObserverHandleByUri endpoint path s).2.list =
      s.list.eraseP (Observer.isAt endpoint path) := by
  unfold coapRemoveObserverHandleByUri
  cases hf : s.list.find? (Observer.isAt endpoint path) with
  | none =>
    refine (List.eraseP_of_forall_not ?_).symm
    intro a ha
    exact List.find?_eq_none.mp hf a ha
  | some o => rfl

theorem removeFirst_list (uri : Nat → List UInt8) (p : Observer → Bool) (s : Observers) :
    (removeFirst uri p s).2.list = s.list.eraseP p := by
  unfold Coap.removeFirst
  cases hf : s.list.find? p with
  | none =>
    refine (List.eraseP_of_forall_not ?_).symm
    intro a ha
    exact List.find?_eq_none.mp hf a ha
  | some o => rfl

/-- the observers after a registration -/
theorem addObserver_snd (x : Registration) (s : Observers) : (addObserver x s).2 =
    let t := (coapRemoveObserverHandleByUri x.endpoint x.path s).2
    if x.granted then { t.count x.resource with list := t.list ++ [x.observer t.observeCounter] }
    else t := by
  unfold addObserver
  dsimp only
  split
  · rfl
  · rfl

theorem Kept.register (h : Kept s) (x : Registration) : Kept (addObserver x s).2 := by
  have hk := h.removeByUri x.endpoint x.path
  have hl := handleByUri_list x.endpoint x.path s
  rw [addObserver_snd]
  generalize (coapRemoveObserverHandleByUri x.endpoint x.path s).2 = t at hk hl
  dsimp only
  split
  · constructor
    · intro r
      show Function.update t.numObservers x.resource _ r =
        UInt8.ofNat (observersOf (t.list ++ [x.observer t.observeCounter]) r)
      rw [observersOf_append, observersOf_singleton, UInt8.ofNat_add, ← hk.counts]
      show _ = t.numObservers r + UInt8.ofNat (if x.resource = r then 1 else 0)
      by_cases hr : x.resource = r
      · rw [hr, Function.update_self, if_pos rfl]
        rfl
      · rw [Function.update_of_ne (Ne.symm hr), if_neg hr]
        simp
    · show Apart (t.list ++ [x.observer t.observeCounter])
      refine List.pairwise_append.mpr ⟨hk.apart, List.pairwise_singleton _ _, ?_⟩
      intro a ha b hb
      cases List.mem_singleton.mp hb
      rw [hl] at ha
      have hat := h.apart.eraseP_isAt x.endpoint x.path a ha
      cases hn : (x.observer t.observeCounter).isAt a.endpoint a.url with
      | false => rfl
      | true =>
        simp only [Observer.isAt, Bool.and_eq_true, beq_iff_eq] at hn
        have : a.isAt x.endpoint x.path = true := by
          simp only [Observer.isAt, Bool.and_eq_true, beq_iff_eq]
          exact ⟨ocEndpointCompare_symm hn.1, hn.2.symm⟩
        rw [← hat, this]
  · exact hk

theorem Kept.notified (h : Kept s) (i : Nat) (mid : UInt16) (counted : Bool) :
    Kept (notified i mid counted s) where
  counts r := by
    have hm : ∀ l : List Observer, observersOf l r = (l.map Observer.resource).countP (· == r) := by
      intro l
      rw [List.countP_map]
      rfl
    rw [hm, Coap.notified, Scan.map_modify_same (g := Observer.sent mid counted) (fun _ => rfl), ← hm]
    exact h.counts r
  apart := by
    have hm : ∀ l : List Observer, Apart l ↔ (l.map fun o => (o.endpoint, o.url)).Pairwise
        fun a b => (ocEndpointCompare b.1 a.1 && b.2 == a.2) = false := by
      intro l
      rw [List.pairwise_map]
      rfl
    rw [hm, Coap.notified, Scan.map_modify_same (g := Observer.sent mid counted) (fun _ => rfl), ← hm]
    exact h.apart

/-- every operation keeps the books -/
theorem Kept.apply (h : Kept s) (uri : Nat → List UInt8) (op : ObserveOp) :
    Kept (op.apply uri s) := by
  cases op with
  | register x => exact h.register x
  | removeByUri endpoint path => exact h.removeByUri endpoint path
  | removeByClient endpoint => exact h.removeAll uri _
  | removeByToken endpoint token => exact h.removeFirst uri _
  | removeByMid endpoint mid => exact h.removeFirst uri _
  | removeByResource resource => exact h.removeAll uri _
  | notify i mid counted => exact h.notified i mid counted

theorem kept_init : Kept Observers.init where
  counts _ := rfl
  apart := List.Pairwise.nil

/-! ## the condition -/

/-- a registration finds room in the count of its resource -/
def ObserveOp.Fits (s : Observers) : ObserveOp → Prop
  | .register x => x.granted = true →
      observersOf (s.list.eraseP (Observer.isAt x.endpoint x.path)) x.resource < 255
  | _ => True

instance (s : Observers) (op : ObserveOp) : Decidable (op.Fits s) :=
  match op with
  | .register x => inferInstanceAs (Decidable (x.granted = true →
      observersOf (s.list.eraseP (Observer.isAt x.endpoint x.path)) x.resource < 255))
  | .removeByUri _ _ => inferInstanceAs (Decidable True)
  | .removeByClient _ => inferInstanceAs (Decidable True)
  | .removeByToken _ _ => inferInstanceAs (Decidable True)
  | .removeByMid _ _ => inferInstanceAs (Decidable True)
  | .removeByResource _ => inferInstanceAs (Decidable True)
  | .notify _ _ _ => inferInstanceAs (Decidable True)

def FitsRun (uri : Nat → List UInt8) : Observers → List ObserveOp → Prop
  | _, [] => True
  | s, op :: ops => op.Fits s ∧ FitsRun uri (op.apply uri s) ops

instance fitsRunDecidable (uri : Nat → List UInt8) :
    (s : Observers) → (ops : List ObserveOp) → Decidable (FitsRun uri s ops)
  | _, [] => isTrue trivial
  | s, op :: ops =>
    have := fitsRunDecidable uri (op.apply uri s) ops
    inferInstanceAs (Decidable (op.Fits s ∧ FitsRun uri (op.apply uri s) ops))

/-- no resource has more observers than its count can hold -/
def Room (s : Observers) : Prop := ∀ r, observersOf s.list r < 256

theorem Room.of_sublist {t : Observers} (h : Room s) (hl : t.list.Sublist s.list) : Room t := by
  intro r
  exact Nat.lt_of_le_of_lt (List.Sublist.countP_le hl) (h r)

theorem Room.removeFirst (h : Room s) (uri : Nat → List UInt8) (p : Observer → Bool) :
    Room (removeFirst uri p s).2 := by
  unfold Coap.removeFirst
  cases hf : s.list.find? p with
  | none => exact h
  | some o => exact h.of_sublist List.eraseP_sublist

theorem Room.removeAll (h : Room s) (uri : Nat → List UInt8) (p : Observer → Bool) :
    Room (removeAll uri p s).2 := h.of_sublist List.filter_sublist

theorem Room.removeByUri (h : Room s) (endpoint : Endpoint) (path : List UInt8) :
    Room (coapRemoveObserverHandleByUri endpoint path s).2 := by
  apply h.of_sublist
  rw [handleByUri_list]
  exact List.eraseP_sublist

theorem Room.register (h : Room s) (x : Registration) (hf : (ObserveOp.register x).Fits s) :
    Room (addObserver x s).2 := by
  have hr := h.removeByUri x.endpoint x.path
  have hl := handleByUri_list x.endpoint x.path s
  rw [addObserver_snd]
  generalize (coapRemoveObserverHandleByUri x.endpoint x.path s).2 = t at hr hl
  dsimp only
  split
  · next hg =>
    have hfit := hf hg
    rw [← hl] at hfit
    intro r
    show observersOf (t.list ++ [x.observer t.observeCounter]) r < 256
    rw [observersOf_append, observersOf_singleton]
    show observersOf t.list r + (if x.resource = r then 1 else 0) < 256
    have := hr r
    by_cases he : x.resource = r
    · rw [if_pos he]
      rw [he] at hfit
      omega
    · rw [if_neg he]
      omega
  · exact hr

theorem Room.notified (h : Room s) (i : Nat) (mid : UInt16) (counted : Bool) :
    Room (notified i mid counted s) := by
  intro r
  have hm : ∀ l : List Observer, observersOf l r = (l.map Observer.resource).countP (· == r) := by
    intro l
    rw [List.countP_map]
    rfl
  rw [hm, Coap.notified, Scan.map_modify_same (g := Observer.sent mid counted) (fun _ => rfl), ← hm]
  exact h r

theorem Room.apply (h : Room s) (uri : Nat → List UInt8) (op : ObserveOp) (hf : op.Fits s) :
    Room (op.apply uri s) := by
  cases op with
  | register x => exact h.register x hf
  | removeByUri endpoint path => exact h.removeByUri endpoint path
  | removeByClient endpoint => exact h.removeAll uri _
  | removeByToken endpoint token => exact h.removeFirst uri _
  | removeByMid endpoint mid => exact h.removeFirst uri _
  | removeByResource resource => exact h.removeAll uri _
  | notify i mid counted => exact h.notified i mid counted

/-- counts that fit are counts -/
theorem Kept.booked (h : Kept s) (hr : Room s) : Booked s where
  counts r := by
    rw [h.counts, UInt8.toNat_ofNat']
    exact Nat.mod_eq_of_lt (hr r)
  apart := h.apart

/-! ## runs -/

/-- a registration that gets no memory leaves all observers but the one that it was to replace -/
def ObserveOp.Spares (uri : Nat → List UInt8) (s : Observers) : ObserveOp → Prop
  | .register x => x.granted = false → ∀ o ∈ s.list, o.isAt x.endpoint x.path = false →
      o ∈ ((ObserveOp.register x).apply uri s).list
  | _ => True

theorem spares (uri : Nat → List UInt8) (s : Observers) (op : ObserveOp) : op.Spares uri s := by
  cases op with
  | register x =>
    intro hg o ho hat
    show o ∈ (addObserver x s).2.list
    rw [addObserver_snd]
    dsimp only
    rw [if_neg (by simp [hg]), handleByUri_list]
    exact (List.mem_eraseP_of_neg (by simp [hat])).mpr ho
  | removeByUri endpoint path => trivial
  | removeByClient endpoint => trivial
  | removeByToken endpoint token => trivial
  | removeByMid endpoint mid => trivial
  | removeByResource resource => trivial
  | notify i mid counted => trivial

theorem Kept.run (h : Kept s) (uri : Nat → List UInt8) (ops : List ObserveOp) :
    Kept (s.run uri ops) := by
  induction ops generalizing s with
  | nil => exact h
  | cons op ops ih => exact ih (h.apply uri op)

theorem Room.run (h : Room s) (uri : Nat → List UInt8) (ops : List ObserveOp)
    (hf : FitsRun uri s ops) : Room (s.run uri ops) := by
  induction ops generalizing s with
  | nil => exact h
  | cons op ops ih => exact ih (h.apply uri op hf.1) hf.2

theorem FitsRun.take {uri : Nat → List UInt8} {pre post : List ObserveOp} {s : Observers}
    (h : FitsRun uri s (pre ++ post)) : FitsRun uri s pre := by
  induction pre generalizing s with
  | nil => trivial
  | cons op pre ih => exact ⟨h.1, ih h.2⟩

end

/-- in a run in which no resource is to have more than 255 observers, the counts are right at all
times, an endpoint observes a path at most once, and a registration without memory costs no other
observer -/
theorem observers_booked_run (uri : Nat → List UInt8) (ops : List ObserveOp)
    (hf : FitsRun uri Observers.init ops) :
    (∀ pre, pre <+: ops → Booked (Observers.init.run uri pre)) ∧
      ∀ pre op, pre ++ [op] <+: ops → op.Spares uri (Observers.init.run uri pre) := by
  constructor
  · intro pre hpre
    obtain ⟨post, rfl⟩ := hpre
    have hroom : Room Observers.init := fun _ => Nat.zero_lt_succ 255
    exact (kept_init.run uri pre).booked (hroom.run uri pre hf.take)
  · intro pre op _
    exact spares uri _ op

/-- an IPv6 client at a port -/
def clientAt (port : UInt16) : Endpoint :=
  ⟨0, ⟨false, false, false, true, false, false, false⟩, port, List.replicate 16 0⟩

/-- a client registers for resource 0, under the path "a" -/
def registrationAt (port : UInt16) (granted : Bool) : Registration :=
  ⟨0, 1024, clientAt port, [1], [97], granted⟩

/-- two clients, one of which registers again, and a third one that gets no memory -/
theorem observers_booked_three :
    let ops := [ObserveOp.register (registrationAt 1 true), .register (registrationAt 2 true),
      .register (registrationAt 1 true), .register (registrationAt 3 false),
      .removeByToken (clientAt 2) [1]]
    (∀ pre, pre <+: ops → Booked (Observers.init.run (fun _ => [47, 97]) pre)) ∧
      ∀ pre op, pre ++ [op] <+: ops →
        op.Spares (fun _ => [47, 97]) (Observers.init.run (fun _ => [47, 97]) pre) :=
  observers_booked_run (fun _ => [47, 97]) _ (by decide)

/-- as many clients as there are ports -/
def manyClients (n : Nat) : List ObserveOp :=
  (List.range n).map fun i => .register (registrationAt (UInt16.ofNat i) true)

/-- all of them are registered -/
theorem manyClients_list (uri : Nat → List UInt8) (n : Nat) (hn : n ≤ 2^16) :
    (Observers.init.run uri (manyClients n)).list =
        (List.range n).map (fun i => (registrationAt (UInt16.ofNat i) true).observer 3) ∧
      (Observers.init.run uri (manyClients n)).observeCounter = 3 := by
  induction n with
  | zero => exact ⟨rfl, rfl⟩
  | succ n ih =>
    obtain ⟨hl, hc⟩ := ih (Nat.le_of_succ_le hn)
    have hrun : Observers.init.run uri (manyClients (n + 1)) =
        (addObserver (registrationAt (UInt16.ofNat n) true)
          (Observers.init.run uri (manyClients n))).2 := by
      rw [manyClients, List.range_succ, List.map_append, Observers.run, List.foldl_append]
      rfl
    have hnone : (Observers.init.run uri (manyClients n)).list.find?
        (Observer.isAt (clientAt (UInt16.ofNat n)) [97]) = none := by
      apply List.find?_eq_none.mpr
      intro a ha
      rw [hl] at ha
      obtain ⟨i, hi, rfl⟩ := List.mem_map.mp ha
      have hi := List.mem_range.mp hi
      intro hat
      simp only [Observer.isAt, Bool.and_eq_true] at hat
      have hport := ((ocEndpointCompare_iff _ _).mp hat.1).2.2.1
      have hport : UInt16.ofNat i = UInt16.ofNat n := hport
      have := congrArg UInt16.toNat hport
      rw [UInt16.toNat_ofNat', UInt16.toNat_ofNat'] at this
      omega
    let x := registrationAt (UInt16.ofNat n) true
    have hsame : (coapRemoveObserverHandleByUri x.endpoint x.path
        (Observers.init.run uri (manyClients n))).2 = Observers.init.run uri (manyClients n) := by
      show (coapRemoveObserverHandleByUri (clientAt (UInt16.ofNat n)) [97] _).2 = _
      rw [coapRemoveObserverHandleByUri, hnone]
    have hadd := addObserver_snd x (Observers.init.run uri (manyClients n))
    rw [hsame] at hadd
    dsimp only at hadd
    rw [if_pos (show x.granted = true from rfl), hc] at hadd
    rw [hrun, hadd]
    refine ⟨?_, hc⟩
    show (Observers.init.run uri (manyClients n)).list ++ [x.observer 3] = _
    rw [hl, List.range_succ, List.map_append]
    rfl

/-- 256 clients of one resource are counted as none -/
theorem observers_overflow :
    ¬ ∀ (uri : Nat → List UInt8) (ops : List ObserveOp), Booked (Observers.init.run uri ops) := by
  intro h
  have hlist := (manyClients_list (fun _ => []) 256 (by decide)).1
  have hcount : observersOf (Observers.init.run (fun _ => []) (manyClients 256)).list 0 = 256 := by
    rw [hlist, observersOf, List.countP_map, List.countP_eq_length.mpr]
    · exact List.length_range
    · intro i _
      rfl
  have hb := (h (fun _ => []) (manyClients 256)).counts 0
  rw [hcount] at hb
  have := UInt8.toNat_lt ((Observers.init.run (fun _ => []) (manyClients 256)).numObservers 0)
  omega

end Coap
