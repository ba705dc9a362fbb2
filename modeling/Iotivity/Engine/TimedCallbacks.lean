import Iotivity.Lib.Cursor
import Iotivity.Lib.Keyed

/-!
# Timed callbacks: `poll_event_callback_timers` in `oc_ri.c`

The loop goes along `timed_callbacks` and calls what has expired.  A callback may add entries and remove
entries, any of them, while the loop holds two pointers: at the entry it has called, and at the one
behind it.

* `pollEventCallbackTimers`   the loop, along pointers; it is `dangling` when it comes to an entry that
                              has been freed;
* `Midway`        what holds of the list and of the calls so far;
* `Careful`       the callback leaves the two entries alone that the loop still needs;
* `pollEventCallbackTimers_survives_iff`.
-/

namespace Coap
open Keyed

/-! ## the list -/

/-- `oc_event_callback_t`; `expired` is `oc_etimer_expired` -/
structure EventCallback where
  id : Nat
  callback : Nat
  data : Nat
  expired : Bool

/-- what an entry has been registered with -/
def EventCallback.registration (e : EventCallback) : Nat × Nat × Nat := (e.id, e.callback, e.data)

/-- `timed_callbacks`; addresses are drawn from one counter -/
structure TimedCallbacks where
  list : List EventCallback
  fresh : Nat
  distinct : Distinct EventCallback.id fresh list

/-- `oc_list_remove` and `oc_memb_free` -/
def TimedCallbacks.free (id : Nat) (t : TimedCallbacks) : TimedCallbacks :=
  ⟨remove EventCallback.id id t.list, t.fresh, t.distinct.filter _⟩

/-- `oc_etimer_restart` -/
def TimedCallbacks.restart (id : Nat) (t : TimedCallbacks) : TimedCallbacks where
  list := t.list.map fun e => if e.id = id then { e with expired := false } else e
  fresh := t.fresh
  distinct := t.distinct.map fun e => by split <;> rfl

/-- the entry that was removed, if there is one -/
def ocRiRemoveTimedEventCallback (data callback : Nat) (t : TimedCallbacks) :
    Option EventCallback × TimedCallbacks :=
  match t.list.find? fun e => e.data == data && e.callback == callback with
  | none => (none, t)
  | some e => (some e, t.free e.id)

/-- the entry that was added, if `oc_memb_alloc` finds a block; its timer runs -/
def ocRiAddTimedEventCallbackTicks (granted : Bool) (data callback : Nat) (t : TimedCallbacks) :
    Option EventCallback × TimedCallbacks :=
  if granted then
    let e : EventCallback := ⟨t.fresh, callback, data, false⟩
    (some e, ⟨t.list ++ [e], t.fresh + 1, t.distinct.snoc rfl⟩)
  else (none, t)

/-! ## callbacks -/

/-- a call that a callback makes -/
inductive TimedOp where
  | add (granted : Bool) (data callback : Nat)
  | remove (data callback : Nat)

/-- what a row of such calls has added and removed, and what it leaves -/
structure Effects where
  added : List EventCallback
  removed : List Nat
  after : TimedCallbacks

def perform : List TimedOp → TimedCallbacks → Effects
  | [], t => ⟨[], [], t⟩
  | .add granted data callback :: ops, t =>
    let x := ocRiAddTimedEventCallbackTicks granted data callback t
    let r := perform ops x.2
    { r with added := x.1.toList ++ r.added }
  | .remove data callback :: ops, t =>
    let x := ocRiRemoveTimedEventCallback data callback t
    let r := perform ops x.2
    { r with removed := x.1.toList.map EventCallback.id ++ r.removed }

/-- `oc_event_callback_retval_t` -/
inductive EventRetval where
  | ocEventDone
  | ocEventContinue
deriving DecidableEq

/-- what the callbacks of an application do, with their data and in its state -/
def Application (σ : Type) := Nat → Nat → σ → List TimedOp × EventRetval × σ

/-- a call that the loop has made; `next` is what it has read before -/
structure TimedCall where
  entry : EventCallback
  next : Option Nat
  effects : Effects
  retval : EventRetval

/-- the entries that go with a call -/
def TimedCall.gone (c : TimedCall) : List Nat :=
  c.effects.removed ++ if c.retval = .ocEventDone then [c.entry.id] else []

/-- The entry that has been called is not removed, and neither is the one behind it if the loop goes on
there. -/
def TimedCall.Careful (c : TimedCall) : Prop :=
  c.entry.id ∉ c.effects.removed ∧
    (c.retval = .ocEventContinue → ∀ k, c.next = some k → k ∉ c.effects.removed)

/-! ## the loop -/

structure PollState (σ : Type) where
  timed : TimedCallbacks
  app : σ
  calls : List TimedCall

/-- * `finished`   the end of the list has been reached;
* `dangling`   `event_cb` points at an entry that has been freed, and the loop is about to read it, free
               it or restart its timer. -/
inductive PollResult (σ : Type) where
  | finished (s : PollState σ)
  | dangling (s : PollState σ)

def PollResult.state {σ : Type} : PollResult σ → PollState σ
  | .finished s => s
  | .dangling s => s

section
variable {σ : Type} (B : Application σ)

/-- `event_cb->callback(event_cb->data)` -/
def PollState.call (e : EventCallback) (next : Option Nat) (s : PollState σ) : TimedCall × σ :=
  let r := B e.callback e.data s.app
  (⟨e, next, perform r.1 s.timed, r.2.1⟩, r.2.2)

/-- what is done to the entry behind its call -/
def TimedCall.settled (c : TimedCall) : TimedCallbacks :=
  match c.retval with
  | .ocEventDone => c.effects.after.free c.entry.id
  | .ocEventContinue => c.effects.after.restart c.entry.id

/-- where the loop goes behind a call: to the head again, or on -/
def TimedCall.resume (c : TimedCall) : Option Nat :=
  match c.retval with
  | .ocEventDone => c.settled.list.head?.map EventCallback.id
  | .ocEventContinue => c.next

/-- the loop of `poll_event_callback_timers` from `event_cb` on; `none`: the rounds are used up -/
def pollEventCallbackTimers : Nat → Option Nat → PollState σ → Option (PollResult σ)
  | _, none, s => some (.finished s)
  | 0, some _, _ => none
  | fuel+1, some k, s =>
    match s.timed.list.find? fun e => e.id == k with
    | none => some (.dangling s)
    | some e =>
      let next := Cursor.after EventCallback.id k s.timed.list
      if e.expired then
        let x := s.call B e next
        let calls := s.calls ++ [x.1]
        if (x.1.effects.after.list.any fun e => e.id == k) = false then
          some (.dangling ⟨x.1.effects.after, x.2, calls⟩)
        else pollEventCallbackTimers fuel x.1.resume ⟨x.1.settled, x.2, calls⟩
      else pollEventCallbackTimers fuel next s

end

/-! ## what is wanted -/

def added (calls : List TimedCall) : List EventCallback := calls.flatMap fun c => c.effects.added

def removed (calls : List TimedCall) : List Nat := calls.flatMap fun c => c.effects.removed

/-- removed, or done -/
def gone (calls : List TimedCall) : List Nat := calls.flatMap TimedCall.gone

/-- what a pass over the list `t₀` has done -/
structure Orderly {σ : Type} (t₀ : TimedCallbacks) (s : PollState σ) : Prop where
  /-- what was expired is called once, or it is removed without having been called -/
  called : ∀ e ∈ t₀.list, e.expired = true →
    s.calls.countP (·.entry.id == e.id) = 1 ∨
      s.calls.countP (·.entry.id == e.id) = 0 ∧ e.id ∈ removed s.calls
  /-- nothing else is called -/
  only : ∀ c ∈ s.calls, c.entry ∈ t₀.list ∧ c.entry.expired = true
  /-- and nothing that has been removed or is done -/
  inTurn : ∀ pre c post, s.calls = pre ++ c :: post → c.entry.id ∉ gone pre
  /-- the rest is left, in order -/
  left : s.timed.list.map EventCallback.registration =
    ((t₀.list ++ added s.calls).map EventCallback.registration).filter fun x => x.1 ∉ gone s.calls

/-- No freed entry is touched, and the pass does what is wanted. -/
def Survives {σ : Type} (t₀ : TimedCallbacks) : PollResult σ → Prop
  | .finished s => Orderly t₀ s
  | .dangling _ => False

/-! ## lists of registrations -/

/-- filters along the addresses, one behind the other, with new entries in between -/
theorem filter_behind {β : Type} (key : β → Nat) {l new : List β} {ks ks' : List Nat}
    (hnew : ∀ x ∈ new, key x ∉ ks) :
    (l.filter (fun x => key x ∉ ks) ++ new).filter (fun x => key x ∉ ks') =
      (l ++ new).filter fun x => key x ∉ ks ++ ks' := by
  have hkeep : new.filter (fun x => key x ∉ ks) = new :=
    List.filter_eq_self.mpr fun x hx => decide_eq_true (hnew x hx)
  conv_lhs => rw [← hkeep, ← List.filter_append, List.filter_filter]
  refine List.filter_congr fun x _ => ?_
  simp [Bool.and_comm]

/-! ## what a callback does -/

variable {t t' : TimedCallbacks}

/-- How the list changes in a row of calls: entries are removed, wherever they are, and entries with
running timers are added at the end. -/
structure Performed (t : TimedCallbacks) (x : Effects) : Prop where
  older : t.fresh ≤ x.after.fresh
  new : ∀ e ∈ x.added, t.fresh ≤ e.id ∧ e.expired = false
  below : ∀ k ∈ x.removed, k < x.after.fresh
  list : x.after.list = (t.list ++ x.added).filter fun e => e.id ∉ x.removed

theorem perform_spec (ops : List TimedOp) : ∀ t, Performed t (perform ops t) := by
  induction ops with
  | nil =>
    refine fun t => ⟨Nat.le_refl _, fun e he => absurd he List.not_mem_nil,
      fun k hk => absurd hk List.not_mem_nil, ?_⟩
    show t.list = (t.list ++ []).filter _
    rw [List.append_nil]
    exact (List.filter_eq_self.mpr fun e _ => rfl).symm
  | cons op ops ih =>
    intro t
    cases op with
    | add granted data callback =>
      cases granted with
      | false => exact ih t
      | true =>
        obtain ⟨h1, h2, h3, h4⟩ := ih (ocRiAddTimedEventCallbackTicks true data callback t).2
        have h1 : t.fresh + 1 ≤ _ := h1
        refine ⟨Nat.le_of_succ_le h1, fun e he => ?_, h3, h4.trans ?_⟩
        · rcases List.mem_cons.mp he with rfl | he
          · exact ⟨Nat.le_refl _, rfl⟩
          · exact ⟨Nat.le_of_succ_le (h2 e he).1, (h2 e he).2⟩
        · show List.filter _ ((t.list ++ [_]) ++ _) = List.filter _ (t.list ++ _ :: _)
          rw [List.append_assoc]
          rfl
    | remove data callback =>
      unfold perform ocRiRemoveTimedEventCallback
      split
      · exact ih t
      · rename_i x hx
        obtain ⟨h1, h2, h3, h4⟩ := ih (t.free x.id)
        have hlt := t.distinct.lt x (List.mem_of_find?_eq_some hx)
        refine ⟨h1, h2, fun k hk => ?_, h4.trans ?_⟩
        · rcases List.mem_cons.mp hk with rfl | hk
          · exact Nat.lt_of_lt_of_le hlt h1
          · exact h3 k hk
        · have hfree : (t.free x.id).list = t.list.filter fun e => e.id ∉ [x.id] :=
            List.filter_congr fun e _ => by simp
          rw [hfree]
          refine filter_behind EventCallback.id fun e he => ?_
          have : t.fresh ≤ e.id := (h2 e he).1
          rw [List.mem_singleton]
          omega

/-! ## a call -/

theorem free_list (id : Nat) (t : TimedCallbacks) :
    (t.free id).list = t.list.filter fun e => e.id ∉ [id] :=
  List.filter_congr fun e _ => by simp

theorem restart_registrations (id : Nat) (t : TimedCallbacks) :
    (t.restart id).list.map EventCallback.registration = t.list.map EventCallback.registration := by
  show (t.list.map _).map _ = _
  rw [List.map_map]
  refine List.map_congr_left fun e _ => ?_
  show EventCallback.registration (if e.id = id then _ else e) = _
  split <;> rfl

theorem mem_restart {id : Nat} {e : EventCallback} (he : e ∈ (t.restart id).list)
    (hx : e.expired = true) : e ∈ t.list ∧ e.id ≠ id := by
  obtain ⟨e', hmem, rfl⟩ := List.mem_map.mp he
  by_cases hid : e'.id = id
  · rw [if_pos hid] at hx
    cases hx
  · rw [if_neg hid]
    exact ⟨hmem, hid⟩

theorem registration_filter (l : List EventCallback) (ks : List Nat) :
    (l.filter fun e => e.id ∉ ks).map EventCallback.registration =
      (l.map EventCallback.registration).filter fun x => x.1 ∉ ks := by
  rw [List.filter_map]
  rfl

/-- What a call does to the list.  An entry whose timer has expired stays as it is, unless it is the
one that is called, or is removed. -/
structure Settled (t : TimedCallbacks) (c : TimedCall) : Prop where
  older : t.fresh ≤ c.settled.fresh
  new : ∀ e ∈ c.effects.added, t.fresh ≤ e.id
  below : ∀ k ∈ c.gone, k < c.settled.fresh
  left : c.settled.list.map EventCallback.registration =
    ((t.list ++ c.effects.added).map EventCallback.registration).filter fun x => x.1 ∉ c.gone
  pending : ∀ e ∈ c.settled.list, e.expired = true → e ∈ t.list ∧ e.id ≠ c.entry.id
  waits : ∀ e ∈ t.list, e.id ≠ c.entry.id → e.id ∉ c.effects.removed → e ∈ c.settled.list

theorem Performed.settled {c : TimedCall} (h : Performed t c.effects) (he : c.entry ∈ t.list) :
    Settled t c := by
  obtain ⟨entry, next, effects, retval⟩ := c
  have hlt : entry.id < effects.after.fresh := Nat.lt_of_lt_of_le (t.distinct.lt entry he) h.older
  have hmem : ∀ e ∈ effects.after.list, e.expired = true → e ∈ t.list := by
    intro e he hx
    rw [h.list] at he
    rcases List.mem_append.mp (List.mem_of_mem_filter he) with he | he
    · exact he
    · exact absurd ((h.new e he).2.symm.trans hx) Bool.false_ne_true
  have hkeep : ∀ e ∈ t.list, e.id ∉ effects.removed → e ∈ effects.after.list := by
    intro e he hr
    rw [h.list]
    exact List.mem_filter.mpr ⟨List.mem_append_left _ he, decide_eq_true hr⟩
  cases retval with
  | ocEventDone =>
    refine ⟨h.older, fun e he => (h.new e he).1, fun k hk => ?_, ?_, fun e he hx => ?_,
      fun e he hid hr => ?_⟩
    · rcases List.mem_append.mp hk with hk | hk
      · exact h.below k hk
      · exact List.mem_singleton.mp hk ▸ hlt
    · show (effects.after.free entry.id).list.map _ = _
      rw [free_list, h.list, List.filter_filter, ← registration_filter]
      refine congrArg _ (List.filter_congr fun e _ => ?_)
      simp [TimedCall.gone, Bool.and_comm]
    · obtain ⟨he, hid⟩ := mem_remove.mp he
      exact ⟨hmem e he hx, hid⟩
    · exact mem_remove.mpr ⟨hkeep e he hr, hid⟩
  | ocEventContinue =>
    have hgone : TimedCall.gone ⟨entry, next, effects, .ocEventContinue⟩ = effects.removed :=
      List.append_nil _
    refine ⟨h.older, fun e he => (h.new e he).1, fun k hk => ?_, ?_, fun e he hx => ?_,
      fun e he hid hr => ?_⟩
    · exact h.below k (hgone ▸ hk)
    · show (effects.after.restart entry.id).list.map _ = _
      rw [restart_registrations, h.list, hgone, registration_filter]
    · obtain ⟨he, hid⟩ := mem_restart he hx
      exact ⟨hmem e he hx, hid⟩
    · exact List.mem_map.mpr ⟨e, hkeep e he hr, if_neg hid⟩

/-! ## a pass -/

variable {σ : Type} {t₀ : TimedCallbacks} {s : PollState σ}

/-- What holds in the middle of a pass over `t₀`: what has expired is old and has not been called
yet. -/
structure Midway (t₀ : TimedCallbacks) (s : PollState σ) : Prop where
  older : t₀.fresh ≤ s.timed.fresh
  careful : ∀ c ∈ s.calls, c.Careful
  pending : ∀ e ∈ s.timed.list, e.expired = true →
    e ∈ t₀.list ∧ e.id ∉ s.calls.map fun c => c.entry.id
  waits : ∀ e ∈ t₀.list, e.expired = true → e.id ∉ s.calls.map (fun c => c.entry.id) →
    e ∈ s.timed.list ∨ e.id ∈ removed s.calls
  once : (s.calls.map fun c => c.entry.id).Nodup
  only : ∀ c ∈ s.calls, c.entry ∈ t₀.list ∧ c.entry.expired = true
  inTurn : ∀ pre c post, s.calls = pre ++ c :: post → c.entry.id ∉ gone pre
  below : ∀ k ∈ gone s.calls, k < s.timed.fresh
  left : s.timed.list.map EventCallback.registration =
    ((t₀.list ++ added s.calls).map EventCallback.registration).filter fun x => x.1 ∉ gone s.calls

theorem added_snoc (calls : List TimedCall) (c : TimedCall) :
    added (calls ++ [c]) = added calls ++ c.effects.added := by
  unfold added
  rw [List.flatMap_append, List.flatMap_singleton]

theorem removed_snoc (calls : List TimedCall) (c : TimedCall) :
    removed (calls ++ [c]) = removed calls ++ c.effects.removed := by
  unfold removed
  rw [List.flatMap_append, List.flatMap_singleton]

theorem gone_snoc (calls : List TimedCall) (c : TimedCall) :
    gone (calls ++ [c]) = gone calls ++ c.gone := by
  unfold gone
  rw [List.flatMap_append, List.flatMap_singleton]

/-- what is on the list has not gone -/
theorem Midway.present (h : Midway t₀ s) {e : EventCallback} (he : e ∈ s.timed.list) :
    e.id ∉ gone s.calls := by
  have hmem := List.mem_map_of_mem (f := EventCallback.registration) he
  rw [h.left] at hmem
  exact of_decide_eq_true (List.mem_filter.mp hmem).2

theorem Midway.call (h : Midway t₀ s) {c : TimedCall} (he : c.entry ∈ s.timed.list)
    (hx : c.entry.expired = true) (hc : c.Careful) (hs : Settled s.timed c) (app : σ) :
    Midway t₀ ⟨c.settled, app, s.calls ++ [c]⟩ where
  older := Nat.le_trans h.older hs.older
  careful := by
    intro d hd
    rcases List.mem_append.mp hd with hd | hd
    · exact h.careful d hd
    · exact List.mem_singleton.mp hd ▸ hc
  pending := by
    intro e he hx
    obtain ⟨hmem, hid⟩ := hs.pending e he hx
    obtain ⟨hold, hnot⟩ := h.pending e hmem hx
    refine ⟨hold, ?_⟩
    rw [List.map_append, List.mem_append, not_or]
    exact ⟨hnot, fun hk => hid (List.mem_singleton.mp hk)⟩
  waits := by
    intro e hmem hx hnot
    rw [List.map_append, List.mem_append, not_or] at hnot
    show e ∈ c.settled.list ∨ e.id ∈ removed (s.calls ++ [c])
    rw [removed_snoc, List.mem_append]
    by_cases hr : e.id ∈ c.effects.removed
    · exact Or.inr (Or.inr hr)
    · rcases h.waits e hmem hx hnot.1 with hin | hr'
      · exact Or.inl (hs.waits e hin (fun hid => hnot.2 (List.mem_singleton.mpr hid)) hr)
      · exact Or.inr (Or.inl hr')
  once := by
    show ((s.calls ++ [c]).map _).Nodup
    rw [List.map_append]
    refine List.nodup_append.mpr ⟨h.once, List.nodup_singleton _, fun a ha b hb hab => ?_⟩
    rw [hab, List.mem_singleton.mp hb] at ha
    exact (h.pending c.entry he hx).2 ha
  only := by
    intro d hd
    rcases List.mem_append.mp hd with hd | hd
    · exact h.only d hd
    · rw [List.mem_singleton.mp hd]
      exact ⟨(h.pending c.entry he hx).1, hx⟩
  inTurn := by
    intro pre d post heq
    rcases List.eq_nil_or_concat' post with rfl | ⟨post, x, rfl⟩
    · obtain ⟨rfl, hd⟩ := List.append_inj' heq rfl
      rw [← List.singleton_inj.mp hd]
      exact h.present he
    · have heq : s.calls ++ [c] = (pre ++ d :: post) ++ [x] := by
        rw [List.append_assoc, List.cons_append]
        exact heq
      exact h.inTurn pre d post (List.append_inj' heq rfl).1
  below := by
    intro k hk
    have hk : k ∈ gone (s.calls ++ [c]) := hk
    rw [gone_snoc, List.mem_append] at hk
    rcases hk with hk | hk
    · exact Nat.lt_of_lt_of_le (h.below k hk) hs.older
    · exact hs.below k hk
  left := by
    show c.settled.list.map _ =
      List.filter (fun x : Nat × Nat × Nat => x.1 ∉ gone (s.calls ++ [c])) _
    rw [hs.left, List.map_append, h.left, gone_snoc, added_snoc]
    rw [filter_behind Prod.fst, ← List.map_append, List.append_assoc]
    intro x hx hk
    obtain ⟨e, he, rfl⟩ := List.mem_map.mp hx
    have := h.below e.id hk
    have := hs.new e he
    omega

/-! ## the loop -/

/-- a removed entry is not on the list -/
theorem Performed.absent {x : Effects} (h : Performed t x) {k : Nat} (hk : k ∈ x.removed) :
    ∀ e ∈ x.after.list, e.id ≠ k := by
  intro e he hid
  rw [h.list] at he
  exact of_decide_eq_true (List.mem_filter.mp he).2 (hid ▸ hk)

/-- one entry less has expired -/
theorem Settled.fewer {c : TimedCall} (h : Settled t c) (he : c.entry ∈ t.list)
    (hx : c.entry.expired = true) :
    c.settled.list.countP (·.expired) < t.list.countP (·.expired) := by
  have hsub : c.entry :: c.settled.list.filter (·.expired) ⊆ t.list.filter (·.expired) := by
    intro e hmem
    rcases List.mem_cons.mp hmem with rfl | hmem
    · exact List.mem_filter.mpr ⟨he, hx⟩
    · obtain ⟨hmem, hx⟩ := List.mem_filter.mp hmem
      exact List.mem_filter.mpr ⟨(h.pending e hmem hx).1, hx⟩
  have hnodup : (c.entry :: c.settled.list.filter (·.expired)).Nodup := by
    refine List.nodup_cons.mpr ⟨fun hmem => ?_, c.settled.distinct.nodup.of_map.filter _⟩
    obtain ⟨hmem, hx⟩ := List.mem_filter.mp hmem
    exact (h.pending _ hmem hx).2 rfl
  have hlen := List.Nodup.length_le_of_subset hnodup hsub
  rw [List.countP_eq_length_filter, List.countP_eq_length_filter]
  exact hlen

/-- where the loop goes on, and that it has nothing to come back for -/
theorem Performed.resume {c : TimedCall} (h : Performed t c.effects) (hc : c.Careful)
    {pre suf : List EventCallback} (ht : t.list = pre ++ c.entry :: suf)
    (hpre : ∀ e ∈ pre, e.expired = false) (hnext : c.next = suf.head?.map EventCallback.id) :
    ∃ pre' suf', c.settled.list = pre' ++ suf' ∧ (∀ e ∈ pre', e.expired = false) ∧
      c.resume = suf'.head?.map EventCallback.id := by
  obtain ⟨entry, next, effects, retval⟩ := c
  cases retval with
  | ocEventDone => exact ⟨[], _, rfl, fun e he => absurd he List.not_mem_nil, rfl⟩
  | ocEventContinue =>
    have hlist : (effects.after.restart entry.id).list =
        ((pre ++ [entry] ++ (suf ++ effects.added)).filter fun e => e.id ∉ effects.removed).map
          fun e => if e.id = entry.id then { e with expired := false } else e := by
      show effects.after.list.map _ = _
      rw [h.list, ht]
      simp
    -- in front nothing has expired, and the timer of the entry runs again
    have hfront : ∀ l : List EventCallback, (∀ e ∈ l, e.expired = true → e.id = entry.id) →
        ∀ e ∈ (l.filter fun e => e.id ∉ effects.removed).map
          (fun e => if e.id = entry.id then { e with expired := false } else e),
            e.expired = false := by
      intro l hl e he
      obtain ⟨e', hmem, rfl⟩ := List.mem_map.mp he
      by_cases hid : e'.id = entry.id
      · rw [if_pos hid]
      · rw [if_neg hid]
        exact Bool.eq_false_iff.mpr fun hx => hid (hl e' (List.mem_of_mem_filter hmem) hx)
    have hown : ∀ e ∈ pre ++ [entry], e.expired = true → e.id = entry.id := by
      intro e he hx
      rcases List.mem_append.mp he with he | he
      · exact absurd ((hpre e he).symm.trans hx) Bool.false_ne_true
      · rw [List.mem_singleton.mp he]
    cases suf with
    | nil =>
      refine ⟨_, [], (List.append_nil _).symm, ?_, hnext⟩
      show ∀ e ∈ (effects.after.restart entry.id).list, _
      rw [hlist]
      refine hfront _ fun e he hx => ?_
      rcases List.mem_append.mp he with he | he
      · exact hown e he hx
      · exact absurd ((h.new e he).2.symm.trans hx) Bool.false_ne_true
    | cons x suf =>
      have hx : x.id ∉ effects.removed := hc.2 rfl x.id hnext
      have hpos : (x :: (suf ++ effects.added)).filter (fun e => e.id ∉ effects.removed) =
          x :: (suf ++ effects.added).filter fun e => e.id ∉ effects.removed :=
        List.filter_cons_of_pos (decide_eq_true hx)
      rw [List.filter_append, List.map_append, List.cons_append, hpos, List.map_cons] at hlist
      refine ⟨_, _, hlist, hfront _ hown, ?_⟩
      show next = some (EventCallback.id (if x.id = entry.id then _ else x))
      rw [show next = some x.id from hnext]
      split <;> rfl

/-- how a pass ends -/
def Ended (t₀ : TimedCallbacks) : PollResult σ → Prop
  | .finished s => Midway t₀ s ∧ ∀ e ∈ s.timed.list, e.expired = false
  | .dangling s => ∃ c ∈ s.calls, ¬ c.Careful

/-- the loop finds the entry that it points at, and the one behind it -/
theorem poll_find {pre suf : List EventCallback} {e : EventCallback}
    (hs : s.timed.list = pre ++ e :: suf) :
    s.timed.list.find? (fun e' => e'.id == e.id) = some e ∧
      Cursor.after EventCallback.id e.id s.timed.list = suf.head?.map EventCallback.id := by
  have hn : e.id ∉ pre.map EventCallback.id := by
    have := s.timed.distinct.nodup
    rw [hs, List.map_append, List.map_cons] at this
    intro hmem
    exact (List.nodup_append.mp this).2.2 _ hmem _ List.mem_cons_self rfl
  rw [hs]
  exact ⟨Cursor.find?_append hn suf, Cursor.after_append hn suf⟩

/-- the round of an entry that has expired -/
theorem poll_called (B : Application σ) {pre suf : List EventCallback} {e : EventCallback}
    (hs : s.timed.list = pre ++ e :: suf) (hx : e.expired = true) (m : Nat) {x : TimedCall × σ}
    (hcall : s.call B e (suf.head?.map EventCallback.id) = x) :
    pollEventCallbackTimers B (m + 1) (some e.id) s =
      if (x.1.effects.after.list.any fun e' => e'.id == e.id) = false then
        some (.dangling ⟨x.1.effects.after, x.2, s.calls ++ [x.1]⟩)
      else pollEventCallbackTimers B m x.1.resume ⟨x.1.settled, x.2, s.calls ++ [x.1]⟩ := by
  obtain ⟨hfind, hafter⟩ := poll_find hs
  conv_lhs => unfold pollEventCallbackTimers
  rw [hfind, ← hcall]
  show (if e.expired = true then _ else _) = _
  rw [if_pos hx, hafter]

/-- the round of an entry whose timer is running -/
theorem poll_running (B : Application σ) {pre suf : List EventCallback} {e : EventCallback}
    (hs : s.timed.list = pre ++ e :: suf) (hx : e.expired = false) (m : Nat) :
    pollEventCallbackTimers B (m + 1) (some e.id) s =
      pollEventCallbackTimers B m (suf.head?.map EventCallback.id) s := by
  obtain ⟨hfind, hafter⟩ := poll_find hs
  conv_lhs => unfold pollEventCallbackTimers
  rw [hfind]
  show (if e.expired = true then _ else _) = _
  rw [if_neg (Bool.eq_false_iff.mp hx), hafter]

/-- the entry that has been called is on the list still, unless it was removed -/
theorem Performed.any_iff {x : Effects} (h : Performed t x) {e : EventCallback} (he : e ∈ t.list) :
    (x.after.list.any fun e' => e'.id == e.id) = false ↔ e.id ∈ x.removed := by
  constructor
  · intro hany
    by_contra hr
    have hmem : e ∈ x.after.list := by
      rw [h.list]
      exact List.mem_filter.mpr ⟨List.mem_append_left _ he, decide_eq_true hr⟩
    exact List.any_eq_false.mp hany e hmem (beq_self_eq_true _)
  · intro hr
    exact List.any_eq_false.mpr fun e' he' hid => h.absent hr e' he' (beq_iff_eq.mp hid)

/-- a pass does not survive a call that is not careful -/
theorem poll_careless (B : Application σ) {pre suf : List EventCallback} {e : EventCallback}
    (hs : s.timed.list = pre ++ e :: suf) (hx : e.expired = true) {x : TimedCall × σ}
    (hcall : s.call B e (suf.head?.map EventCallback.id) = x) (hc : ¬ x.1.Careful) :
    ∃ s', (∀ m, pollEventCallbackTimers B (m + 2) (some e.id) s = some (.dangling s')) ∧
      ∃ c ∈ s'.calls, ¬ c.Careful := by
  have he : e ∈ s.timed.list := hs ▸ List.mem_append_right _ List.mem_cons_self
  have hp : Performed s.timed x.1.effects := hcall ▸ perform_spec _ _
  have hentry : x.1.entry = e := hcall ▸ rfl
  by_cases hr : e.id ∈ x.1.effects.removed
  · refine ⟨⟨x.1.effects.after, x.2, s.calls ++ [x.1]⟩, fun m => ?_, x.1,
      List.mem_append_right _ (List.mem_singleton_self _), hc⟩
    rw [poll_called B hs hx (m + 1) hcall, if_pos ((hp.any_iff he).mpr hr)]
  · -- the loop goes on at an entry that is not there any more
    obtain ⟨k, hret, hnext, hk⟩ : ∃ k, x.1.retval = .ocEventContinue ∧ x.1.next = some k ∧
        k ∈ x.1.effects.removed := by
      by_contra hno
      refine hc ⟨hentry ▸ hr, fun hret k hnext hk => hno ⟨k, hret, hnext, hk⟩⟩
    have hresume : x.1.resume = some k := by
      unfold TimedCall.resume
      rw [hret]
      exact hnext
    have hfind : x.1.settled.list.find? (fun e' => e'.id == k) = none := by
      refine List.find?_eq_none.mpr fun e' he' hid => ?_
      have he' : e' ∈ (x.1.effects.after.restart x.1.entry.id).list := by
        unfold TimedCall.settled at he'
        rw [hret] at he'
        exact he'
      obtain ⟨e'', hmem, rfl⟩ := List.mem_map.mp he'
      refine hp.absent hk e'' hmem ?_
      rw [← beq_iff_eq.mp hid]
      split <;> rfl
    refine ⟨⟨x.1.settled, x.2, s.calls ++ [x.1]⟩, fun m => ?_, x.1,
      List.mem_append_right _ (List.mem_singleton_self _), hc⟩
    rw [poll_called B hs hx (m + 1) hcall, if_neg fun ha => hr ((hp.any_iff he).mp ha), hresume]
    unfold pollEventCallbackTimers
    rw [hfind]

/-- The loop from an entry on, if nothing in front of it has expired.  Every call leaves fewer expired
entries, and between two calls the loop comes closer to the end. -/
theorem Midway.poll (B : Application σ) (N : Nat) : ∀ (s : PollState σ) (pre suf : List EventCallback),
    Midway t₀ s → s.timed.list.countP (·.expired) = N → s.timed.list = pre ++ suf →
    (∀ e ∈ pre, e.expired = false) → ∃ n r, (∀ m, n ≤ m →
      pollEventCallbackTimers B m (suf.head?.map EventCallback.id) s = some r) ∧ Ended t₀ r := by
  induction N using Nat.strongRecOn with
  | ind N ihN =>
    intro s pre suf h hN hs hpre
    induction suf generalizing pre with
    | nil =>
      refine ⟨0, .finished s, fun m _ => ?_, h, ?_⟩
      · cases m <;> rfl
      · rw [hs, List.append_nil]
        exact hpre
    | cons e suf ih =>
      have he : e ∈ s.timed.list := hs ▸ List.mem_append_right _ List.mem_cons_self
      cases hx : e.expired with
      | false =>
        obtain ⟨n, r, hr, hend⟩ := ih (pre ++ [e]) (by rw [hs, List.append_assoc]; rfl) (by
          intro e' he'
          rcases List.mem_append.mp he' with he' | he'
          · exact hpre e' he'
          · exact List.mem_singleton.mp he' ▸ hx)
        refine ⟨n + 1, r, fun m hm => ?_, hend⟩
        obtain ⟨m, rfl⟩ : ∃ k, m = k + 1 := ⟨m - 1, by omega⟩
        exact (poll_running B hs hx m).trans (hr m (by omega))
      | true =>
        generalize hcall : s.call B e (suf.head?.map EventCallback.id) = x
        have hp : Performed s.timed x.1.effects := hcall ▸ perform_spec _ _
        have hentry : x.1.entry = e := hcall ▸ rfl
        by_cases hc : x.1.Careful
        · have hset : Settled s.timed x.1 := hp.settled (hentry ▸ he)
          have hnext := h.call (hentry ▸ he) (hentry ▸ hx) hc hset x.2
          obtain ⟨pre', suf', hs', hpre', hres⟩ := hp.resume hc (hentry ▸ hs) hpre (hcall ▸ rfl)
          obtain ⟨n, r, hr, hend⟩ := ihN _ (hN ▸ hset.fewer (hentry ▸ he) (hentry ▸ hx))
            ⟨x.1.settled, x.2, s.calls ++ [x.1]⟩ pre' suf' hnext rfl hs' hpre'
          refine ⟨n + 1, r, fun m hm => ?_, hend⟩
          obtain ⟨m, rfl⟩ : ∃ k, m = k + 1 := ⟨m - 1, by omega⟩
          have hr := hr m (by omega)
          rw [← hres] at hr
          refine (poll_called B hs hx m hcall).trans ?_
          rw [if_neg fun ha => hc.1 (hentry ▸ (hp.any_iff he).mp ha)]
          exact hr
        · obtain ⟨s', hd, hend⟩ := poll_careless B hs hx hcall hc
          refine ⟨2, .dangling s', fun m hm => ?_, hend⟩
          obtain ⟨m, rfl⟩ : ∃ k, m = k + 2 := ⟨m - 2, by omega⟩
          exact hd m

theorem Midway.start (t₀ : TimedCallbacks) (app : σ) : Midway t₀ ⟨t₀, app, []⟩ where
  older := Nat.le_refl _
  careful := fun _ hc => absurd hc List.not_mem_nil
  pending := fun _ he _ => ⟨he, List.not_mem_nil⟩
  waits := fun _ he _ _ => Or.inl he
  once := List.nodup_nil
  only := fun _ hc => absurd hc List.not_mem_nil
  inTurn := fun pre _ _ heq => absurd heq.symm (by simp)
  below := fun _ hk => absurd hk List.not_mem_nil
  left := by
    show _ = ((t₀.list ++ []).map _).filter _
    rw [List.append_nil]
    exact (List.filter_eq_self.mpr fun _ _ => rfl).symm

theorem countP_called (calls : List TimedCall) (id : Nat) :
    calls.countP (·.entry.id == id) = (calls.map fun c => c.entry.id).count id := by
  rw [List.count_eq_countP, List.countP_map]
  rfl

/-- nothing that has expired is left -/
theorem Midway.orderly (h : Midway t₀ s) (hdone : ∀ e ∈ s.timed.list, e.expired = false) :
    Orderly t₀ s where
  called := by
    intro e he hx
    rw [countP_called]
    by_cases hmem : e.id ∈ s.calls.map fun c => c.entry.id
    · exact Or.inl (List.count_eq_one_of_mem h.once hmem)
    · refine Or.inr ⟨List.count_eq_zero.mpr hmem, ?_⟩
      rcases h.waits e he hx hmem with hin | hr
      · exact absurd ((hdone e hin).symm.trans hx) Bool.false_ne_true
      · exact hr
  only := h.only
  inTurn := h.inTurn
  left := h.left

/-- **Timed callbacks.**  Whatever callbacks do, a pass ends; and it touches no entry that has been freed
and does what is wanted if and only if every callback that is called leaves its own entry alone, and the
one behind it as well if it is to be called again. -/
theorem pollEventCallbackTimers_survives_iff (B : Application σ) (t₀ : TimedCallbacks) (app : σ) :
    ∃ n r, (∀ m, n ≤ m → pollEventCallbackTimers B m (t₀.list.head?.map EventCallback.id)
        ⟨t₀, app, []⟩ = some r) ∧
      (Survives t₀ r ↔ ∀ c ∈ r.state.calls, c.Careful) := by
  obtain ⟨n, r, hr, hend⟩ := (Midway.start t₀ app).poll B _ _ [] t₀.list rfl rfl
    fun _ he => absurd he List.not_mem_nil
  refine ⟨n, r, hr, ?_⟩
  cases r with
  | finished s => exact iff_of_true (hend.1.orderly hend.2) hend.1.careful
  | dangling s =>
    obtain ⟨c, hc, hno⟩ := hend
    exact iff_of_false id fun hall => hno (hall c hc)

/-- two entries that have expired -/
def twoExpired : TimedCallbacks where
  list := [⟨0, 1, 10, true⟩, ⟨1, 2, 20, true⟩]
  fresh := 2
  distinct := ⟨by decide, by decide⟩

/-- the first callback removes an entry and returns `retval`; others are done -/
def removing (data callback : Nat) (retval : EventRetval) : Application Unit := fun called _ _ =>
  if called = 1 then ([.remove data callback], retval, ()) else ([], .ocEventDone, ())

/-- a callback removes itself, or the one behind it, and is to be called again -/
theorem poll_dangling :
    (∃ s, pollEventCallbackTimers (removing 10 1 .ocEventDone) 4 (some 0) ⟨twoExpired, (), []⟩ =
        some (.dangling s)) ∧
      ∃ s, pollEventCallbackTimers (removing 20 2 .ocEventContinue) 4 (some 0) ⟨twoExpired, (), []⟩ =
        some (.dangling s) :=
  ⟨⟨_, rfl⟩, ⟨_, rfl⟩⟩

end Coap
