import Iotivity.Lib.RingQueue

/-!
# The event queue: `oc_process.c`

`oc_process_post` puts an event behind the last one, `do_event` takes the first.  With
`OC_DYNAMIC_ALLOCATION` a full ring is doubled, else the post is refused.  A pointer is a number, 0 is
`NULL`; the calls that `do_event` makes for the event it has taken are those of the caller here, and
what their handlers post comes behind.  The counters of the fixed ring are bytes; those of the growing
one have 64 bits, and an array long enough for them to wrap cannot be allocated.

* `Valid.doEvent`, `Valid.store`, `Valid.grow`   what the operations do to the events in the ring;
* `fifo_order`             what a queue delivers is what it has accepted, in that order;
* `queue_refines`          both rings answer every sequence of calls as a queue does, the growing one as
                           one without a bound, the fixed one as one that refuses an eleventh event.
-/

namespace Process
open Function RingQueue

/-! ## the queue of the source -/

/-- `struct event_data` -/
structure EventData where
  ev : UInt8
  data : Nat
  p : Nat
deriving DecidableEq

/-- `memset(…, 0, sizeof(struct event_data))` -/
def EventData.zero : EventData := ⟨0, 0, 0⟩

/-- `events`, with `OC_PROCESS_NUMEVENTS`, `nevents` and `fevent` -/
structure EventQueue where
  events : Nat → EventData
  numEvents : Nat
  nevents : Nat
  fevent : Nat

/-- `OC_PROCESS_ERR_OK`, `OC_PROCESS_ERR_FULL` -/
def errOk : Nat := 0
def errFull : Nat := 1

/-- the end of `oc_process_post`; `wrap` is the conversion to the type of the counters -/
def store (wrap : Nat → Nat) (q : EventQueue) (e : EventData) : EventQueue :=
  let snum := wrap (q.fevent + q.nevents) % q.numEvents
  { q with events := update q.events snum e, nevents := wrap (q.nevents + 1) }

/-- `oc_process_post` with the fixed array -/
def postFixed (q : EventQueue) (e : EventData) : Nat × EventQueue :=
  if q.nevents = q.numEvents then (errFull, q) else (errOk, store (· % 256) q e)

/-- the body of the loop that moves the events, with `j` -/
def growStep (numEvents nevents n : Nat) (x : (Nat → EventData) × Nat) (i : Nat) :
    (Nat → EventData) × Nat :=
  let x := if i < nevents then (update x.1 (numEvents - n + x.2) (x.1 i), x.2 + 1) else x
  (update x.1 i .zero, x.2)

/-- the array is doubled; `fresh` is what `realloc` leaves in an array of this size -/
def grow (fresh : Nat → Nat → EventData) (q : EventQueue) : EventQueue :=
  let numEvents := 2 * q.numEvents
  let events := fun k => if k < q.numEvents then q.events k else fresh numEvents k
  let n := q.nevents - q.fevent
  { events := ((List.range' q.fevent (numEvents - n - q.fevent)).foldl
      (growStep numEvents q.nevents n) (events, 0)).1
    numEvents := numEvents
    nevents := q.nevents
    fevent := numEvents - n }

/-- `oc_process_post` with `OC_DYNAMIC_ALLOCATION` -/
def postDynamic (fresh : Nat → Nat → EventData) (q : EventQueue) (e : EventData) : Nat × EventQueue :=
  let q := if q.nevents = q.numEvents then grow fresh q else q
  (errOk, store id q e)

/-- the head of `do_event`: the event it delivers -/
def doEvent (q : EventQueue) : Option EventData × EventQueue :=
  if 0 < q.nevents then
    (some (q.events q.fevent),
      { q with fevent := (q.fevent + 1) % q.numEvents, nevents := q.nevents - 1 })
  else (none, q)

/-- `oc_process_init` with `OC_PROCESS_NUMEVENTS` as it is -/
def ocProcessInit (numEvents : Nat) : EventQueue := ⟨fun _ => .zero, numEvents, 0, 0⟩

/-! ## what the operations do to the events -/

/-- the events in the ring, the oldest first -/
def EventQueue.pending (q : EventQueue) : List EventData := elements q.events q.numEvents q.fevent q.nevents

/-- the counters fit the ring -/
structure Valid (q : EventQueue) : Prop where
  fevent : q.fevent < q.numEvents
  nevents : q.nevents ≤ q.numEvents

theorem length_pending (q : EventQueue) : q.pending.length = q.nevents := length_elements

variable {q : EventQueue}

theorem Valid.init {numEvents : Nat} (h : 0 < numEvents) : Valid (ocProcessInit numEvents) :=
  ⟨h, Nat.zero_le _⟩

theorem Valid.doEvent (h : Valid q) :
    Valid (doEvent q).2 ∧ (doEvent q).2.numEvents = q.numEvents ∧
      (doEvent q).1 = q.pending.head? ∧ (doEvent q).2.pending = q.pending.tail := by
  unfold Process.doEvent
  split
  · next hpos =>
    obtain ⟨n, hn⟩ := Nat.exists_eq_add_of_le' hpos
    have hlt : (q.fevent + 1) % q.numEvents < q.numEvents :=
      Nat.mod_lt _ (Nat.lt_of_le_of_lt (Nat.zero_le _) h.fevent)
    have hpop : q.pending = q.events q.fevent ::
        elements q.events q.numEvents ((q.fevent + 1) % q.numEvents) n := by
      rw [EventQueue.pending, hn, elements_pop, Nat.mod_eq_of_lt h.fevent]
    refine ⟨⟨hlt, (Nat.sub_le _ _).trans h.nevents⟩, rfl, by rw [hpop]; rfl, ?_⟩
    rw [hpop, EventQueue.pending]
    show elements _ _ _ (q.nevents - 1) = _
    rw [hn]
    rfl
  · next hpos =>
    have hnil : q.pending = [] := List.eq_nil_of_length_eq_zero (by rw [length_pending]; omega)
    exact ⟨h, rfl, by rw [hnil]; rfl, by rw [hnil]; rfl⟩

/-- with room in the ring and counters that do not wrap, the event goes behind the others -/
theorem Valid.store (h : Valid q) (wrap : Nat → Nat) (hroom : q.nevents < q.numEvents)
    (hwrap : ∀ k, k ≤ 2 * q.numEvents → wrap k = k) (e : EventData) :
    Valid (store wrap q e) ∧ (store wrap q e).numEvents = q.numEvents ∧
      (store wrap q e).pending = q.pending ++ [e] := by
  have hf := h.fevent
  have hsum : wrap (q.fevent + q.nevents) = q.fevent + q.nevents := hwrap _ (by omega)
  have hcount : wrap (q.nevents + 1) = q.nevents + 1 := hwrap _ (by omega)
  unfold Process.store
  rw [hsum, hcount]
  exact ⟨⟨hf, hroom⟩, rfl, elements_push hroom e⟩

/-! ## growing -/

/-- the loop of `oc_process_post` behind `m` rounds, on the cells `c` of a full ring of `N` -/
structure MovedTo (c : Nat → EventData) (N f m : Nat) (x : (Nat → EventData) × Nat) : Prop where
  count : x.2 = min m (N - f)
  kept : ∀ k, k < f ∨ f + m ≤ k ∧ k < N → x.1 k = c k
  moved : ∀ k, f ≤ k → k < f + m → k < N → x.1 (N + k) = c k

theorem MovedTo.step {c : Nat → EventData} {N f m : Nat} {x : (Nat → EventData) × Nat}
    (h : MovedTo c N f m x) (hf : f < N) (hm : m < N) :
    MovedTo c N f (m + 1) (growStep (2 * N) N (N - f) x (f + m)) := by
  obtain ⟨hcount, hkept, hmoved⟩ := h
  unfold growStep
  by_cases hi : f + m < N
  · -- the event of this cell has its place in the new half
    have htarget : 2 * N - (N - f) + x.2 = N + (f + m) := by omega
    rw [if_pos hi, htarget]
    dsimp only
    refine ⟨by omega, fun k hk => ?_, fun k h1 h2 h3 => ?_⟩
    · dsimp only
      rw [update_of_ne (by omega), update_of_ne (by omega)]
      exact hkept k (by omega)
    · dsimp only
      rw [update_of_ne (by omega)]
      rcases Nat.lt_or_eq_of_le (Nat.le_of_lt_succ (show k < f + m + 1 by omega)) with hlt | rfl
      · rw [update_of_ne (by omega)]
        exact hmoved k h1 hlt h3
      · rw [update_self]
        exact hkept _ (.inr ⟨Nat.le_refl _, h3⟩)
  · rw [if_neg hi]
    dsimp only
    refine ⟨by omega, fun k hk => ?_, fun k h1 h2 h3 => ?_⟩
    · dsimp only
      rw [update_of_ne (by omega)]
      exact hkept k (by omega)
    · dsimp only
      rw [update_of_ne (by omega)]
      exact hmoved k h1 (by omega) h3

theorem movedTo_loop (c : Nat → EventData) {N f m : Nat} (hf : f < N) (hm : m ≤ N) :
    MovedTo c N f m ((List.range' f m).foldl (growStep (2 * N) N (N - f)) (c, 0)) := by
  induction m with
  | zero => exact ⟨(Nat.zero_min _).symm, fun _ _ => rfl, fun k h1 h2 _ => absurd h2 (by omega)⟩
  | succ m ih =>
    rw [List.range'_1_concat, List.foldl_append]
    exact (ih (Nat.le_of_succ_le hm)).step hf hm

/-- a full ring of twice the size holds the same events, and has room -/
theorem Valid.grow (h : Valid q) (hfull : q.nevents = q.numEvents) (fresh : Nat → Nat → EventData) :
    Valid (grow fresh q) ∧ (grow fresh q).nevents < (grow fresh q).numEvents ∧
      (grow fresh q).pending = q.pending := by
  obtain ⟨events, N, n, f⟩ := q
  obtain rfl : n = N := hfull
  have hf : f < n := h.fevent
  have hrounds : 2 * n - (n - f) - f = n := by omega
  have hfirst : 2 * n - (n - f) = n + f := by omega
  have hm := movedTo_loop (fun k => if k < n then events k else fresh (2 * n) k) hf (Nat.le_refl n)
  unfold Process.grow
  dsimp only
  rw [hrounds, hfirst]
  refine ⟨⟨show n + f < 2 * n by omega, show n ≤ 2 * n by omega⟩, show n < 2 * n by omega, ?_⟩
  refine elements_grow hf (fun k hk => ?_) fun k h1 h2 => ?_
  · exact (hm.kept k (.inl hk)).trans (if_pos (hk.trans hf))
  · exact (hm.moved k h1 (by omega) h2).trans (if_pos h2)

theorem Valid.postDynamic (h : Valid q) (fresh : Nat → Nat → EventData) (e : EventData) :
    Valid (postDynamic fresh q e).2 ∧ (postDynamic fresh q e).1 = errOk ∧
      (postDynamic fresh q e).2.pending = q.pending ++ [e] := by
  unfold Process.postDynamic
  by_cases hfull : q.nevents = q.numEvents
  · rw [if_pos hfull]
    obtain ⟨hv, hroom, hp⟩ := h.grow hfull fresh
    obtain ⟨hv', -, hp'⟩ := hv.store id hroom (fun _ _ => rfl) e
    exact ⟨hv', rfl, hp ▸ hp'⟩
  · rw [if_neg hfull]
    obtain ⟨hv, -, hp⟩ := h.store id (Nat.lt_of_le_of_ne h.nevents hfull) (fun _ _ => rfl) e
    exact ⟨hv, rfl, hp⟩

theorem Valid.postFixed (h : Valid q) (hN : q.numEvents = 10) (e : EventData) :
    Valid (postFixed q e).2 ∧ (postFixed q e).2.numEvents = 10 ∧
      if q.pending.length = 10 then (postFixed q e).1 = errFull ∧ (postFixed q e).2 = q
      else (postFixed q e).1 = errOk ∧ (postFixed q e).2.pending = q.pending ++ [e] := by
  rw [length_pending]
  unfold Process.postFixed
  rw [hN]
  by_cases hfull : q.nevents = 10
  · rw [if_pos hfull, if_pos hfull]
    exact ⟨h, hN, rfl, rfl⟩
  · rw [if_neg hfull, if_neg hfull]
    have hroom : q.nevents < q.numEvents := Nat.lt_of_le_of_ne h.nevents (hN ▸ hfull)
    obtain ⟨hv, hn, hp⟩ := h.store (· % 256) hroom
      (fun k hk => Nat.mod_eq_of_lt (by omega)) e
    exact ⟨hv, hn.trans hN, rfl, hp⟩

/-! ## runs -/

/-- a call from outside or from a handler, and an event taken by `do_event` -/
inductive Call where
  | post (e : EventData)
  | deliver

inductive Answer where
  | posted (result : Nat)
  | delivered (e : Option EventData)

/-- a ring under one of the two ways to post -/
def ringStep (post : EventQueue → EventData → Nat × EventQueue) (q : EventQueue) :
    Call → Answer × EventQueue
  | .post e => (.posted (post q e).1, (post q e).2)
  | .deliver => (.delivered (doEvent q).1, (doEvent q).2)

/-- a queue that takes no more events at its bound -/
def fifoStep (bound : Option Nat) (l : List EventData) : Call → Answer × List EventData
  | .post e => if bound = some l.length then (.posted errFull, l) else (.posted errOk, l ++ [e])
  | .deliver => (.delivered l.head?, l.tail)

theorem fifoStep_full {bound : Option Nat} {l : List EventData} (h : bound = some l.length)
    (e : EventData) : fifoStep bound l (.post e) = (.posted errFull, l) := if_pos h

theorem fifoStep_room {bound : Option Nat} {l : List EventData} (h : bound ≠ some l.length)
    (e : EventData) : fifoStep bound l (.post e) = (.posted errOk, l ++ [e]) := if_neg h

section
variable {σ τ : Type}

/-- the answers to a sequence of calls -/
def answers (step : σ → Call → Answer × σ) : σ → List Call → List Answer
  | _, [] => []
  | s, c :: calls => (step s c).1 :: answers step (step s c).2 calls

/-- the state behind them -/
def after (step : σ → Call → Answer × σ) (s : σ) (calls : List Call) : σ :=
  calls.foldl (fun s c => (step s c).2) s

theorem answers_cons (step : σ → Call → Answer × σ) (s : σ) (c : Call) (calls : List Call) :
    answers step s (c :: calls) = (step s c).1 :: answers step (step s c).2 calls := rfl

theorem after_cons (step : σ → Call → Answer × σ) (s : σ) (c : Call) (calls : List Call) :
    after step s (c :: calls) = after step (step s c).2 calls := rfl

/-- a relation that the steps keep, and under which they answer the same -/
structure Simulates (R : σ → τ → Prop) (step : σ → Call → Answer × σ) (step' : τ → Call → Answer × τ) :
    Prop where
  answer : ∀ s t c, R s t → (step s c).1 = (step' t c).1
  next : ∀ s t c, R s t → R (step s c).2 (step' t c).2

variable {R : σ → τ → Prop} {step : σ → Call → Answer × σ} {step' : τ → Call → Answer × τ} {s : σ} {t : τ}

theorem Simulates.after (h : Simulates R step step') (hs : R s t) (calls : List Call) :
    R (after step s calls) (after step' t calls) := by
  induction calls generalizing s t with
  | nil => exact hs
  | cons c calls ih => exact ih (h.next s t c hs)

theorem Simulates.answers (h : Simulates R step step') (hs : R s t) (calls : List Call) :
    answers step s calls = answers step' t calls := by
  induction calls generalizing s t with
  | nil => rfl
  | cons c calls ih =>
    rw [answers_cons, answers_cons, h.answer s t c hs, ih (h.next s t c hs)]

end

/-! ## the queue without cells -/

/-- the events that were accepted, in the order of the posts -/
def accepted : List Call → List Answer → List EventData
  | .post e :: calls, .posted r :: as => if r = errOk then e :: accepted calls as else accepted calls as
  | _ :: calls, _ :: as => accepted calls as
  | _, _ => []

/-- the events that were delivered -/
def deliveries (as : List Answer) : List EventData :=
  as.filterMap fun a => match a with
    | .delivered e => e
    | .posted _ => none

/-- a queue delivers what it has accepted, in that order and each once; the rest is still there -/
theorem fifo_order (bound : Option Nat) (l : List EventData) (calls : List Call) :
    l ++ accepted calls (answers (fifoStep bound) l calls) =
      deliveries (answers (fifoStep bound) l calls) ++ after (fifoStep bound) l calls := by
  induction calls generalizing l with
  | nil => exact List.append_nil l
  | cons c calls ih =>
    rw [answers_cons, after_cons]
    cases c with
    | post e =>
      by_cases hb : bound = some l.length
      · rw [fifoStep_full hb]
        exact ih l
      · rw [fifoStep_room hb]
        have hstep := ih (l ++ [e])
        rw [List.append_assoc] at hstep
        exact hstep
    | deliver =>
      cases l with
      | nil => exact ih []
      | cons e l => exact congrArg (e :: ·) (ih l)

/-! ## the rings are queues -/

/-- a ring with these events in it, of the fixed size if there is one -/
def Holds (bound : Option Nat) (q : EventQueue) (l : List EventData) : Prop :=
  Valid q ∧ q.pending = l ∧ ∀ N, bound = some N → q.numEvents = N

theorem fixed_simulates : Simulates (Holds (some 10)) (ringStep postFixed) (fifoStep (some 10)) := by
  have key : ∀ q l c, Holds (some 10) q l →
      (ringStep postFixed q c).1 = (fifoStep (some 10) l c).1 ∧
        Holds (some 10) (ringStep postFixed q c).2 (fifoStep (some 10) l c).2 := by
    rintro q _ c ⟨hv, rfl, hN⟩
    have hN := hN 10 rfl
    cases c with
    | post e =>
      obtain ⟨hv', hN', hpost⟩ := hv.postFixed hN e
      by_cases hfull : q.pending.length = 10
      · rw [if_pos hfull] at hpost
        rw [fifoStep_full (congrArg some hfull.symm)]
        refine ⟨congrArg Answer.posted hpost.1, hv', ?_, fun N h => (Option.some.inj h) ▸ hN'⟩
        exact congrArg EventQueue.pending hpost.2
      · rw [if_neg hfull] at hpost
        rw [fifoStep_room (fun h => hfull (Option.some.inj h).symm)]
        exact ⟨congrArg Answer.posted hpost.1, hv', hpost.2, fun N h => (Option.some.inj h) ▸ hN'⟩
    | deliver =>
      obtain ⟨hv', hN', hhead, htail⟩ := hv.doEvent
      exact ⟨congrArg Answer.delivered hhead, hv', htail, fun N h => (Option.some.inj h) ▸ hN'.trans hN⟩
  exact ⟨fun q l c h => (key q l c h).1, fun q l c h => (key q l c h).2⟩

theorem dynamic_simulates (fresh : Nat → Nat → EventData) :
    Simulates (Holds none) (ringStep (postDynamic fresh)) (fifoStep none) := by
  have key : ∀ q l c, Holds none q l →
      (ringStep (postDynamic fresh) q c).1 = (fifoStep none l c).1 ∧
        Holds none (ringStep (postDynamic fresh) q c).2 (fifoStep none l c).2 := by
    rintro q _ c ⟨hv, rfl, -⟩
    cases c with
    | post e =>
      obtain ⟨hv', hok, hp⟩ := hv.postDynamic fresh e
      rw [fifoStep_room (Option.some_ne_none _).symm]
      exact ⟨congrArg Answer.posted hok, hv', hp, fun N h => absurd h.symm (Option.some_ne_none N)⟩
    | deliver =>
      obtain ⟨hv', -, hhead, htail⟩ := hv.doEvent
      exact ⟨congrArg Answer.delivered hhead, hv', htail, fun N h => absurd h.symm (Option.some_ne_none N)⟩
  exact ⟨fun q l c h => (key q l c h).1, fun q l c h => (key q l c h).2⟩

theorem holds_init {bound : Option Nat} {N : Nat} (hN : 0 < N) (hb : ∀ M, bound = some M → N = M) :
    Holds bound (ocProcessInit N) [] := ⟨Valid.init hN, rfl, hb⟩

/-- **The event queue**: both rings answer every sequence of posts and deliveries as a queue does, the
growing one, after any number of doublings before `oc_process_init`, as one without a bound.  The fixed
one refuses a post iff ten events are in it, and is left as it was. -/
theorem queue_refines :
    (∀ (fresh : Nat → Nat → EventData) (k : Nat) (calls : List Call),
      answers (ringStep (postDynamic fresh)) (ocProcessInit (10 * 2 ^ k)) calls =
        answers (fifoStep none) [] calls) ∧
    (∀ calls : List Call, answers (ringStep postFixed) (ocProcessInit 10) calls =
      answers (fifoStep (some 10)) [] calls) ∧
    ∀ (calls : List Call) (e : EventData),
      let q := after (ringStep postFixed) (ocProcessInit 10) calls
      ((postFixed q e).1 = errFull ↔ (after (fifoStep (some 10)) [] calls).length = 10) ∧
        ((postFixed q e).1 = errFull → (postFixed q e).2 = q) := by
  have hinit : Holds (some 10) (ocProcessInit 10) [] :=
    holds_init (by decide) fun M h => Option.some.inj h
  refine ⟨fun fresh k calls => ?_, fixed_simulates.answers hinit, fun calls e => ?_⟩
  · refine (dynamic_simulates fresh).answers (holds_init ?_ fun M h => ?_) calls
    · exact Nat.mul_pos (by decide) (Nat.two_pow_pos k)
    · exact absurd h.symm (Option.some_ne_none M)
  · obtain ⟨hv, hp, hN⟩ := fixed_simulates.after hinit calls
    obtain ⟨-, -, hpost⟩ := hv.postFixed (hN 10 rfl) e
    rw [hp] at hpost
    split at hpost
    · next hfull => exact ⟨⟨fun _ => hfull, fun _ => hpost.1⟩, fun _ => hpost.2⟩
    · next hroom =>
      have hne : ¬ (postFixed (after (ringStep postFixed) (ocProcessInit 10) calls) e).1 = errFull := by
        rw [hpost.1]
        decide
      exact ⟨⟨fun h => absurd h hne, fun h => absurd h hroom⟩, fun h => absurd h hne⟩

end Process
