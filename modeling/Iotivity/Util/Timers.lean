import Iotivity.Lib.Chain
import Mathlib.Data.List.Induction

/-!
# Event timers: `oc_etimer.c`

The timers that run are in a list whose links are in the timers.  A process sets a timer, and is sent
an event when the timer has expired; then the timer leaves the list, and its `p` field is cleared.
Pointers are numbers, with 0 for `OC_PROCESS_NONE`.  The clock and the results of `oc_process_post`
come from outside, the `n`-th reading and the `n`-th result.  The loops have fuel, and `Ends` says that
they end.  That a poll is asked for is not modelled: it is an operation of its own.

* `Timely`                 the list has no cycle, and holds the timers with a process, each once;
* `setTimer_ends`, `ocEtimerStop_ends`, `poll_ends`    what an operation does to it;
* `etimer_runs`            all sequences of operations.
-/

namespace Etimer
open Intrusive Function

/-- `struct oc_timer` -/
structure OcTimer where
  start : UInt64
  interval : UInt64

/-- what the module reads and does not write: `oc_clock_time` and the results of `oc_process_post` -/
structure Env where
  clock : Nat → UInt64
  result : Nat → Nat

/-- `timerlist` with the links, the other fields of the timers and `next_expiration`; how often the
clock and `oc_process_post` were called, and the events in the queue: the process and the timer -/
structure State where
  list : Chain Nat
  timer : Nat → OcTimer
  p : Nat → Nat
  nextExpiration : UInt64
  ticks : Nat
  posts : Nat
  posted : List (Nat × Nat)

/-- no timer set, and all zero -/
def State.zero : State := ⟨⟨none, fun _ => none⟩, fun _ => ⟨0, 0⟩, fun _ => 0, 0, 0, 0, []⟩

/-! ## `oc_timer.c` -/

def State.tick (s : State) : State := { s with ticks := s.ticks + 1 }

def State.setOcTimer (s : State) (t : Nat) (v : OcTimer) : State := { s with timer := update s.timer t v }

/-- `oc_timer_set` -/
def ocTimerSet (env : Env) (s : State) (t : Nat) (interval : UInt64) : State :=
  (s.setOcTimer t ⟨env.clock s.ticks, interval⟩).tick

/-- `oc_timer_reset` -/
def ocTimerReset (s : State) (t : Nat) : State :=
  s.setOcTimer t ⟨(s.timer t).start + (s.timer t).interval, (s.timer t).interval⟩

/-- `oc_timer_restart` -/
def ocTimerRestart (env : Env) (s : State) (t : Nat) : State :=
  (s.setOcTimer t ⟨env.clock s.ticks, (s.timer t).interval⟩).tick

/-- `oc_timer_expired`, with the clock's reading -/
def ocTimerExpired (now : UInt64) (t : OcTimer) : Bool := t.interval < now - t.start + 1

/-! ## `oc_etimer.c` -/

/-- `t->timer.start + t->timer.interval - now` -/
def distance (s : State) (now : UInt64) (t : Nat) : UInt64 := (s.timer t).start + (s.timer t).interval - now

/-- the loop of `update_time` -/
def leastFrom (s : State) (now : UInt64) : Nat → Option Nat → UInt64 → Option UInt64
  | _, none, tdist => some tdist
  | 0, some _, _ => none
  | fuel + 1, some t, tdist =>
    leastFrom s now fuel (s.list.next t) (if distance s now t < tdist then distance s now t else tdist)

/-- `update_time` -/
def updateTime (env : Env) (fuel : Nat) (s : State) : Option State :=
  match s.list.head with
  | none => some { s with nextExpiration := 0 }
  | some t =>
    let now := env.clock s.ticks
    (leastFrom s now fuel (s.list.next t) (distance s now t)).map fun tdist =>
      { s.tick with nextExpiration := now + tdist }

/-- the loop of `add_timer` -/
def onList (next : Nat → Option Nat) (timer : Nat) : Nat → Option Nat → Option Bool
  | _, none => some false
  | 0, some _ => none
  | fuel + 1, some t => if t = timer then some true else onList next timer fuel (next t)

/-- `add_timer` on behalf of the process `current` -/
def addTimer (env : Env) (fuel current timer : Nat) (s : State) : Option State :=
  let found := if s.p timer ≠ 0 then onList s.list.next timer fuel s.list.head else some false
  found.bind fun already =>
    let s := { s with p := update s.p timer current }
    if already then updateTime env fuel s
    else updateTime env fuel { s with list := ⟨some timer, update s.list.next timer s.list.head⟩ }

/-- `oc_etimer_set` -/
def ocEtimerSet (env : Env) (fuel current et : Nat) (interval : UInt64) (s : State) : Option State :=
  addTimer env fuel current et (ocTimerSet env s et interval)

/-- `oc_etimer_reset` -/
def ocEtimerReset (env : Env) (fuel current et : Nat) (s : State) : Option State :=
  addTimer env fuel current et (ocTimerReset s et)

/-- `oc_etimer_restart` -/
def ocEtimerRestart (env : Env) (fuel current et : Nat) (s : State) : Option State :=
  addTimer env fuel current et (ocTimerRestart env s et)

/-- the loop of `oc_etimer_stop`: the item before `et` -/
def findBefore (next : Nat → Option Nat) (et : Nat) : Nat → Option Nat → Option (Option Nat)
  | _, none => some none
  | 0, some _ => none
  | fuel + 1, some t => if next t = some et then some (some t) else findBefore next et fuel (next t)

/-- the end of `oc_etimer_stop` -/
def forget (et : Nat) (s : State) : State := { s with list := s.list.clear et, p := update s.p et 0 }

/-- `oc_etimer_stop` behind its loop -/
def unlinkBehind (env : Env) (et : Nat) (s : State) (fuel : Nat) : Option Nat → Option State
  | none => some (forget et s)
  | some t =>
    (updateTime env fuel
      { s with list := { s.list with next := update s.list.next t (s.list.next et) } }).map (forget et)

/-- `oc_etimer_stop` -/
def ocEtimerStop (env : Env) (fuel et : Nat) (s : State) : Option State :=
  if s.list.head = some et then
    (updateTime env fuel { s with list := { s.list with head := s.list.next et } }).map (forget et)
  else (findBefore s.list.next et fuel s.list.head).bind (unlinkBehind env et s fuel)

/-- a timer leaves the list when its event is posted; `u` is the one before it -/
def expire (u : Option Nat) (t : Nat) (s : State) : State :=
  let list : Chain Nat := match u with
    | some u => { s.list with next := update s.list.next u (s.list.next t) }
    | none => { s.list with head := s.list.next t }
  { s with list := list.clear t, p := update s.p t 0, posted := s.posted ++ [(s.p t, t)] }

/-- the loop of `oc_etimer_process` on a poll, from the timer `t` behind `u` on -/
def pollFrom (env : Env) : Nat → Option Nat → Option Nat → State → Option State
  | _, _, none, s => some s
  | 0, _, some _, _ => none
  | fuel + 1, u, some t, s =>
    let expired := ocTimerExpired (env.clock s.ticks) (s.timer t)
    let s := s.tick
    if expired then
      let result := env.result s.posts
      let s := { s with posts := s.posts + 1 }
      if result = 0 then
        (updateTime env fuel (expire u t s)).bind fun s => pollFrom env fuel none s.list.head s
      else pollFrom env fuel (some t) (s.list.next t) s
    else pollFrom env fuel (some t) (s.list.next t) s

/-- a poll event -/
def poll (env : Env) (fuel : Nat) (s : State) : Option State := pollFrom env fuel none s.list.head s

/-- the operations, on behalf of a process where that matters -/
inductive Op where
  | set (current et : Nat) (interval : UInt64)
  | reset (current et : Nat)
  | restart (current et : Nat)
  | stop (et : Nat)
  | poll

def Op.apply (env : Env) (fuel : Nat) (s : State) : Op → Option State
  | set current et interval => ocEtimerSet env fuel current et interval s
  | reset current et => ocEtimerReset env fuel current et s
  | restart current et => ocEtimerRestart env fuel current et s
  | stop et => ocEtimerStop env fuel et s
  | poll => Etimer.poll env fuel s

def run (env : Env) (fuel : Nat) : State → List Op → Option State
  | s, [] => some s
  | s, op :: ops => (op.apply env fuel s).bind fun s => run env fuel s ops

/-! ## the walks -/

variable {env : Env} {s : State} {l : List Nat} {x : Option Nat}

theorem leastFrom_path (s : State) (now : UInt64) (h : Path s.list.next x l) (tdist : UInt64) :
    ∃ v, Ends (fun fuel => leastFrom s now fuel x tdist) v := by
  induction l generalizing x tdist with
  | nil =>
    obtain rfl : x = none := h
    exact ⟨tdist, 0, fun fuel _ => by cases fuel <;> rfl⟩
  | cons t l ih =>
    obtain ⟨rfl, h⟩ := h
    obtain ⟨v, hv⟩ := ih h (if distance s now t < tdist then distance s now t else tdist)
    exact ⟨v, hv.step fun _ => rfl⟩

/-- `update_time` ends, and touches nothing but the time -/
theorem updateTime_ends (env : Env) (h : s.list.Holds l) :
    ∃ v k, Ends (fun fuel => updateTime env fuel s) { s with nextExpiration := v, ticks := k } := by
  cases hh : s.list.head with
  | none =>
    refine ⟨0, s.ticks, (Ends.const _).congr fun fuel => ?_⟩
    rw [updateTime, hh]
  | some t =>
    have hp : Path s.list.next (some t) l := hh ▸ h.path
    cases l with
    | nil => cases hp
    | cons b l =>
      obtain rfl := Option.some.inj hp.1
      obtain ⟨v, hv⟩ := leastFrom_path s (env.clock s.ticks) hp.2 (distance s (env.clock s.ticks) t)
      refine ⟨env.clock s.ticks + v, s.ticks + 1, (hv.map fun tdist =>
        { s.tick with nextExpiration := env.clock s.ticks + tdist }).congr fun fuel => ?_⟩
      rw [updateTime, hh]

theorem onList_path {next : Nat → Option Nat} (timer : Nat) (h : Path next x l) :
    Ends (fun fuel => onList next timer fuel x) (decide (timer ∈ l)) := by
  induction l generalizing x with
  | nil =>
    obtain rfl : x = none := h
    exact ⟨0, fun fuel _ => by cases fuel <;> rfl⟩
  | cons t l ih =>
    obtain ⟨rfl, h⟩ := h
    by_cases ht : t = timer
    · subst ht
      have hm : decide (t ∈ t :: l) = true := decide_eq_true List.mem_cons_self
      rw [hm]
      exact (Ends.const true).step fun _ => if_pos rfl
    · have hm : decide (timer ∈ t :: l) = decide (timer ∈ l) := by
        simp [Ne.symm ht]
      rw [hm]
      exact (ih h).step fun _ => if_neg ht

/-- the item before `et`, if `et` is in the list and not its first -/
theorem findBefore_path {next : Nat → Option Nat} (et : Nat) (h : Path next x l) (hx : x ≠ some et) :
    (et ∉ l ∧ Ends (fun fuel => findBefore next et fuel x) none) ∨
      ∃ u b w, l = u ++ b :: et :: w ∧ Ends (fun fuel => findBefore next et fuel x) (some b) := by
  induction l generalizing x with
  | nil =>
    obtain rfl : x = none := h
    exact .inl ⟨List.not_mem_nil, 0, fun fuel _ => by cases fuel <;> rfl⟩
  | cons t l ih =>
    obtain ⟨rfl, h⟩ := h
    by_cases ht : next t = some et
    · rw [ht] at h
      cases l with
      | nil => cases h
      | cons b w =>
        obtain rfl := Option.some.inj h.1
        exact .inr ⟨[], t, w, rfl, (Ends.const (some t)).step fun _ => if_pos ht⟩
    · rcases ih h ht with ⟨hm, he⟩ | ⟨u, b, w, rfl, he⟩
      · refine .inl ⟨?_, he.step fun _ => if_neg ht⟩
        intro hc
        rcases List.mem_cons.mp hc with rfl | hc
        · exact hx rfl
        · exact hm hc
      · exact .inr ⟨t :: u, b, w, rfl, he.step fun _ => if_neg ht⟩

/-! ## one operation -/

/-- the list has no cycle and no timer twice, and its timers are those with a process -/
structure Timely (s : State) (l : List Nat) : Prop where
  holds : s.list.Holds l
  mem_iff : ∀ t, t ∈ l ↔ s.p t ≠ 0

theorem mem_update_iff {p : Nat → Nat} {et v t : Nat} (hv : v ≠ 0) :
    update p et v t ≠ 0 ↔ t = et ∨ p t ≠ 0 := by
  by_cases ht : t = et
  · subst ht
    rw [update_self]
    exact iff_of_true hv (.inl rfl)
  · rw [update_of_ne ht, or_iff_right ht]

theorem mem_clear_iff {p : Nat → Nat} {et t : Nat} : update p et 0 t ≠ 0 ↔ t ≠ et ∧ p t ≠ 0 := by
  by_cases ht : t = et
  · subst ht
    rw [update_self]
    exact iff_of_false (fun h => h rfl) fun h => h.1 rfl
  · rw [update_of_ne ht, and_iff_right ht]

/-- `add_timer`: the timer is in the list, for the process that calls -/
theorem addTimer_ends (env : Env) (h : Timely s l) {current et : Nat} (hc : current ≠ 0) :
    ∃ s', Ends (fun fuel => addTimer env fuel current et s) s' ∧
      Timely s' (if et ∈ l then l else et :: l) ∧ s'.p = update s.p et current ∧ s'.posted = s.posted := by
  have hfound : Ends (fun fuel => if s.p et ≠ 0 then onList s.list.next et fuel s.list.head else some false)
      (decide (et ∈ l)) := by
    by_cases hp : s.p et ≠ 0
    · exact (onList_path et h.holds.path).congr fun _ => if_pos hp
    · have hm : decide (et ∈ l) = false := decide_eq_false (mt (h.mem_iff et).mp hp)
      rw [hm]
      exact (Ends.const false).congr fun _ => if_neg hp
  by_cases hm : et ∈ l
  · obtain ⟨v, k, he⟩ := updateTime_ends env (s := { s with p := update s.p et current }) h.holds
    rw [decide_eq_true hm] at hfound
    refine ⟨_, hfound.bind he, ?_, rfl, rfl⟩
    rw [if_pos hm]
    refine ⟨h.holds, fun t => ?_⟩
    rw [mem_update_iff hc, ← h.mem_iff, or_iff_right_of_imp]
    rintro rfl
    exact hm
  · obtain ⟨v, k, he⟩ := updateTime_ends env (s := { s with
      p := update s.p et current, list := ⟨some et, update s.list.next et s.list.head⟩ }) (h.holds.cons hm)
    rw [decide_eq_false hm] at hfound
    refine ⟨_, hfound.bind he, ?_, rfl, rfl⟩
    rw [if_neg hm]
    refine ⟨h.holds.cons hm, fun t => ?_⟩
    rw [mem_update_iff hc, List.mem_cons, h.mem_iff]

theorem erase_mid {u w : List Nat} {b et : Nat} (hn : (u ++ b :: et :: w).Nodup) :
    (u ++ b :: et :: w).erase et = u ++ b :: w := by
  rw [List.append_cons] at hn ⊢
  have hm : et ∉ u ++ [b] := fun hc => (List.nodup_cons.mp (List.nodup_middle.mp hn)).1
    (List.mem_append_left w hc)
  rw [List.erase_append_right _ hm, List.erase_cons_head, List.append_assoc]
  rfl

/-- the timer is out of the list, and its fields are cleared -/
theorem forget_timely {et : Nat} (hh : s.list.Holds (l.erase et)) (hn : l.Nodup)
    (hm : ∀ t, t ∈ l ↔ s.p t ≠ 0) : Timely (forget et s) (l.erase et) where
  holds := hh.clear (List.Nodup.not_mem_erase hn)
  mem_iff t := by
    show _ ↔ update s.p et 0 t ≠ 0
    rw [mem_clear_iff, hn.mem_erase_iff, hm]

/-- `oc_etimer_stop` -/
theorem ocEtimerStop_ends (env : Env) (h : Timely s l) (et : Nat) :
    ∃ s', Ends (fun fuel => ocEtimerStop env fuel et s) s' ∧ Timely s' (l.erase et) ∧
      s'.p = update s.p et 0 ∧ s'.posted = s.posted := by
  have hn := h.holds.nodup
  have hpath := h.holds.path
  by_cases hhead : s.list.head = some et
  · rw [hhead] at hpath
    cases l with
    | nil => cases hpath
    | cons b l =>
      obtain rfl := Option.some.inj hpath.1
      have hrest : ({ s.list with head := s.list.next et } : Chain Nat).Holds ((et :: l).erase et) := by
        rw [List.erase_cons_head]
        exact ⟨hpath.2, hn.of_cons⟩
      obtain ⟨v, k, he⟩ := updateTime_ends env (s := { s with
        list := { s.list with head := s.list.next et } }) hrest
      exact ⟨_, (he.map (forget et)).congr fun _ => if_pos hhead, forget_timely hrest hn h.mem_iff,
        rfl, rfl⟩
  · rcases findBefore_path et hpath hhead with ⟨hm, he⟩ | ⟨u, b, w, rfl, he⟩
    · have hrest : s.list.Holds (l.erase et) := by
        rw [List.erase_of_not_mem hm]
        exact h.holds
      have hend := he.bind (g := unlinkBehind env et s) (Ends.const (forget et s))
      exact ⟨_, hend.congr fun _ => if_neg hhead, forget_timely hrest hn h.mem_iff, rfl, rfl⟩
    · let s1 : State := { s with list := { s.list with next := update s.list.next b (s.list.next et) } }
      have hrest : s1.list.Holds ((u ++ b :: et :: w).erase et) := by
        refine ⟨?_, hn.erase et⟩
        rw [erase_mid hn]
        exact hpath.unlink hn
      obtain ⟨v, k, hu⟩ := updateTime_ends env hrest
      have hend := he.bind (g := unlinkBehind env et s) (hu.map (forget et))
      exact ⟨_, hend.congr fun _ => if_neg hhead,
        forget_timely (s := { s1 with nextExpiration := v, ticks := k }) hrest hn h.mem_iff, rfl, rfl⟩

/-! ## a poll -/

/-- a timer that expires leaves the list -/
theorem expire_timely {u w : List Nat} {t : Nat} (h : Timely s (u ++ t :: w)) :
    Timely (expire u.getLast? t s) (u ++ w) := by
  have hn := h.holds.nodup
  have hnt := List.nodup_cons.mp (List.nodup_middle.mp hn)
  have hlist : (expire u.getLast? t s).list.Holds (u ++ w) := by
    refine Chain.Holds.clear ⟨?_, hnt.2⟩ hnt.1
    rcases List.eq_nil_or_concat' u with rfl | ⟨v, b, rfl⟩
    · exact h.holds.path.2
    · rw [List.getLast?_concat]
      have hpath := h.holds.path
      rw [← List.append_cons] at hpath hn ⊢
      exact hpath.unlink hn
  refine ⟨hlist, fun x => ?_⟩
  show _ ↔ update s.p t 0 x ≠ 0
  rw [mem_clear_iff, ← h.mem_iff]
  have hmid : x ∈ u ++ t :: w ↔ x = t ∨ x ∈ u ++ w := by
    rw [List.perm_middle.mem_iff, List.mem_cons]
  rw [hmid]
  constructor
  · intro hx
    exact ⟨fun he => hnt.1 (he ▸ hx), .inr hx⟩
  · rintro ⟨hne, hx⟩
    exact hx.resolve_left hne

/-- these timers have expired: each had a process, which was sent one event, and has none now -/
structure Fired (s s' : State) (fired : List Nat) : Prop where
  nodup : fired.Nodup
  had : ∀ t ∈ fired, s.p t ≠ 0
  posted : s'.posted = s.posted ++ fired.map fun t => (s.p t, t)
  p : ∀ t, s'.p t = if t ∈ fired then 0 else s.p t

theorem Fired.nil (s : State) : Fired s s [] :=
  ⟨List.nodup_nil, fun _ h => absurd h List.not_mem_nil, (List.append_nil _).symm, fun _ => rfl⟩

/-- one more in front -/
theorem Fired.cons {s1 s' : State} {t : Nat} {fired : List Nat} (h : Fired s1 s' fired) (ht : s.p t ≠ 0)
    (hp : s1.p = update s.p t 0) (hq : s1.posted = s.posted ++ [(s.p t, t)]) :
    Fired s s' (t :: fired) := by
  obtain ⟨hnodup, hhad, hposted, hp'⟩ := h
  have hother : ∀ x ∈ fired, x ≠ t ∧ s.p x ≠ 0 := by
    intro x hx
    have hx := hhad x hx
    rw [hp] at hx
    exact mem_clear_iff.mp hx
  refine ⟨List.nodup_cons.mpr ⟨fun hm => (hother t hm).1 rfl, hnodup⟩, fun x hx => ?_, ?_, fun x => ?_⟩
  · rcases List.mem_cons.mp hx with rfl | hx
    · exact ht
    · exact (hother x hx).2
  · rw [hposted, hq, List.append_assoc]
    refine congrArg (fun l => s.posted ++ (s.p t, t) :: l) (List.map_congr_left fun x hx => ?_)
    rw [hp, update_of_ne (hother x hx).1]
  · rw [hp', hp]
    by_cases hxt : x = t
    · subst hxt
      rw [update_self, ite_self, if_pos List.mem_cons_self]
    · rw [update_of_ne hxt]
      exact if_congr (by rw [List.mem_cons, or_iff_right hxt]) rfl rfl

/-- the loop, from a timer of the list on: at a timer that expires it begins anew with a shorter list -/
theorem pollFrom_ends (env : Env) (n : Nat) : ∀ (u w : List Nat) (s : State), (u ++ w).length = n →
    Timely s (u ++ w) → ∃ s' l' fired,
      Ends (fun fuel => pollFrom env fuel u.getLast? w.head? s) s' ∧ Timely s' l' ∧ Fired s s' fired := by
  induction n using Nat.strongRecOn with
  | ind n ihn =>
  intro u w
  induction w generalizing u with
  | nil =>
    intro s _ h
    exact ⟨s, _, [], (Ends.const s).congr fun fuel => by cases fuel <;> rfl, h, Fired.nil s⟩
  | cons t w ihw =>
    intro s hlen h
    have hnext : s.list.next t = w.head? := h.holds.path.behind.head
    -- the loop goes on behind `t`
    have hskip : ∀ s0 : State, s0.list = s.list → s0.p = s.p → s0.posted = s.posted →
        (∀ fuel, pollFrom env (fuel + 1) u.getLast? (some t) s = pollFrom env fuel (some t) w.head? s0) →
        ∃ s' l' fired, Ends (fun fuel => pollFrom env fuel u.getLast? (some t) s) s' ∧ Timely s' l' ∧
          Fired s s' fired := by
      intro s0 hl hp hq hstep
      have hlen0 : ((u ++ [t]) ++ w).length = n := by rw [← List.append_cons, hlen]
      have h0 : Timely s0 ((u ++ [t]) ++ w) := by
        rw [← List.append_cons]
        exact ⟨hl ▸ h.holds, fun x => hp ▸ h.mem_iff x⟩
      obtain ⟨s', l', fired, he, ht, hf⟩ := ihw (u ++ [t]) s0 hlen0 h0
      rw [List.getLast?_concat] at he
      exact ⟨s', l', fired, he.step hstep, ht,
        hf.nodup, hp ▸ hf.had, hp ▸ hq ▸ hf.posted, hp ▸ hf.p⟩
    by_cases hx : ocTimerExpired (env.clock s.ticks) (s.timer t) = true
    · by_cases hr : env.result s.posts = 0
      · -- it leaves the list
        let s1 : State := { s.tick with posts := s.posts + 1 }
        have h1 : Timely (expire u.getLast? t s1) (u ++ w) := expire_timely (s := s1) ⟨h.holds, h.mem_iff⟩
        obtain ⟨v, k, hu⟩ := updateTime_ends env h1.holds
        let s2 : State := { expire u.getLast? t s1 with nextExpiration := v, ticks := k }
        have h2 : Timely s2 (u ++ w) := ⟨h1.holds, h1.mem_iff⟩
        have hlen2 : (u ++ w).length < n := by
          rw [← hlen, List.length_append, List.length_append, List.length_cons]
          omega
        obtain ⟨s', l', fired, he, ht, hf⟩ := ihn _ hlen2 [] (u ++ w) s2 rfl h2
        have hhead : s2.list.head = (u ++ w).head? := h2.holds.path.head
        have hend := hu.bind (g := fun fuel s => pollFrom env fuel none s.list.head s) (hhead ▸ he)
        refine ⟨s', l', t :: fired, hend.step fun fuel => ?_, ht, hf.cons ?_ rfl rfl⟩
        · exact (if_pos hx).trans (if_pos hr)
        · exact (h.mem_iff t).mp (List.mem_append_right u List.mem_cons_self)
      · refine hskip { s.tick with posts := s.posts + 1 } rfl rfl rfl fun fuel => ?_
        rw [← hnext]
        exact (if_pos hx).trans (if_neg hr)
    · refine hskip s.tick rfl rfl rfl fun fuel => ?_
      rw [← hnext]
      exact if_neg hx

/-- a poll -/
theorem poll_ends (env : Env) (h : Timely s l) :
    ∃ s' l' fired, Ends (fun fuel => poll env fuel s) s' ∧ Timely s' l' ∧ Fired s s' fired := by
  obtain ⟨s', l', fired, he, ht, hf⟩ := pollFrom_ends env _ [] l s rfl h
  refine ⟨s', l', fired, he.congr fun fuel => ?_, ht, hf⟩
  rw [poll, h.holds.path.head]
  rfl

/-! ## runs -/

/-- the operation is called by some process -/
def Op.Called : Op → Prop
  | set current _ _ => current ≠ 0
  | reset current _ => current ≠ 0
  | restart current _ => current ≠ 0
  | _ => True

/-- who has set each timer last -/
def Op.setter (last : Nat → Nat) : Op → Nat → Nat
  | set current et _ => update last et current
  | reset current et => update last et current
  | restart current et => update last et current
  | _ => last

def lastSetter (ops : List Op) : Nat → Nat := ops.foldl Op.setter fun _ => 0

/-- `et` is put into the list, and nothing else changes -/
def Entered (et : Nat) (s s' : State) (l l' : List Nat) : Prop :=
  et ∈ l' ∧ (∀ t, t ≠ et → (t ∈ l' ↔ t ∈ l)) ∧ s'.posted = s.posted

/-- what an operation does to the list and to the queue, when `last` has set the timers -/
def Op.Effect (last : Nat → Nat) (s s' : State) (l l' : List Nat) : Op → Prop
  | set _ et _ => Entered et s s' l l'
  | reset _ et => Entered et s s' l l'
  | restart _ et => Entered et s s' l l'
  | stop et => et ∉ l' ∧ (∀ t, t ≠ et → (t ∈ l' ↔ t ∈ l)) ∧ s'.posted = s.posted
  | poll => ∃ fired : List Nat, fired.Nodup ∧ (∀ t ∈ fired, t ∈ l) ∧
      (∀ t, t ∈ l' ↔ t ∈ l ∧ t ∉ fired) ∧ s'.posted = s.posted ++ fired.map fun t => (last t, t)

/-- the list, with the processes that have set its timers -/
structure SetBy (last : Nat → Nat) (s : State) (l : List Nat) : Prop where
  timely : Timely s l
  last : ∀ t ∈ l, s.p t = last t

theorem addTimer_setBy (env : Env) {last : Nat → Nat} (h : SetBy last s l) {current : Nat} (et : Nat)
    (hc : current ≠ 0) : ∃ s' l', Ends (fun fuel => addTimer env fuel current et s) s' ∧
      SetBy (update last et current) s' l' ∧ Entered et s s' l l' := by
  obtain ⟨s', he, ht, hp, hq⟩ := addTimer_ends env h.timely hc
  have hmem : ∀ t, t ∈ (if et ∈ l then l else et :: l) ↔ t = et ∨ t ∈ l := by
    intro t
    split
    · next hm =>
      rw [or_iff_right_of_imp]
      rintro rfl
      exact hm
    · exact List.mem_cons
  refine ⟨s', _, he, ⟨ht, fun t hm => ?_⟩, (hmem et).mpr (.inl rfl), fun t hne => ?_, hq⟩
  · rw [hp]
    by_cases hne : t = et
    · rw [hne, update_self, update_self]
    · rw [update_of_ne hne, update_of_ne hne]
      exact h.last t (((hmem t).mp hm).resolve_left hne)
  · rw [hmem, or_iff_right hne]

/-- one operation -/
theorem Op.apply_ends (env : Env) {last : Nat → Nat} (h : SetBy last s l) {op : Op} (hop : op.Called) :
    ∃ s' l', Ends (fun fuel => op.apply env fuel s) s' ∧ SetBy (op.setter last) s' l' ∧
      op.Effect last s s' l l' := by
  cases op with
  | set current et interval =>
    exact addTimer_setBy env (s := ocTimerSet env s et interval)
      ⟨⟨h.timely.holds, h.timely.mem_iff⟩, h.last⟩ et hop
  | reset current et =>
    exact addTimer_setBy env (s := ocTimerReset s et)
      ⟨⟨h.timely.holds, h.timely.mem_iff⟩, h.last⟩ et hop
  | restart current et =>
    exact addTimer_setBy env (s := ocTimerRestart env s et)
      ⟨⟨h.timely.holds, h.timely.mem_iff⟩, h.last⟩ et hop
  | stop et =>
    obtain ⟨s', he, ht, hp, hq⟩ := ocEtimerStop_ends env h.timely et
    have hn := h.timely.holds.nodup
    refine ⟨s', _, he, ⟨ht, fun t hm => ?_⟩, List.Nodup.not_mem_erase hn, fun t hne => ?_, hq⟩
    · obtain ⟨hne, hm⟩ := hn.mem_erase_iff.mp hm
      rw [hp, update_of_ne hne]
      exact h.last t hm
    · rw [hn.mem_erase_iff, and_iff_right hne]
  | poll =>
    obtain ⟨s', l', fired, he, ht, hnodup, hhad, hposted, hp⟩ := poll_ends env h.timely
    have hmem : ∀ t, t ∈ l' ↔ t ∈ l ∧ t ∉ fired := by
      intro t
      rw [ht.mem_iff, h.timely.mem_iff, hp]
      by_cases hf : t ∈ fired <;> simp [hf]
    have hin : ∀ t ∈ fired, t ∈ l := fun t hf => (h.timely.mem_iff t).mpr (hhad t hf)
    refine ⟨s', l', he, ⟨ht, fun t hm => ?_⟩, fired, hnodup, hin, hmem, ?_⟩
    · obtain ⟨hm, hf⟩ := (hmem t).mp hm
      rw [hp, if_neg hf]
      exact h.last t hm
    · rw [hposted]
      refine congrArg _ (List.map_congr_left fun t hf => ?_)
      rw [h.last t (hin t hf)]

theorem run_append (env : Env) (fuel : Nat) (s : State) (ops : List Op) (op : Op) :
    run env fuel s (ops ++ [op]) = (run env fuel s ops).bind fun s => op.apply env fuel s := by
  induction ops generalizing s with
  | nil => exact Option.bind_fun_some _
  | cons o ops ih =>
    show (o.apply env fuel s).bind _ = ((o.apply env fuel s).bind _).bind _
    rw [Option.bind_assoc]
    exact congrArg _ (funext fun s' => ih s')

/-- a run and one operation more -/
theorem run_snoc {env : Env} {ops : List Op} {s0 : State} {op : Op} {s' : State}
    (h : Ends (fun fuel => run env fuel s0 ops) s) (hop : Ends (fun fuel => op.apply env fuel s) s') :
    Ends (fun fuel => run env fuel s0 (ops ++ [op])) s' :=
  (h.bind (g := fun fuel s => op.apply env fuel s) hop).congr fun fuel => run_append env fuel s0 ops op

theorem run_ends (env : Env) (ops : List Op) (hops : ∀ op ∈ ops, op.Called) :
    ∃ s l, Ends (fun fuel => run env fuel .zero ops) s ∧ SetBy (lastSetter ops) s l := by
  induction ops using List.reverseRecOn with
  | nil =>
    have hzero : Timely .zero [] :=
      ⟨⟨rfl, List.nodup_nil⟩, fun t => iff_of_false List.not_mem_nil fun h => h rfl⟩
    exact ⟨.zero, [], Ends.const _, hzero, fun t h => absurd h List.not_mem_nil⟩
  | append_singleton ops op ih =>
    obtain ⟨hops, hop⟩ := List.forall_mem_append.mp hops
    obtain ⟨s, l, he, hs⟩ := ih hops
    obtain ⟨s', l', he', hs', -⟩ := op.apply_ends env hs (hop op List.mem_cons_self)
    refine ⟨s', l', run_snoc he he', ?_⟩
    rw [lastSetter, List.foldl_append]
    exact hs'

end Etimer
