import Iotivity.Engine.Observing
import Iotivity.Engine.Linked

/-!
# Periodic callbacks of observed resources

A resource that is periodic is polled while somebody observes it, or a collection with a link to it.
The callback is shared by all of these observers, and every one of them adds or removes it.

* `Polling`          a server with its `observe_callbacks`;
* `PollSite.Needed`  a resource that has to be polled for the observers there are;
* `Polling.step`     requests with the Observe option, time-outs, resets and timer polls;
* `polled_run`       what has to be polled has one callback, in runs whose steps are clean.

A step is clean if it leaves the callbacks that other observers still need.  A request that cancels
an observation does not ask for other observers: it takes the callback away.
-/

namespace Coap

/-- a site with the properties of its resources -/
structure PollSite extends Site where
  observable : Nat → Bool
  periodic : Nat → Bool

structure Polling where
  server : Server
  callbacks : List Nat

namespace PollSite
variable (P : PollSite)

/-- what a request for a resource finds -/
def watched (resource : Nat) (batch : Bool) : Watched where
  resource
  observable := P.observable resource
  periodic := P.periodic resource
  links := if resource ∈ P.collections then
      some ((P.links resource).map fun link => (link, P.periodic link))
    else none
  batch

/-- the resource of an observer, or one that it links to as a collection -/
def Follows (observed resource : Nat) : Prop :=
  observed = resource ∨ observed ∈ P.collections ∧ resource ∈ P.links observed

/-- a periodic resource that somebody observes, by itself or in a collection -/
def Needed (l : List Observer) (resource : Nat) : Prop :=
  P.periodic resource = true ∧ ∃ o ∈ l, P.Follows o.resource resource

end PollSite

/-! ## steps -/

namespace Polling

/-- the part that requests work on -/
def observing (s : Polling) : Observing :=
  ⟨⟨s.server.list, s.server.numObservers, s.server.observeCounter, s.server.engine.toBuffers⟩,
    s.callbacks⟩

/-- what they leave -/
def store (x : Observing) (s : Polling) : Polling where
  server :=
    { s.server with
      engine := s.server.engine.withBuffers fun _ => x.observers.buffers
      list := x.observers.list
      numObservers := x.observers.numObservers
      observeCounter := x.observers.observeCounter }
  callbacks := x.callbacks

/-- observers are taken out -/
def remove (f : Observers → Nat × Observers) (s : Polling) : Polling :=
  s.store ⟨(f s.observing.observers).2, s.callbacks⟩

end Polling

/-- `periodic_observe_handler`; the result says whether the callback stays -/
def periodicObserveHandler (cfg : Config) (site : Site) (supply linked : Supply) (get : Answer)
    (batch : Nat → Representation) (resource : Nat) (s : Server) : Bool × Server :=
  let x := coapNotifyObservers cfg site supply linked get batch resource none none s
  (x.1 ≠ 0, x.2.2.server)

/-- What happens to the observers and their callbacks.

* `request`   a request has been answered by its handler, with a code so far;
* `timeout`   `coap_remove_observer_by_client`, for a client that does not answer;
* `reset`     `coap_remove_observer_by_mid`;
* `poll`      the timer of a periodic callback expires;
* `others`    what else the engine and the application do. -/
inductive PollStep where
  | request (endpoint : Endpoint) (message : Message) (code : UInt8) (resource : Nat) (batch : Bool)
      (block2Size : UInt16) (grants : Grants)
  | timeout (endpoint : Endpoint)
  | reset (endpoint : Endpoint) (mid : UInt16)
  | poll (supply linked : Supply) (get : Answer) (batch : Nat → Representation) (resource : Nat)
  | others (engine : State) (handles : Nat → SeparateResponse)

def Polling.step (cfg : Config) (P : PollSite) (st : PollStep) (s : Polling) : Polling :=
  match st with
  | .request endpoint message code resource batch block2Size grants =>
    s.store (observe P.uri endpoint message code (P.watched resource batch) block2Size grants
      s.observing).2
  | .timeout endpoint => s.remove (coapRemoveObserverByClient P.uri endpoint)
  | .reset endpoint mid => s.remove (coapRemoveObserverByMid P.uri endpoint mid)
  | .poll supply linked get batch resource =>
    if resource ∈ s.callbacks then
      let x := periodicObserveHandler cfg P.toSite supply linked get batch resource s.server
      { server := x.2
        callbacks := if x.1 then s.callbacks else s.callbacks.erase resource }
    else s
  | .others engine handles => { s with server := { s.server with engine, handles } }

/-- start-up, with the engine as it comes -/
def Polling.init (engine : State) (handles : Nat → SeparateResponse) : Polling :=
  ⟨⟨engine, [], fun _ => 0, 3, handles⟩, []⟩

/-- the callbacks that a cancellation takes away -/
def Watched.stopped (x : Watched) : List Nat :=
  (if x.periodic then [x.resource] else []) ++ ((x.links.getD []).filter (·.2)).map (·.1)

/-! ## the condition -/

section
variable (P : PollSite) (endpoint : Endpoint) (message : Message) (code : UInt8)

/-- a client that is registered and then refused is found again by its token: it has used this for
no other path -/
def Withdrawable (l : List Observer) : Prop :=
  ocEndpointCompare endpoint endpoint = true ∧
    ∀ o ∈ l.eraseP (Observer.isAt endpoint (coapGetHeaderUriPath message)),
      o.hasToken endpoint message.token = false

/-- a new observer gets all callbacks that it needs, or is taken out again -/
def RegistersClean (x : Watched) (grants : Grants) (s : Observing) : Prop :=
  coapGetHeaderObserve message = some 0 → x.observable = true →
    message.code = coapGet → code < 128 → grants.observer = true →
      Followed grants x True s.callbacks ∨ Withdrawable endpoint message s.observers.list

/-- nobody else needs the callbacks that are taken away with an observer -/
def CancelsClean (x : Watched) (s : Observing) : Prop :=
  coapGetHeaderObserve message = some 1 → x.observable = true →
    message.code = coapGet → code < 128 →
      (∃ o ∈ s.observers.list, o.hasToken endpoint message.token = true) →
        ∀ r ∈ x.stopped,
          ¬ P.Needed (s.observers.list.eraseP (Observer.hasToken endpoint message.token)) r

/-- the step leaves what is needed; a poll is told of the observers by counts of eight bits -/
def PollStep.Clean (P : PollSite) (s : Polling) : PollStep → Prop
  | .request endpoint message code resource batch _ grants =>
    RegistersClean endpoint message code (P.watched resource batch) grants s.observing ∧
      CancelsClean P endpoint message code (P.watched resource batch) s.observing
  | .poll _ _ _ _ resource => P.Needed s.server.list resource →
      ¬ (observersOf s.server.list resource % 2^8 = 0 ∧ P.numLinks resource = 0)
  | _ => True

end

/-- a run from start-up whose steps meet a condition -/
inductive PollRun (cfg : Config) (P : PollSite) (C : Polling → PollStep → Prop) : Polling → Prop where
  | init (engine : State) (handles : Nat → SeparateResponse) :
      PollRun cfg P C (Polling.init engine handles)
  | step {s : Polling} (st : PollStep) (hr : PollRun cfg P C s) (hc : C s st) :
      PollRun cfg P C (s.step cfg P st)

/-- what is needed has one callback -/
def PolledOnce (P : PollSite) (s : Polling) : Prop :=
  ∀ r, P.Needed s.server.list r → s.callbacks.count r = 1

/-! ## what notifications leave alone -/

/-- the observers by what requests know them by, and `num_observers` -/
def Server.ledger (s : Server) :
    List (Nat × Endpoint × List UInt8 × List UInt8) × (Nat → UInt8) :=
  (s.list.map fun o => (o.resource, o.endpoint, o.url, o.token), s.numObservers)

section
variable {cfg : Config} {site : Site} {s : Server}

theorem ledger_noteSent (place : Nat) (mid : UInt16) (counted : Bool) :
    (s.noteSent place mid counted).ledger = s.ledger := by
  unfold Server.ledger Server.noteSent
  rw [Scan.map_modify_same (g := Observer.sent mid counted) (fun _ => rfl)]

theorem ledger_notifyObserver (env : Env) (format : UInt16) (r : Representation) (place : Nat)
    (o : Observer) : (notifyObserver cfg site env format r place o s).2.1.ledger = s.ledger := by
  unfold notifyObserver
  split
  · rfl
  · rfl
  · unfold sendNotification
    dsimp only
    split
    · exact ledger_noteSent place o.lastMid _
    · exact ledger_noteSent place _ _

theorem ledger_notifyEach {select : Observer → Bool}
    {round : Nat → Nat → Observer → Server → Outcome × Server × List Event}
    (h : ∀ k place o s, (round k place o s).2.1.ledger = s.ledger) (p : Progress) :
    (notifyEach select round p).server.ledger = p.server.ledger := by
  unfold notifyEach
  generalize p.server.list.zipIdx = l
  induction l generalizing p with
  | nil => rfl
  | cons x l ih =>
    rw [List.foldl_cons, ih]
    unfold visit
    split
    · rfl
    · exact h _ _ _ _

theorem ledger_notifyRounds (supply : Supply) (batch : Nat → Representation) (resource fuel : Nat)
    (l : List Nat) (p : Progress) :
    (notifyRounds cfg site supply batch resource fuel l p).server.ledger = p.server.ledger := by
  induction fuel generalizing l p with
  | zero => rfl
  | succ fuel ih =>
    cases l with
    | nil => rfl
    | cons c l =>
      unfold notifyRounds
      split
      · rfl
      · rw [ih]
        exact ledger_notifyEach (fun k place o s => ledger_notifyObserver _ _ _ place o) p

theorem ledger_notifyWith (supply : Supply) (resource : Nat) (endpoint : Option Endpoint)
    (answer : Answer) :
    (notifyWith cfg site supply resource endpoint answer s).server.ledger = s.ledger := by
  unfold notifyWith
  cases answer with
  | ignore => rfl
  | representation r =>
    exact ledger_notifyEach (fun k place o s => ledger_notifyObserver _ _ _ place o) (.start s)
  | separate handle r =>
    dsimp only
    split
    · exact ledger_notifyEach (fun _ _ _ _ => rfl) (.start s)
    · exact ledger_notifyEach (fun k place o s => ledger_notifyObserver _ _ _ place o) (.start s)

variable (cfg site s) in
/-- a notification leaves the observers where they are, and says whether there are any -/
theorem notifyObservers_ledger (supply linked : Supply) (get : Answer)
    (batch : Nat → Representation) (resource : Nat) (given : Option Representation)
    (endpoint : Option Endpoint) :
    let x := coapNotifyObservers cfg site supply linked get batch resource given endpoint s
    x.2.2.server.ledger = s.ledger ∧
      x.1 = (s.numObservers resource).toNat + (site.numLinks resource).toNat := by
  have hledger : (coapNotifyObservers cfg site supply linked get batch resource given endpoint
      s).2.2.server.ledger = s.ledger := by
    have hrounds : ∀ t : Server, (coapNotifyCollections cfg site linked batch resource
        t).2.server.ledger = t.ledger := by
      intro t
      unfold coapNotifyCollections
      split
      · exact ledger_notifyRounds _ _ _ _ _ _
      · rfl
    unfold coapNotifyObservers
    dsimp only
    generalize hown : (if s.numObservers resource = 0 ∨ supply.buffer = false then Progress.start s
      else _) = own
    have ho : own.server.ledger = s.ledger := by
      rw [← hown]
      split
      · rfl
      · exact ledger_notifyWith _ _ _ _
    split
    · exact ho
    · exact (hrounds _).trans ho
  refine ⟨hledger, ?_⟩
  show ((coapNotifyObservers cfg site supply linked get batch resource given endpoint
    s).2.2.server.numObservers resource).toNat + _ = _
  rw [show (coapNotifyObservers cfg site supply linked get batch resource given endpoint
    s).2.2.server.numObservers = s.numObservers from congrArg Prod.snd hledger]

end

/-! ## callbacks -/

section
variable {grants : Grants} {callbacks : List Nat} {r : Nat}

/-- callbacks are added, each once -/
structure Grows (callbacks after : List Nat) : Prop where
  kept : ∀ r ∈ callbacks, r ∈ after
  nodup : callbacks.Nodup → after.Nodup

theorem Grows.refl (callbacks : List Nat) : Grows callbacks callbacks := ⟨fun _ h => h, fun h => h⟩

theorem Grows.trans {a b c : List Nat} (h : Grows a b) (h' : Grows b c) : Grows a c :=
  ⟨fun r hr => h'.kept r (h.kept r hr), fun hn => h'.nodup (h.nodup hn)⟩

theorem addCallback_grows (grants : Grants) (r : Nat) (callbacks : List Nat) :
    Grows callbacks (addPeriodicObserveCallback grants r callbacks).2 := by
  unfold addPeriodicObserveCallback
  by_cases hr : r ∈ callbacks
  · rw [if_pos hr]
    exact Grows.refl callbacks
  · rw [if_neg hr]
    by_cases hg : grants.callback r = true
    · rw [if_pos hg]
      refine ⟨fun a ha => List.mem_append_left _ ha, fun hn => ?_⟩
      refine hn.append (List.nodup_singleton r) fun a ha hb => ?_
      rw [List.mem_singleton.mp hb] at ha
      exact hr ha
    · rw [if_neg hg]
      exact Grows.refl callbacks

theorem addCallback_mem (h : (addPeriodicObserveCallback grants r callbacks).1 = true) :
    r ∈ (addPeriodicObserveCallback grants r callbacks).2 := by
  unfold addPeriodicObserveCallback at h ⊢
  by_cases hr : r ∈ callbacks
  · rw [if_pos hr]
    exact hr
  · rw [if_neg hr] at h ⊢
    by_cases hg : grants.callback r = true
    · rw [if_pos hg]
      exact List.mem_append_right _ (List.mem_singleton_self r)
    · rw [if_neg hg] at h
      cases h

theorem pollLinks_grows (grants : Grants) (links : List (Nat × Bool)) (callbacks : List Nat) :
    Grows callbacks (pollLinks grants links callbacks).2 := by
  induction links generalizing callbacks with
  | nil => exact Grows.refl callbacks
  | cons link links ih =>
    obtain ⟨resource, periodic⟩ := link
    cases periodic with
    | false => exact ih callbacks
    | true =>
      have hadd := addCallback_grows grants resource callbacks
      unfold pollLinks
      dsimp only
      rw [if_pos rfl]
      split
      · exact hadd.trans (ih _)
      · exact hadd

theorem pollLinks_mem {links : List (Nat × Bool)} (h : (pollLinks grants links callbacks).1 = true) :
    ∀ link ∈ links, link.2 = true → link.1 ∈ (pollLinks grants links callbacks).2 := by
  induction links generalizing callbacks with
  | nil => exact fun link hl => absurd hl List.not_mem_nil
  | cons link links ih =>
    obtain ⟨resource, periodic⟩ := link
    rw [List.forall_mem_cons]
    cases periodic with
    | false => exact ⟨fun hp => absurd hp Bool.false_ne_true, ih h⟩
    | true =>
      unfold pollLinks at h ⊢
      dsimp only at h ⊢
      rw [if_pos rfl] at h ⊢
      by_cases hadd : (addPeriodicObserveCallback grants resource callbacks).1 = true
      · rw [if_pos hadd] at h ⊢
        exact ⟨fun _ => (pollLinks_grows grants links _).kept _ (addCallback_mem hadd), ih h⟩
      · rw [if_neg hadd] at h
        exact absurd h hadd

theorem setObserveOption_grows (grants : Grants) (x : Watched) (registered : Bool)
    (callbacks : List Nat) : Grows callbacks (setObserveOption grants x registered callbacks).2 := by
  have hown : Grows callbacks (if registered ∧ x.periodic then
      addPeriodicObserveCallback grants x.resource callbacks else (true, callbacks)).2 := by
    split
    · exact addCallback_grows _ _ _
    · exact Grows.refl callbacks
  unfold setObserveOption
  dsimp only
  cases x.links with
  | none => exact hown
  | some links =>
    dsimp only
    split
    · exact hown.trans (pollLinks_grows _ _ _)
    · exact hown

/-- the option stays set: all callbacks are there -/
theorem setObserveOption_mem {x : Watched}
    (h : (setObserveOption grants x true callbacks).1 = true) :
    ∀ r ∈ x.stopped, r ∈ (setObserveOption grants x true callbacks).2 := by
  unfold Watched.stopped
  unfold setObserveOption at h ⊢
  dsimp only at h ⊢
  generalize hc : (if (true : Bool) = true ∧ x.periodic = true then
    addPeriodicObserveCallback grants x.resource callbacks else (true, callbacks)) = c at h ⊢
  have hres : c.1 = true → ∀ r ∈ (if x.periodic then [x.resource] else []), r ∈ c.2 := by
    intro h1 r hr
    by_cases hp : x.periodic = true
    · rw [if_pos hp] at hr
      rw [if_pos ⟨rfl, hp⟩] at hc
      rw [List.mem_singleton.mp hr, ← hc]
      exact addCallback_mem (hc ▸ h1)
    · rw [if_neg hp] at hr
      cases hr
  intro r hr
  cases hl : x.links with
  | none =>
    rw [hl] at h hr
    simp only [Option.getD_none, List.filter_nil, List.map_nil, List.append_nil] at hr
    exact hres h r hr
  | some links =>
    rw [hl] at h hr
    dsimp only at h ⊢
    by_cases hb : x.batch = true
    · rw [if_pos hb] at h ⊢
      rw [Bool.and_eq_true] at h
      rcases List.mem_append.mp hr with hr | hr
      · exact (pollLinks_grows _ _ _).kept r (hres h.1 r hr)
      · obtain ⟨link, hlink, rfl⟩ := List.mem_map.mp hr
        obtain ⟨hm, hp⟩ := List.mem_filter.mp hlink
        exact pollLinks_mem h.2 link hm hp
    · rw [if_neg hb] at h
      cases h

theorem stopPolling_eq (x : Watched) (callbacks : List Nat) :
    stopPolling x callbacks = x.stopped.foldl List.erase callbacks := by
  unfold stopPolling Watched.stopped removePeriodicObserveCallback
  dsimp only
  rw [List.foldl_append, List.foldl_map]
  split <;> rfl

/-- the other callbacks stay, each once -/
theorem foldl_erase (stopped : List Nat) (hn : callbacks.Nodup) :
    (stopped.foldl List.erase callbacks).Nodup ∧
      ∀ r ∈ callbacks, r ∉ stopped → r ∈ stopped.foldl List.erase callbacks := by
  induction stopped generalizing callbacks with
  | nil => exact ⟨hn, fun r hr _ => hr⟩
  | cons a stopped ih =>
    obtain ⟨h1, h2⟩ := ih (hn.erase a)
    refine ⟨h1, fun r hr hs => ?_⟩
    rw [List.mem_cons, not_or] at hs
    exact h2 r ((List.mem_erase_of_ne hs.1).mpr hr) hs.2

end

/-! ## what one step preserves -/

/-- the books are kept, and what is needed is polled -/
structure Observing.Sound (P : PollSite) (s : Observing) : Prop where
  kept : Kept s.observers
  nodup : s.callbacks.Nodup
  polled : ∀ r, P.Needed s.observers.list r → r ∈ s.callbacks

section
variable {P : PollSite} {l m : List Observer} {r : Nat}

theorem PollSite.Needed.mono (h : P.Needed l r) (hl : ∀ o ∈ l, o ∈ m) : P.Needed m r := by
  obtain ⟨hp, o, ho, hf⟩ := h
  exact ⟨hp, o, hl o ho, hf⟩

/-- what is needed for one more observer is needed before, or for this observer -/
theorem PollSite.Needed.of_snoc {o : Observer} (h : P.Needed (l ++ [o]) r) :
    P.Needed l r ∨ P.periodic r = true ∧ P.Follows o.resource r := by
  obtain ⟨hp, a, ha, hf⟩ := h
  rcases List.mem_append.mp ha with ha | ha
  · exact Or.inl ⟨hp, a, ha, hf⟩
  · rw [List.mem_singleton.mp ha] at hf
    exact Or.inr ⟨hp, hf⟩

/-- what an observer needs is what its request adds and a cancellation takes away -/
theorem PollSite.mem_stopped {resource : Nat} (batch : Bool) (hp : P.periodic r = true)
    (hf : P.Follows resource r) : r ∈ (P.watched resource batch).stopped := by
  unfold Watched.stopped PollSite.watched
  dsimp only
  rw [List.mem_append]
  rcases hf with rfl | ⟨hc, hl⟩
  · left
    rw [if_pos hp]
    exact List.mem_singleton_self _
  · right
    rw [if_pos hc]
    refine List.mem_map.mpr ⟨(r, P.periodic r), List.mem_filter.mpr ⟨?_, hp⟩, rfl⟩
    exact List.mem_map_of_mem hl

/-- observers go away -/
theorem Observing.Sound.removed {s : Observing} (h : s.Sound P) {t : Observers} (hk : Kept t)
    (hl : ∀ o ∈ t.list, o ∈ s.observers.list) : Observing.Sound P ⟨t, s.callbacks⟩ :=
  ⟨hk, h.nodup, fun r hr => h.polled r (hr.mono hl)⟩

end

section
variable {uri : Nat → List UInt8} {endpoint : Endpoint} {message : Message} {code : UInt8}
  {x : Watched} {block2Size : UInt16} {grants : Grants}

theorem Kept.observeHandler {s : Observers} (h : Kept s) (granted : Bool) :
    Kept (coapObserveHandler uri endpoint message code x block2Size granted s).2 := by
  unfold coapObserveHandler
  split
  · split
    · exact h
    · split
      · exact h.register _
      · split
        · exact h.removeFirst uri _
        · exact h
  · exact h

variable (uri endpoint code x block2Size grants) in
/-- a request to observe that is registered -/
theorem observeHandler_register (h0 : coapGetHeaderObserve message = some 0) (s : Observers) :
    (0 ≤ (coapObserveHandler uri endpoint message code x block2Size grants.observer s).1 →
      message.code = coapGet ∧ code < 128 ∧ grants.observer = true ∧ ∃ n,
        (coapObserveHandler uri endpoint message code x block2Size grants.observer s).2.list =
          s.list.eraseP (Observer.isAt endpoint (coapGetHeaderUriPath message)) ++
            [(registration endpoint message x block2Size grants.observer).observer n]) ∧
      (¬ 0 ≤ (coapObserveHandler uri endpoint message code x block2Size grants.observer s).1 →
        ∀ o ∈ (coapObserveHandler uri endpoint message code x block2Size grants.observer s).2.list,
          o ∈ s.list) := by
  unfold coapObserveHandler
  by_cases ha : message.code = coapGet ∧ code < 128
  · rw [if_pos ha, h0]
    dsimp only
    rw [if_pos rfl, addObserver_fst]
    obtain ⟨n, hn⟩ := addObserver_list
      (registration endpoint message x block2Size grants.observer) s
    rw [hn]
    refine ⟨fun hg => ⟨ha.1, ha.2, hg, n, by rw [if_pos hg]; rfl⟩, fun hg o ho => ?_⟩
    rw [if_neg hg, List.append_nil] at ho
    exact List.eraseP_sublist.subset ho
  · rw [if_neg ha]
    refine ⟨fun hn => absurd hn ?_, fun _ o ho => ho⟩
    show ¬ (0 : Int) ≤ -1
    omega

variable (uri endpoint code block2Size) in
theorem observe_zero (h0 : coapGetHeaderObserve message = some 0) (hx : x.observable = true)
    (s : Observing) :
    let y := coapObserveHandler uri endpoint message code x block2Size grants.observer s.observers
    let z := setObserveOption grants x (0 ≤ y.1) s.callbacks
    (observe uri endpoint message code x block2Size grants s).2 =
      if z.1 then ⟨y.2, z.2⟩
      else ⟨(coapRemoveObserverByToken uri endpoint message.token y.2).2, z.2⟩ := by
  unfold observe
  rw [h0]
  dsimp only
  rw [if_pos hx, if_pos rfl]
  split <;> rfl

/-- a client that is registered and refused leaves the observers as they were -/
theorem eraseP_withdrawn {l : List Observer} (h : Withdrawable endpoint message l) (n : UInt32) :
    (l.eraseP (Observer.isAt endpoint (coapGetHeaderUriPath message)) ++
        [(registration endpoint message x block2Size grants.observer).observer n]).eraseP
      (Observer.hasToken endpoint message.token) =
      l.eraseP (Observer.isAt endpoint (coapGetHeaderUriPath message)) := by
  have hold : ∀ o ∈ l.eraseP (Observer.isAt endpoint (coapGetHeaderUriPath message)),
      ¬ o.hasToken endpoint message.token = true := by
    intro o ho
    rw [h.2 o ho]
    exact Bool.false_ne_true
  rw [List.eraseP_append_right _ hold,
    List.eraseP_cons_of_pos ((hasToken_registration n).trans h.1), List.append_nil]

end

section
variable {cfg : Config} {P : PollSite} {endpoint : Endpoint} {message : Message} {code : UInt8}
  {resource : Nat} {batch : Bool} {grants : Grants} {s : Observing}

/-- a request to observe -/
theorem Observing.Sound.register (h : s.Sound P) (block2Size : UInt16)
    (h0 : coapGetHeaderObserve message = some 0)
    (hx : (P.watched resource batch).observable = true)
    (hc : RegistersClean endpoint message code (P.watched resource batch) grants s) :
    (observe P.uri endpoint message code (P.watched resource batch) block2Size grants s).2.Sound P := by
  have hk : Kept (coapObserveHandler P.uri endpoint message code (P.watched resource batch)
    block2Size grants.observer s.observers).2 := h.kept.observeHandler _
  obtain ⟨hreg, hnot⟩ := observeHandler_register P.uri endpoint code (P.watched resource batch)
    block2Size grants h0 s.observers
  rw [observe_zero P.uri endpoint code block2Size h0 hx s]
  generalize coapObserveHandler P.uri endpoint message code (P.watched resource batch) block2Size
    grants.observer s.observers = y at hk hreg hnot ⊢
  have hg := setObserveOption_grows grants (P.watched resource batch) (decide (0 ≤ y.1)) s.callbacks
  have hremoved := removeFirst_list P.uri (Observer.hasToken endpoint message.token) y.2
  by_cases hr : 0 ≤ y.1
  · obtain ⟨hm, hcode, hgrant, n, hl⟩ := hreg hr
    rw [decide_eq_true hr] at hg ⊢
    by_cases hz : (setObserveOption grants (P.watched resource batch) true s.callbacks).1 = true
    · rw [if_pos hz]
      refine ⟨hk, hg.nodup h.nodup, fun r hn => ?_⟩
      replace hn : P.Needed y.2.list r := hn
      rw [hl] at hn
      rcases hn.of_snoc with hn | ⟨hp, hf⟩
      · exact hg.kept r (h.polled r (hn.mono fun o ho => List.eraseP_sublist.subset ho))
      · exact setObserveOption_mem hz r (P.mem_stopped batch hp hf)
    · -- the callbacks are not all there, and the new observer is taken out again
      rw [if_neg hz]
      have hnf : ¬ Followed grants (P.watched resource batch) True s.callbacks := by
        rw [← eq_self true]
        exact fun hf => hz ((setObserveOption_fst grants _ true s.callbacks).mpr hf)
      have hw := (hc h0 hx hm hcode hgrant).resolve_left hnf
      refine ⟨hk.removeFirst _ _, hg.nodup h.nodup, fun r hn => ?_⟩
      replace hn : P.Needed (removeFirst P.uri (Observer.hasToken endpoint message.token)
        y.2).2.list r := hn
      rw [hremoved, hl, eraseP_withdrawn hw] at hn
      exact hg.kept r (h.polled r (hn.mono fun o ho => List.eraseP_sublist.subset ho))
  · have hold := hnot hr
    rw [decide_eq_false hr] at hg ⊢
    split
    · exact ⟨hk, hg.nodup h.nodup, fun r hn => hg.kept r (h.polled r (hn.mono hold))⟩
    · refine ⟨hk.removeFirst _ _, hg.nodup h.nodup, fun r hn => ?_⟩
      refine hg.kept r (h.polled r (hn.mono fun o ho => hold o ?_))
      replace ho : o ∈ (removeFirst P.uri (Observer.hasToken endpoint message.token) y.2).2.list := ho
      rw [hremoved] at ho
      exact List.eraseP_sublist.subset ho

/-- a request to observe no longer -/
theorem Observing.Sound.cancel (h : s.Sound P) (block2Size : UInt16)
    (h1 : coapGetHeaderObserve message = some 1)
    (hx : (P.watched resource batch).observable = true)
    (hc : CancelsClean P endpoint message code (P.watched resource batch) s) :
    (observe P.uri endpoint message code (P.watched resource batch) block2Size grants s).2.Sound P := by
  have hone : ¬ (1 : UInt32) = 0 := by decide
  unfold observe coapObserveHandler
  rw [h1]
  dsimp only
  rw [if_pos hx, if_neg hone, if_pos rfl, if_neg hone, if_pos rfl]
  by_cases ha : message.code = coapGet ∧ code < 128
  · rw [if_pos ha]
    dsimp only
    have hk := h.kept.removeFirst P.uri (Observer.hasToken endpoint message.token)
    have hl := removeFirst_list P.uri (Observer.hasToken endpoint message.token) s.observers
    unfold coapRemoveObserverByToken
    cases hf : s.observers.list.find? (Observer.hasToken endpoint message.token) with
    | none =>
      have hsame : removeFirst P.uri (Observer.hasToken endpoint message.token) s.observers =
          (0, s.observers) := by
        unfold removeFirst
        rw [hf]
      rw [hsame]
      dsimp only
      rw [if_neg (show ¬ (0 : Int) < (0 : Nat) from Int.lt_irrefl 0)]
      exact h
    | some o =>
      have hfst : (removeFirst P.uri (Observer.hasToken endpoint message.token) s.observers).1 = 1 := by
        unfold removeFirst
        rw [hf]
      have hfound : ∃ o ∈ s.observers.list, o.hasToken endpoint message.token = true :=
        ⟨o, List.mem_of_find?_eq_some hf, List.find?_some hf⟩
      obtain ⟨hn, hmem⟩ := foldl_erase (P.watched resource batch).stopped h.nodup
      rw [hfst, if_pos (by decide), stopPolling_eq]
      refine ⟨hk, hn, fun r hr => ?_⟩
      replace hr : P.Needed (removeFirst P.uri (Observer.hasToken endpoint message.token)
        s.observers).2.list r := hr
      rw [hl] at hr
      refine hmem r (h.polled r (hr.mono fun o ho => List.eraseP_sublist.subset ho)) fun hs => ?_
      exact hc h1 hx ha.1 ha.2 hfound r hs hr
  · rw [if_neg ha]
    exact h

theorem Observing.Sound.observe (h : s.Sound P) (block2Size : UInt16)
    (hreg : RegistersClean endpoint message code (P.watched resource batch) grants s)
    (hcan : CancelsClean P endpoint message code (P.watched resource batch) s) :
    (Coap.observe P.uri endpoint message code (P.watched resource batch) block2Size grants
      s).2.Sound P := by
  cases hv : coapGetHeaderObserve message with
  | none =>
    unfold Coap.observe
    rw [hv]
    exact h
  | some v =>
    by_cases hx : (P.watched resource batch).observable = true
    · by_cases h0 : v = 0
      · exact h.register block2Size (h0 ▸ hv) hx hreg
      · by_cases h1 : v = 1
        · exact h.cancel block2Size (h1 ▸ hv) hx hcan
        · unfold Coap.observe
          rw [hv]
          dsimp only
          rw [if_pos hx, if_neg h0, if_neg h1]
          exact h
    · unfold Coap.observe
      rw [hv]
      dsimp only
      rw [if_neg hx]
      exact h

end

theorem Apart.of_map {l m : List Observer}
    (h : (l.map fun o => (o.resource, o.endpoint, o.url, o.token)) =
      m.map fun o => (o.resource, o.endpoint, o.url, o.token)) (hm : Apart m) : Apart l := by
  have hiff : ∀ l : List Observer, Apart l ↔
      (l.map fun o => (o.resource, o.endpoint, o.url, o.token)).Pairwise
        fun a b => (ocEndpointCompare b.2.1 a.2.1 && b.2.2.1 == a.2.2.1) = false := by
    intro l
    rw [List.pairwise_map]
    rfl
  rw [hiff, h, ← hiff]
  exact hm

/-- the books of a server with the same ledger -/
theorem Kept.of_ledger {s t : Polling} (h : Kept s.observing.observers)
    (hl : t.server.ledger = s.server.ledger) : Kept t.observing.observers := by
  have hmap := congrArg Prod.fst hl
  have hnum : t.server.numObservers = s.server.numObservers := congrArg Prod.snd hl
  have hof : ∀ r, ∀ l : List Observer, observersOf l r =
      (l.map fun o => (o.resource, o.endpoint, o.url, o.token)).countP (·.1 == r) := by
    intro r l
    rw [List.countP_map]
    rfl
  have hcount : ∀ r, observersOf t.server.list r = observersOf s.server.list r := by
    intro r
    rw [hof, hof]
    exact congrArg (List.countP (·.1 == r)) hmap
  refine ⟨fun r => ?_, Apart.of_map hmap h.apart⟩
  show t.server.numObservers r = UInt8.ofNat (observersOf t.server.list r)
  rw [hnum, hcount]
  exact h.counts r

/-- an observer of a server with the same ledger -/
theorem mem_of_ledger {s t : Server} (hl : t.ledger = s.ledger) {o : Observer} (ho : o ∈ t.list) :
    ∃ a ∈ s.list, a.resource = o.resource := by
  have hmem : (o.resource, o.endpoint, o.url, o.token) ∈ t.ledger.1 := List.mem_map_of_mem ho
  rw [hl] at hmem
  obtain ⟨a, ha, he⟩ := List.mem_map.mp hmem
  exact ⟨a, ha, congrArg Prod.fst he⟩

theorem PollSite.Needed.of_ledger {P : PollSite} {s t : Server} {r : Nat}
    (h : P.Needed t.list r) (hl : t.ledger = s.ledger) : P.Needed s.list r := by
  obtain ⟨hp, o, ho, hf⟩ := h
  obtain ⟨a, ha, hres⟩ := mem_of_ledger hl ho
  exact ⟨hp, a, ha, by rw [hres]; exact hf⟩

section
variable {cfg : Config} {P : PollSite} {s : Polling}

/-- a poll: the callback goes when the counts say that nobody observes the resource -/
theorem Observing.Sound.poll (h : s.observing.Sound P) (supply linked : Supply) (get : Answer)
    (batch : Nat → Representation) (resource : Nat)
    (hc : PollStep.Clean P s (.poll supply linked get batch resource)) :
    (s.step cfg P (.poll supply linked get batch resource)).observing.Sound P := by
  unfold Polling.step
  dsimp only
  by_cases hr : resource ∈ s.callbacks
  · rw [if_pos hr]
    obtain ⟨hl, hn⟩ := notifyObservers_ledger cfg P.toSite s.server supply linked get batch resource
      none none
    unfold periodicObserveHandler
    dsimp only
    generalize coapNotifyObservers cfg P.toSite supply linked get batch resource none none s.server =
      x at hl hn ⊢
    have hneeded : ∀ r, P.Needed x.2.2.server.list r → P.Needed s.server.list r :=
      fun r hr => hr.of_ledger hl
    by_cases hx : x.1 = 0
    · rw [if_neg (by simp [hx])]
      have hk : Kept s.observing.observers := h.kept
      have hzero : observersOf s.server.list resource % 2^8 = 0 ∧ P.numLinks resource = 0 := by
        have h1 : (s.server.numObservers resource).toNat = observersOf s.server.list resource % 2^8 :=
          (congrArg UInt8.toNat (hk.counts resource)).trans UInt8.toNat_ofNat'
        have h2 : (P.numLinks resource).toNat = 0 := by omega
        exact ⟨by omega, UInt8.toNat_inj.mp h2⟩
      refine ⟨hk.of_ledger (t := ⟨x.2.2.server, _⟩) hl, h.nodup.erase resource, fun r hr => ?_⟩
      have hold := hneeded r hr
      refine (List.mem_erase_of_ne fun he => ?_).mpr (h.polled r hold)
      rw [he] at hold
      exact hc hold hzero
    · rw [if_pos (by simp [hx])]
      exact ⟨Kept.of_ledger (t := ⟨x.2.2.server, _⟩) h.kept hl, h.nodup,
        fun r hr => h.polled r (hneeded r hr)⟩
  · rw [if_neg hr]
    exact h

/-- what one step preserves -/
theorem Observing.Sound.step (h : s.observing.Sound P) {st : PollStep} (hc : st.Clean P s) :
    (s.step cfg P st).observing.Sound P := by
  cases st with
  | request endpoint message code resource batch block2Size grants =>
    exact h.observe block2Size hc.1 hc.2
  | timeout endpoint =>
    refine h.removed (h.kept.removeAll P.uri _) fun o ho => ?_
    exact List.filter_sublist.subset ho
  | reset endpoint mid =>
    refine h.removed (h.kept.removeFirst P.uri _) fun o ho => ?_
    replace ho : o ∈ (removeFirst P.uri (Observer.hasMid endpoint mid)
      s.observing.observers).2.list := ho
    rw [removeFirst_list] at ho
    exact List.eraseP_sublist.subset ho
  | poll supply linked get batch resource => exact h.poll supply linked get batch resource hc
  | others engine handles => exact ⟨⟨h.kept.counts, h.kept.apart⟩, h.nodup, h.polled⟩

end

/-- **What has to be polled is polled.**  In a run whose steps are clean, every periodic resource that
somebody observes, by itself or in a collection, has one callback. -/
theorem polled_run (cfg : Config) (P : PollSite) (s : Polling)
    (hr : PollRun cfg P (fun s st => st.Clean P s) s) : PolledOnce P s := by
  have hs : s.observing.Sound P := by
    induction hr with
    | init engine handles =>
      refine ⟨⟨fun _ => rfl, List.Pairwise.nil⟩, List.nodup_nil, fun r hr => ?_⟩
      obtain ⟨_, o, ho, _⟩ := hr
      cases ho
    | step st _ hc ih => exact ih.step hc
  exact fun r hn => List.count_eq_one_of_mem hs.nodup (hs.polled r hn)

/-! ## sample inputs -/

/-- periodic resources without collections -/
def samplePollSite : PollSite := ⟨sampleSite [], fun _ => true, fun _ => true⟩

/-- a client asks for resource `0`, with a value of the Observe option -/
def sampleAsk (port : UInt16) (value : UInt32) : PollStep :=
  .request (clientAt port) (coapSetHeaderObserve observingGet value) content205 0 false 1024
    ⟨true, fun _ => true⟩

def samplePolling : Polling := .init (State.init 0) fun _ => ⟨false, [], []⟩

/-- two clients observe a resource, and one of them cancels: nothing polls the resource for the
other one -/
theorem unpolled_observer :
    ∃ s, PollRun defaultConfig samplePollSite (fun _ _ => True) s ∧
      samplePollSite.Needed s.server.list 0 ∧ s.callbacks = [] ∧ ¬ PolledOnce samplePollSite s := by
  have h1 : PollRun defaultConfig samplePollSite (fun _ _ => True) samplePolling :=
    .init (State.init 0) fun _ => ⟨false, [], []⟩
  have h2 := PollRun.step (sampleAsk 2 1) (.step (sampleAsk 2 0) (.step (sampleAsk 1 0) h1 trivial)
    trivial) trivial
  generalize hs : Polling.step defaultConfig samplePollSite (sampleAsk 2 1)
    ((samplePolling.step defaultConfig samplePollSite (sampleAsk 1 0)).step defaultConfig
      samplePollSite (sampleAsk 2 0)) = s at h2
  have hcb : s.callbacks = [] := by rw [← hs]; decide
  have hl : s.server.list.map Observer.resource = [0] := by rw [← hs]; decide
  have hn : samplePollSite.Needed s.server.list 0 := by
    have h0 : 0 ∈ s.server.list.map Observer.resource := by rw [hl]; exact List.mem_singleton_self 0
    obtain ⟨o, ho, hr⟩ := List.mem_map.mp h0
    exact ⟨rfl, o, ho, Or.inl hr⟩
  refine ⟨s, h2, hn, hcb, fun hp => ?_⟩
  have h1 := hp 0 hn
  rw [hcb] at h1
  cases h1

/-- one client observes a resource -/
theorem polled_run_one :
    PolledOnce samplePollSite
      (samplePolling.step defaultConfig samplePollSite (sampleAsk 1 0)) := by
  have hreg : RegistersClean (clientAt 1) (coapSetHeaderObserve observingGet 0) content205
      (samplePollSite.watched 0 false) ⟨true, fun _ => true⟩ samplePolling.observing := by
    intro _ _ _ _ _
    exact Or.inl ⟨fun _ _ => Or.inr rfl, fun links hl =>
      nomatch (show (none : Option (List (Nat × Bool))) = some links from hl)⟩
  have hcan : CancelsClean samplePollSite (clientAt 1) (coapSetHeaderObserve observingGet 0)
      content205 (samplePollSite.watched 0 false) samplePolling.observing :=
    fun h => absurd h (by decide)
  exact polled_run defaultConfig samplePollSite _
    (.step (sampleAsk 1 0) (.init (State.init 0) fun _ => ⟨false, [], []⟩) ⟨hreg, hcan⟩)

end Coap
