import Iotivity.Engine.Observe
import Iotivity.Engine.Mislabelled

/-!
# The Observe option of a request

`oc_ri_invoke_coap_entity_handler` looks at the Observe option of a request after the handler of the
resource has run.  `observe` is that part, on the list of observers and the list of periodic
callbacks; `invoke` is the whole call, with `observe` in the place of what `Entity.setObserve` and
`Env.gone` leave open.

A response agrees with the list of observers if it carries the option exactly when its receiver is
registered and the response is a success (`Agreed`).  `observe_agreed_iff` says when it does.
-/

namespace Coap

/-! ## periodic callbacks -/

/-- what the call knows of the resource: `links` are the links of a collection, each with the
resource that it leads to and whether that is periodic; `batch` when the interface is `OC_IF_B` -/
structure Watched where
  resource : Nat
  observable : Bool
  periodic : Bool
  links : Option (List (Nat × Bool))
  batch : Bool

/-- the blocks that `oc_memb_alloc` finds -/
structure Grants where
  observer : Bool
  callback : Nat → Bool

/-- the observers, and `observe_callbacks` by their resources -/
structure Observing where
  observers : Observers
  callbacks : List Nat

section
variable (grants : Grants)

def addPeriodicObserveCallback (resource : Nat) (callbacks : List Nat) : Bool × List Nat :=
  if resource ∈ callbacks then (true, callbacks)
  else if grants.callback resource then (true, callbacks ++ [resource])
  else (false, callbacks)

def removePeriodicObserveCallback (resource : Nat) (callbacks : List Nat) : List Nat :=
  callbacks.erase resource

/-- the loop over the links of a collection -/
def pollLinks : List (Nat × Bool) → List Nat → Bool × List Nat
  | [], callbacks => (true, callbacks)
  | (resource, periodic) :: links, callbacks =>
    if periodic then
      let x := addPeriodicObserveCallback grants resource callbacks
      if x.1 then pollLinks links x.2 else x
    else pollLinks links callbacks

/-- `set_observe_option`; `registered` when `coap_observe_handler` has not failed -/
def setObserveOption (x : Watched) (registered : Bool) (callbacks : List Nat) : Bool × List Nat :=
  let own := if registered ∧ x.periodic then addPeriodicObserveCallback grants x.resource callbacks
    else (true, callbacks)
  match x.links with
  | none => own
  | some links =>
    if x.batch then
      let linked := pollLinks grants links own.2
      (own.1 && linked.1, linked.2)
    else (false, own.2)

/-- the callbacks of a resource that is not observed any more -/
def stopPolling (x : Watched) (callbacks : List Nat) : List Nat :=
  let own := if x.periodic then removePeriodicObserveCallback x.resource callbacks else callbacks
  ((x.links.getD []).filter (·.2)).foldl (fun c link => removePeriodicObserveCallback link.1 c) own

end

/-! ## the option -/

section
variable (uri : Nat → List UInt8) (endpoint : Endpoint) (message : Message)

/-- the registration that a request asks for -/
def registration (x : Watched) (block2Size : UInt16) (granted : Bool) : Registration :=
  ⟨x.resource, block2Size, endpoint, message.token, coapGetHeaderUriPath message, granted⟩

/-- `coap_observe_handler`; `code` is the code of the response so far -/
def coapObserveHandler (code : UInt8) (x : Watched) (block2Size : UInt16) (granted : Bool)
    (s : Observers) : Int × Observers :=
  if message.code = coapGet ∧ code < 128 then
    match coapGetHeaderObserve message with
    | none => (-1, s)
    | some observe =>
      if observe = 0 then addObserver (registration endpoint message x block2Size granted) s
      else if observe = 1 then
        let y := coapRemoveObserverByToken uri endpoint message.token s
        (y.1, y.2)
      else (-1, s)
  else (-1, s)

/-- the Observe option of a request that was successful: is the response to have it, and the
observers afterwards -/
def observe (code : UInt8) (x : Watched) (block2Size : UInt16) (grants : Grants) (s : Observing) :
    Bool × Observing :=
  match coapGetHeaderObserve message with
  | none => (false, s)
  | some v =>
    if x.observable then
      let y := coapObserveHandler uri endpoint message code x block2Size grants.observer s.observers
      if v = 0 then
        let z := setObserveOption grants x (0 ≤ y.1) s.callbacks
        if z.1 then (true, ⟨y.2, z.2⟩)
        else (false, ⟨(coapRemoveObserverByToken uri endpoint message.token y.2).2, z.2⟩)
      else if v = 1 then
        (false, ⟨y.2, if 0 < y.1 then stopPolling x s.callbacks else s.callbacks⟩)
      else (false, s)
    else (false, s)

end

/-! ## the call -/

section
variable (cfg : Config) (env : Env) (uri : Nat → List UInt8) (endpoint : Endpoint)
  (message : Message) (x : Watched) (block2Size : UInt16) (grants : Grants)

/-- the response buffers that nobody waits for -/
def given (s : Buffers) (id : Nat) : Bool := s.responses.any fun b => b.id == id && b.refCount == 0

/-- what the call finds, with the answers that `observe` gives -/
def Env.observed (y : Bool × Observing) : Env :=
  { env with
    entity := { env.entity with setObserve := y.1 }
    gone := given y.2.observers.buffers }

/-- the observers as the call reaches them: their buffers are those of the engine -/
def Observing.attach (s : Observing) (l : Locals) : Observing :=
  { s with observers := { s.observers with buffers := l.state.toBuffers } }

/-- `oc_ri_invoke_coap_entity_handler` with the observers -/
def invoke (l : Locals) (s : Observing) : Bool × Locals × Observing :=
  let l' := reachResource env endpoint message l
  match refusal (parsePayload env l) env.entity l'.responseBuffer.isSome, l'.responseBuffer with
  | none, some b =>
    let l' := runHandler env endpoint message (requestPayload l) b l'
    let y := observe uri endpoint message l'.response.code x block2Size grants (s.attach l')
    let l' := observeRequest (env.observed y) message l'
    (true, answer cfg env endpoint message l', y.2)
  | code, _ => (false, setReply cfg message (code.getD 0).toNat 0 l', s)

/-- the error of a request that does not get as far as its handler -/
def refusedWith (l : Locals) : Option UInt8 :=
  refusal (parsePayload env l) env.entity
    (reachResource env endpoint message l).responseBuffer.isSome

theorem refusedWith_observed (y : Bool × Observing) (l : Locals) :
    refusedWith (env.observed y) endpoint message l = refusedWith env endpoint message l := rfl

section
variable {env endpoint message} {l : Locals}

theorem invoke_refused {code : UInt8} (h : refusedWith env endpoint message l = some code)
    (s : Observing) : invoke cfg env uri endpoint message x block2Size grants l s =
      (false, setReply cfg message code.toNat 0 (reachResource env endpoint message l), s) := by
  unfold refusedWith at h
  unfold invoke
  dsimp only
  rw [h]
  rfl

theorem entityHandler_refused {code : UInt8} (h : refusedWith env endpoint message l = some code) :
    ocRiInvokeCoapEntityHandler cfg env endpoint message l =
      (false, setReply cfg message code.toNat 0 (reachResource env endpoint message l)) := by
  unfold refusedWith at h
  unfold ocRiInvokeCoapEntityHandler
  dsimp only
  rw [h]
  rfl

/-- a handler runs with a response buffer -/
theorem responseBuffer_of_handled (h : refusedWith env endpoint message l = none) :
    ∃ b, (reachResource env endpoint message l).responseBuffer = some b := by
  apply Option.isSome_iff_exists.mp
  unfold refusedWith refusal at h
  cases hb : (reachResource env endpoint message l).responseBuffer.isSome with
  | true => rfl
  | false =>
    rw [hb] at h
    repeat' split at h
    all_goals simp_all

/-- when the handler has run: its answer, with the option that `observe` grants -/
theorem invoke_handled (h : refusedWith env endpoint message l = none) (s : Observing) :
    ∃ y l', l'.response = l.response ∧
      y = observe uri endpoint message l.response.code x block2Size grants (s.attach l') ∧
      invoke cfg env uri endpoint message x block2Size grants l s =
        (true, answer cfg env endpoint message (observeRequest (env.observed y) message l'), y.2) ∧
      ocRiInvokeCoapEntityHandler cfg (env.observed y) endpoint message l =
        (true, answer cfg env endpoint message (observeRequest (env.observed y) message l')) := by
  obtain ⟨b, hb⟩ := responseBuffer_of_handled h
  have hl : (runHandler env endpoint message (requestPayload l) b
      (reachResource env endpoint message l)).response = l.response :=
    reachResource_response l
  have hr : ∀ y, refusal (parsePayload (env.observed y) l) (env.observed y).entity
      (reachResource (env.observed y) endpoint message l).responseBuffer.isSome = none :=
    fun _ => h
  have hbr : ∀ y, (reachResource (env.observed y) endpoint message l).responseBuffer = some b :=
    fun _ => hb
  unfold refusedWith at h
  refine ⟨_, _, hl, rfl, ?_, ?_⟩
  · unfold invoke
    dsimp only
    rw [h, hb, ← hl]
  · unfold ocRiInvokeCoapEntityHandler
    dsimp only
    rw [hr, hbr]
    rfl

/-- the call is the entity handler, with answers that fit -/
theorem invoke_entityHandler (l : Locals) (s : Observing) :
    ∃ y, ocRiInvokeCoapEntityHandler cfg (env.observed y) endpoint message l =
      ((invoke cfg env uri endpoint message x block2Size grants l s).1,
        (invoke cfg env uri endpoint message x block2Size grants l s).2.1) := by
  cases h : refusedWith env endpoint message l with
  | some code =>
    refine ⟨(false, s), ?_⟩
    rw [entityHandler_refused cfg (by rw [refusedWith_observed, h]), invoke_refused cfg _ _ _ _ h]
    rfl
  | none =>
    obtain ⟨y, l', _, _, hi, he⟩ := invoke_handled cfg uri x block2Size grants h s
    exact ⟨y, by rw [he, hi]⟩

end

end

/-! ## what the call does to the observers -/

section
variable (grants : Grants)

/-- a resource that is polled, or for which there is memory to poll it -/
def Polled (callbacks : List Nat) (resource : Nat) : Prop :=
  resource ∈ callbacks ∨ grants.callback resource = true

/-- `set_observe_option` stays set: what is periodic is polled, and a collection is asked through
its batch interface -/
def Followed (x : Watched) (registered : Prop) (callbacks : List Nat) : Prop :=
  (registered → x.periodic = true → Polled grants callbacks x.resource) ∧
    ∀ links ∈ x.links, x.batch = true ∧
      ∀ link ∈ links, link.2 = true → Polled grants callbacks link.1

theorem addCallback_fst (resource : Nat) (callbacks : List Nat) :
    (addPeriodicObserveCallback grants resource callbacks).1 = true ↔
      Polled grants callbacks resource := by
  unfold addPeriodicObserveCallback Polled
  split
  · simp [*]
  · split <;> simp [*]

variable {grants} in
/-- a callback that has been added is one that could be polled before -/
theorem polled_addCallback {resource : Nat} {callbacks : List Nat} (r : Nat) :
    Polled grants (addPeriodicObserveCallback grants resource callbacks).2 r ↔
      Polled grants callbacks r := by
  unfold addPeriodicObserveCallback Polled
  split
  · rfl
  · split
    · next h =>
      rw [List.mem_append, List.mem_singleton]
      constructor
      · rintro ((hr | rfl) | hr)
        · exact Or.inl hr
        · exact Or.inr h
        · exact Or.inr hr
      · rintro (hr | hr)
        · exact Or.inl (Or.inl hr)
        · exact Or.inr hr
    · rfl

theorem pollLinks_fst (links : List (Nat × Bool)) (callbacks : List Nat) :
    (pollLinks grants links callbacks).1 = true ↔
      ∀ link ∈ links, link.2 = true → Polled grants callbacks link.1 := by
  induction links generalizing callbacks with
  | nil => simp [pollLinks]
  | cons link links ih =>
    obtain ⟨resource, periodic⟩ := link
    rw [List.forall_mem_cons]
    cases periodic with
    | false => simpa [pollLinks] using ih callbacks
    | true =>
      have h := addCallback_fst grants resource callbacks
      unfold pollLinks
      dsimp only
      rw [if_pos rfl]
      split
      · next hx =>
        rw [ih]
        simp only [polled_addCallback]
        exact ⟨fun hl => ⟨fun _ => h.mp hx, hl⟩, fun hl => hl.2⟩
      · next hx => exact iff_of_false hx fun hl => hx (h.mpr (hl.1 rfl))

theorem setObserveOption_fst (x : Watched) (registered : Bool) (callbacks : List Nat) :
    (setObserveOption grants x registered callbacks).1 = true ↔
      Followed grants x (registered = true) callbacks := by
  have hown : (if registered ∧ x.periodic then
        addPeriodicObserveCallback grants x.resource callbacks else (true, callbacks)).1 = true ↔
      (registered = true → x.periodic = true → Polled grants callbacks x.resource) := by
    split
    · next h => exact (addCallback_fst _ _ _).trans ⟨fun hp _ _ => hp, fun hp => hp h.1 h.2⟩
    · next h => exact iff_of_true rfl fun h1 h2 => absurd ⟨h1, h2⟩ h
  have hpoll : ∀ r, Polled grants (if registered ∧ x.periodic then
        addPeriodicObserveCallback grants x.resource callbacks else (true, callbacks)).2 r ↔
      Polled grants callbacks r := by
    intro r
    split
    · exact polled_addCallback r
    · rfl
  unfold setObserveOption Followed
  dsimp only
  cases hl : x.links with
  | none => exact hown.trans ⟨fun h => ⟨h, fun _ h => absurd h (by simp)⟩, fun h => h.1⟩
  | some links =>
    dsimp only
    split
    · next hb =>
      rw [Bool.and_eq_true, hown, pollLinks_fst]
      simp only [hpoll]
      constructor
      · intro h
        refine ⟨h.1, ?_⟩
        intro links' hm
        cases Option.some.inj hm
        exact ⟨hb, h.2⟩
      · intro h
        exact ⟨h.1, (h.2 links rfl).2⟩
    · next hb =>
      exact iff_of_false (by simp) fun h => hb (h.2 links rfl).1

end

theorem addObserver_list (x : Registration) (s : Observers) :
    ∃ n, (addObserver x s).2.list = s.list.eraseP (Observer.isAt x.endpoint x.path) ++
      if x.granted then [x.observer n] else [] := by
  refine ⟨(coapRemoveObserverHandleByUri x.endpoint x.path s).2.observeCounter, ?_⟩
  rw [addObserver_snd, ← handleByUri_list]
  cases x.granted with
  | true => rfl
  | false => exact (List.append_nil _).symm

theorem addObserver_fst (x : Registration) (s : Observers) :
    0 ≤ (addObserver x s).1 ↔ x.granted = true := by
  unfold addObserver
  dsimp only
  split
  · next h => exact iff_of_true (Int.natCast_nonneg _) h
  · next h =>
    refine iff_of_false ?_ h
    show ¬ (0 : Int) ≤ -1
    omega

/-! ## agreement -/

/-- the client is registered for a resource, with a token -/
def Registered (endpoint : Endpoint) (resource : Nat) (token : List UInt8) (l : List Observer) :
    Prop :=
  ∃ o ∈ l, o.hasToken endpoint token = true ∧ o.resource = resource

/-- a code of class 2 -/
def Success (code : UInt8) : Prop := code.toNat / 32 = 2

instance (code : UInt8) : Decidable (Success code) := inferInstanceAs (Decidable (_ = _))

/-- a response tells its receiver how things are -/
structure Agreed (registered : Prop) (response : Message) : Prop where
  told_iff : coapOptionObserve ∈ response.options ↔ registered ∧ Success response.code
  untold : coapOptionObserve ∉ response.options → ¬ registered

section
variable {registered : Prop} {response : Message}

theorem agreed_of_told (h : coapOptionObserve ∈ response.options) :
    Agreed registered response ↔ registered ∧ Success response.code :=
  ⟨fun ha => ha.told_iff.mp h, fun hr => ⟨iff_of_true h hr, fun hn => absurd h hn⟩⟩

theorem agreed_of_untold (h : coapOptionObserve ∉ response.options) :
    Agreed registered response ↔ ¬ registered :=
  ⟨fun ha => ha.untold h, fun hr => ⟨iff_of_false h fun hn => hr hn.1, fun _ => hr⟩⟩

end

section
variable (env : Env) (endpoint : Endpoint) (message : Message) (x : Watched) (grants : Grants)
  (l : Locals) (s : Observing)

/-- the code that the handler answers with -/
def replyCode : UInt8 :=
  match env.entity.reply with
  | .code c => (coapSetStatusCode l.response c).code
  | .ignore => l.response.code

/-- a request that `coap_observe_handler` looks at -/
def Asks : Prop := message.code = coapGet ∧ l.response.code < 128

instance : Decidable (Asks message l) := inferInstanceAs (Decidable (_ ∧ _))

/-- the response is going to have the option -/
def Promised : Prop :=
  refusedWith env endpoint message l = none ∧ coapGetHeaderObserve message = some 0 ∧
    x.observable = true ∧
    Followed grants x (Asks message l ∧ grants.observer = true) s.callbacks

/-- the observers that a request with the value 0 leaves of the old ones -/
def remaining : List Observer :=
  if Asks message l then
    s.observers.list.eraseP (Observer.isAt endpoint (coapGetHeaderUriPath message))
  else s.observers.list

/-- a client that is going to be told that it observes does so: the answer is a success, and there
is memory for the client, or it is still registered from before -/
def Fulfilled : Prop :=
  Success (replyCode env l) ∧
    ((Asks message l ∧ grants.observer = true ∧ ocEndpointCompare endpoint endpoint = true) ∨
      Registered endpoint x.resource message.token (remaining endpoint message l s))

/-- a client that is not going to be told that it observes is registered from before, and is not
taken out -/
def Lingers : Prop :=
  match refusedWith env endpoint message l, coapGetHeaderObserve message, x.observable with
  | none, some v, true =>
    if v = 0 then
      if Asks message l ∧ grants.observer = true then
        ∃ o ∈ remaining endpoint message l s, o.hasToken endpoint message.token = true
      else Registered endpoint x.resource message.token
        ((remaining endpoint message l s).eraseP (Observer.hasToken endpoint message.token))
    else if v = 1 ∧ Asks message l then
      Registered endpoint x.resource message.token
        (s.observers.list.eraseP (Observer.hasToken endpoint message.token))
    else Registered endpoint x.resource message.token s.observers.list
  | _, _, _ => env.entity.resource = true ∧
      Registered endpoint x.resource message.token s.observers.list

/-- no client is told less or more than what is going to hold -/
def Agreeable : Prop :=
  (Promised env endpoint message x grants l s → Fulfilled env endpoint message x grants l s) ∧
    (¬ Promised env endpoint message x grants l s → ¬ Lingers env endpoint message x grants l s)

variable {env endpoint message x grants l s} {uri : Nat → List UInt8} {block2Size : UInt16}

theorem observeHandler_not_asks (ha : ¬ Asks message l) (granted : Bool) (t : Observers) :
    coapObserveHandler uri endpoint message l.response.code x block2Size granted t = (-1, t) :=
  if_neg ha

theorem observeHandler_asks (ha : Asks message l) {v : UInt32}
    (h : coapGetHeaderObserve message = some v) (granted : Bool) (t : Observers) :
    coapObserveHandler uri endpoint message l.response.code x block2Size granted t =
      if v = 0 then addObserver (registration endpoint message x block2Size granted) t
      else if v = 1 then
        (((coapRemoveObserverByToken uri endpoint message.token t).1 : Int),
          (coapRemoveObserverByToken uri endpoint message.token t).2)
      else (-1, t) := by
  unfold coapObserveHandler
  rw [h]
  exact if_pos ha

variable (uri endpoint x block2Size grants l) in
/-- what a request with the value 0 does -/
theorem observeHandler_zero (h : coapGetHeaderObserve message = some 0) (t : Observing) :
    (0 ≤ (coapObserveHandler uri endpoint message l.response.code x block2Size grants.observer
        t.observers).1 ↔ Asks message l ∧ grants.observer = true) ∧
      ∃ n, (coapObserveHandler uri endpoint message l.response.code x block2Size
          grants.observer t.observers).2.list = remaining endpoint message l t ++
        if Asks message l ∧ grants.observer = true then
          [(registration endpoint message x block2Size grants.observer).observer n] else [] := by
  unfold remaining
  by_cases ha : Asks message l
  · rw [observeHandler_asks ha h, if_pos ha, if_pos rfl]
    obtain ⟨n, hn⟩ := addObserver_list
      (registration endpoint message x block2Size grants.observer) t.observers
    refine ⟨(addObserver_fst _ _).trans ⟨fun hg => ⟨ha, hg⟩, fun hg => hg.2⟩, n, ?_⟩
    rw [hn]
    simp only [ha, true_and]
    rfl
  · rw [observeHandler_not_asks ha, if_neg ha]
    refine ⟨iff_of_false ?_ fun h => ha h.1, 0, ?_⟩
    · show ¬ (0 : Int) ≤ -1
      omega
    · rw [if_neg fun h => ha h.1, List.append_nil]

theorem hasToken_registration (n : UInt32) :
    ((registration endpoint message x block2Size grants.observer).observer n).hasToken endpoint
      message.token = ocEndpointCompare endpoint endpoint := by
  show (ocEndpointCompare endpoint endpoint && message.token == message.token) = _
  rw [beq_self_eq_true, Bool.and_true]

/-- the client is registered by the request, or was before -/
theorem registered_append {m : List Observer} (n : UInt32) : Registered endpoint x.resource
      message.token (m ++ [(registration endpoint message x block2Size grants.observer).observer n])
    ↔ ocEndpointCompare endpoint endpoint = true ∨
      Registered endpoint x.resource message.token m := by
  unfold Registered
  constructor
  · intro h
    obtain ⟨o, ho, ht, hr⟩ := h
    rcases List.mem_append.mp ho with ho | ho
    · exact Or.inr ⟨o, ho, ht, hr⟩
    · rw [List.mem_singleton.mp ho, hasToken_registration] at ht
      exact Or.inl ht
  · intro h
    rcases h with h | h
    · exact ⟨_, List.mem_append_right _ (List.mem_singleton_self _),
        (hasToken_registration n).trans h, rfl⟩
    · obtain ⟨o, ho, h⟩ := h
      exact ⟨o, List.mem_append_left _ ho, h⟩

/-- the first observer with the token is taken out: the new one if there is no other -/
theorem registered_eraseP_append {m : List Observer} (n : UInt32) :
    Registered endpoint x.resource message.token
      ((m ++ [(registration endpoint message x block2Size grants.observer).observer n]).eraseP
        (Observer.hasToken endpoint message.token)) ↔
      ∃ o ∈ m, o.hasToken endpoint message.token = true := by
  by_cases hm : ∃ o ∈ m, o.hasToken endpoint message.token = true
  · refine iff_of_true ?_ hm
    obtain ⟨o, ho, ht⟩ := hm
    rw [List.eraseP_append_left ht _ ho, registered_append]
    rw [Observer.hasToken, Bool.and_eq_true] at ht
    exact Or.inl (ocEndpointCompare_trans (ocEndpointCompare_symm ht.1) ht.1)
  · refine iff_of_false ?_ hm
    intro hr
    obtain ⟨o, ho, ht, _⟩ := hr
    have hnone : ∀ a ∈ m, ¬ a.hasToken endpoint message.token = true := by
      intro a ha hat
      exact hm ⟨a, ha, hat⟩
    rw [List.eraseP_append_right _ hnone, List.mem_append] at ho
    rcases ho with ho | ho
    · exact hnone o ho ht
    · have hnew := List.mem_singleton.mp (List.eraseP_sublist.subset ho)
      rw [hnew] at ht
      rw [List.eraseP_cons_of_pos ht] at ho
      cases ho

/-- the option is granted as promised -/
theorem observe_told (k : Locals) (hr : refusedWith env endpoint message l = none) :
    (observe uri endpoint message l.response.code x block2Size grants (s.attach k)).1 = true ↔
      Promised env endpoint message x grants l s := by
  unfold observe Promised
  cases hv : coapGetHeaderObserve message with
  | none => simp
  | some v =>
    dsimp only
    by_cases hx : x.observable = true
    · rw [if_pos hx]
      by_cases h0 : v = 0
      · rw [h0] at hv
        have hreg := (observeHandler_zero endpoint x grants l uri block2Size hv (s.attach k)).1
        have hset := setObserveOption_fst grants x
          (decide (0 ≤ (coapObserveHandler uri endpoint message l.response.code x block2Size
            grants.observer (s.attach k).observers).1)) (s.attach k).callbacks
        rw [propext (decide_eq_true_iff.trans hreg)] at hset
        rw [if_pos h0]
        split
        · next h => exact iff_of_true rfl ⟨hr, h0 ▸ rfl, hx, hset.mp h⟩
        · next h => exact iff_of_false (by simp) fun hp => h (hset.mpr hp.2.2.2)
      · rw [if_neg h0]
        refine iff_of_false ?_ fun hp => h0 (Option.some.inj hp.2.1)
        split <;> simp
    · rw [if_neg hx]
      exact iff_of_false (by simp) fun hp => hx hp.2.2.1

variable (uri endpoint block2Size grants l) in
/-- the observers after a request with the value 0 -/
theorem observe_zero_list (hv : coapGetHeaderObserve message = some 0) (hx : x.observable = true)
    (t : Observing) :
    ∃ n, let r := observe uri endpoint message l.response.code x block2Size grants t
      let all := remaining endpoint message l t ++
        if Asks message l ∧ grants.observer = true then
          [(registration endpoint message x block2Size grants.observer).observer n] else []
      (r.1 = true → r.2.observers.list = all) ∧
        (r.1 = false → r.2.observers.list =
          all.eraseP (Observer.hasToken endpoint message.token)) := by
  obtain ⟨n, hn⟩ := (observeHandler_zero endpoint x grants l uri block2Size hv t).2
  refine ⟨n, ?_⟩
  dsimp only
  rw [← hn]
  unfold observe
  rw [hv]
  dsimp only
  rw [if_pos hx, if_pos rfl]
  split
  · exact ⟨fun _ => rfl, fun h => absurd h (by simp)⟩
  · exact ⟨fun h => absurd h (by simp), fun _ => removeFirst_list uri _ _⟩

/-- a client that is told is registered by the request, or from before -/
theorem observe_registered (k : Locals) (hp : Promised env endpoint message x grants l s) :
    Registered endpoint x.resource message.token
        (observe uri endpoint message l.response.code x block2Size grants
          (s.attach k)).2.observers.list ↔
      (Asks message l ∧ grants.observer = true ∧ ocEndpointCompare endpoint endpoint = true) ∨
        Registered endpoint x.resource message.token (remaining endpoint message l s) := by
  obtain ⟨n, hn⟩ := observe_zero_list endpoint grants l uri block2Size hp.2.1 hp.2.2.1 (s.attach k)
  rw [hn.1 ((observe_told k hp.1).mpr hp)]
  split
  · next h =>
    rw [registered_append]
    exact or_congr_left ⟨fun hc => ⟨h.1, h.2, hc⟩, fun hc => hc.2.2⟩
  · next h =>
    rw [List.append_nil]
    exact ⟨Or.inr, fun hr => hr.resolve_left fun hc => h ⟨hc.1, hc.2.1⟩⟩

/-- a handler belongs to a resource -/
theorem resource_of_handled (hr : refusedWith env endpoint message l = none) :
    env.entity.resource = true := by
  cases h : env.entity.resource with
  | true => rfl
  | false =>
    unfold refusedWith refusal at hr
    rw [h] at hr
    split at hr <;> simp at hr

/-- a client that is not told is registered from before -/
theorem observe_lingers (k : Locals) (hr : refusedWith env endpoint message l = none)
    (hp : ¬ Promised env endpoint message x grants l s) :
    Registered endpoint x.resource message.token
        (observe uri endpoint message l.response.code x block2Size grants
          (s.attach k)).2.observers.list ↔
      Lingers env endpoint message x grants l s := by
  unfold Lingers
  rw [hr]
  cases hv : coapGetHeaderObserve message with
  | none =>
    unfold observe
    rw [hv]
    exact (and_iff_right (resource_of_handled hr)).symm
  | some v =>
    cases hx : x.observable with
    | false =>
      unfold observe
      rw [hv, hx]
      exact (and_iff_right (resource_of_handled hr)).symm
    | true =>
      dsimp only
      by_cases h0 : v = 0
      · rw [h0] at hv
        obtain ⟨n, hn⟩ := observe_zero_list endpoint grants l uri block2Size hv hx (s.attach k)
        rw [hn.2 (Bool.eq_false_iff.mpr fun h => hp ((observe_told k hr).mp h)), if_pos h0]
        split
        · exact registered_eraseP_append n
        · rw [List.append_nil]
          rfl
      · rw [if_neg h0]
        unfold observe
        rw [hv, hx]
        dsimp only
        rw [if_pos rfl, if_neg h0]
        by_cases h1 : v = 1
        · rw [if_pos h1]
          by_cases ha : Asks message l
          · have h1a : v = 1 ∧ Asks message l := ⟨h1, ha⟩
            rw [observeHandler_asks ha hv, if_neg h0, if_pos h1, if_pos h1a]
            dsimp only
            rw [coapRemoveObserverByToken, removeFirst_list]
            rfl
          · have h1a : ¬ (v = 1 ∧ Asks message l) := fun h => ha h.2
            rw [observeHandler_not_asks ha, if_neg h1a]
            rfl
        · have h1a : ¬ (v = 1 ∧ Asks message l) := fun h => h1 h.1
          rw [if_neg h1, if_neg h1a]
          rfl

/-! ## the response -/

variable {cfg : Config}

/-- a setter of another option -/
theorem observe_mem_insert {n : Nat} (hn : n ≠ coapOptionObserve) (options : Finset Nat) :
    coapOptionObserve ∈ insert n options ↔ coapOptionObserve ∈ options := by
  rw [Finset.mem_insert, or_iff_right hn.symm]

variable (cfg message) in
/-- a reply sets the code, and other options than Observe -/
theorem setReply_response (code length : Nat) (k : Locals) :
    ∃ p, (setReply cfg message code length k).response = coapSetStatusCode p code ∧
      p.code = k.response.code ∧
      (coapOptionObserve ∈ p.options ↔ coapOptionObserve ∈ k.response.options) := by
  have hsize : ∀ p : Message,
      (if code = requestEntityTooLarge413.toNat then
          coapSetHeaderSize1 p (UInt32.ofNat cfg.blockSize) else p).code = p.code ∧
        (coapOptionObserve ∈ (if code = requestEntityTooLarge413.toNat then
          coapSetHeaderSize1 p (UInt32.ofNat cfg.blockSize) else p).options ↔
            coapOptionObserve ∈ p.options) := by
    intro p
    split
    · exact ⟨rfl, observe_mem_insert (n := coapOptionSize1) (by decide) p.options⟩
    · exact ⟨rfl, Iff.rfl⟩
  unfold setReply
  dsimp only
  split
  · exact ⟨_, rfl, hsize _⟩
  · split
    · refine ⟨_, rfl, (hsize _).1, (hsize _).2.trans ?_⟩
      exact observe_mem_insert (n := coapOptionContentFormat) (by decide) k.response.options
    · exact ⟨_, rfl, hsize _⟩

theorem statusCode_congr {p q : Message} (h : p.code = q.code) (code : Nat) :
    (coapSetStatusCode p code).code = (coapSetStatusCode q code).code := by
  unfold coapSetStatusCode
  split
  · rfl
  · exact h

theorem setReply_observe (code length : Nat) (k : Locals) :
    coapOptionObserve ∈ (setReply cfg message code length k).response.options ↔
      coapOptionObserve ∈ k.response.options := by
  obtain ⟨p, hp, _, ho⟩ := setReply_response message cfg code length k
  rw [hp, ← ho]
  unfold coapSetStatusCode
  split <;> rfl

theorem setReply_code (code length : Nat) (k : Locals) :
    (setReply cfg message code length k).response.code =
      (coapSetStatusCode k.response code).code := by
  obtain ⟨p, hp, hc, _⟩ := setReply_response message cfg code length k
  rw [hp]
  exact statusCode_congr hc code

variable (env) in
/-- the option that `observe` grants -/
theorem observeRequest_observe {y : Bool × Observing} {k : Locals}
    (hk : coapOptionObserve ∉ k.response.options)
    (hy : y.1 = true → coapGetHeaderObserve message = some 0) :
    (observeRequest (env.observed y) message k).response.code = k.response.code ∧
      (coapOptionObserve ∈ (observeRequest (env.observed y) message k).response.options ↔
        y.1 = true) := by
  unfold observeRequest
  split
  · next hv =>
    refine ⟨rfl, iff_of_false hk fun h => ?_⟩
    rw [hy h] at hv
    cases hv
  · next v hv =>
    dsimp only
    split
    · next h => exact ⟨rfl, iff_of_true (Finset.mem_insert_self _ _) h.2⟩
    · next h =>
      refine ⟨rfl, iff_of_false hk fun ht => h ⟨?_, ht⟩⟩
      exact Option.some.inj (hv.symm.trans (hy ht))

variable (endpoint message cfg) in
/-- a reply that is neither separate nor left out -/
theorem answer_direct (hs : env.entity.separate = false) (hi : env.entity.reply ≠ .ignore)
    {k : Locals} (hk : k.response.code = l.response.code) :
    (answer cfg env endpoint message k).response.code = replyCode env l ∧
      (coapOptionObserve ∈ (answer cfg env endpoint message k).response.options ↔
        coapOptionObserve ∈ k.response.options) := by
  unfold answer replyCode
  rw [hs]
  cases hr : env.entity.reply with
  | ignore => exact absurd hr hi
  | code c =>
    exact ⟨(setReply_code c _ k).trans (statusCode_congr hk c), setReply_observe c _ k⟩

end

/-- the response agrees with the observers exactly when nobody is told less or more than what is
going to hold; `l` is as `coap_receive` leaves it, with a response that has no Observe option -/
theorem observe_agreed_iff (cfg : Config) (env : Env) (uri : Nat → List UInt8) (endpoint : Endpoint)
    (message : Message) (x : Watched) (block2Size : UInt16) (grants : Grants) (l : Locals)
    (s : Observing) (hl : coapOptionObserve ∉ l.response.options)
    (hd : refusedWith env endpoint message l = none →
      env.entity.separate = false ∧ env.entity.reply ≠ .ignore) :
    let r := invoke cfg env uri endpoint message x block2Size grants l s
    Agreed (env.entity.resource = true ∧
        Registered endpoint x.resource message.token r.2.2.observers.list) r.2.1.response ↔
      Agreeable env endpoint message x grants l s := by
  dsimp only
  unfold Agreeable
  cases hr : refusedWith env endpoint message l with
  | some code =>
    have hp : ¬ Promised env endpoint message x grants l s := by
      intro hp
      rw [hp.1] at hr
      cases hr
    have hno : coapOptionObserve ∉ (setReply cfg message code.toNat 0
        (reachResource env endpoint message l)).response.options := by
      rw [setReply_observe, reachResource_response]
      exact hl
    rw [invoke_refused cfg uri x block2Size grants hr s, agreed_of_untold hno]
    unfold Lingers
    rw [hr]
    exact ⟨fun h => ⟨fun hp' => absurd hp' hp, fun _ => h⟩, fun h => h.2 hp⟩
  | none =>
    obtain ⟨hs, hi⟩ := hd hr
    obtain ⟨y, k, hk, hy, he, _⟩ := invoke_handled cfg uri x block2Size grants hr s
    have hprom : y.1 = true ↔ Promised env endpoint message x grants l s := by
      rw [hy]
      exact observe_told k hr
    obtain ⟨hc, ho⟩ := observeRequest_observe env (hk ▸ hl) fun h => (hprom.mp h).2.1
    rw [hk] at hc
    obtain ⟨hcode, hopt⟩ := answer_direct endpoint message cfg hs hi hc
    rw [he, and_iff_right (resource_of_handled hr)]
    by_cases hp : Promised env endpoint message x grants l s
    · rw [agreed_of_told (hopt.mpr (ho.mpr (hprom.mpr hp))), hcode, hy, observe_registered k hp]
      unfold Fulfilled
      exact ⟨fun h => ⟨fun _ => ⟨h.2, h.1⟩, fun hn => absurd hp hn⟩,
        fun h => ⟨(h.1 hp).2, (h.1 hp).1⟩⟩
    · rw [agreed_of_untold fun h => hp (hprom.mp (ho.mp (hopt.mp h))), hy, observe_lingers k hr hp]
      exact ⟨fun h => ⟨fun hp' => absurd hp' hp, fun _ => h⟩, fun h => h.2 hp⟩

/-- a client asks to observe a resource with the path "a" -/
def observingGet : Message :=
  coapSetHeaderObserve (coapSetHeaderUriPath (coapSetToken (coapUdpInitMessage .con coapGet 7) [1])
    [97]) 0

/-- as `coap_receive` calls the entity handler -/
def observingLocals : Locals :=
  ⟨State.init 0, .noError, coapUdpInitMessage .ack content205 7, none, none, none, none, []⟩

/-- an observable resource that is answered with `2.05`, for a client without other observations;
`granted` when there is memory for it -/
def observedAnswer (granted : Bool) : Bool × Locals × Observing :=
  invoke smallConfig (sampleEnv [65] (by decide)) (fun _ => [47, 97]) (clientAt 1) observingGet
    ⟨0, true, false, none, false⟩ 16 ⟨granted, fun _ => true⟩ observingLocals ⟨Observers.init, []⟩

/-- with memory, the client is told that it observes, and it does -/
theorem observe_agreed_get : let r := observedAnswer true
    Agreed (true = true ∧ Registered (clientAt 1) 0 [1] r.2.2.observers.list) r.2.1.response := by
  apply (observe_agreed_iff smallConfig (sampleEnv [65] (by decide)) (fun _ => [47, 97]) (clientAt 1)
    observingGet ⟨0, true, false, none, false⟩ 16 ⟨true, fun _ => true⟩ observingLocals
    ⟨Observers.init, []⟩ (by decide) (fun _ => ⟨rfl, by decide⟩)).mpr
  refine ⟨fun _ => ⟨by decide, Or.inl ⟨by decide, rfl, by decide⟩⟩, fun h => absurd ?_ h⟩
  refine ⟨by decide, by decide, rfl, fun _ h => absurd h (by decide), fun _ h => ?_⟩
  cases h

/-- without memory, the client is told that it observes, and it does not -/
theorem observe_promise_broken : let r := observedAnswer false
    coapOptionObserve ∉ observingLocals.response.options ∧ r.1 = true ∧
      ¬ Agreed (true = true ∧ Registered (clientAt 1) 0 [1] r.2.2.observers.list)
        r.2.1.response := by
  refine ⟨by decide, by decide, ?_⟩
  intro h
  have ho : coapOptionObserve ∈ (observedAnswer false).2.1.response.options := by decide
  have hl : (observedAnswer false).2.2.observers.list = [] := by decide
  obtain ⟨o, hm, _⟩ := (h.told_iff.mp ho).1.2
  rw [hl] at hm
  cases hm

end Coap
