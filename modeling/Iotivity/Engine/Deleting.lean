import Iotivity.Engine.Polling

/-!
# Deleting resources

A resource is referred to from four places: `observers_list`, the delayed notifications in
`timed_callbacks`, `observe_callbacks`, and the links of collections.  `oc_ri_delete_resource` looks
after the first of them.

* `Registry`               the server with its callbacks, resources, collections and links;
* `ocRiDeleteResource`     what is done when a resource is deleted;
* `Registry.Unreferenced`  nothing refers to a resource;
* `delete_unreferenced_iff`   nothing refers to a deleted resource if and only if the other three places
                           were free of it, and its observers are counted and known by its path;
* `deletes_release`        freed memory is not referred to, in runs whose deletions are of this kind.
-/

namespace Coap

/-- Resources and collections are known by their addresses, every one of them with an address of its
own.  `timed` are the resources of `oc_observe_notification_delayed` in `timed_callbacks`, `loose` the
resources of links that are in no collection, and `freed` what `oc_memb_free` has got back. -/
structure Registry where
  polling : Polling
  timed : List Nat
  resources : List Nat
  collections : List Nat
  links : Nat → List Nat
  loose : List Nat
  numLinks : Nat → UInt8
  freed : List Nat
  fresh : Nat

/-- the site at this moment; the rest of what is known of the resources comes from outside -/
def Registry.site (P : PollSite) (s : Registry) : PollSite :=
  { P with collections := s.collections, links := s.links, numLinks := s.numLinks }

def Registry.observers (s : Registry) : List Observer := s.polling.server.list

/-- memory that is in use -/
def Registry.Allocated (s : Registry) (r : Nat) : Prop := r < s.fresh ∧ r ∉ s.freed

/-! ## operations -/

/-- a `PUT` or `POST` that was successful: its observers are notified later -/
def notifyLater (granted : Bool) (method reply : UInt8) (resource : Nat) (timed : List Nat) :
    List Nat :=
  if (method = coapPut ∨ method = coapPost) ∧ reply < badRequest400 ∧ granted = true then
    timed ++ [resource]
  else timed

/-- `oc_observe_notification_delayed`, at the expiry of its timer -/
def Registry.notifyDelayed (cfg : Config) (P : PollSite) (supply linked : Supply) (get : Answer)
    (batch : Nat → Representation) (resource : Nat) (s : Registry) : Registry :=
  let x := coapNotifyObservers cfg (s.site P).toSite supply linked get batch resource none none
    s.polling.server
  { s with
    polling := { s.polling with server := x.2.2.server }
    timed := s.timed.erase resource }

def ocRiDeleteResource (uri : Nat → List UInt8) (resource : Nat) (s : Registry) : Registry :=
  let polling := if 0 < s.polling.server.numObservers resource then
      s.polling.remove (coapRemoveObserverByResource uri resource)
    else s.polling
  { s with
    polling
    resources := s.resources.erase resource
    freed := s.freed ++ [resource] }

/-- `oc_new_link` -/
def ocNewLink (granted : Bool) (resource : Nat) (s : Registry) : Registry :=
  if granted then
    { s with
      loose := s.loose ++ [resource]
      numLinks := Function.update s.numLinks resource (s.numLinks resource + 1) }
  else s

/-- `oc_delete_link` -/
def ocDeleteLink (resource : Nat) (s : Registry) : Registry :=
  { s with
    loose := s.loose.erase resource
    numLinks := Function.update s.numLinks resource (s.numLinks resource - 1) }

/-- `oc_collection_add_link` -/
def ocCollectionAddLink (collection resource : Nat) (s : Registry) : Registry :=
  { s with
    loose := s.loose.erase resource
    links := Function.update s.links collection (s.links collection ++ [resource]) }

/-- `oc_collection_remove_link` -/
def ocCollectionRemoveLink (collection resource : Nat) (s : Registry) : Registry :=
  { s with
    loose := s.loose ++ [resource]
    links := Function.update s.links collection ((s.links collection).erase resource) }

/-- What happens to a server.

* `polling`     requests with the Observe option, time-outs, resets and polls, as in `PollStep`;
* `answered`    a handler has replied to a request for a resource;
* `delayed`     the timer of a delayed notification expires;
* `newResource`, `newCollection`   `oc_new_resource` and `oc_new_collection`, each added to its list. -/
inductive RegistryStep where
  | polling (st : PollStep)
  | answered (granted : Bool) (method reply : UInt8) (resource : Nat)
  | delayed (supply linked : Supply) (get : Answer) (batch : Nat → Representation) (resource : Nat)
  | newResource
  | newCollection
  | newLink (granted : Bool) (resource : Nat)
  | deleteLink (resource : Nat)
  | addLink (collection resource : Nat)
  | removeLink (collection resource : Nat)
  | delete (resource : Nat)

def Registry.step (cfg : Config) (P : PollSite) (st : RegistryStep) (s : Registry) : Registry :=
  match st with
  | .polling st => { s with polling := s.polling.step cfg (s.site P) st }
  | .answered granted method reply resource =>
    { s with timed := notifyLater granted method reply resource s.timed }
  | .delayed supply linked get batch resource =>
    if resource ∈ s.timed then s.notifyDelayed cfg P supply linked get batch resource else s
  | .newResource => { s with resources := s.resources ++ [s.fresh], fresh := s.fresh + 1 }
  | .newCollection =>
    { s with
      collections := s.collections ++ [s.fresh]
      links := Function.update s.links s.fresh []
      fresh := s.fresh + 1 }
  | .newLink granted resource => ocNewLink granted resource s
  | .deleteLink resource => ocDeleteLink resource s
  | .addLink collection resource => ocCollectionAddLink collection resource s
  | .removeLink collection resource => ocCollectionRemoveLink collection resource s
  | .delete resource => ocRiDeleteResource P.uri resource s

/-- the resource that a request is for -/
def PollStep.target : PollStep → Option Nat
  | .request _ _ _ resource _ _ _ => some resource
  | _ => none

/-- the server and the application use memory that is in use: a request reaches a resource that is
there, a link is made for a resource and moved as it is, and what is deleted is a resource -/
def RegistryStep.Proper (s : Registry) : RegistryStep → Prop
  | .polling st => ∀ r, st.target = some r → s.Allocated r
  | .answered _ _ _ resource => s.Allocated resource
  | .newLink _ resource => s.Allocated resource
  | .deleteLink resource => resource ∈ s.loose
  | .addLink collection resource => collection ∈ s.collections ∧ resource ∈ s.loose
  | .removeLink collection resource => collection ∈ s.collections ∧ resource ∈ s.links collection
  | .delete resource => s.Allocated resource ∧ resource ∉ s.collections
  | _ => True

/-- start-up, with the resources of the devices in the first `fresh` addresses -/
def Registry.init (engine : State) (handles : Nat → SeparateResponse) (fresh : Nat) : Registry :=
  ⟨.init engine handles, [], [], [], fun _ => [], [], fun _ => 0, [], fresh⟩

/-- a run from start-up whose steps meet a condition -/
inductive RegistryRun (cfg : Config) (P : PollSite) (C : Registry → RegistryStep → Prop) :
    Registry → Prop where
  | init (engine : State) (handles : Nat → SeparateResponse) (fresh : Nat) :
      RegistryRun cfg P C (Registry.init engine handles fresh)
  | step {s : Registry} (st : RegistryStep) (hr : RegistryRun cfg P C s) (hp : st.Proper s)
      (hc : C s st) : RegistryRun cfg P C (s.step cfg P st)

/-! ## references -/

/-- nothing refers to a resource -/
structure Registry.Unreferenced (s : Registry) (r : Nat) : Prop where
  observers : ∀ o ∈ s.observers, o.resource ≠ r
  timed : r ∉ s.timed
  callbacks : r ∉ s.polling.callbacks
  links : ∀ c ∈ s.collections, r ∉ s.links c

/-- A resource that can be deleted: no delayed notification is due, it is not polled, and it is in no
collection; and its observers are counted, and known by its path. -/
structure Registry.Releasable (uri : Nat → List UInt8) (s : Registry) (r : Nat) : Prop where
  observers : ∀ o ∈ s.observers, o.resource = r →
    0 < s.polling.server.numObservers r ∧ o.url = (uri r).drop 1
  timed : r ∉ s.timed
  callbacks : r ∉ s.polling.callbacks
  links : ∀ c ∈ s.collections, r ∉ s.links c

/-- resources are deleted when they can be, and links to deleted ones are not used any more -/
def RegistryStep.Clean (uri : Nat → List UInt8) (s : Registry) : RegistryStep → Prop
  | .delete resource => s.Releasable uri resource
  | .addLink _ resource => resource ∉ s.freed
  | _ => True

/-! ## what a request adds -/

section
variable {grants : Grants} {callbacks : List Nat} {r : Nat}

theorem mem_addCallback {a : Nat} (h : r ∈ (addPeriodicObserveCallback grants a callbacks).2) :
    r ∈ callbacks ∨ r = a := by
  unfold addPeriodicObserveCallback at h
  split at h
  · exact Or.inl h
  · split at h
    · exact (List.mem_append.mp h).imp_right List.mem_singleton.mp
    · exact Or.inl h

theorem mem_pollLinks {links : List (Nat × Bool)} (h : r ∈ (pollLinks grants links callbacks).2) :
    r ∈ callbacks ∨ r ∈ (links.filter (·.2)).map (·.1) := by
  induction links generalizing callbacks with
  | nil => exact Or.inl h
  | cons link links ih =>
    obtain ⟨resource, periodic⟩ := link
    cases periodic with
    | false => exact ih h
    | true =>
      have hcons : ∀ a, a ∈ callbacks ∨ a = resource → a ∈ callbacks ∨
          a ∈ (((resource, true) :: links).filter (·.2)).map (·.1) := by
        intro a ha
        refine ha.imp_right fun he => ?_
        rw [he, List.filter_cons_of_pos rfl]
        exact List.mem_cons_self
      unfold pollLinks at h
      dsimp only at h
      rw [if_pos rfl] at h
      split at h
      · rcases ih h with hr | hr
        · exact hcons r (mem_addCallback hr)
        · right
          rw [List.filter_cons_of_pos rfl]
          exact List.mem_cons_of_mem _ hr
      · exact hcons r (mem_addCallback h)

theorem mem_setObserveOption {x : Watched} {registered : Bool}
    (h : r ∈ (setObserveOption grants x registered callbacks).2) :
    r ∈ callbacks ∨ r ∈ x.stopped := by
  have hown : ∀ a, a ∈ (if registered ∧ x.periodic then
      addPeriodicObserveCallback grants x.resource callbacks else (true, callbacks)).2 →
      a ∈ callbacks ∨ a ∈ x.stopped := by
    intro a ha
    split at ha
    · next hp =>
      refine (mem_addCallback ha).imp_right fun he => List.mem_append_left _ ?_
      rw [if_pos hp.2, he]
      exact List.mem_singleton_self _
    · exact Or.inl ha
  unfold setObserveOption at h
  dsimp only at h
  cases hl : x.links with
  | none =>
    rw [hl] at h
    exact hown r h
  | some links =>
    rw [hl] at h
    dsimp only at h
    split at h
    · rcases mem_pollLinks h with hr | hr
      · exact hown r hr
      · refine Or.inr (List.mem_append_right _ ?_)
        rw [hl]
        exact hr
    · exact hown r h

theorem mem_foldl_erase {stopped : List Nat} (h : r ∈ stopped.foldl List.erase callbacks) :
    r ∈ callbacks := by
  induction stopped generalizing callbacks with
  | nil => exact h
  | cons a stopped ih => exact List.mem_of_mem_erase (ih h)

variable {uri : Nat → List UInt8} {endpoint : Endpoint} {message : Message} {code : UInt8}
  {x : Watched} {block2Size : UInt16}

theorem mem_observeHandler {granted : Bool} {s : Observers} {o : Observer}
    (h : o ∈ (coapObserveHandler uri endpoint message code x block2Size granted s).2.list) :
    o ∈ s.list ∨ o.resource = x.resource := by
  unfold coapObserveHandler at h
  split at h
  · split at h
    · exact Or.inl h
    · split at h
      · obtain ⟨n, hn⟩ := addObserver_list (registration endpoint message x block2Size granted) s
        rw [hn] at h
        rcases List.mem_append.mp h with h | h
        · exact Or.inl (List.eraseP_sublist.subset h)
        · split at h
          · rw [List.mem_singleton.mp h]
            exact Or.inr rfl
          · cases h
      · split at h
        · dsimp only at h
          unfold coapRemoveObserverByToken at h
          rw [removeFirst_list] at h
          exact Or.inl (List.eraseP_sublist.subset h)
        · exact Or.inl h
  · exact Or.inl h

variable (uri endpoint message code x block2Size grants) in
/-- a request adds observers of its resource, and callbacks of what it follows -/
theorem mem_observe (s : Observing) :
    (∀ o ∈ (observe uri endpoint message code x block2Size grants s).2.observers.list,
      o ∈ s.observers.list ∨ o.resource = x.resource) ∧
      ∀ r ∈ (observe uri endpoint message code x block2Size grants s).2.callbacks,
        r ∈ s.callbacks ∨ r ∈ x.stopped := by
  unfold observe
  split
  · exact ⟨fun o ho => Or.inl ho, fun r hr => Or.inl hr⟩
  · split
    · dsimp only
      split
      · split
        · exact ⟨fun o ho => mem_observeHandler ho, fun r hr => mem_setObserveOption hr⟩
        · refine ⟨fun o ho => ?_, fun r hr => mem_setObserveOption hr⟩
          dsimp only at ho
          unfold coapRemoveObserverByToken at ho
          rw [removeFirst_list] at ho
          exact mem_observeHandler (List.eraseP_sublist.subset ho)
      · split
        · refine ⟨fun o ho => mem_observeHandler ho, fun r hr => Or.inl ?_⟩
          dsimp only at hr
          split at hr
          · rw [stopPolling_eq] at hr
            exact mem_foldl_erase hr
          · exact hr
        · exact ⟨fun o ho => Or.inl ho, fun r hr => Or.inl hr⟩
    · exact ⟨fun o ho => Or.inl ho, fun r hr => Or.inl hr⟩

end

/-- what a cancellation takes away is followed by the resource -/
theorem PollSite.follows_of_stopped {P : PollSite} {resource r : Nat} {batch : Bool}
    (h : r ∈ (P.watched resource batch).stopped) : P.Follows resource r := by
  unfold Watched.stopped PollSite.watched at h
  dsimp only at h
  rcases List.mem_append.mp h with h | h
  · split at h
    · exact Or.inl (List.mem_singleton.mp h).symm
    · cases h
  · obtain ⟨link, hm, rfl⟩ := List.mem_map.mp h
    have hlink := (List.mem_filter.mp hm).1
    by_cases hc : resource ∈ P.collections
    · rw [if_pos hc] at hlink
      obtain ⟨a, ha, rfl⟩ := List.mem_map.mp hlink
      exact Or.inr ⟨hc, ha⟩
    · rw [if_neg hc] at hlink
      cases hlink

/-- the references that a step of the server adds come from the resource it is about -/
theorem Polling.step_adds (cfg : Config) (P : PollSite) (st : PollStep) (s : Polling) :
    (∀ o ∈ (s.step cfg P st).server.list,
      (∃ a ∈ s.server.list, a.resource = o.resource) ∨ st.target = some o.resource) ∧
      ∀ r ∈ (s.step cfg P st).callbacks,
        r ∈ s.callbacks ∨ ∃ q, st.target = some q ∧ P.Follows q r := by
  cases st with
  | request endpoint message code resource batch block2Size grants =>
    obtain ⟨hl, hc⟩ := mem_observe grants P.uri endpoint message code (P.watched resource batch)
      block2Size s.observing
    refine ⟨fun o ho => ?_, fun r hr => ?_⟩
    · refine (hl o ho).imp (fun h => ⟨o, h, rfl⟩) fun h => ?_
      rw [h]
      rfl
    · exact (hc r hr).imp_right fun h => ⟨resource, rfl, PollSite.follows_of_stopped h⟩
  | timeout endpoint =>
    exact ⟨fun o ho => Or.inl ⟨o, List.filter_sublist.subset ho, rfl⟩, fun r hr => Or.inl hr⟩
  | reset endpoint mid =>
    refine ⟨fun o ho => Or.inl ⟨o, ?_, rfl⟩, fun r hr => Or.inl hr⟩
    replace ho : o ∈ (removeFirst P.uri (Observer.hasMid endpoint mid)
      s.observing.observers).2.list := ho
    rw [removeFirst_list] at ho
    exact List.eraseP_sublist.subset ho
  | poll supply linked get batch resource =>
    unfold Polling.step
    dsimp only
    split
    · have hl := (notifyObservers_ledger cfg P.toSite s.server supply linked get batch resource none
        none).1
      refine ⟨fun o ho => Or.inl (mem_of_ledger hl ho), fun r hr => Or.inl ?_⟩
      dsimp only at hr
      split at hr
      · exact hr
      · exact List.mem_of_mem_erase hr
    · exact ⟨fun o ho => Or.inl ⟨o, ho, rfl⟩, fun r hr => Or.inl hr⟩
  | others engine handles =>
    exact ⟨fun o ho => Or.inl ⟨o, ho, rfl⟩, fun r hr => Or.inl hr⟩

/-! ## deleting -/

section
variable {cfg : Config} {P : PollSite} {uri : Nat → List UInt8} {s : Registry} {r : Nat}

/-- the observers that a deletion leaves -/
theorem observers_delete (uri : Nat → List UInt8) (r : Nat) (s : Registry) :
    (ocRiDeleteResource uri r s).observers =
      if 0 < s.polling.server.numObservers r then
        s.observers.filter fun o => !Observer.isOf uri r o
      else s.observers := by
  unfold ocRiDeleteResource Registry.observers
  dsimp only
  split <;> rfl

theorem callbacks_delete (uri : Nat → List UInt8) (r : Nat) (s : Registry) :
    (ocRiDeleteResource uri r s).polling.callbacks = s.polling.callbacks := by
  unfold ocRiDeleteResource
  dsimp only
  split <;> rfl

theorem mem_observers_delete {o : Observer} (h : o ∈ (ocRiDeleteResource uri r s).observers) :
    o ∈ s.observers := by
  rw [observers_delete] at h
  split at h
  · exact List.filter_sublist.subset h
  · exact h

/-- **Nothing refers to a deleted resource**, if and only if it could be deleted. -/
theorem delete_unreferenced_iff (uri : Nat → List UInt8) (s : Registry) (r : Nat) :
    (ocRiDeleteResource uri r s).Unreferenced r ↔ s.Releasable uri r := by
  constructor
  · intro h
    refine ⟨fun o ho hr => ?_, h.timed, ?_, h.links⟩
    · have hgone : o ∉ (ocRiDeleteResource uri r s).observers := fun hm => h.observers o hm hr
      rw [observers_delete] at hgone
      by_cases hn : 0 < s.polling.server.numObservers r
      · rw [if_pos hn] at hgone
        refine ⟨hn, ?_⟩
        by_contra hu
        refine hgone (List.mem_filter.mpr ⟨ho, ?_⟩)
        unfold Observer.isOf
        rw [beq_eq_false_iff_ne.mpr hu, Bool.and_false]
        rfl
      · rw [if_neg hn] at hgone
        exact absurd ho hgone
    · rw [← callbacks_delete uri r s]
      exact h.callbacks
  · intro h
    refine ⟨fun o ho hr => ?_, h.timed, ?_, h.links⟩
    · obtain ⟨hn, hu⟩ := h.observers o (mem_observers_delete ho) hr
      rw [observers_delete, if_pos hn] at ho
      have hnot := (List.mem_filter.mp ho).2
      unfold Observer.isOf at hnot
      rw [hr, hu, beq_self_eq_true, beq_self_eq_true] at hnot
      exact Bool.false_ne_true hnot
    · rw [callbacks_delete]
      exact h.callbacks

/-! ## what one step preserves -/

/-- freed memory is not referred to, and is not given out again -/
structure Registry.Settled (s : Registry) : Prop where
  freed : ∀ r ∈ s.freed, r < s.fresh ∧ r ∉ s.collections ∧ s.Unreferenced r
  collections : ∀ c ∈ s.collections, c < s.fresh

theorem Registry.Settled.polling (h : s.Settled) {st : PollStep}
    (hp : RegistryStep.Proper s (.polling st)) : (s.step cfg P (.polling st)).Settled := by
  obtain ⟨hl, hc⟩ := Polling.step_adds cfg (s.site P) st s.polling
  refine ⟨fun r hr => ?_, h.collections⟩
  obtain ⟨hlt, hcol, hu⟩ := h.freed r hr
  refine ⟨hlt, hcol, fun o ho he => ?_, hu.timed, fun hm => ?_, hu.links⟩
  · rcases hl o ho with ⟨a, ha, hres⟩ | ht
    · exact hu.observers a ha (hres.trans he)
    · rw [he] at ht
      exact (hp r ht).2 hr
  · rcases hc r hm with hm | ⟨q, ht, hf⟩
    · exact hu.callbacks hm
    · rcases hf with rfl | ⟨hq, hlink⟩
      · exact (hp q ht).2 hr
      · exact hu.links q hq hlink

theorem Registry.Settled.delayed (h : s.Settled) (supply linked : Supply) (get : Answer)
    (batch : Nat → Representation) (resource : Nat) :
    (s.notifyDelayed cfg P supply linked get batch resource).Settled := by
  have hl := (notifyObservers_ledger cfg (s.site P).toSite s.polling.server supply linked get batch
    resource none none).1
  refine ⟨fun r hr => ?_, h.collections⟩
  obtain ⟨hlt, hcol, hu⟩ := h.freed r hr
  refine ⟨hlt, hcol, fun o ho he => ?_, fun hm => hu.timed (List.mem_of_mem_erase hm), hu.callbacks,
    hu.links⟩
  obtain ⟨a, ha, hres⟩ := mem_of_ledger hl ho
  exact hu.observers a ha (hres.trans he)

/-- a change of the links of a collection -/
theorem Registry.Settled.relink (h : s.Settled) {c : Nat} {l loose : List Nat}
    (hl : ∀ r ∈ s.freed, r ∉ s.links c → r ∉ l) (hc : c ∈ s.collections) :
    ({ s with loose, links := Function.update s.links c l } : Registry).Settled := by
  refine ⟨fun r hr => ?_, h.collections⟩
  obtain ⟨hlt, hcol, hu⟩ := h.freed r hr
  refine ⟨hlt, hcol, hu.observers, hu.timed, hu.callbacks, fun b hb => ?_⟩
  show r ∉ Function.update s.links c l b
  by_cases hbc : b = c
  · rw [hbc, Function.update_self]
    exact hl r hr (hu.links c hc)
  · rw [Function.update_of_ne hbc]
    exact hu.links b hb

theorem Registry.Settled.newCollection (h : s.Settled) :
    (s.step cfg P .newCollection).Settled := by
  refine ⟨fun r hr => ?_, fun c hc => ?_⟩
  · obtain ⟨hlt, hcol, hu⟩ := h.freed r hr
    refine ⟨Nat.lt_succ_of_lt hlt, fun hm => ?_, hu.observers, hu.timed, hu.callbacks,
      fun c hc => ?_⟩
    · rcases List.mem_append.mp hm with hm | hm
      · exact hcol hm
      · rw [List.mem_singleton.mp hm] at hlt
        exact Nat.lt_irrefl _ hlt
    · show r ∉ Function.update s.links s.fresh [] c
      rcases List.mem_append.mp hc with hc | hc
      · rw [Function.update_of_ne (Nat.ne_of_lt (h.collections c hc))]
        exact hu.links c hc
      · rw [List.mem_singleton.mp hc, Function.update_self]
        exact List.not_mem_nil
  · rcases List.mem_append.mp hc with hc | hc
    · exact Nat.lt_succ_of_lt (h.collections c hc)
    · rw [List.mem_singleton.mp hc]
      exact Nat.lt_succ_self _

theorem Registry.Settled.delete (h : s.Settled) (ha : s.Allocated r) (hcol : r ∉ s.collections)
    (hc : s.Releasable uri r) : (ocRiDeleteResource uri r s).Settled := by
  refine ⟨fun q hq => ?_, h.collections⟩
  rcases List.mem_append.mp hq with hq | hq
  · obtain ⟨hlt, hnot, hu⟩ := h.freed q hq
    refine ⟨hlt, hnot, fun o ho => hu.observers o (mem_observers_delete ho), hu.timed, ?_, hu.links⟩
    rw [callbacks_delete]
    exact hu.callbacks
  · rw [List.mem_singleton.mp hq]
    exact ⟨ha.1, hcol, (delete_unreferenced_iff uri s r).mpr hc⟩

/-- what one step preserves -/
theorem Registry.Settled.step (h : s.Settled) {st : RegistryStep} (hp : st.Proper s)
    (hc : st.Clean P.uri s) : (s.step cfg P st).Settled := by
  cases st with
  | polling st => exact h.polling hp
  | answered granted method reply resource =>
    refine ⟨fun r hr => ?_, h.collections⟩
    obtain ⟨hlt, hcol, hu⟩ := h.freed r hr
    refine ⟨hlt, hcol, hu.observers, fun hm => ?_, hu.callbacks, hu.links⟩
    replace hm : r ∈ notifyLater granted method reply resource s.timed := hm
    unfold notifyLater at hm
    split at hm
    · rcases List.mem_append.mp hm with hm | hm
      · exact hu.timed hm
      · rw [List.mem_singleton.mp hm] at hr
        exact hp.2 hr
    · exact hu.timed hm
  | delayed supply linked get batch resource =>
    unfold Registry.step
    dsimp only
    split
    · exact h.delayed supply linked get batch resource
    · exact h
  | newResource =>
    refine ⟨fun r hr => ?_, fun c hc => Nat.lt_succ_of_lt (h.collections c hc)⟩
    obtain ⟨hlt, hcol, hu⟩ := h.freed r hr
    exact ⟨Nat.lt_succ_of_lt hlt, hcol, hu.observers, hu.timed, hu.callbacks, hu.links⟩
  | newCollection => exact h.newCollection
  | newLink granted resource =>
    unfold Registry.step ocNewLink
    dsimp only
    split
    · refine ⟨fun r hr => ?_, h.collections⟩
      obtain ⟨hlt, hcol, hu⟩ := h.freed r hr
      exact ⟨hlt, hcol, hu.observers, hu.timed, hu.callbacks, hu.links⟩
    · exact h
  | deleteLink resource =>
    refine ⟨fun r hr => ?_, h.collections⟩
    obtain ⟨hlt, hcol, hu⟩ := h.freed r hr
    exact ⟨hlt, hcol, hu.observers, hu.timed, hu.callbacks, hu.links⟩
  | addLink collection resource =>
    refine h.relink (fun r hr hn hm => ?_) hp.1
    rcases List.mem_append.mp hm with hm | hm
    · exact hn hm
    · rw [List.mem_singleton.mp hm] at hr
      exact hc hr
  | removeLink collection resource =>
    exact h.relink (fun r _ hn hm => hn (List.mem_of_mem_erase hm)) hp.1
  | delete resource => exact h.delete hp.1 hp.2 hc

end

/-- **Deleted resources are not referred to.**  In a run in which resources are deleted when they can
be, nothing refers to freed memory; and a deletion leaves nothing that refers to the resource if and
only if it can be deleted. -/
theorem deletes_release (cfg : Config) (P : PollSite) (s : Registry)
    (hr : RegistryRun cfg P (fun s st => st.Clean P.uri s) s) :
    (∀ r ∈ s.freed, s.Unreferenced r) ∧
      ∀ r, (ocRiDeleteResource P.uri r s).Unreferenced r ↔ s.Releasable P.uri r := by
  have hs : s.Settled := by
    induction hr with
    | init engine handles fresh => exact ⟨fun r hr => absurd hr List.not_mem_nil, fun c hc => absurd hc List.not_mem_nil⟩
    | step st _ hp hc ih => exact ih.step hp hc
  exact ⟨fun r hr => (hs.freed r hr).2.2, delete_unreferenced_iff P.uri s⟩

/-! ## sample inputs -/

/-- a server with one resource, which is deleted after a `POST` -/
def sampleRegistry : Registry :=
  ((Registry.init (State.init 0) (fun _ => ⟨false, [], []⟩) 0).step defaultConfig samplePollSite
    .newResource).step defaultConfig samplePollSite (.answered true coapPost content205 0)

/-- a resource is deleted while a delayed notification is due -/
theorem deleted_resource_notified :
    ∃ s, RegistryRun defaultConfig samplePollSite (fun _ _ => True) s ∧ 0 ∈ s.freed ∧ 0 ∈ s.timed ∧
      ¬ s.Unreferenced 0 := by
  have h0 : RegistryRun defaultConfig samplePollSite (fun _ _ => True)
      (Registry.init (State.init 0) (fun _ => ⟨false, [], []⟩) 0) :=
    .init (State.init 0) (fun _ => ⟨false, [], []⟩) 0
  have h1 := RegistryRun.step .newResource h0 trivial trivial
  have h2 := RegistryRun.step (.answered true coapPost content205 0) h1
    ⟨Nat.zero_lt_one, List.not_mem_nil⟩ trivial
  have h3 := RegistryRun.step (.delete 0) h2 ⟨⟨Nat.zero_lt_one, List.not_mem_nil⟩, List.not_mem_nil⟩
    trivial
  have ht : 0 ∈ (sampleRegistry.step defaultConfig samplePollSite (.delete 0)).timed := by decide
  exact ⟨_, h3, List.mem_singleton_self 0, ht, fun h => h.timed ht⟩

/-- a resource is deleted that nobody has asked for -/
theorem deletes_release_one :
    let s := ((Registry.init (State.init 0) (fun _ => ⟨false, [], []⟩) 0).step defaultConfig
      samplePollSite .newResource).step defaultConfig samplePollSite (.delete 0)
    (∀ r ∈ s.freed, s.Unreferenced r) ∧
      ∀ r, (ocRiDeleteResource samplePollSite.uri r s).Unreferenced r ↔
        s.Releasable samplePollSite.uri r := by
  have hc : RegistryStep.Clean samplePollSite.uri
      ((Registry.init (State.init 0) (fun _ => ⟨false, [], []⟩) 0).step defaultConfig
        samplePollSite .newResource) (.delete 0) :=
    ⟨fun o ho => absurd ho List.not_mem_nil, List.not_mem_nil, List.not_mem_nil,
      fun c hc => absurd hc List.not_mem_nil⟩
  exact deletes_release defaultConfig samplePollSite _
    (.step (.delete 0) (.step .newResource (.init (State.init 0) (fun _ => ⟨false, [], []⟩) 0) trivial
      trivial) ⟨⟨Nat.zero_lt_one, List.not_mem_nil⟩, List.not_mem_nil⟩ hc)

end Coap
