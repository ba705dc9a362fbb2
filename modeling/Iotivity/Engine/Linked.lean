import Iotivity.Engine.Notify
import Iotivity.Engine.Run

/-!
# Which observers a collection notification reaches

`oc_get_next_collection_with_link` stops at a collection of another device as well as at one with
the link, and the loop of `coap_notify_collections` ends at the first collection it is given that
has no observers.

* `Linked`                     a collection of the device of a resource, with a link to it;
* `passed`                     the collections that the loop goes through;
* `mem_places_collections`     the observers that are reached are those of the collections passed;
* `notifyCollections_right_iff`  they are the right ones exactly when the collections stand in an
                               order that suits the loop.
-/

namespace Coap

/-- the places of the observers that a notification was attempted to -/
def Progress.places (p : Progress) : List Nat := p.notices.map Notice.place

/-- what the loops leave as it is: the resources of the observers, and `num_observers` -/
def Server.board (s : Server) : List Nat × (Nat → UInt8) :=
  (s.list.map Observer.resource, s.numObservers)

section
variable {cfg : Config} {site : Site} {s : Server} {i : Nat}

/-! ## one round -/

theorem map_resource_modify (l : List Observer) (place : Nat) (mid : UInt16) (counted : Bool) :
    (l.modify place (Observer.sent mid counted)).map Observer.resource =
      l.map Observer.resource := by
  apply List.ext_getElem?
  intro i
  rw [List.getElem?_map, List.getElem?_modify, List.getElem?_map, Option.map_eq_map,
    Option.map_map]
  congr 1
  funext o
  show (if place = i then Observer.sent mid counted o else o).resource = o.resource
  split <;> rfl

theorem board_noteSent (place : Nat) (mid : UInt16) (counted : Bool) :
    (s.noteSent place mid counted).board = s.board := by
  unfold Server.board Server.noteSent
  rw [map_resource_modify]

theorem board_sendNotification (env : Env) (place : Nat) (o : Observer) (counted : Bool)
    (packet : Message) : (sendNotification env place o counted packet s).2.1.board = s.board := by
  unfold sendNotification
  dsimp only
  split
  · exact board_noteSent place o.lastMid counted
  · exact board_noteSent place _ counted

theorem sendNotification_not_refused (env : Env) (place : Nat) (o : Observer) (counted : Bool)
    (packet : Message) :
    (sendNotification env place o counted packet s).1.isRefused = false := by
  unfold sendNotification
  dsimp only
  split
  · rfl
  · dsimp only
    split <;> rfl

theorem board_notifyObserver (env : Env) (format : UInt16) (r : Representation) (place : Nat)
    (o : Observer) : (notifyObserver cfg site env format r place o s).2.1.board = s.board := by
  unfold notifyObserver
  split
  · rfl
  · rfl
  · exact board_sendNotification _ _ _ _ _

/-- a round is refused only when there is no response buffer to be had -/
theorem notifyObserver_not_refused {env : Env} (format : UInt16) (r : Representation) (place : Nat)
    {o : Observer} (ha : env.responseAlloc.granted = true) (hu : (site.uri o.resource).drop 1 ≠ []) :
    (notifyObserver cfg site env format r place o s).1.isRefused = false := by
  unfold notifyObserver
  cases hp : notificationPayload cfg site env o r.body s.engine.toBuffers with
  | busy => rfl
  | opened packet buffers => exact sendNotification_not_refused _ _ _ _ _
  | refused =>
    unfold notificationPayload openBlocks ocBlockwiseAllocResponseBuffer ocBlockwiseInitBuffer at hp
    dsimp only at hp
    rw [if_neg hu, if_pos ha] at hp
    split at hp
    · split at hp <;> cases hp
    · cases hp

/-! ## the loop over the observers -/

section
variable {select : Observer → Bool}
  {round : Nat → Nat → Observer → Server → Outcome × Server × List Event}

/-- a loop none of whose rounds is refused reaches all observers that are selected -/
theorem foldl_visit (l : List (Observer × Nat)) (p : Progress) (hp : p.left = false)
    (hb : ∀ k place o s, (round k place o s).2.1.board = s.board)
    (hr : ∀ k place s, ∀ x ∈ l, select x.1 = true → (round k place x.1 s).1.isRefused = false) :
    (l.foldl (visit select round) p).left = false ∧
      (l.foldl (visit select round) p).server.board = p.server.board ∧
      (l.foldl (visit select round) p).places =
        p.places ++ (l.filter fun x => select x.1).map Prod.snd := by
  induction l generalizing p with
  | nil => exact ⟨hp, rfl, (List.append_nil _).symm⟩
  | cons x l ih =>
    have hrl : ∀ k place s, ∀ y ∈ l, select y.1 = true →
        (round k place y.1 s).1.isRefused = false :=
      fun k place s y hy => hr k place s y (List.mem_cons_of_mem x hy)
    rw [List.foldl_cons]
    cases hx : select x.1 with
    | false =>
      have hv : visit select round p x = p := if_pos (Or.inr hx)
      rw [hv, List.filter_cons_of_neg (by simp [hx])]
      exact ih p hp hrl
    | true =>
      have hv : visit select round p x =
          { server := (round p.notices.length x.2 x.1 p.server).2.1
            notices := p.notices ++ [⟨x.2, (round p.notices.length x.2 x.1 p.server).1⟩]
            events := p.events ++ (round p.notices.length x.2 x.1 p.server).2.2
            left := (round p.notices.length x.2 x.1 p.server).1.isRefused } :=
        if_neg (by simp [hp, hx])
      rw [hv, List.filter_cons_of_pos (by simp [hx])]
      have hleft := hr p.notices.length x.2 p.server x List.mem_cons_self hx
      obtain ⟨h1, h2, h3⟩ := ih
        { server := (round p.notices.length x.2 x.1 p.server).2.1
          notices := p.notices ++ [⟨x.2, (round p.notices.length x.2 x.1 p.server).1⟩]
          events := p.events ++ (round p.notices.length x.2 x.1 p.server).2.2
          left := (round p.notices.length x.2 x.1 p.server).1.isRefused } hleft hrl
      refine ⟨h1, h2.trans (hb _ _ _ _), ?_⟩
      rw [h3]
      simp [Progress.places]

theorem mem_places_each (select : Observer → Bool)
    (round : Nat → Nat → Observer → Server → Outcome × Server × List Event) (p : Progress) (hp : p.left = false)
    (hb : ∀ k place o s, (round k place o s).2.1.board = s.board)
    (hr : ∀ k place s, ∀ o ∈ p.server.list, select o = true →
      (round k place o s).1.isRefused = false) :
    (notifyEach select round p).left = false ∧
      (notifyEach select round p).server.board = p.server.board ∧
      ∀ i, i ∈ (notifyEach select round p).places ↔
        i ∈ p.places ∨ ∃ o, p.server.list[i]? = some o ∧ select o = true := by
  have hr' : ∀ k place s, ∀ x ∈ p.server.list.zipIdx, select x.1 = true →
      (round k place x.1 s).1.isRefused = false := by
    intro k place s x hx
    exact hr k place s x.1 (List.mem_of_getElem? (List.mem_zipIdx_iff_getElem?.mp hx))
  obtain ⟨h1, h2, h3⟩ := foldl_visit p.server.list.zipIdx p hp hb hr'
  refine ⟨h1, h2, ?_⟩
  intro i
  unfold notifyEach
  rw [h3, List.mem_append]
  apply or_congr_right
  simp only [List.mem_map, List.mem_filter, List.mem_zipIdx_iff_getElem?, Prod.exists]
  constructor
  · rintro ⟨o, j, ⟨ho, hs⟩, rfl⟩
    exact ⟨o, ho, hs⟩
  · rintro ⟨o, ho, hs⟩
    exact ⟨o, i, ⟨ho, hs⟩, rfl⟩

end

/-! ## the collections -/

section
variable (site : Site) (resource : Nat)

/-- a collection that the iterator stops at -/
def stopsAt (c : Nat) : Bool :=
  site.device c != site.device resource || (site.links c).contains resource

/-- the collections that the loop goes through: those the iterator stops at, up to the first one of
them without observers -/
def passed (numObservers : Nat → UInt8) : List Nat :=
  (site.collections.filter (stopsAt site resource)).takeWhile fun c => numObservers c != 0

/-- a collection of the device of the resource, with a link to it -/
def Linked (c : Nat) : Prop :=
  c ∈ site.collections ∧ site.device c = site.device resource ∧ resource ∈ site.links c

/-- the iterator finds the next collection that it stops at -/
theorem scanCollections_cases (l : List Nat) :
    scanCollections site resource l = [] ∧ l.filter (stopsAt site resource) = [] ∨
      ∃ c m, scanCollections site resource l = c :: m ∧ c :: m <:+ l ∧
        l.filter (stopsAt site resource) = c :: m.filter (stopsAt site resource) := by
  induction l with
  | nil => exact Or.inl ⟨rfl, rfl⟩
  | cons c l ih =>
    unfold scanCollections
    by_cases hs : stopsAt site resource c = true
    · refine Or.inr ⟨c, l, ?_, List.suffix_rfl, List.filter_cons_of_pos hs⟩
      by_cases hd : site.device c = site.device resource
      · have hl : resource ∈ site.links c := by simpa [stopsAt, hd] using hs
        rw [if_pos hd, if_pos hl]
      · rw [if_neg hd]
    · obtain ⟨hd, hl⟩ : site.device c = site.device resource ∧ resource ∉ site.links c := by
        simpa [stopsAt] using hs
      rw [if_pos hd, if_neg hl, List.filter_cons_of_neg hs]
      rcases ih with h | ⟨b, m, h1, h2, h3⟩
      · exact Or.inl h
      · exact Or.inr ⟨b, m, h1, h2.trans (List.suffix_cons c l), h3⟩

/-- there is memory for the notifications, and for the buffers behind the URIs of collections -/
structure Supply.Suffices (supply : Supply) : Prop where
  buffer : supply.buffer = true
  alloc : ∀ k, (supply.env k).responseAlloc.granted = true
  uris : ∀ c ∈ site.collections, (site.uri c).drop 1 ≠ []

variable {site resource}

/-- the observers at the places of a board -/
theorem getElem?_board {l : List Observer} {i c : Nat} :
    (∃ o, l[i]? = some o ∧ (o.resource == c) = true) ↔ (l.map Observer.resource)[i]? = some c := by
  rw [List.getElem?_map, Option.map_eq_some_iff]
  simp

theorem mem_places_rounds {supply : Supply} (hs : supply.Suffices site)
    (batch : Nat → Representation) (fuel : Nat) (m : List Nat) (hm : m ⊆ site.collections)
    (hf : m.length ≤ fuel) (p : Progress) (hp : p.left = false) (i : Nat) :
    i ∈ (notifyRounds cfg site supply batch resource fuel (scanCollections site resource m)
        p).places ↔
      i ∈ p.places ∨ ∃ c ∈ (m.filter (stopsAt site resource)).takeWhile
        (fun c => p.server.numObservers c != 0), p.server.board.1[i]? = some c := by
  induction fuel generalizing m p with
  | zero =>
    obtain rfl : m = [] := List.length_eq_zero_iff.mp (Nat.le_zero.mp hf)
    simp [notifyRounds]
  | succ fuel ih =>
    rcases scanCollections_cases site resource m with ⟨h1, h2⟩ | ⟨c, l, h1, h2, h3⟩
    · rw [h1, h2]
      simp [notifyRounds]
    · rw [h1, h3]
      have hsub : c :: l ⊆ site.collections := fun a ha => hm (h2.subset ha)
      have hlen := h2.length_le
      rw [List.length_cons] at hlen
      unfold notifyRounds
      by_cases hn : p.server.numObservers c = 0
      · rw [if_pos (Or.inr hn), List.takeWhile_cons_of_neg (by simp [hn])]
        simp
      · rw [if_neg (by simp [hp, hn]), List.takeWhile_cons_of_pos (by simp [hn])]
        dsimp only
        have hround : ∀ k place s, ∀ o ∈ p.server.list, (o.resource == c) = true →
            (notifyObserver cfg site (supply.env k) applicationVndOcfCbor (batch c) place o
              s).1.isRefused = false := by
          intro k place s o _ hoc
          have hu : (site.uri o.resource).drop 1 ≠ [] := by
            rw [eq_of_beq hoc]
            exact hs.uris c (hsub List.mem_cons_self)
          exact notifyObserver_not_refused _ _ _ (hs.alloc k) hu
        obtain ⟨hleft, hboard, hplaces⟩ := mem_places_each (fun o => o.resource == c)
          (fun k => notifyObserver cfg site (supply.env k) applicationVndOcfCbor (batch c)) p hp
          (fun _ _ _ _ => board_notifyObserver _ _ _ _ _) hround
        have hnum := congrArg Prod.snd hboard
        have hres := congrArg Prod.fst hboard
        rw [show ocGetNextCollectionWithLink site resource (c :: l) =
            scanCollections site resource l from rfl,
          ih l (fun a ha => hsub (List.mem_cons_of_mem c ha)) (by omega) _ hleft, hplaces,
          getElem?_board, hres, or_assoc]
        apply or_congr_right
        show _ ∨ (∃ b ∈ List.takeWhile (fun b => (Server.board _).2 b != 0) _, _) ↔ _
        rw [hnum]
        simp only [List.mem_cons, exists_eq_or_imp]
        rfl

/-- the places that a call reaches are those of the collections it passes -/
theorem mem_places_collections {supply : Supply} (hs : supply.Suffices site)
    (batch : Nat → Representation) {o : Observer} (ho : s.list[i]? = some o) :
    i ∈ (coapNotifyCollections cfg site supply batch resource s).2.places ↔
      o.resource ∈ passed site resource s.numObservers := by
  unfold coapNotifyCollections
  rw [if_pos hs.buffer]
  show i ∈ (notifyRounds cfg site supply batch resource site.collections.length
    (scanCollections site resource site.collections) (.start s)).places ↔ _
  rw [mem_places_rounds hs batch _ _ (List.Subset.refl _) (Nat.le_refl _) _ rfl]
  have hb : ∀ c, (Progress.start s).server.board.1[i]? = some c ↔ o.resource = c := by
    intro c
    show (s.list.map Observer.resource)[i]? = some c ↔ _
    rw [List.getElem?_map, ho, Option.map_some, Option.some.injEq]
  simp only [hb]
  unfold passed Progress.start Progress.places
  simp

end

/-! ## the right observers -/

section
variable (site : Site) (resource : Nat) (s : Server)

/-- a notification is attempted to the observers of the collections that are linked, and to no
other one -/
def ReachesLinked (p : Progress) : Prop :=
  ∀ i o, s.list[i]? = some o → (i ∈ p.places ↔ Linked site resource o.resource)

/-- a collection that has observers -/
def Observed (c : Nat) : Prop := ∃ o ∈ s.list, o.resource = c

/-- The order of the collections suits the loop: of those it passes, the ones of other devices have
no observers; and it passes all linked ones that have. -/
structure InOrder : Prop where
  own : ∀ c ∈ passed site resource s.numObservers, Observed s c →
    site.device c = site.device resource
  linked : ∀ c, Linked site resource c → Observed s c → c ∈ passed site resource s.numObservers

end

/-- a collection that is passed and belongs to the device is a linked one -/
theorem linked_of_passed {resource : Nat} {num : Nat → UInt8} {c : Nat} (hc : c ∈ passed site resource num)
    (hd : site.device c = site.device resource) : Linked site resource c := by
  obtain ⟨hmem, hstop⟩ := List.mem_filter.mp ((List.takeWhile_sublist _).subset hc)
  exact ⟨hmem, hd, by simpa [stopsAt, hd] using hstop⟩

/-- **Collection notifications.**  With memory for the packets, a call attempts notifications to
exactly the observers of the linked collections if and only if the collections are in order. -/
theorem notifyCollections_right_iff (cfg : Config) (site : Site) (supply : Supply)
    (batch : Nat → Representation) (resource : Nat) (s : Server) (hs : supply.Suffices site) :
    ReachesLinked site resource s (coapNotifyCollections cfg site supply batch resource s).2 ↔
      InOrder site resource s := by
  unfold ReachesLinked
  constructor
  · intro h
    refine ⟨?_, ?_⟩
    · rintro c hc ⟨o, ho, rfl⟩
      obtain ⟨i, hi⟩ := List.mem_iff_getElem?.mp ho
      exact ((h i o hi).mp ((mem_places_collections hs batch hi).mpr hc)).2.1
    · rintro c hc ⟨o, ho, rfl⟩
      obtain ⟨i, hi⟩ := List.mem_iff_getElem?.mp ho
      exact (mem_places_collections hs batch hi).mp ((h i o hi).mpr hc)
  · intro h i o hi
    have ho : Observed s o.resource := ⟨o, List.mem_of_getElem? hi, rfl⟩
    rw [mem_places_collections hs batch hi]
    exact ⟨fun hp => linked_of_passed hp (h.own _ hp ho), fun hl => h.linked _ hl ho⟩

end

/-! ## sample inputs -/

/-- resource `0` with collections on two devices: those above `2` are on device `1` -/
def sampleSite (collections : List Nat) : Site where
  uri r := [slash, 0x61 + UInt8.ofNat r]
  device r := if r ≤ 2 then 0 else 1
  collections
  links c := if c ≤ 2 then [0] else []
  numLinks _ := 2
  resourceAt _ _ := none
  format _ := applicationVndOcfCbor

def sampleObserver (resource : Nat) : Observer :=
  ⟨resource, [], sampleEndpoint 5683, [], 0, 1024, 0⟩

/-- one observer, of a collection -/
def sampleServer (resource : Nat) : Server where
  engine := State.init 0
  list := [sampleObserver resource]
  numObservers r := if r = resource then 1 else 0
  observeCounter := 3
  handles _ := ⟨false, [], []⟩

def sampleSupply : Supply := ⟨true, fun _ => sampleEnv [] length_nil_lt, fun _ => true⟩

theorem sampleSupply_suffices (collections : List Nat) :
    sampleSupply.Suffices (sampleSite collections) :=
  ⟨rfl, fun _ => rfl, fun _ _ => List.cons_ne_nil _ _⟩

/-- a linked collection without observers hides the one behind it; and the observer of a collection
of another device is notified, although there is no link -/
theorem notifyCollections_out_of_order :
    ¬ ReachesLinked (sampleSite [1, 2]) 0 (sampleServer 2)
        (coapNotifyCollections defaultConfig (sampleSite [1, 2]) sampleSupply
          (fun _ => ⟨69, [0xA0]⟩) 0 (sampleServer 2)).2 ∧
      ¬ ReachesLinked (sampleSite [3]) 0 (sampleServer 3)
        (coapNotifyCollections defaultConfig (sampleSite [3]) sampleSupply
          (fun _ => ⟨69, [0xA0]⟩) 0 (sampleServer 3)).2 := by
  refine ⟨?_, ?_⟩
  · intro h
    have hp := (h 0 (sampleObserver 2) rfl).mpr (by unfold Linked; decide)
    rw [mem_places_collections (sampleSupply_suffices [1, 2]) _ rfl] at hp
    revert hp
    decide
  · intro h
    have hl := (h 0 (sampleObserver 3) rfl).mp
      ((mem_places_collections (sampleSupply_suffices [3]) _ rfl).mpr (by decide))
    revert hl
    unfold Linked
    decide

theorem notifyCollections_right_iff_one :
    ReachesLinked (sampleSite [2]) 0 (sampleServer 2)
      (coapNotifyCollections defaultConfig (sampleSite [2]) sampleSupply
        (fun _ => ⟨69, [0xA0]⟩) 0 (sampleServer 2)).2 ↔
      InOrder (sampleSite [2]) 0 (sampleServer 2) :=
  notifyCollections_right_iff _ _ _ _ _ _ (sampleSupply_suffices [2])

end Coap
