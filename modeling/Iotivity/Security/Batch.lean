import Iotivity.Lib.Last
import Iotivity.Security.Mediation

/-!
# Payloads of batch updates: `oc_handle_collection_request`

The loop over the objects of a batch update has one `rest_request` for all of them.  Its href is
cleared for each object, its payload is not: an object that brings no rep is applied with the rep of
an object in front of it.

* `batchCalls_resources`   the calls with their payloads are those of `batch`;
* `batchCalls_iff`         every call gets the rep of its own object iff no object without one that
                           selects a link stands behind an object with one.

The handlers are taken to leave the request they are given as it is.
-/

namespace Security
open Last

/-! ## the code -/

/-- `rest_request.request_payload` after the loop over the members of an object; null is `[]` -/
def itemPayload (payload : List Rep) (item : List Rep) : List Rep :=
  item.foldl (fun payload p => match p.value with
    | .object o => o
    | _ => payload) payload

/-- the loop over the objects of the request, with the `rest_request.request_payload` it has come to:
the handlers that are called, each with its payload -/
def batchLoop (msg : Message) (c : Collection) : List Rep → List Rep → List (Resource × List Rep)
  | _, [] => []
  | payload, rep :: rest =>
    match rep.value with
    | .object item =>
      (batchItem msg c (itemHref item)).map (·, itemPayload payload item) ++
        batchLoop msg c (itemPayload payload item) rest
    | _ => batchLoop msg c payload rest

/-- the handlers that a batch request calls with their payloads; the loop over the links is entered
without a payload for GET and DELETE -/
def batchCalls (msg : Message) (c : Collection) : List (Resource × List Rep) :=
  if msg.method = .get ∨ msg.method = .delete then (batchItem msg c []).map (·, [])
  else batchLoop msg c [] (msg.payload.getD [])

theorem batchLoop_resources (msg : Message) (c : Collection) (payload reps : List Rep) :
    (batchLoop msg c payload reps).map Prod.fst = reps.flatMap fun rep => match rep.value with
      | .object item => batchItem msg c (itemHref item)
      | _ => [] := by
  induction reps generalizing payload with
  | nil => rfl
  | cons rep rest ih =>
    rw [batchLoop, List.flatMap_cons]
    split
    · rw [List.map_append, ih, List.map_map, show Prod.fst ∘ (·, itemPayload payload _) = id from rfl,
        List.map_id]
    · rw [ih, List.nil_append]

theorem batchCalls_resources (msg : Message) (c : Collection) :
    (batchCalls msg c).map Prod.fst = batch msg c := by
  unfold batchCalls batch
  split
  · rw [List.map_map, show Prod.fst ∘ (·, ([] : List Rep)) = id from rfl, List.map_id]
  · exact batchLoop_resources msg c [] _

/-! ## what is asked of it -/

/-- the links that an object is for: those that the query selects, that the href names if there is
one, and whose resource has a handler -/
def linksOf (msg : Message) (c : Collection) (item : List Rep) : List Resource :=
  c.links.filterMap fun link => link.filter fun r =>
    ocFilterResourceByRt r msg.uriQuery ∧ (itemHref item = [] ∨ itemHref item = r.uri) ∧
      r.handler msg.method

/-- the rep that a member of an object is -/
def memberRep (p : Rep) : Option (List Rep) :=
  match p.value with
  | .object o => some o
  | _ => none

/-- the rep of an object: its last member that is an object -/
def itemRep (item : List Rep) : Option (List Rep) := last memberRep item

/-- the rep that an element of the payload brings -/
def elementRep (rep : Rep) : Option (List Rep) :=
  match rep.value with
  | .object item => itemRep item
  | _ => none

/-- every object is for its links, with its own rep or none -/
def batchMeant (msg : Message) (c : Collection) : List (Resource × List Rep) :=
  (msg.payload.getD []).flatMap fun rep => match rep.value with
    | .object item => (linksOf msg c item).map (·, (itemRep item).getD [])
    | _ => []

/-- the rep of the last object that has one -/
def lastRep (reps : List Rep) : Option (List Rep) := last elementRep reps

theorem linksOf_eq (msg : Message) (c : Collection) (item : List Rep) :
    linksOf msg c item = batchItem msg c (itemHref item) := rfl

theorem itemPayload_eq (payload item : List Rep) :
    itemPayload payload item = (itemRep item).getD payload := by
  have hstep : (fun (payload : List Rep) (p : Rep) => match p.value with
      | .object o => o
      | _ => payload) = fun payload p => (memberRep p).getD payload := by
    funext payload p
    unfold memberRep
    cases p.value <;> rfl
  unfold itemPayload itemRep
  rw [hstep]
  exact foldl_last memberRep item payload

/-! ## stale payloads -/

/-- behind the objects `front`, the first of which were handled with `payload`, an object without a
rep selects no link, or the last rep in front is empty -/
def Fresh (msg : Message) (c : Collection) (payload front : List Rep) (rep : Rep) : Prop :=
  ∀ item, rep.value = .object item → itemRep item = none →
    linksOf msg c item = [] ∨ (lastRep front).getD payload = []

/-- one object gets its own rep iff it has one, is for no link, or nothing was carried over -/
theorem item_eq_iff (msg : Message) (c : Collection) (payload item : List Rep) :
    (batchItem msg c (itemHref item)).map (·, itemPayload payload item) =
        (linksOf msg c item).map (·, (itemRep item).getD []) ↔
      (itemRep item = none → linksOf msg c item = [] ∨ payload = []) := by
  rw [linksOf_eq, itemPayload_eq]
  cases itemRep item with
  | some o => simp
  | none =>
    cases batchItem msg c (itemHref item) with
    | nil => simp
    | cons r rs =>
      simp only [List.map_cons, List.cons.injEq, Prod.mk.injEq, Option.getD_none, true_and,
        forall_const, reduceCtorEq, false_or]
      refine ⟨fun h => h.1, ?_⟩
      rintro rfl
      exact ⟨rfl, rfl⟩

theorem batchLoop_iff (msg : Message) (c : Collection) (payload reps : List Rep) :
    (batchLoop msg c payload reps = reps.flatMap fun rep => match rep.value with
        | .object item => (linksOf msg c item).map (·, (itemRep item).getD [])
        | _ => []) ↔
      ∀ front rep back, reps = front ++ rep :: back → Fresh msg c payload front rep := by
  induction reps generalizing payload with
  | nil => simp [batchLoop]
  | cons rep rest ih =>
    -- the first object, and those behind it with the payload it leaves
    have hsplit : (∀ front r back, rep :: rest = front ++ r :: back → Fresh msg c payload front r) ↔
        Fresh msg c payload [] rep ∧
          ∀ front r back, rest = front ++ r :: back → Fresh msg c payload (rep :: front) r := by
      constructor
      · intro h
        exact ⟨h [] rep rest rfl, fun front r back he => h (rep :: front) r back (by rw [he]; rfl)⟩
      · rintro ⟨h0, h⟩ front r back he
        cases front with
        | nil =>
          obtain ⟨rfl, -⟩ := List.cons.inj he
          exact h0
        | cons a front =>
          obtain ⟨rfl, ht⟩ := List.cons.inj he
          exact h front r back ht
    rw [hsplit, batchLoop, List.flatMap_cons]
    cases hv : rep.value with
    | object item =>
      have hf : ∀ front r, Fresh msg c payload (rep :: front) r ↔
          Fresh msg c (itemPayload payload item) front r := by
        intro front r
        unfold Fresh
        rw [lastRep, last_cons, or_getD, elementRep, hv, itemPayload_eq]
        rfl
      have h0 : Fresh msg c payload [] rep ↔
          (itemRep item = none → linksOf msg c item = [] ∨ payload = []) := by
        unfold Fresh
        rw [hv]
        exact ⟨fun h => h item rfl, fun h i hi => RepValue.object.inj hi ▸ h⟩
      simp only [hf]
      rw [← ih, h0, ← item_eq_iff]
      constructor
      · intro h
        exact List.append_inj h (by rw [List.length_map, List.length_map, linksOf_eq])
      · rintro ⟨h1, h2⟩
        rw [h1, h2]
    | _ =>
      have hf : ∀ front r, Fresh msg c payload (rep :: front) r ↔ Fresh msg c payload front r := by
        intro front r
        unfold Fresh
        rw [lastRep, last_cons, elementRep, hv, Option.or_none]
        rfl
      have h0 : Fresh msg c payload [] rep := by
        intro item hi
        rw [hv] at hi
        cases hi
      simp only [hf, List.nil_append, ih]
      exact (and_iff_right h0).symm

theorem batchCalls_iff (msg : Message) (c : Collection) (h : msg.method = .post ∨ msg.method = .put) :
    batchCalls msg c = batchMeant msg c ↔
      ∀ front rep back item, msg.payload.getD [] = front ++ rep :: back → rep.value = .object item →
        itemRep item = none → linksOf msg c item = [] ∨ (lastRep front).getD [] = [] := by
  have hm : ¬ (msg.method = .get ∨ msg.method = .delete) := by
    rcases h with h | h <;> rw [h] <;> decide
  rw [batchCalls, if_neg hm, batchMeant, batchLoop_iff]
  constructor
  · intro hf front rep back item hp
    exact hf front rep back hp item
  · intro hf front rep back hp item
    exact hf front rep back item hp

/-! ## a room with a light and a fan -/

def dimmable (uri : String) : Resource :=
  { device := 0, core := none, uri := ascii uri, types := [ascii "oic.r.switch"]
    interfaces := 2 ||| 32, defaultInterface := 2, properties := ocDiscoverable
    handler := fun m => m = .post }

def dimmableRoom : Collection := ⟨room, [some (dimmable "/light"), some (dimmable "/fan")]⟩

/-- `{"href": "/light", "rep": {"value": true}}` -/
def lightOn : Rep := .mk [] (.object [.mk (ascii "href") (.string (ascii "/light")),
  .mk (ascii "rep") (.object [.mk (ascii "value") (.bool true)])])

/-- `{"href": "/fan"}` -/
def fanUntouched : Rep := .mk [] (.object [.mk (ascii "href") (.string (ascii "/fan"))])

def roomUpdate (reps : List Rep) : Message :=
  ⟨.post, ascii "room", ascii "if=oic.if.b", some reps, clearEndpoint⟩

/-- the object without a rep in front gets none -/
theorem batchCalls_fan_first :
    batchCalls (roomUpdate [fanUntouched, lightOn]) dimmableRoom =
      batchMeant (roomUpdate [fanUntouched, lightOn]) dimmableRoom := by
  refine (batchCalls_iff _ _ (Or.inl rfl)).mpr fun front rep back item hp hv hn => ?_
  rcases front with _ | ⟨a, _ | ⟨b, front⟩⟩
  · exact Or.inr rfl
  · obtain ⟨-, ht⟩ := List.cons.inj hp
    obtain ⟨rfl, -⟩ := List.cons.inj ht
    cases hv
    cases hn
  · have hl := congrArg List.length hp
    simp [roomUpdate] at hl

/-- the fan is switched on with the rep of the light -/
theorem fan_gets_light :
    let on : List Rep := [.mk (ascii "value") (.bool true)]
    let msg := roomUpdate [lightOn, fanUntouched]
    (batchCalls msg dimmableRoom).map (fun x => (x.1.uri, x.2)) =
        [(ascii "/light", on), (ascii "/fan", on)] ∧
      (batchMeant msg dimmableRoom).map (fun x => (x.1.uri, x.2)) =
        [(ascii "/light", on), (ascii "/fan", [])] := by
  exact ⟨rfl, rfl⟩

end Security
