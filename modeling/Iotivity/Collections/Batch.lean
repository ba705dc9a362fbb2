import Iotivity.Collections.Request
import Iotivity.Lib.Last

/-!
# What a batch request is answered

The links are visited one after the other, and every visit that is kept leaves one object in the answer.

* `visits`, `serve`         the visits, and what the handlers reply;
* `Fits`                    the answer fits in the buffer, with what is taken back;
* `Leaves`, `visit_array`   one visit;
* `visits_run`              all of them;
* `batch_answered`          the answer.
-/

namespace Collections
open Payload Last
open Discovery (Server key text ocRepGetEncodedPayloadSize)
open Coap (OcStatus ocStatusCode)
open Security (Bytes Resource Rep Method itemHref itemPayload)

/-! ## visits -/

/-- a link that an object of the payload is for, with the `href` and the rep that it comes with -/
structure Visit where
  resource : Resource
  href : Bytes
  payload : List Rep

section
variable (request : Request) (notify : Option Nat) (links : List Link)

def visitsOf (href : Bytes) (payload : List Rep) : List Visit :=
  (links.filter (selected request notify href)).map fun link => ⟨link.resource, href, payload⟩

def objectVisits : List Rep → List Rep → List Visit
  | _, [] => []
  | payload, rep :: rest =>
    match rep.value with
    | .object item =>
      visitsOf request notify links (itemHref item) (itemPayload payload item) ++
        objectVisits (itemPayload payload item) rest
    | _ => objectVisits payload rest

def visits : List Visit :=
  if request.method = .get ∨ request.method = .delete then visitsOf request notify links [] []
  else objectVisits request notify links [] request.payload

end

section
variable {σ : Type} (c : Encoder) (call : Callbacks σ)

def visitOne (method : Method) (s : Loop σ) (v : Visit) : Loop σ :=
  visit c call method v.href v.payload s v.resource

variable {request : Request} {notify : Option Nat} {links : List Link}

theorem visitLinks_eq (href : Bytes) (payload : List Rep) (s : Loop σ) :
    visitLinks c call request notify links href payload s =
      (visitsOf request notify links href payload).foldl (visitOne c call request.method) s := by
  unfold visitLinks visitsOf
  induction links generalizing s with
  | nil => rfl
  | cons link links ih =>
    rw [List.foldl_cons, ih]
    cases h : selected request notify href link with
    | true => rw [List.filter_cons_of_pos h, if_pos rfl]; rfl
    | false =>
      rw [List.filter_cons_of_neg (Bool.eq_false_iff.mp h), if_neg Bool.false_ne_true]

theorem batchLoop_eq (payload reps : List Rep) (s : Loop σ) :
    batchLoop c call request notify links payload reps s =
      (objectVisits request notify links payload reps).foldl (visitOne c call request.method) s := by
  induction reps generalizing payload s with
  | nil => rfl
  | cons rep rest ih =>
    rw [batchLoop, objectVisits]
    cases rep.value with
    | object item =>
      show batchLoop c call request notify links (itemPayload payload item) rest _ = _
      rw [List.foldl_append, ih, visitLinks_eq]
    | _ => exact ih payload s

theorem visitAll_eq (s : Loop σ) : visitAll c call request notify links s =
    (visits request notify links).foldl (visitOne c call request.method) s := by
  unfold visitAll visits
  split
  · exact visitLinks_eq c call [] [] s
  · exact batchLoop_eq c call [] request.payload s

end

/-! ## replies -/

/-- a visit with the reply of the handler, if there is one -/
structure Served where
  visit : Visit
  reply : Option Reply

/-- what stands in front of the rep -/
def front (r : Resource) : List (CborItem × CborValue) :=
  [(textItem (key "href").bytes, .atEnd), (textItem (text r.uri).bytes, .atEnd),
    (textItem (key "rep").bytes, .atEnd)]

namespace Served
variable (s : Served)

/-- the handler has not refused, or the link has not been named -/
def kept : Bool :=
  match s.reply with
  | none => false
  | some reply => !(decide (s.visit.href.length > 0) && decide (badRequest ≤ reply.code))

/-- what the handler has written -/
def written : List (CborItem × CborValue) :=
  match s.reply with
  | none => []
  | some reply => reply.items

/-- an empty object stands for nothing -/
def rep : List (CborItem × CborValue) :=
  match s.written with
  | [] => [(.map, .atEnd)]
  | i :: items => i :: items

/-- the object of the answer -/
def object : CborItem × CborValue := (.map, view (front s.visit.resource ++ s.rep))

/-- a visit that leaves nothing, with its reply -/
def refusal : Option (Option Reply) := if s.kept then none else some s.reply

/-- the code that the answer gets from it -/
def refusedCode : Option Nat := s.refusal.map fun reply => (reply.map Reply.code).getD 0

/-- and from one that does not -/
def acceptedCode : Option Nat :=
  if s.kept then (s.reply.map Reply.code).filter (· < badRequest) else none

/-- the bytes that a visit needs, also when they are taken back -/
def needs (c : Encoder) : Nat :=
  if s.kept then c.cost (view [s.object])
  else c.bytes .map + c.cost (view (front s.visit.resource ++ s.written))

/-- the bytes that it leaves -/
def leaves (c : Encoder) : Nat := if s.kept then c.cost (view [s.object]) else 0

end Served

section
variable {σ : Type} (call : Callbacks σ) (method : Method)

/-- the handler of one link -/
def serveOne (v : Visit) (app : σ) : Served × σ :=
  if v.resource.handler method then
    let r := call method v.resource v.payload app
    (⟨v, some r.1⟩, r.2)
  else (⟨v, none⟩, app)

/-- the handlers, one after the other -/
def serve : List Visit → σ → List Served × σ
  | [], app => ([], app)
  | v :: rest, app =>
    let r := serveOne call method v app
    let l := serve rest r.2
    (r.1 :: l.1, l.2)

end

/-- every visit fits in the buffer behind what those before it have left -/
def Fits (c : Encoder) : Nat → List Served → Prop
  | _, [] => True
  | used, s :: rest => used + s.needs c ≤ c.size ∧ Fits c (used + s.leaves c) rest

instance decidableFits (c : Encoder) : (used : Nat) → (l : List Served) → Decidable (Fits c used l)
  | _, [] => isTrue trivial
  | used, s :: rest =>
    have := decidableFits c (used + s.leaves c) rest
    inferInstanceAs (Decidable (_ ∧ _))

/-- the objects of the answer -/
def objectsOf (l : List Served) : List (CborItem × CborValue) := (l.filter Served.kept).map Served.object

/-! ## one visit -/

section
variable {c : Encoder} {σ : Type} {call : Callbacks σ} {method : Method}

theorem error_eq_zero (used : Nat) : c.error used = 0 ↔ used ≤ c.size := by
  unfold Encoder.error
  by_cases h : c.size < used
  · rw [if_pos h]
    exact iff_of_false (by decide) (Nat.not_le_of_lt h)
  · rw [if_neg h]
    exact iff_of_true rfl (Nat.not_lt.mp h)

/-- errors stay -/
theorem write_err {n : Nat} {e : Encoding} (h : (c.write n e).2.err = 0) : e.err = 0 :=
  (Nat.or_eq_zero_iff.mp h).1

theorem openItem_state (r : Resource) (used : Nat) (items : List (CborItem × CborValue)) :
    openItem c r (c.state used items) =
      ((), c.state (used + (c.bytes .map + c.cost (view (front r)))) (front r)) := by
  have hopen : openItem c r (c.state used items) =
      (do
        ocRepSetTextString c (key "href") (some (text r.uri))
        cborEncode c (textItem (key "rep").bytes) : Builder Unit)
        { (c.write (c.bytes .map) (c.state used items)).2 with items := [] } := rfl
  have hnone : { (c.state (used + c.bytes .map) items) with items := [] } =
      c.state (used + c.bytes .map) [] := rfl
  have hbuilds : Builds c (do
      ocRepSetTextString c (key "href") (some (text r.uri))
      cborEncode c (textItem (key "rep").bytes)) (front r) :=
    (builds_setItem (key "href") rfl).seq (builds_item rfl)
  rw [hopen, write_state, hnone, hbuilds, List.nil_append, Nat.add_assoc]

theorem builds_writeItems (items : List (CborItem × CborValue)) : Builds c (writeItems c items) items := by
  intro used front
  have hstep : writeItems c items (c.state used front) =
      ((), (fun e : Encoding => { e with items := e.items ++ items })
        (c.write (c.cost (view items)) (c.state used front)).2) := rfl
  rw [hstep, write_state]
  rfl

theorem openItem_err {r : Resource} {e : Encoding} (h : (openItem c r e).2.err = 0) : e.err = 0 := by
  have hkey := write_err (show (c.write _ _).2.err = 0 from h)
  have huri := write_err (show (c.write _ _).2.err = 0 from hkey)
  have hhref := write_err (show (c.write _ _).2.err = 0 from huri)
  exact write_err (show (c.write _ _).2.err = 0 from hhref)

theorem writeItems_err {items : List (CborItem × CborValue)} {e : Encoding}
    (h : (writeItems c items e).2.err = 0) : e.err = 0 := write_err (show (c.write _ _).2.err = 0 from h)

theorem rootObject_err {e : Encoding} (h : (ocRepRootObject c (pure ()) e).2.err = 0) : e.err = 0 :=
  write_err (show (c.write _ _).2.err = 0 from write_err (show (c.write _ _).2.err = 0 from h))

/-- a visit without an error has opened its object without one -/
theorem visit_opened {s : Loop σ} {v : Visit} (h : (visitOne c call method s v).array.err = 0) :
    (openItem c v.resource s.array).2.err = 0 := by
  unfold visitOne visit at h
  split at h
  · dsimp only at h
    split at h
    · exact writeItems_err h
    · refine writeItems_err
        (show (writeItems c (call method v.resource v.payload s.app).1.items _).2.err = 0 from ?_)
      have hclosed := write_err (show (c.write _ _).2.err = 0 from h)
      split at hclosed
      · exact rootObject_err hclosed
      · exact hclosed
  · exact h

theorem visit_err {s : Loop σ} {v : Visit} (h : (visitOne c call method s v).array.err = 0) :
    s.array.err = 0 := openItem_err (visit_opened h)

theorem kept_some {v : Visit} {reply : Reply} :
    Served.kept ⟨v, some reply⟩ = true ↔ ¬ (v.href.length > 0 ∧ badRequest ≤ reply.code) := by
  show (!(decide _ && decide _)) = true ↔ _
  rw [← Bool.decide_and, ← decide_not, decide_eq_true_eq]

variable (c call method) in
/-- the codes, and the state of the application, do not depend on the buffer -/
theorem visit_codes (s : Loop σ) (v : Visit) :
    (visitOne c call method s v).app = (serveOne call method v s.app).2 ∧
    (visitOne c call method s v).ecode = (serveOne call method v s.app).1.refusedCode.getD s.ecode ∧
    (visitOne c call method s v).pcode = (serveOne call method v s.app).1.acceptedCode.getD s.pcode := by
  unfold visitOne visit serveOne
  by_cases hh : v.resource.handler method = true
  · rw [if_pos hh, if_pos hh]
    dsimp only
    by_cases hr : v.href.length > 0 ∧ badRequest ≤ (call method v.resource v.payload s.app).1.code
    · have hkept : ¬ Served.kept ⟨v, some (call method v.resource v.payload s.app).1⟩ = true :=
        fun h => kept_some.mp h hr
      rw [if_pos hr]
      unfold Served.refusedCode Served.refusal Served.acceptedCode
      rw [if_neg hkept, if_neg hkept]
      exact ⟨rfl, rfl, rfl⟩
    · have hkept : Served.kept ⟨v, some (call method v.resource v.payload s.app).1⟩ = true :=
        kept_some.mpr hr
      rw [if_neg hr]
      unfold Served.refusedCode Served.refusal Served.acceptedCode
      rw [if_pos hkept, if_pos hkept, Option.map_some, Option.filter_some]
      refine ⟨rfl, rfl, ?_⟩
      show (if (call method v.resource v.payload s.app).1.code < badRequest then _ else s.pcode) = _
      by_cases hcode : (call method v.resource v.payload s.app).1.code < badRequest
      · rw [if_pos hcode, if_pos (decide_eq_true hcode)]
        rfl
      · rw [if_neg hcode, if_neg (by rwa [decide_eq_true_eq])]
        rfl
  · rw [if_neg hh, if_neg hh]
    exact ⟨rfl, rfl, rfl⟩

theorem payloadSize_le {used : Nat} (h : used ≤ c.size) (items : List (CborItem × CborValue)) :
    ocRepGetEncodedPayloadSize (c.state used items) = used :=
  if_neg (not_not_intro ((error_eq_zero used).mpr h))

theorem payloadSize_lt {used : Nat} (h : c.size < used) (items : List (CborItem × CborValue)) :
    ocRepGetEncodedPayloadSize (c.state used items) = -1 :=
  if_pos fun he => Nat.not_le_of_lt h ((error_eq_zero used).mp he)

/-- items take bytes -/
theorem cost_pos {items : List (CborItem × CborValue)} (h : items ≠ []) : 0 < c.cost (view items) := by
  cases items with
  | nil => exact absurd rfl h
  | cons i items =>
    have hdata := c.data_lt i.1
    show 0 < c.bytes i.1 + c.cost i.2 + i.1.breakBytes + c.cost (view items)
    omega

/-- the bytes of an object, piece by piece -/
theorem cost_object (s : Served) : c.cost (view [s.object]) =
    c.bytes .map + c.cost (view (front s.visit.resource)) + c.cost (view s.rep) + 1 := by
  show c.bytes .map + c.cost (view (front s.visit.resource ++ s.rep)) + 1 + 0 = _
  rw [cost_append]
  omega

/-- `links_array` set back: `g_err` says whether there was room -/
theorem setBack {used n : Nat} (hused : used ≤ c.size) (items : List (CborItem × CborValue)) :
    if n ≤ c.size then { c.state used items with err := c.error n } = c.state used items
    else ({ c.state used items with err := c.error n } : Encoding).err ≠ 0 := by
  split
  next h =>
    show (⟨c.error n, used, items⟩ : Encoding) = ⟨c.error used, used, items⟩
    rw [(error_eq_zero n).mpr h, (error_eq_zero used).mpr hused]
  next h => exact fun he => h ((error_eq_zero n).mp he)

/-- the rep of an object that is kept, behind what the handler has written -/
theorem rep_state (reply : Reply) (v : Visit) {used : Nat} (hused : used ≤ c.size)
    (items : List (CborItem × CborValue)) :
    (if ocRepGetEncodedPayloadSize (c.state used items) =
        ocRepGetEncodedPayloadSize (c.state (used + c.cost (view reply.items)) (items ++ reply.items)) then
      (ocRepRootObject c (pure ()) (c.state (used + c.cost (view reply.items)) (items ++ reply.items))).2
    else c.state (used + c.cost (view reply.items)) (items ++ reply.items)) =
      c.state (used + c.cost (view (Served.rep ⟨v, some reply⟩))) (items ++ Served.rep ⟨v, some reply⟩) := by
  obtain ⟨code, l⟩ := reply
  rw [payloadSize_le hused]
  cases l with
  | nil =>
    have hroot := (builds_pure (c := c)).container .map used items
    rw [List.append_nil, show used + c.cost (view []) = used from rfl, payloadSize_le hused, if_pos rfl]
    exact congrArg Prod.snd hroot
  | cons i l =>
    have hpos : 0 < c.cost (view (i :: l)) := cost_pos (List.cons_ne_nil i l)
    refine if_neg fun he => ?_
    rcases Nat.lt_or_ge c.size (used + c.cost (view (i :: l))) with hlt | hle
    · rw [payloadSize_lt hlt] at he
      omega
    · rw [payloadSize_le hle] at he
      omega

/-- what a visit makes of the buffer: it leaves its object or nothing, unless there was no room -/
def Leaves (c : Encoder) (used : Nat) (items : List (CborItem × CborValue)) (s : Served) (after : Encoding) :
    Prop :=
  if used + s.needs c ≤ c.size then
    after = c.state (used + s.leaves c) (items ++ if s.kept then [s.object] else [])
  else after.err ≠ 0

section
variable {used : Nat} {items : List (CborItem × CborValue)} {s : Served}

theorem needs_refused (hkept : ¬ s.kept = true) : s.needs c =
    c.bytes .map + c.cost (view (front s.visit.resource)) + c.cost (view s.written) := by
  unfold Served.needs
  rw [if_neg hkept, cost_append, Nat.add_assoc]

theorem needs_kept (hkept : s.kept = true) : s.needs c =
    c.bytes .map + c.cost (view (front s.visit.resource)) + c.cost (view s.rep) + 1 := by
  unfold Served.needs
  rw [if_pos hkept, cost_object]

/-- every visit opens its object -/
theorem front_le_needs : c.bytes .map + c.cost (view (front s.visit.resource)) ≤ s.needs c := by
  by_cases hkept : s.kept = true
  · rw [needs_kept hkept]
    omega
  · rw [needs_refused hkept]
    omega

variable (items) in
/-- what has been written is taken back -/
theorem leaves_nothing (hused : used ≤ c.size) (hkept : ¬ s.kept = true) :
    Leaves c used items s { c.state used items with err := c.error (used + s.needs c) } := by
  have hback := setBack (n := used + s.needs c) hused items
  unfold Leaves Served.leaves
  rw [if_neg hkept, if_neg hkept, Nat.add_zero, List.append_nil]
  exact hback

variable (c used items) in
theorem leaves_object (hkept : s.kept = true) :
    Leaves c used items s (c.state (used + s.needs c) (items ++ [s.object])) := by
  have hleaves : s.leaves c = s.needs c := by
    unfold Served.leaves Served.needs
    rw [if_pos hkept, if_pos hkept]
  unfold Leaves
  rw [hleaves, if_pos hkept]
  split
  next => rfl
  next hfit => exact fun he => hfit ((error_eq_zero _).mp he)

end

variable (call method) in
theorem visit_array {used : Nat} (hused : used ≤ c.size) (items : List (CborItem × CborValue)) (app : σ)
    (ecode pcode : Nat) (v : Visit) :
    Leaves c used items (serveOne call method v app).1
      (visitOne c call method ⟨c.state used items, app, ecode, pcode⟩ v).array := by
  by_cases hopen : used + (c.bytes .map + c.cost (view (front v.resource))) ≤ c.size
  · unfold visitOne visit serveOne
    by_cases hh : v.resource.handler method = true
    · rw [if_pos hh, if_pos hh]
      dsimp only
      rw [openItem_state, builds_writeItems]
      generalize call method v.resource v.payload app = r
      by_cases hr : v.href.length > 0 ∧ badRequest ≤ r.1.code
      · have hkept : ¬ Served.kept ⟨v, some r.1⟩ = true := fun h => kept_some.mp h hr
        have hleaves := leaves_nothing items hused hkept
        rw [needs_refused hkept, ← Nat.add_assoc] at hleaves
        rw [if_pos hr]
        exact hleaves
      · have hkept : Served.kept ⟨v, some r.1⟩ = true := kept_some.mpr hr
        have hleaves := leaves_object c used items hkept
        rw [needs_kept hkept, ← Nat.add_assoc, ← Nat.add_assoc] at hleaves
        rw [if_neg hr]
        dsimp only
        rw [rep_state r.1 v hopen, write_state]
        exact hleaves
    · have hkept : ¬ Served.kept ⟨v, none⟩ = true := Bool.false_ne_true
      have hleaves := leaves_nothing items hused hkept
      rw [needs_refused hkept] at hleaves
      rw [if_neg hh, if_neg hh]
      dsimp only
      rw [openItem_state]
      exact hleaves
  · have hvisit : (serveOne call method v app).1.visit = v := by
      unfold serveOne
      split <;> rfl
    have hfull : ¬ used + (serveOne call method v app).1.needs c ≤ c.size := fun h => by
      have hfront := front_le_needs (c := c) (s := (serveOne call method v app).1)
      rw [hvisit] at hfront
      omega
    unfold Leaves
    rw [if_neg hfull]
    intro he
    have hopened := visit_opened he
    rw [openItem_state] at hopened
    exact hopen ((error_eq_zero _).mp hopened)

/-! ## all visits -/

variable (c call method) in
theorem visits_codes (vs : List Visit) (s : Loop σ) :
    (vs.foldl (visitOne c call method) s).app = (serve call method vs s.app).2 ∧
    (vs.foldl (visitOne c call method) s).ecode =
      (last Served.refusedCode (serve call method vs s.app).1).getD s.ecode ∧
    (vs.foldl (visitOne c call method) s).pcode =
      (last Served.acceptedCode (serve call method vs s.app).1).getD s.pcode := by
  induction vs generalizing s with
  | nil => exact ⟨rfl, rfl, rfl⟩
  | cons v vs ih =>
    obtain ⟨happ, hecode, hpcode⟩ := visit_codes c call method s v
    obtain ⟨ihapp, ihecode, ihpcode⟩ := ih (visitOne c call method s v)
    rw [happ] at ihapp ihecode ihpcode
    rw [List.foldl_cons, ihapp, ihecode, ihpcode, hecode, hpcode]
    refine ⟨rfl, ?_, ?_⟩
    · exact (or_getD _ _ _).symm.trans (congrArg (Option.getD · s.ecode) (last_cons _ _ _).symm)
    · exact (or_getD _ _ _).symm.trans (congrArg (Option.getD · s.pcode) (last_cons _ _ _).symm)

theorem visits_err {vs : List Visit} {s : Loop σ} (h : (vs.foldl (visitOne c call method) s).array.err = 0) :
    s.array.err = 0 := by
  induction vs generalizing s with
  | nil => exact h
  | cons v vs ih => exact visit_err (ih h)

theorem objectsOf_cons (s : Served) (l : List Served) :
    objectsOf (s :: l) = (if s.kept then [s.object] else []) ++ objectsOf l := by
  unfold objectsOf
  by_cases h : s.kept = true
  · rw [List.filter_cons_of_pos h, if_pos h, List.map_cons, List.singleton_append]
  · rw [List.filter_cons_of_neg h, if_neg h, List.nil_append]

theorem cost_left (s : Served) : c.cost (view (if s.kept then [s.object] else [])) = s.leaves c := by
  unfold Served.leaves
  split <;> rfl

theorem leaves_le (s : Served) : s.leaves c ≤ s.needs c := by
  unfold Served.leaves Served.needs
  split
  · exact Nat.le_refl _
  · exact Nat.zero_le _

variable (call method) in
/-- what all visits leave -/
theorem visits_run (vs : List Visit) {used : Nat} (hused : used ≤ c.size)
    (items : List (CborItem × CborValue)) (app : σ) (ecode pcode : Nat) :
    let l := (serve call method vs app).1
    let after := (vs.foldl (visitOne c call method) ⟨c.state used items, app, ecode, pcode⟩).array
    if Fits c used l then after = c.state (used + c.cost (view (objectsOf l))) (items ++ objectsOf l)
    else after.err ≠ 0 := by
  induction vs generalizing used items app ecode pcode with
  | nil =>
    show c.state used items = c.state (used + 0) (items ++ [])
    rw [Nat.add_zero, List.append_nil]
  | cons v vs ih =>
    intro l after
    have hvisit := visit_array call method hused items app ecode pcode v
    unfold Leaves at hvisit
    obtain ⟨happ, -, -⟩ := visit_codes c call method
      ⟨c.state used items, app, ecode, pcode⟩ v
    have hl : l =
        (serveOne call method v app).1 :: (serve call method vs (serveOne call method v app).2).1 := rfl
    have hafter : after = (vs.foldl (visitOne c call method)
      (visitOne c call method ⟨c.state used items, app, ecode, pcode⟩ v)).array := rfl
    clear_value l after
    generalize serveOne call method v app = r at hvisit happ hl
    generalize visitOne c call method ⟨c.state used items, app, ecode, pcode⟩ v = next
      at hvisit happ hafter
    rw [hl, hafter]
    by_cases hfit : used + r.1.needs c ≤ c.size
    · rw [if_pos hfit] at hvisit
      have hleft : used + r.1.leaves c ≤ c.size :=
        Nat.le_trans (Nat.add_le_add_left (leaves_le r.1) used) hfit
      obtain ⟨array, app', ecode', pcode'⟩ := next
      obtain rfl : array = _ := hvisit
      obtain rfl : app' = r.2 := happ
      have hrest := ih hleft (items ++ if r.1.kept then [r.1.object] else []) r.2 ecode' pcode'
      rw [objectsOf_cons, cost_append, cost_left, ← Nat.add_assoc, ← List.append_assoc]
      by_cases hl' : Fits c (used + r.1.leaves c) (serve call method vs r.2).1
      · rw [if_pos ⟨hfit, hl'⟩]
        rwa [if_pos hl'] at hrest
      · rw [if_neg fun h => hl' h.2]
        rwa [if_neg hl'] at hrest
    · rw [if_neg hfit] at hvisit
      rw [if_neg fun h => hfit h.1]
      exact fun he => hvisit (visits_err he)

end

/-! ## the answer -/

/-- some handler has succeeded, and the last visit that leaves nothing is not one that its handler refused -/
def Succeeds (l : List Served) : Prop :=
  (∃ s ∈ l, s.kept ∧ ∃ reply, s.reply = some reply ∧ reply.code < badRequest) ∧
    ∀ reply, last Served.refusal l ≠ some (some reply)

/-- the answer, before the buffer is looked at -/
def answerOf (l : List Served) : List (CborItem × CborValue) := [(.array none, view (objectsOf l))]

/-- it fits, and all that was written on the way -/
def AnswerFits (c : Encoder) (l : List Served) : Prop :=
  Fits c (c.bytes (.array none)) l ∧ c.cost (view (answerOf l)) ≤ c.size

instance (c : Encoder) (l : List Served) : Decidable (AnswerFits c l) := inferInstanceAs (Decidable (_ ∧ _))

/-- what is set for a batch request, when the links were visited as in `l` -/
structure Answered (c : Encoder) {σ : Type} (method : Method) (l : List Served) (r : Answer σ) : Prop where
  success : Succeeds l → r.code = successCode method
  failure : ¬ Succeeds l → r.code = .badRequest
  content : AnswerFits c l → r.encoding = c.state (c.cost (view (answerOf l))) (answerOf l) ∧
    r.length = (if c.cost (view (answerOf l)) ≤ 2 then 0 else c.cost (view (answerOf l))) % 65536
  /-- nothing is sent, whatever the code says -/
  overflow : ¬ AnswerFits c l → r.length = 0

section
variable {l : List Served}

theorem accepted_iff : (last Served.acceptedCode l).getD badRequest < badRequest ↔
    ∃ s ∈ l, s.kept ∧ ∃ reply, s.reply = some reply ∧ reply.code < badRequest := by
  have hcode (s : Served) (code : Nat) : s.acceptedCode = some code ↔
      s.kept ∧ ∃ reply, s.reply = some reply ∧ reply.code < badRequest ∧ reply.code = code := by
    unfold Served.acceptedCode
    split
    next h =>
      rw [Option.filter_eq_some_iff, Option.map_eq_some_iff, decide_eq_true_eq]
      constructor
      · rintro ⟨⟨reply, hr, rfl⟩, hlt⟩
        exact ⟨h, reply, hr, hlt, rfl⟩
      · rintro ⟨-, reply, hr, hlt, rfl⟩
        exact ⟨⟨reply, hr, rfl⟩, hlt⟩
    next h => exact iff_of_false (fun he => by cases he) fun hs => h hs.1
  constructor
  · intro hlt
    cases hl : last Served.acceptedCode l with
    | none =>
      rw [hl] at hlt
      exact absurd hlt (Nat.lt_irrefl _)
    | some code =>
      obtain ⟨s, hs, hc⟩ := exists_of_last hl
      obtain ⟨hk, reply, hr, hb, -⟩ := (hcode s code).mp hc
      exact ⟨s, hs, hk, reply, hr, hb⟩
  · rintro ⟨s, hs, hk, reply, hr, hb⟩
    have hsome := last_isSome hs ((hcode s reply.code).mpr ⟨hk, reply, hr, hb, rfl⟩)
    obtain ⟨code, hl⟩ := Option.ne_none_iff_exists'.mp hsome
    obtain ⟨s', -, hc⟩ := exists_of_last hl
    obtain ⟨-, reply', -, hb', rfl⟩ := (hcode s' code).mp hc
    rw [hl]
    exact hb'

theorem refused_iff : (last Served.refusedCode l).getD (ocStatusCode .ok) < badRequest ↔
    ∀ reply, last Served.refusal l ≠ some (some reply) := by
  have hmap : last Served.refusedCode l =
      (last Served.refusal l).map fun reply => (reply.map Reply.code).getD 0 := last_map _ _ _
  rw [hmap]
  cases hl : last Served.refusal l with
  | none => exact iff_of_true (by decide) fun reply h => by cases h
  | some refused =>
    cases refused with
    | none => exact iff_of_true (by decide) fun reply h => by cases h
    | some reply =>
      refine iff_of_false (fun hlt => ?_) fun h => h reply rfl
      obtain ⟨s, -, hs⟩ := exists_of_last hl
      unfold Served.refusal at hs
      split at hs
      · cases hs
      · next hk =>
        obtain ⟨v, r⟩ := s
        obtain rfl : r = some reply := Option.some.inj hs
        exact hk (kept_some.mpr fun h => Nat.not_le_of_lt hlt h.2)

end

section
variable {c : Encoder} {σ : Type} {request : Request} {app : σ} {ecode pcode : Nat}

theorem answer_status (e : Encoding) : (answer request e app ecode pcode).code =
    if ecode < badRequest ∧ pcode < badRequest then successCode request.method else .badRequest := rfl

variable (request app) in
theorem answer_code {e : Encoding} {l : List Served}
    (hecode : ecode = (last Served.refusedCode l).getD (ocStatusCode .ok))
    (hpcode : pcode = (last Served.acceptedCode l).getD badRequest) :
    (Succeeds l → (answer request e app ecode pcode).code = successCode request.method) ∧
    (¬ Succeeds l → (answer request e app ecode pcode).code = .badRequest) := by
  have hiff : ecode < badRequest ∧ pcode < badRequest ↔ Succeeds l := by
    rw [hecode, hpcode, refused_iff, accepted_iff]
    exact And.comm
  rw [answer_status]
  exact ⟨fun h => if_pos (hiff.mpr h), fun h => if_neg fun hc => h (hiff.mp hc)⟩

theorem answer_length_le {n : Nat} (h : n ≤ c.size) (items : List (CborItem × CborValue)) :
    (answer request (c.state n items) app ecode pcode).length = (if n ≤ 2 then 0 else n) % 65536 := by
  unfold answer
  dsimp only
  rw [payloadSize_le h]
  by_cases hn : n ≤ 2
  · rw [if_pos hn, if_pos (by omega)]
    rfl
  · rw [if_neg hn, if_neg (by omega)]
    omega

theorem answer_length_err {e : Encoding} (h : e.err ≠ 0) :
    (answer request e app ecode pcode).length = 0 := by
  have hsize : ocRepGetEncodedPayloadSize e = -1 := if_pos h
  unfold answer
  dsimp only
  rw [hsize]
  rfl

end

/-- the links array is closed -/
def closeLinks (c : Encoder) (e : Encoding) : Encoding :=
  { (c.write 1 e).2 with items := [(.array none, view (c.write 1 e).2.items)] }

section
variable {c : Encoder} {σ : Type} {call : Callbacks σ} {request : Request} {notify : Option Nat}
  {server : Server} {collection : Collection} {app : σ}

/-- the loop before the first visit -/
def opened (c : Encoder) (app : σ) : Loop σ :=
  ⟨c.state (c.bytes (.array none)) [], app, ocStatusCode .ok, badRequest⟩

theorem batch_eq : ocHandleCollectionRequest c call request notify server collection 8 app =
    (fun s : Loop σ => answer request (closeLinks c s.array) s.app s.ecode s.pcode)
      ((visits request notify collection.links).foldl (visitOne c call request.method) (opened c app)) := by
  have hnew : (⟨0, 0, []⟩ : Encoding) = c.state 0 [] := rfl
  unfold ocHandleCollectionRequest
  rw [if_neg (by decide), if_neg (by decide), if_pos rfl, hnew, write_state, Nat.zero_add]
  dsimp only
  rw [visitAll_eq]
  rfl

theorem closeLinks_state {l : List Served} : closeLinks c (c.state
    (c.bytes (.array none) + c.cost (view (objectsOf l))) (objectsOf l)) =
    c.state (c.cost (view (answerOf l))) (answerOf l) := by
  unfold closeLinks
  rw [write_state]
  rfl

/-- the handlers of a batch request -/
def batch (call : Callbacks σ) (request : Request) (notify : Option Nat) (collection : Collection) (app : σ) :
    List Served × σ := serve call request.method (visits request notify collection.links) app

variable (c call request notify collection app) in
/-- the array that is closed at the end -/
theorem closed_array :
    let l := (batch call request notify collection app).1
    let s := (visits request notify collection.links).foldl (visitOne c call request.method) (opened c app)
    if AnswerFits c l then closeLinks c s.array = c.state (c.cost (view (answerOf l))) (answerOf l)
    else (closeLinks c s.array).err ≠ 0 := by
  intro l s
  have hopen (h : s.array.err = 0) : c.bytes (.array none) ≤ c.size :=
    (error_eq_zero _).mp (visits_err h)
  have hrun (h : c.bytes (.array none) ≤ c.size) := visits_run call request.method
    (visits request notify collection.links) h [] app (ocStatusCode .ok) badRequest
  have hs : s = (visits request notify collection.links).foldl (visitOne c call request.method)
    ⟨c.state (c.bytes (.array none)) [], app, ocStatusCode .ok, badRequest⟩ := rfl
  have hl : l = (serve call request.method (visits request notify collection.links) app).1 := rfl
  clear_value s l
  dsimp only at hrun
  rw [← hl, ← hs] at hrun
  have hcost : c.cost (view (answerOf l)) = c.bytes (.array none) + c.cost (view (objectsOf l)) + 1 := rfl
  by_cases hfits : c.bytes (.array none) ≤ c.size ∧ Fits c (c.bytes (.array none)) l
  · have harray := hrun hfits.1
    rw [if_pos hfits.2, List.nil_append] at harray
    rw [harray, closeLinks_state]
    split
    next => rfl
    next h => exact fun he => h ⟨hfits.2, (error_eq_zero _).mp he⟩
  · rw [if_neg fun h : AnswerFits c l => hfits ⟨by have := h.2; omega, h.1⟩]
    intro he
    have harray : s.array.err = 0 := write_err (show (c.write _ _).2.err = 0 from he)
    have hopened := hopen harray
    have hr := hrun hopened
    rw [if_neg fun h => hfits ⟨hopened, h⟩] at hr
    exact hr harray

/-- what is in the buffer -/
theorem batch_encoding (h : AnswerFits c (batch call request notify collection app).1) :
    (ocHandleCollectionRequest c call request notify server collection 8 app).encoding =
      c.state (c.cost (view (answerOf (batch call request notify collection app).1)))
        (answerOf (batch call request notify collection app).1) := by
  have harray := closed_array c call request notify collection app
  rw [if_pos h] at harray
  rw [batch_eq]
  exact harray

end

/-- What a batch request is answered, whatever the handlers write and reply.  They are called one after the
other, and what one has done, the next one finds. -/
theorem batch_answered {σ : Type} (c : Encoder) (call : Callbacks σ) (request : Request)
    (notify : Option Nat) (server : Server) (collection : Collection) (app : σ) :
    let l := batch call request notify collection app
    let r := ocHandleCollectionRequest c call request notify server collection 8 app
    Answered c request.method l.1 r ∧ r.app = l.2 := by
  intro l r
  have hr : r = _ := batch_eq
  have hencoding (h : AnswerFits c l.1) : r.encoding = _ := batch_encoding h
  obtain ⟨happ, hecode, hpcode⟩ := visits_codes c call request.method
    (visits request notify collection.links) (opened c app)
  have harray := closed_array c call request notify collection app
  clear_value r
  generalize List.foldl _ _ _ = s at hr happ hecode hpcode harray
  obtain ⟨hsuccess, hfailure⟩ := answer_code request s.app
    (e := closeLinks c s.array) (l := l.1) hecode hpcode
  subst hr
  refine ⟨⟨hsuccess, hfailure, fun h => ⟨hencoding h, ?_⟩, fun h => ?_⟩, happ⟩
  · show (answer request (closeLinks c s.array) _ _ _).length = _
    rw [show closeLinks c s.array = _ from hencoding h]
    exact answer_length_le h.2 _
  · dsimp only at harray
    rw [if_neg h] at harray
    exact answer_length_err harray

end Collections
