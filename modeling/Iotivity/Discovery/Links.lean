import Iotivity.Discovery.Process
import Iotivity.Lib.Guarded
import Iotivity.Lib.Last
import Iotivity.Payload.Build

/-!
# The links that a discovery payload carries

What a link says stands in its members; of several members for one thing the last one counts.  `ownCall`
is the call that is due for a link, from its own members.  The variables of the loop hold the last value
that any link had.

* `link_read`           what the loop collects from a link;
* `linkMeets_iff`       the links for which the call is the one that is due, with memory for endpoints;
* `linkLoop_iff`        lists of links;
* `discovery_iff`       payloads.
-/

namespace Discovery
open Payload Last Guarded
open Coap (Endpoint)
open Security (Bytes Uuid ascii)

/-! ## what a member says -/

section
variable (env : Env) (di : Uuid) (m : Member)

def anchorOf : Option Bytes := if m.isString ∧ m.named (ascii "anchor") then some m.text else none

def hrefOf : Option Bytes := if m.isString ∧ m.named (ascii "href") then some m.text else none

def typesOf : Option RepValue := if m.isStrings ∧ m.named (ascii "rt") then some m.value else none

def maskOf : Option Nat :=
  if m.isStrings ∧ m.named (ascii "if") then some (interfaceMask env m.value) else none

/-- `bm`, from anywhere in the policy -/
def bmOf : Option Nat :=
  if m.isObject ∧ m.named (ascii "p") then
    last (fun x : Member => match x.value with
      | .integer v =>
        if x.type = ocRepInt ∧ x.named (ascii "bm") then some (ocResourceProperties v) else none
      | _ => none) (members m.target)
  else none

def epText : Option Bytes := if m.isString ∧ m.named (ascii "ep") then some m.text else none

/-- the texts of endpoints in an object -/
def epTexts : List Bytes := (members m.target).filterMap epText

/-- the endpoint of a text, if it is valid -/
def valid (s : Bytes) : Option Endpoint :=
  match stringToEndpoint env s with
  | .ok r => r
  | .error _ => none

/-- the valid endpoints of an array of objects -/
def endpointsOf : List Peer :=
  (members m.target).flatMap fun e => (epTexts e).filterMap fun s => (valid env s).map (completed env di)

def epsOf : Option (List Peer) :=
  if m.isObjects ∧ m.named (ascii "eps") then some (endpointsOf env di m) else none

end

/-- the call that is due for a link -/
def ownCall (env : Env) (link : List Member) : Option Found := do
  let anchor ← last anchorOf link
  let uri ← last hrefOf link
  let types ← last typesOf link
  let eps := (last (epsOf env (uuidOf env anchor)) link).getD []
  if eps.isEmpty then none
  else some ⟨anchor, uri, types, (last (maskOf env) link).getD 0, eps, (last bmOf link).getD 0⟩

/-- the calls that are due for links, until the handler stops -/
def due (env : Env) (handler : Handler) : List Member → List Found → Bool × List (Option Found)
  | [], _ => (false, [])
  | links :: rest, calls =>
    match ownCall env (members links.target) with
    | none =>
      let r := due env handler rest calls
      (r.1, none :: r.2)
    | some call =>
      if handler calls call then (true, [some call])
      else
        let r := due env handler rest (calls ++ [call])
        (r.1, some call :: r.2)

/-- the links of a tree: `links` of its first object, or of the tree itself, or its objects -/
def treeLinks (p : OcRep) : List Member :=
  members (linksOf p (propertiesOf p (match members p with
    | [] => []
    | rep :: _ => members rep.target)))

/-! ## when they are the calls that are made -/

section
variable (env : Env) (di : Uuid) (m : Member)

/-- the mask that the loop takes from a member: any array of strings but `rt` -/
def maskTaken : Option Nat :=
  if m.isStrings ∧ ¬ m.named (ascii "rt") then some (interfaceMask env m.value) else none

/-- the `bm` that it takes: the first member of the policy -/
def bmTaken : Option Nat := if m.isObject ∧ m.named (ascii "p") then policyOf m else none

/-- the endpoints that it takes: those of any array of objects -/
def peersOf : List Peer := if m.isObjects then endpointsOf env di m else []

/-- the endpoints of a member can be read: `oc_string_to_endpoint` returns -/
def Readable : Prop :=
  m.isObjects = true → ∀ e ∈ members m.target, e.stray env = false ∧
    ∀ s ∈ epTexts e, ∃ r, stringToEndpoint env s = .ok r

end

/-- endpoints come in one after the other -/
def Chain.addAll (env : Env) (eps : Chain) (new : List Peer) : Chain := new.foldl (Chain.add env) eps

/-- `eps_list` and the calls of `oc_new_endpoint` behind a member: the list of an array begins anew -/
def gather (env : Env) (di : Uuid) (s : List Peer × Nat) (m : Member) : List Peer × Nat :=
  let eps := Chain.addAll env ⟨s.1, false, s.2⟩ (peersOf env di m)
  (eps.list, eps.asked)

/-- behind a link -/
def gathered (env : Env) (di : Uuid) (asked : Nat) (link : List Member) : List Peer × Nat :=
  link.foldl (gather env di) ([], asked)

/-- A link with all it needs, behind links that have left `mask`.  Its mask is in force, its `bm` comes
first in the policy, and its `eps`, with the uuid of its anchor, are the endpoints that are gathered. -/
structure Complete (env : Env) (di : Uuid) (mask asked : Nat) (link : List Member) : Prop where
  anchor : last anchorOf link ≠ none
  href : last hrefOf link ≠ none
  types : last typesOf link ≠ none
  mask : (last (maskTaken env) link).getD mask = (last (maskOf env) link).getD 0
  bm : (last bmTaken link).getD 0 = (last bmOf link).getD 0
  eps : ∀ anchor, last anchorOf link = some anchor →
    (gathered env di asked link).1 = (last (epsOf env (uuidOf env anchor)) link).getD []

/-- the link is readable, and no endpoint is gathered and no call is due, or it has all it needs -/
def LinkMeets (env : Env) (di : Uuid) (mask asked : Nat) (link : List Member) : Prop :=
  (∀ m ∈ link, Readable env m) ∧
    ((gathered env di asked link).1 = [] ∧ ownCall env link = none ∨
      (gathered env di asked link).1 ≠ [] ∧ Complete env di mask asked link)

/-- so are the links that come before the handler stops -/
def LinksMeet (env : Env) (handler : Handler) (di : Uuid) : Nat → Nat → List Member → List Found → Prop
  | _, _, [], _ => True
  | mask, asked, links :: rest, calls =>
    let link := members links.target
    let mask' := (last (maskTaken env) link).getD mask
    let asked' := (gathered env di asked link).2
    links.stray env = false ∧ LinkMeets env di mask asked link ∧
      match ownCall env link with
      | none => LinksMeet env handler di mask' asked' rest calls
      | some call =>
        handler calls call = true ∨ LinksMeet env handler di mask' asked' rest (calls ++ [call])

/-- so do all of them, and there is a first one, with an anchor that has a uuid in it -/
def AllMeet (env : Env) (handler : Handler) (links : List Member) : Prop :=
  ∃ first anchor, links.head? = some first ∧ first.stray env = false ∧
    firstAnchor (members first.target) = some anchor ∧ readableUuid anchor = true ∧
    LinksMeet env handler (uuidOf env anchor) 0 0 links []

/-- the links of a tree do, and they are found -/
def TreeMeets (env : Env) (handler : Handler) (p : OcRep) : Prop :=
  (∀ rep, (members p).head? = some rep → rep.stray env = false) ∧ AllMeet env handler (treeLinks p)

/-- the payload is parsed, and the calls that are made are those that are due -/
def Kept (env : Env) (handler : Handler) (init : CborError) (root : CborValue) (pools : Pools) : Prop :=
  ∃ fuel p r, parse env.dynamic init root pools = .ok p r ∧
    ocRiProcessDiscoveryPayload { env with fuel } handler init root pools =
      .ok (due { env with fuel } handler (treeLinks p) [])

/-- the payload is parsed, and its links meet the condition -/
def Meets (env : Env) (handler : Handler) (init : CborError) (root : CborValue) (pools : Pools) : Prop :=
  ∃ fuel p r, parse env.dynamic init root pools = .ok p r ∧ TreeMeets { env with fuel } handler p

/-! ## reading a link -/

variable {env : Env} {di : Uuid}

theorem foldl_addAll {α : Type} (f : α → List Peer) (l : List α) (eps : Chain) :
    l.foldl (fun eps a => eps.addAll env (f a)) eps = eps.addAll env (l.flatMap f) := by
  induction l generalizing eps with
  | nil => rfl
  | cons a l ih => rw [List.foldl_cons, ih, List.flatMap_cons, Chain.addAll, Chain.addAll, Chain.addAll,
      List.foldl_append]

/-- the endpoint of a member, if it is one -/
def epEndpoint (env : Env) (di : Uuid) (ep : Member) : Option Peer :=
  (epText ep).bind fun s => (valid env s).map (completed env di)

/-- the endpoints of an object -/
def objectEndpoints (env : Env) (di : Uuid) (e : Member) : List Peer :=
  (epTexts e).filterMap fun s => (valid env s).map (completed env di)

theorem flatMap_epEndpoint (e : Member) :
    (members e.target).flatMap (fun ep => (epEndpoint env di ep).toList) = objectEndpoints env di e := by
  rw [objectEndpoints, epTexts, List.filterMap_filterMap, List.filterMap_eq_flatMap_toList]
  rfl

theorem epMember_guards : Guards (epMember env di)
    (fun ep => ∀ s, epText ep = some s → ∃ r, stringToEndpoint env s = .ok r)
    fun eps ep => eps.addAll env (epEndpoint env di ep).toList := by
  intro st ep st'
  beta_reduce
  unfold epMember epEndpoint epText
  by_cases h : ep.isString ∧ ep.named (ascii "ep")
  · rw [if_pos h, if_pos h, Option.bind_some]
    unfold valid
    cases hr : stringToEndpoint env ep.text with
    | error f =>
      refine ⟨fun he => (nomatch he), fun he => ?_⟩
      obtain ⟨r, hc⟩ := he.1 ep.text rfl
      rw [hr] at hc
      cases hc
    | ok r =>
      have hread : ∀ s, some ep.text = some s → ∃ r, stringToEndpoint env s = .ok r :=
        fun s hs => ⟨r, Option.some.inj hs ▸ hr⟩
      rw [and_iff_right hread]
      cases r with
      | none => exact ⟨fun he => (Except.ok.inj he).symm, fun he => congrArg _ he.symm⟩
      | some temp => exact ⟨fun he => (Except.ok.inj he).symm, fun he => congrArg _ he.symm⟩
  · rw [if_neg h, if_neg h, and_iff_right fun s hs => nomatch hs]
    exact ⟨fun he => (Except.ok.inj he).symm, fun he => congrArg _ he.symm⟩

theorem list_iff {m : Member} {l : List Member} :
    m.list env = .ok l ↔ m.stray env = false ∧ l = members m.target := by
  unfold Member.list
  cases m.stray env with
  | true => exact ⟨fun h => (nomatch h), fun h => nomatch h.1⟩
  | false =>
    rw [if_neg Bool.false_ne_true, and_iff_right rfl]
    exact ⟨fun h => (Except.ok.inj h).symm, fun h => congrArg _ h.symm⟩

theorem epObject_guards : Guards (epObject env di)
    (fun e => e.stray env = false ∧ ∀ s ∈ epTexts e, ∃ r, stringToEndpoint env s = .ok r)
    fun eps e => eps.addAll env (objectEndpoints env di e) := by
  intro st e st'
  have hfold := foldlM_iff (@epMember_guards env di) (members e.target) st st'
  rw [foldl_addAll, flatMap_epEndpoint] at hfold
  have htexts : (∀ ep ∈ members e.target, ∀ s, epText ep = some s → ∃ r, stringToEndpoint env s = .ok r) ↔
      ∀ s ∈ epTexts e, ∃ r, stringToEndpoint env s = .ok r := by
    constructor
    · intro h s hs
      obtain ⟨ep, hep, hs⟩ := List.mem_filterMap.mp hs
      exact h ep hep s hs
    · exact fun h ep hep s hs => h s (List.mem_filterMap.mpr ⟨ep, hep, hs⟩)
  rw [htexts] at hfold
  unfold epObject
  cases hl : e.list env with
  | error f =>
    refine ⟨fun he => (nomatch he), fun ⟨⟨hs, _⟩, _⟩ => ?_⟩
    rw [list_iff.mpr ⟨hs, rfl⟩] at hl
    cases hl
  | ok l =>
    obtain ⟨hs, rfl⟩ := list_iff.mp hl
    refine hfold.trans ?_
    beta_reduce
    rw [and_iff_right hs]

/-- an array of objects -/
theorem objects_iff (m : Member) (eps eps' : Chain) :
    (members m.target).foldlM (epObject env di) eps = .ok eps' ↔
      (∀ e ∈ members m.target, e.stray env = false ∧
        ∀ s ∈ epTexts e, ∃ r, stringToEndpoint env s = .ok r) ∧
      eps' = eps.addAll env (endpointsOf env di m) := by
  have hfold := foldlM_iff (@epObject_guards env di) (members m.target) eps eps'
  rwa [foldl_addAll] at hfold

/-- the variables after a member -/
def Locals.take (env : Env) (di : Uuid) (l : Locals) (m : Member) : Locals where
  uri := (hrefOf m).or l.uri
  anchor := (anchorOf m).or l.anchor
  types := (typesOf m).or l.types
  ifaceMask := (maskTaken env m).getD l.ifaceMask
  bm := (bmTaken m).getD l.bm
  eps := (gather env di (l.eps, l.asked) m).1
  asked := (gather env di (l.eps, l.asked) m).2

theorem gather_other {m : Member} (h : m.isObjects = false) (s : List Peer × Nat) :
    gather env di s m = s := by
  unfold gather peersOf
  rw [h]
  rfl

/-- a member has one name -/
theorem named_eq {m : Member} {a b : Bytes} (ha : m.named a = true) (hb : m.named b = true) : a = b := by
  unfold Member.named at ha hb
  rw [Bool.and_eq_true, beq_iff_eq, beq_iff_eq] at ha hb
  rw [← ha.2, ← hb.2, ← ha.1, ← hb.1]

theorem ok_iff {l l' : Locals} {G : Prop} (hG : G) (x : Locals) (hx : x = l) :
    (.ok x : Checked Locals) = .ok l' ↔ G ∧ l' = l := by
  rw [and_iff_right hG, ← hx]
  exact ⟨fun h => (Except.ok.inj h).symm, fun h => congrArg _ h.symm⟩

section
variable {m : Member} (l : Locals)

theorem take_string (ht : m.type = ocRepString) : l.take env di m =
    { l with uri := (hrefOf m).or l.uri, anchor := (anchorOf m).or l.anchor } := by
  simp [Locals.take, typesOf, maskTaken, bmTaken, gather_other, Member.isStrings, Member.isObject,
    Member.isObjects, ht, ocRepString, ocRepObject, ocRepArray]

theorem take_strings (ht : m.type = ocRepString ||| ocRepArray) : l.take env di m =
    { l with types := (typesOf m).or l.types, ifaceMask := (maskTaken env m).getD l.ifaceMask } := by
  simp [Locals.take, hrefOf, anchorOf, bmTaken, gather_other, Member.isString, Member.isObject,
    Member.isObjects, ht, ocRepString, ocRepObject, ocRepArray]

theorem take_objects (ht : m.type = ocRepObject ||| ocRepArray) : l.take env di m =
    { l with
      eps := (Chain.addAll env ⟨l.eps, false, l.asked⟩ (endpointsOf env di m)).list
      asked := (Chain.addAll env ⟨l.eps, false, l.asked⟩ (endpointsOf env di m)).asked } := by
  simp [Locals.take, hrefOf, anchorOf, typesOf, maskTaken, bmTaken, gather, peersOf, Member.isString,
    Member.isStrings, Member.isObject, Member.isObjects, ht, ocRepString, ocRepObject, ocRepArray]

theorem take_object (ht : m.type = ocRepObject) : l.take env di m =
    { l with bm := (bmTaken m).getD l.bm } := by
  simp [Locals.take, hrefOf, anchorOf, typesOf, maskTaken, gather_other, Member.isString, Member.isStrings,
    Member.isObjects, ht, ocRepString, ocRepObject, ocRepArray]

theorem take_other (h1 : ¬ m.isString = true) (h2 : ¬ m.isStrings = true) (h3 : ¬ m.isObjects = true)
    (h4 : ¬ m.isObject = true) : l.take env di m = l := by
  simp [Locals.take, hrefOf, anchorOf, typesOf, maskTaken, bmTaken, gather_other, h1, h2, h3, h4]

end

theorem readable_of {m : Member} (h : ¬ m.isObjects = true) : Readable env m := fun hc => absurd hc h

theorem memberStep_guards : Guards (memberStep env di) (Readable env) (Locals.take env di) := by
  intro l m l'
  unfold memberStep
  by_cases h1 : m.isString = true
  · have ht := beq_iff_eq.mp h1
    have hread : Readable env m := readable_of (by rw [Member.isObjects, ht]; decide)
    rw [if_pos h1, take_string l ht]
    cases ha : m.named (ascii "anchor") with
    | true =>
      have hh : m.named (ascii "href") = false :=
        Bool.eq_false_iff.mpr fun hh => absurd (named_eq ha hh) (by decide)
      exact ok_iff hread _ (by simp [hrefOf, anchorOf, h1, ha, hh])
    | false =>
      cases hh : m.named (ascii "href") with
      | true => exact ok_iff hread _ (by simp [hrefOf, anchorOf, h1, ha, hh])
      | false => exact ok_iff hread _ (by simp [hrefOf, anchorOf, ha, hh])
  by_cases h2 : m.isStrings = true
  · have ht := beq_iff_eq.mp h2
    have hread : Readable env m := readable_of (by rw [Member.isObjects, ht]; decide)
    rw [if_neg h1, if_pos h2, take_strings l ht]
    cases hr : m.named (ascii "rt") with
    | true => exact ok_iff hread _ (by simp [typesOf, maskTaken, h2, hr])
    | false => exact ok_iff hread _ (by simp [typesOf, maskTaken, h2, hr])
  by_cases h3 : m.isObjects = true
  · rw [if_neg h1, if_neg h2, if_pos h3, take_objects l (beq_iff_eq.mp h3)]
    have hiff := @objects_iff env di m ⟨l.eps, false, l.asked⟩
    cases hf : (members m.target).foldlM (epObject env di) ⟨l.eps, false, l.asked⟩ with
    | error f =>
      refine ⟨fun he => (nomatch he), fun ⟨hread, _⟩ => ?_⟩
      rw [(hiff _).mpr ⟨hread h3, rfl⟩] at hf
      cases hf
    | ok st =>
      obtain ⟨hread, rfl⟩ := (hiff st).mp hf
      exact ok_iff (fun _ => hread) _ rfl
  by_cases h4 : m.isObject = true
  · have ht := beq_iff_eq.mp h4
    have hread : Readable env m := readable_of h3
    rw [if_neg h1, if_neg h2, if_neg h3, if_pos h4, take_object l ht]
    cases hp : m.named (ascii "p") with
    | true => exact ok_iff hread _ (by simp [bmTaken, h4, hp])
    | false => exact ok_iff hread _ (by simp [bmTaken, hp])
  · rw [if_neg h1, if_neg h2, if_neg h3, if_neg h4, take_other l h1 h2 h3 h4]
    exact ok_iff (readable_of h3) _ rfl

/-- the variables after a link: of several members for one thing the last one counts -/
def Locals.after (env : Env) (di : Uuid) (l : Locals) (link : List Member) : Locals where
  uri := (last hrefOf link).or l.uri
  anchor := (last anchorOf link).or l.anchor
  types := (last typesOf link).or l.types
  ifaceMask := (last (maskTaken env) link).getD l.ifaceMask
  bm := (last bmTaken link).getD l.bm
  eps := (link.foldl (gather env di) (l.eps, l.asked)).1
  asked := (link.foldl (gather env di) (l.eps, l.asked)).2

theorem foldl_take (link : List Member) (l : Locals) :
    link.foldl (Locals.take env di) l = l.after env di link := by
  induction link generalizing l with
  | nil => rfl
  | cons m link ih =>
    rw [List.foldl_cons, ih]
    unfold Locals.after Locals.take
    simp only [last_cons, Option.or_assoc, or_getD, List.foldl_cons]

/-- what the loop collects from a link -/
theorem link_read (link : List Member) (l l' : Locals) :
    link.foldlM (memberStep env di) l = .ok l' ↔
      (∀ m ∈ link, Readable env m) ∧ l' = l.after env di link := by
  rw [foldlM_iff memberStep_guards, foldl_take]

/-! ## the call for a link -/

section
variable {link : List Member} {l : Locals} {anchor uri : Bytes} {types : RepValue}

/-- a call that is due has what the link needs -/
theorem complete_of_own (h : ownCall env link = some ⟨anchor, uri, types,
      (last (maskTaken env) link).getD l.ifaceMask, (gathered env di l.asked link).1,
      (last bmTaken link).getD 0⟩) : Complete env di l.ifaceMask l.asked link := by
  unfold ownCall at h
  cases hA : last anchorOf link with
  | none => rw [hA] at h; cases h
  | some anchor' =>
    cases hU : last hrefOf link with
    | none => rw [hA, hU] at h; cases h
    | some uri' =>
      cases hT : last typesOf link with
      | none => rw [hA, hU, hT] at h; cases h
      | some types' =>
        rw [hA, hU, hT] at h
        simp only [Option.bind_eq_bind, Option.bind_some] at h
        split at h
        next => cases h
        next =>
          injection h with h
          injection h with h₁ h₂ h₃ h₄ h₅ h₆
          refine ⟨Option.ne_none_iff_exists'.mpr ⟨_, hA⟩, Option.ne_none_iff_exists'.mpr ⟨_, hU⟩,
            Option.ne_none_iff_exists'.mpr ⟨_, hT⟩, h₄.symm, h₆.symm, fun a hAa => ?_⟩
          rw [hA] at hAa
          rw [← Option.some.inj hAa]
          exact h₅.symm

/-- with its own values, the link overrides what the variables held -/
theorem Complete.own (h : Complete env di l.ifaceMask l.asked link)
    (ha : (last anchorOf link).or l.anchor = some anchor) (hu : (last hrefOf link).or l.uri = some uri)
    (ht : (last typesOf link).or l.types = some types) (hne : (gathered env di l.asked link).1 ≠ []) :
    ownCall env link = some ⟨anchor, uri, types, (last (maskTaken env) link).getD l.ifaceMask,
      (gathered env di l.asked link).1, (last bmTaken link).getD 0⟩ := by
  obtain ⟨anchor', hA⟩ := Option.ne_none_iff_exists'.mp h.anchor
  obtain ⟨uri', hU⟩ := Option.ne_none_iff_exists'.mp h.href
  obtain ⟨types', hT⟩ := Option.ne_none_iff_exists'.mp h.types
  have heps := h.eps anchor' hA
  rw [hA, Option.some_or] at ha
  rw [hU, Option.some_or] at hu
  rw [hT, Option.some_or] at ht
  rw [Option.some.inj ha] at hA heps
  rw [Option.some.inj hu] at hU
  rw [Option.some.inj ht] at hT
  rw [h.mask, h.bm, heps]
  rw [heps] at hne
  unfold ownCall
  rw [hA, hU, hT]
  simp only [Option.bind_eq_bind, Option.bind_some]
  rw [if_neg (by rwa [List.isEmpty_iff])]

end

/-! ## links when there is memory for every endpoint -/

/-- no array of objects has a valid endpoint -/
def NoEndpoints (env : Env) (di : Uuid) (link : List Member) : Prop := ∀ m ∈ link, peersOf env di m = []

/-- an array with a valid endpoint -/
def epsTaken (env : Env) (di : Uuid) (m : Member) : Option (List Peer) :=
  if peersOf env di m = [] then none else some (peersOf env di m)

theorem addAll_list (hmem : ∀ n, env.memory n = true) (new : List Peer) (eps : Chain) :
    (eps.addAll env new).list =
      if new = [] then eps.list else (if eps.cur then eps.list else []) ++ new := by
  induction new generalizing eps with
  | nil => rfl
  | cons ep new ih =>
    rw [if_neg (List.cons_ne_nil ep new)]
    show ((eps.add env ep).addAll env new).list = _
    rw [ih, Chain.add, hmem, if_pos rfl]
    by_cases hnil : new = []
    · rw [if_pos hnil, hnil]
    · rw [if_neg hnil, if_pos rfl, List.append_assoc, List.singleton_append]

theorem gather_list (hmem : ∀ n, env.memory n = true) (s : List Peer × Nat) (m : Member) :
    (gather env di s m).1 = (epsTaken env di m).getD s.1 := by
  show (Chain.addAll env ⟨s.1, false, s.2⟩ (peersOf env di m)).list = _
  unfold epsTaken
  rw [addAll_list hmem, if_neg Bool.false_ne_true, List.nil_append]
  by_cases hnil : peersOf env di m = []
  · rw [if_pos hnil, if_pos hnil, Option.getD_none]
  · rw [if_neg hnil, if_neg hnil, Option.getD_some]

/-- the last array with a valid endpoint is the one that counts -/
theorem gathered_eq (hmem : ∀ n, env.memory n = true) (asked : Nat) (link : List Member) :
    (gathered env di asked link).1 = (last (epsTaken env di) link).getD [] := by
  have hfold : ∀ s : List Peer × Nat, (link.foldl (gather env di) s).1 =
      link.foldl (fun l m => (epsTaken env di m).getD l) s.1 := by
    induction link with
    | nil => exact fun _ => rfl
    | cons m link ih =>
      intro s
      rw [List.foldl_cons, List.foldl_cons, ih, gather_list hmem]
  unfold gathered
  rw [hfold, foldl_last]

theorem gathered_eq_nil (hmem : ∀ n, env.memory n = true) (asked : Nat) (link : List Member) :
    (gathered env di asked link).1 = [] ↔ NoEndpoints env di link := by
  have hnone : last (epsTaken env di) link = none ↔ NoEndpoints env di link := by
    rw [last_eq_none]
    refine forall₂_congr fun m _ => ?_
    unfold epsTaken
    by_cases hnil : peersOf env di m = []
    · rw [if_pos hnil]
      exact ⟨fun _ => hnil, fun _ => rfl⟩
    · rw [if_neg hnil]
      exact ⟨nofun, fun h => absurd h hnil⟩
  rw [gathered_eq hmem, ← hnone]
  cases hl : last (epsTaken env di) link with
  | none => exact ⟨fun _ => rfl, fun _ => rfl⟩
  | some eps =>
    obtain ⟨m, _, hm⟩ := exists_of_last hl
    unfold epsTaken at hm
    split at hm
    next => cases hm
    next hne => exact ⟨fun h => absurd ((Option.some.inj hm).trans h) hne, nofun⟩

theorem endpointsOf_eq_nil {m : Member} : endpointsOf env di m = [] ↔
    ∀ e ∈ members m.target, ∀ s ∈ epTexts e, valid env s = none := by
  unfold endpointsOf
  simp only [List.flatMap_eq_nil_iff, List.filterMap_eq_nil_iff, Option.map_eq_none_iff]

/-- whether there are endpoints does not depend on the uuid -/
theorem NoEndpoints.eps {link : List Member} (h : NoEndpoints env di link) (di' : Uuid) :
    (last (epsOf env di') link).getD [] = [] := by
  cases hl : last (epsOf env di') link with
  | none => rfl
  | some eps =>
    obtain ⟨m, hm, hf⟩ := exists_of_last hl
    have hnil := h m hm
    unfold peersOf at hnil
    unfold epsOf at hf
    split at hf
    next hc =>
      rw [if_pos hc.1, endpointsOf_eq_nil] at hnil
      exact (Option.some.inj hf).symm.trans (endpointsOf_eq_nil.mpr hnil)
    next => cases hf

theorem NoEndpoints.own {link : List Member} (h : NoEndpoints env di link) : ownCall env link = none := by
  unfold ownCall
  simp only [h.eps]
  cases last anchorOf link with
  | none => rfl
  | some anchor =>
    cases last hrefOf link with
    | none => rfl
    | some uri => cases last typesOf link <;> rfl

/-- such a link has no valid endpoint, or all it needs -/
theorem linkMeets_iff (hmem : ∀ n, env.memory n = true) (mask asked : Nat) (link : List Member) :
    LinkMeets env di mask asked link ↔
      (∀ m ∈ link, Readable env m) ∧ (NoEndpoints env di link ∨ Complete env di mask asked link) := by
  unfold LinkMeets
  rw [gathered_eq_nil hmem, ne_eq, gathered_eq_nil hmem]
  refine and_congr_right fun _ => ?_
  by_cases hno : NoEndpoints env di link
  · rw [and_iff_right hno, or_iff_left fun h => h.1 hno]
    exact ⟨fun _ => .inl hno, fun _ => hno.own⟩
  · rw [or_iff_right fun h => hno h.1, and_iff_right hno, or_iff_right hno]

/-! ## the loop over the links -/

section
variable {handler : Handler} {m : Member} {rest : List Member} {l : Locals} {calls : List Found}

/-- the variables when a link has been read -/
abbrev readLink (env : Env) (di : Uuid) (l : Locals) (m : Member) : Locals :=
  { l with bm := 0, eps := [] }.after env di (members m.target)

/-- where a link cannot be read, the loop has no result -/
theorem loop_unread (h : ¬ (m.stray env = false ∧ ∀ x ∈ members m.target, Readable env x))
    (r : Bool × List (Option Found)) : linkLoop env handler di (m :: rest) l calls ≠ .ok r := by
  rw [linkLoop]
  cases hl : m.list env with
  | error f => exact nofun
  | ok link =>
    obtain ⟨hs, rfl⟩ := list_iff.mp hl
    show (List.foldlM (memberStep env di) { l with bm := 0, eps := [] } (members m.target) >>= _) ≠ _
    cases hf : List.foldlM (memberStep env di) { l with bm := 0, eps := [] } (members m.target) with
    | error f => exact nofun
    | ok l' => exact absurd ⟨hs, ((link_read _ _ _).mp hf).1⟩ h

variable (hs : m.stray env = false) (hr : ∀ x ∈ members m.target, Readable env x)
include hs hr

/-- no call is made for a link without endpoints -/
theorem loop_none (he : (readLink env di l m).eps = []) :
    linkLoop env handler di (m :: rest) l calls =
      (linkLoop env handler di rest (readLink env di l m) calls >>= fun r => .ok (r.1, none :: r.2)) := by
  rw [linkLoop, list_iff.mpr ⟨hs, rfl⟩]
  show (List.foldlM (memberStep env di) { l with bm := 0, eps := [] } (members m.target) >>= _) = _
  rw [(link_read _ _ _).mpr ⟨hr, rfl⟩]
  show (if (readLink env di l m).eps.isEmpty = true then _ else _) = _
  rw [if_pos (List.isEmpty_iff.mpr he)]
  rfl

/-- the call that is made, with what the variables hold -/
theorem loop_call {anchor uri : Bytes} {types : RepValue} (he : (readLink env di l m).eps ≠ [])
    (ha : (readLink env di l m).anchor = some anchor) (hu : (readLink env di l m).uri = some uri)
    (ht : (readLink env di l m).types = some types) {call : Found}
    (hc : call = ⟨anchor, uri, types, (readLink env di l m).ifaceMask, (readLink env di l m).eps,
      (readLink env di l m).bm⟩) :
    linkLoop env handler di (m :: rest) l calls =
      if handler calls call then .ok (true, [some call])
      else linkLoop env handler di rest (readLink env di l m) (calls ++ [call]) >>= fun r =>
        .ok (r.1, some call :: r.2) := by
  rw [linkLoop, list_iff.mpr ⟨hs, rfl⟩]
  show (List.foldlM (memberStep env di) { l with bm := 0, eps := [] } (members m.target) >>= _) = _
  rw [(link_read _ _ _).mpr ⟨hr, rfl⟩]
  show (if (readLink env di l m).eps.isEmpty = true then _ else _) = _
  rw [if_neg (fun h => he (List.isEmpty_iff.mp h)), ha, hu, ht, hc]
  rfl

/-- a null pointer ends the loop -/
theorem loop_null (he : (readLink env di l m).eps ≠ [])
    (h : (readLink env di l m).anchor = none ∨ (readLink env di l m).uri = none ∨
      (readLink env di l m).types = none) (r : Bool × List (Option Found)) :
    linkLoop env handler di (m :: rest) l calls ≠ .ok r := by
  rw [linkLoop, list_iff.mpr ⟨hs, rfl⟩]
  show (List.foldlM (memberStep env di) { l with bm := 0, eps := [] } (members m.target) >>= _) ≠ _
  rw [(link_read _ _ _).mpr ⟨hr, rfl⟩]
  show (if (readLink env di l m).eps.isEmpty = true then _ else _) ≠ _
  rw [if_neg (fun h => he (List.isEmpty_iff.mp h))]
  cases hA : (readLink env di l m).anchor with
  | none => exact nofun
  | some anchor =>
    cases hU : (readLink env di l m).uri with
    | none => exact nofun
    | some uri =>
      cases hT : (readLink env di l m).types with
      | none => exact nofun
      | some types =>
        rw [hA, hU, hT] at h
        rcases h with h | h | h
        all_goals cases h

end

section
variable {handler : Handler}

/-- the loop goes on with the entry of a link in front -/
theorem entry_iff (x : Checked (Bool × List (Option Found))) (e : Option Found)
    (r : Bool × List (Option Found)) :
    (x >>= fun r => .ok (r.1, e :: r.2)) = .ok (r.1, e :: r.2) ↔ x = .ok r := by
  cases x with
  | error f => exact ⟨nofun, nofun⟩
  | ok y =>
    constructor
    · intro h
      injection h with h
      injection h with h₁ h₂
      injection h₂ with _ h₂
      exact congrArg _ (Prod.ext h₁ h₂)
    · intro h
      rw [Except.ok.inj h]
      rfl

/-- an entry comes first in every trace that goes on with it -/
theorem head_of_bind {x : Checked (Bool × List (Option Found))} {e : Option Found}
    {r : Bool × List (Option Found)} (h : (x >>= fun r => .ok (r.1, e :: r.2)) = .ok r) :
    r.2.head? = some e := by
  cases x with
  | error f => cases h
  | ok y => rw [← Except.ok.inj h, List.head?_cons]

theorem due_none {m : Member} (h : ownCall env (members m.target) = none) (rest : List Member)
    (calls : List Found) : due env handler (m :: rest) calls =
      ((due env handler rest calls).1, none :: (due env handler rest calls).2) := by
  rw [due, h]

theorem due_some {m : Member} {call : Found} (h : ownCall env (members m.target) = some call)
    (rest : List Member) (calls : List Found) : due env handler (m :: rest) calls =
      if handler calls call then (true, [some call])
      else ((due env handler rest (calls ++ [call])).1,
        some call :: (due env handler rest (calls ++ [call])).2) := by
  rw [due, h]

theorem due_head (m : Member) (rest : List Member) (calls : List Found) :
    (due env handler (m :: rest) calls).2.head? = some (ownCall env (members m.target)) := by
  cases h : ownCall env (members m.target) with
  | none => rw [due_none h, List.head?_cons]
  | some call =>
    rw [due_some h]
    by_cases hstop : handler calls call = true
    · rw [if_pos hstop, List.head?_cons]
    · rw [if_neg hstop, List.head?_cons]

section
variable {m : Member} {rest : List Member} {l : Locals} (hs : m.stray env = false)
  (hr : ∀ x ∈ members m.target, Readable env x)
include hs hr

/-- a link that leaves no endpoint, in front of links that meet the condition or not -/
theorem loop_none_iff (hnil : (readLink env di l m).eps = [])
    (hrest : ∀ calls, linkLoop env handler di rest (readLink env di l m) calls =
      .ok (due env handler rest calls) ↔
        LinksMeet env handler di (readLink env di l m).ifaceMask (readLink env di l m).asked rest calls)
    (calls : List Found) :
    linkLoop env handler di (m :: rest) l calls = .ok (due env handler (m :: rest) calls) ↔
      LinksMeet env handler di l.ifaceMask l.asked (m :: rest) calls := by
  rw [LinksMeet, LinkMeets, and_iff_right hs, and_iff_right hr, loop_none hs hr hnil]
  cases hown : ownCall env (members m.target) with
  | none =>
    rw [due_none hown, entry_iff, and_iff_right (.inl ⟨hnil, rfl⟩)]
    exact hrest calls
  | some call =>
    refine ⟨fun h => ?_, fun h => ?_⟩
    · have hfirst := head_of_bind h
      rw [due_head, hown] at hfirst
      cases hfirst
    · rcases h.1 with hc | hc
      · exact nomatch hc.2
      · exact absurd hnil hc.1

/-- a link that leaves some -/
theorem loop_call_iff (hne : (readLink env di l m).eps ≠ []) (hanchor : (readLink env di l m).anchor ≠ none)
    (hrest : ∀ calls, linkLoop env handler di rest (readLink env di l m) calls =
      .ok (due env handler rest calls) ↔
        LinksMeet env handler di (readLink env di l m).ifaceMask (readLink env di l m).asked rest calls)
    (calls : List Found) :
    linkLoop env handler di (m :: rest) l calls = .ok (due env handler (m :: rest) calls) ↔
      LinksMeet env handler di l.ifaceMask l.asked (m :: rest) calls := by
  rw [LinksMeet, LinkMeets, and_iff_right hs, and_iff_right hr, or_iff_right (fun h => hne h.1),
    and_iff_right (show (gathered env di _ _).1 ≠ [] from hne)]
  obtain ⟨anchor, hanchor⟩ := Option.ne_none_iff_exists'.mp hanchor
  cases hu : (readLink env di l m).uri with
  | none =>
    refine ⟨fun h => absurd h (loop_null hs hr hne (.inr (.inl hu)) _), fun h => ?_⟩
    exact absurd (Option.or_eq_none_iff.mp hu).1 h.1.href
  | some uri =>
  cases ht : (readLink env di l m).types with
  | none =>
    refine ⟨fun h => absurd h (loop_null hs hr hne (.inr (.inr ht)) _), fun h => ?_⟩
    exact absurd (Option.or_eq_none_iff.mp ht).1 h.1.types
  | some types =>
  obtain ⟨call, hc⟩ : ∃ call : Found, call = ⟨anchor, uri, types, (readLink env di l m).ifaceMask,
    (readLink env di l m).eps, (readLink env di l m).bm⟩ := ⟨_, rfl⟩
  have hown : ownCall env (members m.target) = some call ↔
      Complete env di l.ifaceMask l.asked (members m.target) := by
    rw [hc]
    exact ⟨complete_of_own, fun h => h.own hanchor hu ht hne⟩
  rw [loop_call hs hr hne hanchor hu ht hc, ← hown]
  by_cases hcall : ownCall env (members m.target) = some call
  · rw [and_iff_right hcall, due_some hcall, hcall]
    by_cases hstop : handler calls call = true
    · rw [if_pos hstop, if_pos hstop]
      exact ⟨fun _ => .inl hstop, fun _ => rfl⟩
    · rw [if_neg hstop, if_neg hstop, entry_iff]
      exact (hrest (calls ++ [call])).trans (or_iff_right hstop).symm
  · refine ⟨fun h => absurd ?_ hcall, fun h => absurd h.1 hcall⟩
    -- the first entry of the trace is the call that is made
    have hfirst : (due env handler (m :: rest) calls).2.head? = some (some call) := by
      split at h
      next => rw [← Except.ok.inj h, List.head?_cons]
      next => exact head_of_bind h
    rw [due_head] at hfirst
    exact Option.some.inj hfirst

end

theorem linkLoop_iff (links : List Member) (l : Locals) (calls : List Found) (ha : l.anchor ≠ none) :
    linkLoop env handler di links l calls = .ok (due env handler links calls) ↔
      LinksMeet env handler di l.ifaceMask l.asked links calls := by
  induction links generalizing l calls with
  | nil => exact ⟨fun _ => trivial, fun _ => rfl⟩
  | cons m rest ih =>
    by_cases hread : m.stray env = false ∧ ∀ x ∈ members m.target, Readable env x
    · obtain ⟨hs, hr⟩ := hread
      -- the anchor of the first link stays until there is another one
      have hanchor : (readLink env di l m).anchor ≠ none := by
        obtain ⟨a, ha⟩ := Option.ne_none_iff_exists'.mp ha
        show (last anchorOf (members m.target)).or l.anchor ≠ none
        rw [ha, Option.or_some]
        exact Option.some_ne_none _
      have hrest (calls : List Found) := ih (readLink env di l m) calls hanchor
      by_cases hnil : (readLink env di l m).eps = []
      · exact loop_none_iff hs hr hnil hrest calls
      · exact loop_call_iff hs hr hnil hanchor hrest calls
    · rw [LinksMeet, LinkMeets]
      exact ⟨fun h => absurd h (loop_unread hread _), fun h => absurd ⟨h.1, h.2.1.1⟩ hread⟩

theorem links_iff (links : List Member) :
    processLinks env handler links = .ok (due env handler links []) ↔ AllMeet env handler links := by
  unfold AllMeet
  cases links with
  | nil => exact ⟨nofun, fun ⟨_, _, h, _⟩ => nomatch h⟩
  | cons first rest =>
    rw [List.head?_cons, processLinks]
    cases hl : first.list env with
    | error f =>
      refine ⟨nofun, fun ⟨_, _, hfirst, hs, _⟩ => ?_⟩
      rw [← Option.some.inj hfirst] at hs
      rw [list_iff.mpr ⟨hs, rfl⟩] at hl
      cases hl
    | ok link =>
      obtain ⟨hs, rfl⟩ := list_iff.mp hl
      show (deref (firstAnchor (members first.target)) >>= _) = _ ↔ _
      cases hA : firstAnchor (members first.target) with
      | none =>
        refine ⟨nofun, fun ⟨_, _, hfirst, _, ha, _⟩ => ?_⟩
        rw [← Option.some.inj hfirst, hA] at ha
        cases ha
      | some anchor =>
        show (if readableUuid anchor = true then _ else _) = _ ↔ _
        by_cases hu : readableUuid anchor = true
        · rw [if_pos hu, linkLoop_iff _ _ _ (Option.some_ne_none anchor)]
          constructor
          · exact fun h => ⟨first, anchor, rfl, hs, hA, hu, h⟩
          · rintro ⟨_, anchor', hfirst, _, ha, _, h⟩
            rw [← Option.some.inj hfirst, hA] at ha
            rwa [Option.some.inj ha]
        · rw [if_neg hu]
          refine ⟨nofun, fun ⟨_, anchor', hfirst, _, ha, hu', _⟩ => ?_⟩
          rw [← Option.some.inj hfirst, hA] at ha
          rw [Option.some.inj ha] at hu
          exact absurd hu' hu

theorem tree_iff (p : OcRep) :
    processTree env handler p = .ok (due env handler (treeLinks p) []) ↔ TreeMeets env handler p := by
  unfold processTree TreeMeets treeLinks
  cases members p with
  | nil => exact (links_iff _).trans (and_iff_right fun _ h => nomatch h).symm
  | cons rep reps =>
    rw [List.head?_cons]
    show (rep.list env >>= fun object =>
      processLinks env handler (members (linksOf p (propertiesOf p object)))) = _ ↔ _
    cases hl : rep.list env with
    | error f =>
      refine ⟨nofun, fun ⟨hs, _⟩ => ?_⟩
      rw [list_iff.mpr ⟨hs rep rfl, rfl⟩] at hl
      cases hl
    | ok object =>
      obtain ⟨hs, rfl⟩ := list_iff.mp hl
      show processLinks env handler (members (linksOf p (propertiesOf p (members rep.target)))) = _ ↔ _
      refine (links_iff _).trans (and_iff_right fun rep' h => ?_).symm
      rwa [← Option.some.inj h]

end

/-- behind `oc_parse_rep` -/
theorem payload_iff (env : Env) {handler : Handler} {init : CborError} {root : CborValue} {pools : Pools}
    {p : OcRep} {r : Run} (hp : parse env.dynamic init root pools = .ok p r) :
    ocRiProcessDiscoveryPayload env handler init root pools = .ok (due env handler (treeLinks p) []) ↔
      TreeMeets env handler p := by
  rw [ocRiProcessDiscoveryPayload, hp]
  exact tree_iff p

/-- An endpoint that can be had, and no `href`. -/
theorem not_meets_of_href {link : List Member} (hmem : ∀ n, env.memory n = true)
    (hhref : last hrefOf link = none) {m : Member} (hm : m ∈ link) (hpeers : peersOf env di m ≠ [])
    (mask asked : Nat) : ¬ LinkMeets env di mask asked link := by
  rw [linkMeets_iff hmem]
  rintro ⟨_, hno | hcomplete⟩
  · exact hpeers (hno m hm)
  · exact hcomplete.href hhref

def textOf (s : String) : CborItem × CborValue := (textItem (ascii s), .atEnd)

/-- `[]` -/
def noLinks : CborValue := view [(.array (some 0), .atEnd)]

/-- `[{"anchor": …, "href": "/a", "rt": ["x"]}, {"eps": [{"ep": "coap://1.2.3.4:5683"}]}]` -/
def bareLink : CborValue :=
  view [(.array (some 2), view [
    (.map, view [textOf "anchor", textOf "ocf://12345678-1234-1234-1234-123456789abc",
      textOf "href", textOf "/a", textOf "rt", (.array (some 1), view [textOf "x"])]),
    (.map, view [textOf "eps", (.array (some 1), view [
      (.map, view [textOf "ep", textOf "coap://1.2.3.4:5683"])])])])]

def plainEnv : Env where
  build := ⟨false, true, none, false⟩
  dynamic := true
  fuel := 0
  source := ⟨EndpointString.blankEndpoint, Uuid.nil, 0, 0, 0⟩
  di := Uuid.nil
  stray := fun _ => true
  memory := fun _ => true

/-- the uris of the calls -/
def urisOf : Checked (Bool × List (Option Found)) → List (Option Bytes)
  | .ok r => r.2.map (Option.map Found.uri)
  | .error _ => []

/-- there are two links, and the second one has the endpoint and no `href` -/
def secondBare (p : OcRep) : Bool :=
  match treeLinks p with
  | [_, second] =>
    (last hrefOf (members second.target)).isNone &&
      (members second.target).any fun m => m.isObjects &&
        (members m.target).any fun e => epTexts e == [ascii "coap://1.2.3.4:5683"]
  | _ => false

/-- so it is in a tree that has been parsed -/
def parsedBare : EStateM.Result Payload.Fault Run OcRep → Bool
  | .ok p _ => secondBare p
  | .error _ _ => false

theorem secondBare_of_parse {p : OcRep} {r : Run} (hp : parse true 0 bareLink dynamicPools = .ok p r) :
    secondBare p = true := by
  have h : parsedBare (parse true 0 bareLink dynamicPools) = true := by decide +kernel
  rw [hp] at h
  exact h

theorem valid_address (fuel : Nat) :
    valid { plainEnv with fuel } (ascii "coap://1.2.3.4:5683") ≠ none := nofun

end Discovery
