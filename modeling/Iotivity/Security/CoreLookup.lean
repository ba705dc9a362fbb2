import Iotivity.Security.Mediation

/-!
# Core resources by URI: `oc_core_get_resource_by_uri`

The core resources of all devices share one array: the platform at its front, behind it twelve for each
device.  Each is populated under one fixed URI, the device resource alone under one that the application
chooses.  The entity handler finds a core resource by comparing URIs; `oc_core_get_resource_by_uri`
dispatches on the length of the text and on literals.  Here `core_resources` is a function of the
position, and both give positions.

* `canonical_run`          in every state that the set-up reaches, a core resource has its own URI or none;
* `findTarget_eq_scan`     the entity handler finds what the scan finds;
* `coreLookup_iff`         when the two agree.  The literal for `pstat` is compared over twelve characters
                           and has thirteen, and texts of five or twelve characters that are not known
                           select the entry in front of the device's.
-/

namespace Security

/-! ## the array -/

/-- the rest of `oc_core_resource_t` -/
def ocfP : Nat := 0
def ocfCon : Nat := 1
def ocfIntrospectionWk : Nat := 2
def ocfIntrospectionData : Nat := 3
def ocfSecPstat : Nat := 6
def ocfSecAcl : Nat := 7
def ocfSecSp : Nat := 9
def ocfSecCsr : Nat := 10
def ocfSecRoles : Nat := 11

def ocObservable : UInt32 := 2

/-- `core_resources`, `device_count`, `announce_con_res` and `oc_platform_info.mfg_name.size` -/
structure CoreState where
  resources : Nat → Resource
  deviceCount : Nat
  announceConRes : Bool
  mfgNameSize : Nat

/-- an entry as `calloc` and `memset` leave it -/
def zeroResource (k : Nat) : Resource where
  device := 0
  core := some k
  uri := []
  types := []
  interfaces := 0
  defaultInterface := 0
  properties := 0
  handler _ := false

/-- the position of `oc_core_get_resource_by_index` -/
def ocCoreGetResourceByIndex (type device : Nat) : Nat :=
  if type = ocfP then 0 else ocfD * device + type

/-- `oc_store_uri` -/
def ocStoreUri (sUri : Bytes) : Bytes := if sUri.head? ≠ some 47 then 47 :: sUri else sUri

/-- `oc_new_string_array` with one `oc_string_array_add_item` for each text: one of
`STRING_ARRAY_ITEM_MAX_LEN` characters is not taken, and an empty one leaves its slot free -/
def ocNewStringArray (items : List Bytes) : List Bytes :=
  let taken := items.filter fun t => t ≠ [] ∧ t.length < 128
  taken ++ List.replicate (items.length - taken.length) []

/-- the methods that have a callback -/
def handlers (get put post delete : Bool) : Method → Bool
  | .get => get
  | .put => put
  | .post => post
  | .delete => delete

/-- `oc_core_populate_resource` -/
def ocCorePopulateResource (st : CoreState) (coreResource deviceIndex : Nat) (uri : Bytes)
    (ifaceMask defaultInterface properties : UInt32) (handler : Method → Bool) (types : List Bytes) :
    CoreState :=
  let k := ocCoreGetResourceByIndex coreResource deviceIndex
  let r : Resource :=
    { device := deviceIndex, core := some k, uri := ocStoreUri uri, types := ocNewStringArray types
      interfaces := ifaceMask, defaultInterface := defaultInterface, properties := properties
      handler := handler }
  { st with resources := Function.update st.resources k r }

/-! ## setting up -/

/-- `oc_core_init` with its `oc_core_shutdown`: the name of an empty manufacturer is not freed -/
def ocCoreInit (st : CoreState) : CoreState :=
  { st with resources := zeroResource, deviceCount := 0,
            mfgNameSize := if st.mfgNameSize - 1 = 0 then st.mfgNameSize else 0 }

/-- `oc_core_init_platform` -/
def ocCoreInitPlatform (st : CoreState) (mfgName : Bytes) : CoreState :=
  if 0 < st.mfgNameSize then st
  else
    let st := ocCorePopulateResource st ocfP 0 (ascii "oic/p") 18 16 ocDiscoverable
      (handlers true false false false) [ascii "oic.wk.p"]
    { st with mfgNameSize := mfgName.length + 1 }

/-- `oc_create_discovery_resource` -/
def ocCreateDiscoveryResource (st : CoreState) (resourceIdx device : Nat) : CoreState :=
  ocCorePopulateResource st resourceIdx device (ascii "oic/res") 6 4 0 (handlers true false false false)
    [ascii "oic.wk.res"]

/-- `oc_create_introspection_resource` -/
def ocCreateIntrospectionResource (st : CoreState) (device : Nat) : CoreState :=
  let st := ocCorePopulateResource st ocfIntrospectionWk device (ascii "oc/wk/introspection") 18 16
    (ocSecure ||| ocDiscoverable) (handlers true false false false) [ascii "oic.wk.introspection"]
  ocCorePopulateResource st ocfIntrospectionData device (ascii "oc/introspection") 2 2 0
    (handlers true false false false) [ascii "oic.introspection.data"]

/-- the `realloc` and `memset` of `oc_core_add_new_device` -/
def growCoreResources (st : CoreState) : CoreState :=
  { st with resources := fun k =>
      if ocfD * st.deviceCount < k ∧ k ≤ ocfD * st.deviceCount + ocfD then zeroResource k
      else st.resources k }

/-- `oc_core_add_new_device` -/
def ocCoreAddNewDevice (st : CoreState) (uri rt : Bytes) : CoreState :=
  let device := st.deviceCount
  let st := growCoreResources st
  let st := ocCorePopulateResource st ocfD device uri 18 16 ocDiscoverable
    (handlers true false false false)
    (if rt = ascii "oic.wk.d" then [rt] else [rt, ascii "oic.wk.d"])
  let st := if st.announceConRes then
      ocCorePopulateResource st ocfCon device (ascii "/oc/con") 10 8 (ocDiscoverable ||| ocObservable)
        (handlers true true true false) [ascii "oic.wk.con"]
    else st
  let st := ocCreateDiscoveryResource st ocfRes device
  let st := ocCreateIntrospectionResource st device
  { st with deviceCount := device + 1 }

/-- the resources that `oc_sec_create_svr` sets up for one device -/
def createSvr (st : CoreState) (i : Nat) : CoreState :=
  let secured := ocDiscoverable ||| ocSecure
  let st := ocCorePopulateResource st ocfSecDoxm i (ascii "/oic/sec/doxm") 2 2 ocDiscoverable
    (handlers true false true false) [ascii "oic.r.doxm"]
  let st := ocCorePopulateResource st ocfSecPstat i (ascii "/oic/sec/pstat") 2 2 ocDiscoverable
    (handlers true false true false) [ascii "oic.r.pstat"]
  let st := ocCorePopulateResource st ocfSecAcl i (ascii "/oic/sec/acl2") 2 2 secured
    (handlers true false true true) [ascii "oic.r.acl2"]
  let st := ocCorePopulateResource st ocfSecCred i (ascii "/oic/sec/cred") 2 2 secured
    (handlers true false true true) [ascii "oic.r.cred"]
  let st := ocCorePopulateResource st ocfSecSp i (ascii "/oic/sec/sp") 2 2 secured
    (handlers true false true false) [ascii "oic.r.sp"]
  let st := ocCorePopulateResource st ocfSecCsr i (ascii "/oic/sec/csr") 2 2 secured
    (handlers true false false false) [ascii "oic.r.csr"]
  ocCorePopulateResource st ocfSecRoles i (ascii "/oic/sec/roles") 2 2 secured
    (handlers true false true true) [ascii "oic.r.roles"]

/-- `oc_sec_create_svr` -/
def ocSecCreateSvr (st : CoreState) : CoreState := (List.range st.deviceCount).foldl createSvr st

/-- what the stack and the application call while they set up -/
inductive SetUp where
  | init
  | initPlatform (mfgName : Bytes)
  | addNewDevice (uri rt : Bytes)
  | createSvr
  | setConResAnnounced (announce : Bool)

def CoreState.step (st : CoreState) : SetUp → CoreState
  | .init => ocCoreInit st
  | .initPlatform mfgName => ocCoreInitPlatform st mfgName
  | .addNewDevice uri rt => ocCoreAddNewDevice st uri rt
  | .createSvr => ocSecCreateSvr st
  | .setConResAnnounced announce => { st with announceConRes := announce }

/-- behind the first `oc_core_init` -/
def CoreState.start : CoreState := ⟨zeroResource, 0, true, 0⟩

def CoreState.run (calls : List SetUp) : CoreState := calls.foldl CoreState.step CoreState.start

/-! ## the two lookups -/

/-- `memcmp(s, lit, n) == 0` -/
def memcmpEq (n : Nat) (s lit : Bytes) : Bool := s.take n = lit.take n

/-- `uri + skip` -/
def skipSlash (uri : Bytes) : Bytes := if uri.head? = some 47 then uri.drop 1 else uri

/-- `oc_core_get_resource_by_uri` -/
def ocCoreGetResourceByUri (st : CoreState) (uri : Bytes) (device : Nat) : Option Nat :=
  let p := skipSlash uri
  let found (type : Nat) : Option Nat := some (ocfD * device + type)
  if p.length = 5 then
    if memcmpEq 5 p (ascii "oic/p") then some 0
    else if memcmpEq 5 p (ascii "oic/d") then found ocfD
    else found 0
  else if p.length = 7 ∧ memcmpEq 7 p (ascii "oic/res") then found ocfRes
  else if st.announceConRes ∧ p.length = 6 ∧ memcmpEq 6 p (ascii "oc/con") then found ocfCon
  else if p.length = 19 ∧ memcmpEq 19 p (ascii "oc/wk/introspection") then found ocfIntrospectionWk
  else if p.length = 16 ∧ memcmpEq 16 p (ascii "oc/introspection") then found ocfIntrospectionData
  else if p.length = 12 then
    if memcmpEq 12 p (ascii "oic/sec/doxm") then found ocfSecDoxm
    else if memcmpEq 12 p (ascii "oic/sec/pstat") then found ocfSecPstat
    else if memcmpEq 12 p (ascii "oic/sec/acl2") then found ocfSecAcl
    else if memcmpEq 12 p (ascii "oic/sec/cred") then found ocfSecCred
    else found 0
  else if p.length = 10 ∧ memcmpEq 10 p (ascii "oic/sec/sp") then found ocfSecSp
  else if p.length = 11 ∧ memcmpEq 11 p (ascii "oic/sec/csr") then found ocfSecCsr
  else if p.length = 13 ∧ memcmpEq 13 p (ascii "oic/sec/roles") then found ocfSecRoles
  else none

/-- the loop of `oc_ri_invoke_coap_entity_handler` over the core resources -/
def coreScan (st : CoreState) (path : Bytes) (device : Nat) : Option Nat :=
  ((List.range (1 + ocfD)).map fun i => ocCoreGetResourceByIndex i device).find? fun k =>
    uriMatches (st.resources k) path

/-! ## own URIs -/

/-- the URI that the core resource of a type is populated under; that of the device is not fixed -/
def coreUri (i : Nat) : Bytes :=
  if i = ocfP then ascii "/oic/p"
  else if i = ocfCon then ascii "/oc/con"
  else if i = ocfIntrospectionWk then ascii "/oc/wk/introspection"
  else if i = ocfIntrospectionData then ascii "/oc/introspection"
  else if i = ocfRes then ascii "/oic/res"
  else svrUri i

/-- the URI of a core resource of a device -/
def CoreState.stored (st : CoreState) (device i : Nat) : Bytes :=
  (st.resources (ocCoreGetResourceByIndex i device)).uri

/-- a core resource has its own URI or none yet, and every URI has its slash -/
structure Canonical (st : CoreState) : Prop where
  own : ∀ i < ocfD, ∀ d, st.stored d i = [] ∨ st.stored d i = coreUri i
  slash : ∀ k, (st.resources k).uri = [] ∨ (st.resources k).uri.head? = some 47

theorem index_inj {i j d e : Nat} (hi : i ≤ ocfD) (hj : j ≤ ocfD)
    (h : ocCoreGetResourceByIndex i d = ocCoreGetResourceByIndex j e) : i = j := by
  rw [ocfD] at hi hj
  unfold ocCoreGetResourceByIndex ocfP ocfD at h
  split at h <;> split at h <;> omega

theorem ocStoreUri_head (uri : Bytes) : (ocStoreUri uri).head? = some 47 := by
  rw [ocStoreUri]
  split
  · rfl
  · next h => exact not_not.mp h

namespace Canonical

variable {st : CoreState}

theorem zero (n m : Nat) (a : Bool) : Canonical ⟨zeroResource, n, a, m⟩ :=
  ⟨fun _ _ _ => .inl rfl, fun _ => .inl rfl⟩

/-- only the array counts -/
theorem congr (h : Canonical st) {st' : CoreState} (hr : st'.resources = st.resources) : Canonical st' := by
  refine ⟨fun i hi d => ?_, fun k => ?_⟩
  · rw [CoreState.stored, hr]
    exact h.own i hi d
  · rw [hr]
    exact h.slash k

theorem populate (h : Canonical st) {i device : Nat} {uri : Bytes} {handler : Method → Bool}
    {ifaceMask defaultInterface properties : UInt32} {types : List Bytes} (hi : i ≤ ocfD)
    (hu : i = ocfD ∨ ocStoreUri uri = coreUri i) :
    Canonical (ocCorePopulateResource st i device uri ifaceMask defaultInterface properties handler
      types) := by
  refine ⟨fun j hj d => ?_, fun k => ?_⟩
  · rw [CoreState.stored, ocCorePopulateResource]
    dsimp only
    by_cases hk : ocCoreGetResourceByIndex j d = ocCoreGetResourceByIndex i device
    · obtain rfl := index_inj (Nat.le_of_lt hj) hi hk
      rw [hk, Function.update_self]
      exact .inr (hu.resolve_left (Nat.ne_of_lt hj))
    · rw [Function.update_of_ne hk]
      exact h.own j hj d
  · rw [ocCorePopulateResource]
    dsimp only
    by_cases hk : k = ocCoreGetResourceByIndex i device
    · rw [hk, Function.update_self]
      exact .inr (ocStoreUri_head uri)
    · rw [Function.update_of_ne hk]
      exact h.slash k

theorem grow (h : Canonical st) : Canonical (growCoreResources st) := by
  refine ⟨fun i hi d => ?_, fun k => ?_⟩
  · rw [CoreState.stored, growCoreResources]
    dsimp only
    split
    · exact .inl rfl
    · exact h.own i hi d
  · rw [growCoreResources]
    dsimp only
    split
    · exact .inl rfl
    · exact h.slash k

theorem initPlatform (h : Canonical st) (mfgName : Bytes) : Canonical (ocCoreInitPlatform st mfgName) := by
  rw [ocCoreInitPlatform]
  split
  · exact h
  · exact (h.populate (Nat.zero_le _) (.inr (by decide))).congr rfl

theorem addNewDevice (h : Canonical st) (uri rt : Bytes) : Canonical (ocCoreAddNewDevice st uri rt) := by
  have rest : ∀ {st : CoreState}, Canonical st → ∀ device, Canonical (ocCreateIntrospectionResource
      (ocCreateDiscoveryResource st ocfRes device) device) := by
    intro st h device
    refine Canonical.populate ?_ (by decide) (.inr (by decide))
    refine Canonical.populate ?_ (by decide) (.inr (by decide))
    exact h.populate (by decide) (.inr (by decide))
  rw [ocCoreAddNewDevice]
  generalize (if rt = ascii "oic.wk.d" then [rt] else [rt, ascii "oic.wk.d"]) = types
  refine (rest ?_ _).congr rfl
  split
  · exact (h.grow.populate (Nat.le_refl ocfD) (.inl rfl)).populate (by decide) (.inr (by decide))
  · exact h.grow.populate (Nat.le_refl ocfD) (.inl rfl)

theorem createSvr (h : Canonical st) (device : Nat) : Canonical (createSvr st device) := by
  rw [Security.createSvr]
  iterate 6 refine Canonical.populate ?_ (by decide) (.inr (by decide))
  exact h.populate (by decide) (.inr (by decide))

theorem ocSecCreateSvr (h : Canonical st) : Canonical (ocSecCreateSvr st) :=
  List.foldlRecOn _ _ h fun _ h device _ => h.createSvr device

theorem step (h : Canonical st) (call : SetUp) : Canonical (st.step call) := by
  cases call with
  | init => exact zero _ _ _
  | initPlatform mfgName => exact h.initPlatform mfgName
  | addNewDevice uri rt => exact h.addNewDevice uri rt
  | createSvr => exact h.ocSecCreateSvr
  | setConResAnnounced announce => exact h.congr rfl

end Canonical

/-- **In every state that the set-up reaches**, core resources have their own URIs. -/
theorem canonical_run (calls : List SetUp) : Canonical (CoreState.run calls) :=
  List.foldlRecOn _ _ (Canonical.zero 0 0 true) fun _ h call _ => h.step call

/-! ## the scan -/

variable {st : CoreState} {p : Bytes} {d : Nat}

theorem Canonical.uriMatches_iff (h : Canonical st) {k : Nat} :
    uriMatches (st.resources k) p = true ↔ (st.resources k).uri = 47 :: p := by
  rw [uriMatches, decide_eq_true_iff]
  rcases h.slash k with hu | hu
  · rw [hu]
    exact ⟨fun hl => absurd hl.1 (by simp), fun hc => absurd hc (List.cons_ne_nil _ _).symm⟩
  · obtain ⟨t, ht⟩ := List.head?_eq_some_iff.mp hu
    rw [ht]
    constructor
    · rintro ⟨-, rfl⟩
      rfl
    · intro hc
      rw [← List.cons_inj_right 47 |>.mp hc]
      exact ⟨rfl, rfl⟩

theorem mem_coreTypes {i : Nat} : i ∈ List.range (1 + ocfD) ↔ i ≤ ocfD := by
  rw [List.mem_range]
  omega

theorem Canonical.coreScan_eq_some (h : Canonical st) {k : Nat} :
    coreScan st p d = some k ↔ ∃ i ≤ ocfD, ocCoreGetResourceByIndex i d = k ∧ st.stored d i = 47 :: p ∧
      ∀ j < i, st.stored d j ≠ 47 :: p := by
  rw [coreScan, List.find?_map, Option.map_eq_some_iff]
  refine exists_congr fun i => ?_
  rw [List.find?_range_eq_some, mem_coreTypes]
  simp only [Function.comp_apply, h.uriMatches_iff, Bool.not_eq_true', ← Bool.not_eq_true, CoreState.stored]
  constructor
  · rintro ⟨⟨hi, hle, hbefore⟩, hk⟩
    exact ⟨hle, hk, hi, hbefore⟩
  · rintro ⟨hle, hk, hi, hbefore⟩
    exact ⟨⟨hi, hle, hbefore⟩, hk⟩

theorem Canonical.coreScan_eq_none (h : Canonical st) :
    coreScan st p d = none ↔ ∀ i ≤ ocfD, st.stored d i ≠ 47 :: p := by
  rw [coreScan, List.find?_eq_none]
  simp only [List.mem_map, mem_coreTypes, h.uriMatches_iff]
  constructor
  · intro hn i hi
    exact hn _ ⟨i, hi, rfl⟩
  · rintro hn _ ⟨i, hi, rfl⟩
    exact hn i hi

/-- the entity handler finds what the scan finds, and asks the application only if that is nothing -/
theorem findTarget_eq_scan {reg : Registry} {msg : Message}
    (h : ∀ i ≤ ocfD, reg.core msg.endpoint.device i =
      st.resources (ocCoreGetResourceByIndex i msg.endpoint.device)) :
    findTarget reg msg = match coreScan st msg.uriPath msg.endpoint.device with
      | some k => some (.plain (st.resources k))
      | none => ocRiGetAppResourceByUri reg msg.uriPath msg.endpoint.device := by
  have hmap : (List.range (1 + ocfD)).map (reg.core msg.endpoint.device) =
      ((List.range (1 + ocfD)).map fun i => ocCoreGetResourceByIndex i msg.endpoint.device).map
        st.resources := by
    rw [List.map_map]
    exact List.map_congr_left fun i hi => h i (mem_coreTypes.mp hi)
  have hscan : ((List.range (1 + ocfD)).map fun i => ocCoreGetResourceByIndex i msg.endpoint.device).find?
      ((fun r => uriMatches r msg.uriPath) ∘ st.resources) =
        coreScan st msg.uriPath msg.endpoint.device := rfl
  rw [findTarget, hmap, List.find?_map, hscan]
  cases coreScan st msg.uriPath msg.endpoint.device <;> rfl

/-! ## the dispatch -/

/-- the names that the dispatch always knows, with their types -/
def fixedNames : List (Nat × Bytes) :=
  [(ocfP, ascii "oic/p"), (ocfD, ascii "oic/d"), (ocfRes, ascii "oic/res"),
    (ocfIntrospectionWk, ascii "oc/wk/introspection"), (ocfIntrospectionData, ascii "oc/introspection"),
    (ocfSecDoxm, ascii "oic/sec/doxm"), (ocfSecAcl, ascii "oic/sec/acl2"),
    (ocfSecCred, ascii "oic/sec/cred"), (ocfSecSp, ascii "oic/sec/sp"), (ocfSecCsr, ascii "oic/sec/csr"),
    (ocfSecRoles, ascii "oic/sec/roles")]

/-- the dispatch knows the name `p`, for the type `i` -/
def Dispatched (announceConRes : Bool) (i : Nat) (p : Bytes) : Prop :=
  (i, p) ∈ fixedNames ∨ announceConRes = true ∧ i = ocfCon ∧ p = ascii "oc/con"

instance (a : Bool) (i : Nat) (p : Bytes) : Decidable (Dispatched a i p) :=
  inferInstanceAs (Decidable (_ ∨ _))

theorem memcmpEq_iff {n : Nat} {s lit : Bytes} (hs : s.length = n) (hl : lit.length = n) :
    memcmpEq n s lit = true ↔ s = lit := by
  rw [memcmpEq, decide_eq_true_iff, List.take_of_length_le (Nat.le_of_eq hs),
    List.take_of_length_le (Nat.le_of_eq hl)]

/-- a name that is known leads to the entry of its type -/
theorem lookup_dispatched {uri : Bytes} {i : Nat} (h : Dispatched st.announceConRes i (skipSlash uri)) :
    ocCoreGetResourceByUri st uri d = some (ocCoreGetResourceByIndex i d) := by
  obtain ⟨resources, n, announce, m⟩ := st
  rw [ocCoreGetResourceByUri]
  generalize skipSlash uri = p at h ⊢
  rcases h with h | ⟨ha, rfl, rfl⟩
  · simp only [fixedNames, List.mem_cons, Prod.mk.injEq, List.not_mem_nil, or_false] at h
    cases announce <;> rcases h with ⟨rfl, rfl⟩ | ⟨rfl, rfl⟩ | ⟨rfl, rfl⟩ | ⟨rfl, rfl⟩ | ⟨rfl, rfl⟩ |
      ⟨rfl, rfl⟩ | ⟨rfl, rfl⟩ | ⟨rfl, rfl⟩ | ⟨rfl, rfl⟩ | ⟨rfl, rfl⟩ | ⟨rfl, rfl⟩ <;> rfl
  · obtain rfl : announce = true := ha
    rfl

/-- a name that is not known leads to none, but with five or twelve characters to the entry in front of
the device's, and with the first twelve of `oic/sec/pstat` to that of `pstat` -/
theorem lookup_unknown {uri : Bytes} (h : ∀ i, ¬ Dispatched st.announceConRes i (skipSlash uri)) :
    ocCoreGetResourceByUri st uri d =
      if (skipSlash uri).length = 5 then some (ocfD * d)
      else if (skipSlash uri).length = 12 then
        if skipSlash uri = ascii "oic/sec/psta" then some (ocfD * d + ocfSecPstat) else some (ocfD * d)
      else none := by
  rw [ocCoreGetResourceByUri]
  generalize skipSlash uri = p at h ⊢
  dsimp only
  have hne : ∀ k lit, lit.length = k → lit ∈ fixedNames.map Prod.snd → p.length = k →
      ¬ memcmpEq k p lit = true := by
    intro k lit hl hm hp he
    obtain ⟨⟨i, _⟩, hx, rfl⟩ := List.mem_map.mp hm
    exact h i (.inl ((memcmpEq_iff hp hl).mp he ▸ hx))
  have hand : ∀ k lit, lit.length = k → lit ∈ fixedNames.map Prod.snd →
      ¬ (p.length = k ∧ memcmpEq k p lit = true) := fun k lit hl hm hc => hne k lit hl hm hc.1 hc.2
  by_cases h5 : p.length = 5
  · rw [if_pos h5, if_neg (hne 5 (ascii "oic/p") rfl (by decide) h5),
      if_neg (hne 5 (ascii "oic/d") rfl (by decide) h5), if_pos h5]
    rfl
  have hcon : ¬ (st.announceConRes = true ∧ p.length = 6 ∧ memcmpEq 6 p (ascii "oc/con") = true) :=
    fun hc => h ocfCon (.inr ⟨hc.1, rfl, (memcmpEq_iff hc.2.1 rfl).mp hc.2.2⟩)
  rw [if_neg h5, if_neg h5, if_neg (hand 7 (ascii "oic/res") rfl (by decide)), if_neg hcon,
    if_neg (hand 19 (ascii "oc/wk/introspection") rfl (by decide)),
    if_neg (hand 16 (ascii "oc/introspection") rfl (by decide))]
  by_cases h12 : p.length = 12
  · have hpsta : memcmpEq 12 p (ascii "oic/sec/pstat") = true ↔ p = ascii "oic/sec/psta" :=
      memcmpEq_iff h12 (show (ascii "oic/sec/psta").length = 12 from rfl)
    rw [if_pos h12, if_pos h12, if_neg (hne 12 (ascii "oic/sec/doxm") rfl (by decide) h12),
      if_neg (hne 12 (ascii "oic/sec/acl2") rfl (by decide) h12),
      if_neg (hne 12 (ascii "oic/sec/cred") rfl (by decide) h12)]
    exact if_congr hpsta rfl rfl
  · rw [if_neg h12, if_neg h12, if_neg (hand 10 (ascii "oic/sec/sp") rfl (by decide)),
      if_neg (hand 11 (ascii "oic/sec/csr") rfl (by decide)),
      if_neg (hand 13 (ascii "oic/sec/roles") rfl (by decide))]

/-! ## where they agree -/

theorem Dispatched.le {a : Bool} {i : Nat} (h : Dispatched a i p) : i ≤ ocfD := by
  rcases h with h | ⟨-, rfl, -⟩
  · exact (show ∀ x ∈ fixedNames, x.1 ≤ ocfD by decide) _ h
  · decide

theorem Dispatched.unique {a : Bool} {i j : Nat} (hi : Dispatched a i p) (hj : Dispatched a j p) :
    i = j := by
  have hcon : ∀ x ∈ fixedNames, x.2 ≠ ascii "oc/con" := by decide
  rcases hi with hi | ⟨-, rfl, rfl⟩ <;> rcases hj with hj | ⟨-, rfl, hp⟩
  · exact (show ∀ x ∈ fixedNames, ∀ y ∈ fixedNames, x.2 = y.2 → x.1 = y.1 by decide) _ hi _ hj rfl
  · exact absurd hp (hcon _ hi)
  · exact absurd rfl (hcon _ hj)
  · rfl

/-- a name that is known belongs to no other type -/
theorem Dispatched.type_eq {a : Bool} {i j : Nat} (h : Dispatched a i p) (hj : j < ocfD)
    (hu : coreUri j = 47 :: p) : j = i := by
  rcases h with h | ⟨-, rfl, rfl⟩
  · exact (show ∀ x ∈ fixedNames, ∀ j < ocfD, coreUri j = 47 :: x.2 → j = x.1 by decide) _ h j hj hu
  · exact (show ∀ j < ocfD, coreUri j = 47 :: ascii "oc/con" → j = ocfCon by decide) j hj hu

/-- a resource with the URI of another type can only be the device resource -/
theorem Canonical.type_eq (h : Canonical st) {a : Bool} {i j : Nat} (hp : Dispatched a i p) (hj : j < ocfD)
    (hu : st.stored d j = 47 :: p) : j = i := by
  rcases h.own j hj d with ho | ho
  · exact absurd (ho.symm.trans hu) (List.cons_ne_nil _ _).symm
  · exact hp.type_eq hj (ho.symm.trans hu)

/-- the resource of a name that is known comes before the device resource -/
theorem Canonical.coreScan_dispatched (h : Canonical st) {i : Nat} (hp : Dispatched st.announceConRes i p) :
    coreScan st p d = some (ocCoreGetResourceByIndex i d) ↔ st.stored d i = 47 :: p := by
  rw [h.coreScan_eq_some]
  constructor
  · rintro ⟨j, hj, he, hu, -⟩
    rwa [← index_inj hj hp.le he]
  · intro hu
    refine ⟨i, hp.le, rfl, hu, fun j hj hs => ?_⟩
    exact absurd (h.type_eq hp (Nat.lt_of_lt_of_le hj hp.le) hs) (Nat.ne_of_lt hj)

/-- the resources with a name that the dispatch does not know -/
theorem Canonical.unknown (h : Canonical st) (hp : ∀ i, ¬ Dispatched st.announceConRes i p) :
    (∀ i ≤ ocfD, st.stored d i ≠ 47 :: p) ↔
      st.stored d ocfD ≠ 47 :: p ∧ ¬ (p = ascii "oic/sec/pstat" ∧ st.stored d ocfSecPstat ≠ []) ∧
        ¬ (p = ascii "oc/con" ∧ st.stored d ocfCon ≠ []) := by
  constructor
  · intro hn
    refine ⟨hn _ (Nat.le_refl _), ?_, ?_⟩
    · rintro ⟨rfl, hs⟩
      exact hn ocfSecPstat (by decide) ((h.own ocfSecPstat (by decide) d).resolve_left hs)
    · rintro ⟨rfl, hs⟩
      exact hn ocfCon (by decide) ((h.own ocfCon (by decide) d).resolve_left hs)
  · rintro ⟨hD, hpstat, hcon⟩ i hi hu
    rcases Nat.eq_or_lt_of_le hi with rfl | hi
    · exact hD hu
    have hne : st.stored d i ≠ [] := fun hc => absurd (hc.symm.trans hu) (List.cons_ne_nil _ _).symm
    have hown : 47 :: p = coreUri i := hu.symm.trans ((h.own i hi d).resolve_left hne)
    have hcases : i = ocfCon ∨ i = ocfSecPstat ∨ ∃ x ∈ fixedNames, coreUri i = 47 :: x.2 :=
      (show ∀ i < ocfD, i = ocfCon ∨ i = ocfSecPstat ∨ ∃ x ∈ fixedNames, coreUri i = 47 :: x.2 by
        decide) i hi
    rcases hcases with rfl | rfl | ⟨x, hx, hux⟩
    · exact hcon ⟨(List.cons.inj hown).2, hne⟩
    · exact hpstat ⟨(List.cons.inj hown).2, hne⟩
    · exact hp x.1 (.inl ((List.cons.inj (hown.trans hux)).2 ▸ hx))

/-- the URI without its slash is a name that the dispatch knows, and the resource behind it is set up
under it; or it is no such name, has neither five nor twelve characters, and is neither the device's
own URI, nor that of `pstat`, nor that of a `con` no longer announced -/
def Agreeing (st : CoreState) (d : Nat) (p : Bytes) : Prop :=
  (∃ i, Dispatched st.announceConRes i p ∧ st.stored d i = 47 :: p) ∨
  ((∀ i, ¬ Dispatched st.announceConRes i p) ∧ p.length ≠ 5 ∧ p.length ≠ 12 ∧
    st.stored d ocfD ≠ 47 :: p ∧ ¬ (p = ascii "oic/sec/pstat" ∧ st.stored d ocfSecPstat ≠ []) ∧
    ¬ (p = ascii "oc/con" ∧ st.stored d ocfCon ≠ []))

/-- the entry in front of the device's is the platform or belongs to another device -/
theorem Canonical.coreScan_ne_front (h : Canonical st) (hp : ∀ i, ¬ Dispatched st.announceConRes i p) :
    coreScan st p d ≠ some (ocfD * d) := by
  intro hs
  obtain ⟨i, hi, he, hu, -⟩ := h.coreScan_eq_some.mp hs
  have h0 : i = ocfP := by
    unfold ocCoreGetResourceByIndex ocfP at *
    split at he <;> omega
  subst h0
  have hown := (h.own ocfP (by decide) d).resolve_left
    fun hc => absurd (hc.symm.trans hu) (List.cons_ne_nil _ _).symm
  exact hp ocfP (.inl ((List.cons.inj (hown.symm.trans hu)).2 ▸ (by decide)))

theorem Canonical.coreScan_ne_pstat (h : Canonical st) :
    coreScan st (ascii "oic/sec/psta") d ≠ some (ocfD * d + ocfSecPstat) := by
  intro hs
  obtain ⟨i, hi, he, hu, -⟩ := h.coreScan_eq_some.mp hs
  obtain rfl := index_inj (j := ocfSecPstat) hi (by decide) he
  rcases h.own ocfSecPstat (by decide) d with ho | ho
  · exact absurd (ho.symm.trans hu) (by decide)
  · exact absurd (ho.symm.trans hu) (by decide)

theorem Canonical.lookup_iff (h : Canonical st) (uri : Bytes) :
    ocCoreGetResourceByUri st uri d = coreScan st (skipSlash uri) d ↔ Agreeing st d (skipSlash uri) := by
  by_cases hk : ∃ i, Dispatched st.announceConRes i (skipSlash uri)
  · obtain ⟨i, hi⟩ := hk
    rw [lookup_dispatched hi, eq_comm, h.coreScan_dispatched hi]
    constructor
    · exact fun hs => .inl ⟨i, hi, hs⟩
    · rintro (⟨j, hj, hs⟩ | ⟨hn, -⟩)
      · rwa [hi.unique hj]
      · exact absurd hi (hn i)
  · have hk := not_exists.mp hk
    have hleft : ¬ ∃ i, Dispatched st.announceConRes i (skipSlash uri) ∧
        st.stored d i = 47 :: skipSlash uri := fun ⟨i, hi, _⟩ => hk i hi
    rw [lookup_unknown hk, Agreeing, or_iff_right hleft, and_iff_right hk]
    split
    · next h5 =>
      exact ⟨fun hs => absurd hs.symm (h.coreScan_ne_front hk), fun hc => absurd h5 hc.1⟩
    next h5 =>
    rw [and_iff_right h5]
    split
    · next h12 =>
      refine ⟨fun hs => ?_, fun hc => absurd h12 hc.1⟩
      split at hs
      · next hpsta => exact absurd (hpsta ▸ hs.symm) h.coreScan_ne_pstat
      · exact absurd hs.symm (h.coreScan_ne_front hk)
    · next h12 =>
      rw [and_iff_right h12, eq_comm, h.coreScan_eq_none, h.unknown hk]

/-- **Where the two lookups agree**, in every state that the set-up reaches. -/
theorem coreLookup_iff (calls : List SetUp) (uri : Bytes) (d : Nat) :
    ocCoreGetResourceByUri (CoreState.run calls) uri d = coreScan (CoreState.run calls) (skipSlash uri) d ↔
      Agreeing (CoreState.run calls) d (skipSlash uri) :=
  (canonical_run calls).lookup_iff uri

/-- one device with its security resources: `pstat` is not found, and an unknown name of five characters
finds the platform -/
theorem coreLookup_misses :
    let st := CoreState.run
      [.initPlatform (ascii "m"), .addNewDevice (ascii "/oic/d") (ascii "oic.d.light"), .createSvr]
    ocCoreGetResourceByUri st (ascii "/oic/sec/pstat") 0 = none ∧
      coreScan st (ascii "oic/sec/pstat") 0 = some 6 ∧
      ocCoreGetResourceByUri st (ascii "/oic/x") 0 = some 0 ∧ coreScan st (ascii "oic/x") 0 = none := by
  decide

end Security
