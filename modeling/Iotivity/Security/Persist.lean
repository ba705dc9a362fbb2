import Iotivity.Security.Rejected
import Mathlib.Data.List.TakeWhile

/-!
# Credentials written to storage and read back

`oc_sec_encode_cred` with `persist` writes the credentials of a device, and `oc_sec_load_cred` reads
them with `oc_sec_decode_cred`, which adds them to the list one by one through `oc_sec_add_new_cred`.

* `Reachable`          the stores that the operations on credentials can make, and `WellKept`, what is
                       true of all of them;
* `draftOf`            what the decoder finds in a credential that the encoder wrote;
* `Kept`, `Admitted`   the data of a credential survives, and the credentials read before it do not
                       get in its way;
* `persisted_iff`      a store is restored iff this is so for each of its credentials.
-/

namespace Security

/-! ## texts -/

theorem cstr_eq_self_iff (b : Bytes) : cstr b = b ↔ (0 : UInt8) ∉ b := by
  unfold cstr
  rw [List.takeWhile_eq_self_iff]
  constructor
  · intro h hm
    exact absurd (h 0 hm) (by decide)
  · intro h x hx
    exact decide_eq_true fun he => h (he ▸ hx)

theorem zero_not_mem_cstr (b : Bytes) : (0 : UInt8) ∉ cstr b := by
  intro h
  have h0 := List.mem_takeWhile_imp h
  exact absurd h0 (by decide)

theorem hexDigit_ne : ∀ b : UInt8, (hexDigit (b >>> 4) ≠ 0 ∧ hexDigit (b >>> 4) ≠ 42) ∧
    hexDigit (b &&& 15) ≠ 0 := forall_byte (by decide +kernel)

theorem cstr_ocUuidToStr (u : Uuid) : cstr (ocUuidToStr u) = ocUuidToStr u := by
  rw [cstr_eq_self_iff, ocUuidToStr, List.mem_flatMap]
  rintro ⟨⟨b, i⟩, -, h⟩
  rw [uuidChunk, List.mem_append] at h
  obtain ⟨⟨h1, -⟩, h2⟩ := hexDigit_ne b
  rcases h with h | h
  · split at h
    · cases List.mem_singleton.mp h
    · cases h
  · rcases List.mem_cons.mp h with h | h
    · exact h1 h.symm
    · exact h2 (List.mem_singleton.mp h).symm

/-- a printed uuid does not begin with an asterisk -/
theorem head_ocUuidToStr (u : Uuid) : (ocUuidToStr u).head? ≠ some 42 := by
  obtain ⟨l, hl⟩ := u
  cases l with
  | nil => cases hl
  | cons b l =>
    intro h
    exact (hexDigit_ne b).1.2 (Option.some.inj h)

/-! ## a credential as it is read back -/

/-- the text of a subject -/
def subjectText (u : Uuid) : Bytes := if u.head = 42 then ascii "*" else ocUuidToStr u

/-- private data read back: a text ends at its first NUL, and an encoding that has no name was written
as the one for raw bytes -/
def restoredPrivate (x : CredData) : CredData :=
  ⟨if x.encoding = .raw ∨ x.encoding = .der then x.data else cstr x.data,
    if x.encoding = .unsupported then .raw else x.encoding⟩

/-- public data read back -/
def restoredPublic (x : CredData) : CredData :=
  if x.data = [] then CredData.none else ⟨if x.encoding = .pem then cstr x.data else x.data, x.encoding⟩

/-- what `oc_sec_add_new_cred` gets for a credential that was written to storage -/
def draftOf (c : Cred) : CredDraft :=
  { credid := c.credid
    credtype := c.credtype
    credusage := c.credusage
    subjectuuid := some (subjectText c.subjectuuid)
    privatedata := restoredPrivate c.privatedata
    publicdata := restoredPublic c.publicdata
    role := if c.role = [] then none else some (cstr c.role)
    authority := if c.role = [] ∨ c.authority = [] then none else some (cstr c.authority) }

theorem parseEncoding_return {e : Encoding} {t : Bytes} (h : returnEncodingString e = some t) :
    parseEncodingProperty (cstr t) = e ∧ e ≠ .unsupported := by
  cases e with
  | unsupported => cases h
  | _ =>
    cases h
    exact ⟨by decide, Encoding.noConfusion⟩

theorem parseCredusage_return {u : CredUsage} {t : Bytes} (h : returnCredusageString u = some t) :
    parseCredusageProperty (cstr t) = u := by
  cases u with
  | null => cases h
  | _ =>
    cases h
    decide

theorem decodeData_encoding (x : CredData) {e : Encoding} {t : Bytes}
    (h : returnEncodingString e = some t) :
    decodeData x (textProp "encoding" t) = some { x with encoding := e } := by
  obtain ⟨h1, h2⟩ := parseEncoding_return h
  show (if parseEncodingProperty (cstr t) = .unsupported then none
    else some { x with encoding := parseEncodingProperty (cstr t) }) = _
  rw [h1, if_neg h2]

theorem decode_encodePrivate (x : CredData) :
    (encodePrivate true x).foldlM decodeData CredData.none = some (restoredPrivate x) := by
  obtain ⟨data, e⟩ := x
  -- the name of the encoding, as it is written
  have he : decodeData ⟨(restoredPrivate ⟨data, e⟩).data, .unsupported⟩ (textProp "encoding"
      ((returnEncodingString e).getD (ascii "oic.sec.encoding.raw"))) =
        some (restoredPrivate ⟨data, e⟩) := by
    cases e with
    | unsupported => exact decodeData_encoding _ (show returnEncodingString .raw = _ from rfl)
    | base64 => exact decodeData_encoding _ (show returnEncodingString .base64 = _ from rfl)
    | raw => exact decodeData_encoding _ (show returnEncodingString .raw = _ from rfl)
    | pem => exact decodeData_encoding _ (show returnEncodingString .pem = _ from rfl)
    | der => exact decodeData_encoding _ (show returnEncodingString .der = _ from rfl)
  unfold encodePrivate
  rw [List.foldlM_append]
  have hd : List.foldlM decodeData CredData.none
      (if e = .raw ∨ e = .der then [Rep.mk (ascii "data") (.byteString (if true then data else []))]
        else if true = true ∧ data = [] then [] else [textProp "data" (if true then data else [])]) =
      some ⟨(restoredPrivate ⟨data, e⟩).data, .unsupported⟩ := by
    unfold restoredPrivate
    dsimp only
    split
    · rfl
    · split
      · next h => rw [h.2]; rfl
      · rfl
  refine (congrArg (· >>= _) hd).trans ?_
  show (List.foldlM decodeData ⟨(restoredPrivate ⟨data, e⟩).data, .unsupported⟩ [_]) = _
  rw [List.foldlM_cons, he]
  rfl

theorem decode_encodePublic {x : CredData} (h : x.data ≠ []) :
    (encodePublic x).foldlM decodeData CredData.none = some (restoredPublic x) := by
  obtain ⟨data, e⟩ := x
  have hr : restoredPublic ⟨data, e⟩ = ⟨if e = .pem then cstr data else data, e⟩ := if_neg h
  have hd : decodeData CredData.none (if e = .pem then textProp "data" data
      else .mk (ascii "data") (.byteString data)) =
        some ⟨if e = .pem then cstr data else data, .unsupported⟩ := by
    split
    · rfl
    · rfl
  unfold encodePublic
  rw [List.foldlM_cons, hd, hr]
  show List.foldlM decodeData _ ((returnEncodingString e).map (textProp "encoding")).toList = _
  cases hs : returnEncodingString e with
  | none =>
    cases e with
    | unsupported => rfl
    | _ => cases hs
  | some t =>
    rw [Option.map_some, Option.toList_some, List.foldlM_cons, decodeData_encoding _ hs]
    rfl

theorem cstr_subjectText (u : Uuid) : cstr (subjectText u) = subjectText u := by
  unfold subjectText
  split
  · decide
  · exact cstr_ocUuidToStr u

theorem decode_roleid (c : Cred) (d : CredDraft) (hr : d.role = none) (ha : d.authority = none) :
    (if c.role = [] then [] else [Rep.mk (ascii "roleid") (.object (encodeRoleid c))]).foldlM
      decodeCredProp d =
        some { d with role := (draftOf c).role, authority := (draftOf c).authority } := by
  obtain ⟨credid, credtype, credusage, subject, priv, pub, role, authority⟩ := d
  cases hr
  cases ha
  unfold draftOf
  dsimp only
  by_cases h : c.role = []
  · rw [if_pos h, if_pos h, if_pos (Or.inl h)]
    rfl
  · rw [if_neg h, if_neg h, List.foldlM_cons]
    unfold encodeRoleid
    by_cases h' : c.authority = []
    · rw [if_pos h', if_pos (Or.inr h')]
      rfl
    · rw [if_neg h', if_neg (not_or.mpr ⟨h, h'⟩)]
      rfl

theorem decode_privatedata (x : CredData) (d : CredDraft) (h : d.privatedata = CredData.none) :
    [Rep.mk (ascii "privatedata") (.object (encodePrivate true x))].foldlM decodeCredProp d =
      some { d with privatedata := restoredPrivate x } := by
  have hx : decodeCredProp d (Rep.mk (ascii "privatedata") (.object (encodePrivate true x))) =
      ((encodePrivate true x).foldlM decodeData d.privatedata).map
        fun x => { d with privatedata := x } := rfl
  rw [List.foldlM_cons, hx, h, decode_encodePrivate]
  rfl

theorem decode_credusage (u : CredUsage) (d : CredDraft) (h : d.credusage = .null) :
    ((returnCredusageString u).map (textProp "credusage")).toList.foldlM decodeCredProp d =
      some { d with credusage := u } := by
  cases hs : returnCredusageString u with
  | none =>
    have hu : u = .null := by
      cases u with
      | null => rfl
      | _ => cases hs
    rw [hu, ← h]
    rfl
  | some t =>
    have hx : decodeCredProp d (textProp "credusage" t) =
        some { d with credusage := parseCredusageProperty (cstr t) } := rfl
    rw [Option.map_some, Option.toList_some, List.foldlM_cons, hx, parseCredusage_return hs]
    rfl

theorem decode_publicdata (x : CredData) (d : CredDraft) (h : d.publicdata = CredData.none) :
    (if x.data = [] then [] else [Rep.mk (ascii "publicdata") (.object (encodePublic x))]).foldlM
      decodeCredProp d = some { d with publicdata := restoredPublic x } := by
  by_cases hn : x.data = []
  · rw [if_pos hn, restoredPublic, if_pos hn, ← h]
    rfl
  · have hx : decodeCredProp d (Rep.mk (ascii "publicdata") (.object (encodePublic x))) =
        ((encodePublic x).foldlM decodeData d.publicdata).map
          fun x => { d with publicdata := x } := rfl
    rw [if_neg hn, List.foldlM_cons, hx, h, decode_encodePublic hn]
    rfl

theorem decode_encodeCredEntry (c : Cred) :
    (encodeCredEntry true c).foldlM decodeCredProp CredDraft.empty = some (draftOf c) := by
  have h1 : [Rep.mk (ascii "credid") (.int c.credid), Rep.mk (ascii "credtype") (.int c.credtype),
      textProp "subjectuuid" (subjectText c.subjectuuid)].foldlM decodeCredProp CredDraft.empty =
      some { CredDraft.empty with
        credid := c.credid, credtype := c.credtype
        subjectuuid := some (subjectText c.subjectuuid) } := by
    have hx : [Rep.mk (ascii "credid") (.int c.credid), Rep.mk (ascii "credtype") (.int c.credtype),
        textProp "subjectuuid" (subjectText c.subjectuuid)].foldlM decodeCredProp CredDraft.empty =
        some { CredDraft.empty with
          credid := c.credid, credtype := c.credtype
          subjectuuid := some (cstr (subjectText c.subjectuuid)) } := rfl
    rw [hx, cstr_subjectText]
  unfold encodeCredEntry
  rw [List.foldlM_append, List.foldlM_append, List.foldlM_append, List.foldlM_append]
  rw [show [Rep.mk (ascii "credid") (.int c.credid), Rep.mk (ascii "credtype") (.int c.credtype),
    textProp "subjectuuid" (if c.subjectuuid.head = 42 then ascii "*" else
      ocUuidToStr c.subjectuuid)].foldlM decodeCredProp CredDraft.empty = _ from h1]
  show ((((List.foldlM decodeCredProp _ _).bind _).bind _).bind _) = _
  rw [decode_roleid c _ rfl rfl, Option.bind_some, decode_privatedata _ _ rfl, Option.bind_some,
    decode_credusage _ _ rfl, Option.bind_some, decode_publicdata _ _ rfl]
  rfl

/-! ## reachable stores -/

/-- the stores that `oc_sec_add_new_cred`, `oc_sec_decode_cred` and `oc_sec_remove_cred` make, for any
arguments, payloads and device ids on the way -/
inductive Reachable (pf : Platform) (device : Nat) : Creds → Prop
  | start : Reachable pf device ⟨[], Uuid.nil⟩
  | add (cs : Creds) (di : Uuid) (d : CredDraft) (draws : Nat) (h : Reachable pf device cs) :
    Reachable pf device { cs with creds := (addDeviceCred pf device di d cs.creds draws).2.1 }
  | decode (s : State) (rep : List Rep) (fromStorage : Bool)
    (h : Reachable pf device (s.device device).creds) :
    Reachable pf device ((ocSecDecodeCred pf s rep fromStorage none device).2.2.device device).creds
  | remove (cs : Creds) (id : Int) (h : Reachable pf device cs) :
    Reachable pf device { cs with creds := ocSecRemoveCredByCredid id cs.creds }

/-- what holds of every stored credential -/
structure Cred.Proper (c : Cred) : Prop where
  credid : c.credid ≠ -1
  role : (0 : UInt8) ∉ c.role
  authority : (0 : UInt8) ∉ c.authority
  psk : c.credtype = credtypePsk → c.privatedata.encoding ≠ .base64
  publicdata : c.publicdata.data = [] → c.publicdata = CredData.none

/-- proper credentials under different ids -/
structure WellKept (creds : List Cred) : Prop where
  nodup : (creds.map Cred.credid).Nodup
  proper : ∀ c ∈ creds, c.Proper

theorem data_credid (creds : List Cred) :
    creds.map Cred.credid = (creds.map Cred.data).map Cred.credid := by
  rw [List.map_map]
  rfl

theorem WellKept.congr {l m : List Cred} (h : l.map Cred.data = m.map Cred.data) (hl : WellKept l) :
    WellKept m where
  nodup := by
    rw [data_credid, ← h, ← data_credid]
    exact hl.nodup
  proper c hc := by
    obtain ⟨c', hc', he⟩ := List.mem_map.mp (h ▸ List.mem_map_of_mem hc)
    have hp := hl.proper c' hc'
    have hd : c'.data.Proper := ⟨hp.credid, hp.role, hp.authority, hp.psk, hp.publicdata⟩
    rw [he] at hd
    exact ⟨hd.credid, hd.role, hd.authority, hd.psk, hd.publicdata⟩

theorem WellKept.sub {l m : List Cred} (hs : l.Sublist m) (hm : WellKept m) : WellKept l :=
  ⟨hm.nodup.sublist (hs.map _), fun c hc => hm.proper c (hs.subset hc)⟩

theorem WellKept.snoc {l : List Cred} {c : Cred} (hl : WellKept l) (hc : c.Proper)
    (hid : c.credid ∉ l.map Cred.credid) : WellKept (l ++ [c]) where
  nodup := by
    rw [List.map_append, List.nodup_append]
    refine ⟨hl.nodup, List.nodup_singleton _, ?_⟩
    intro a ha b hb he
    cases List.mem_singleton.mp hb
    exact hid (he ▸ ha)
  proper x hx := by
    rcases List.mem_append.mp hx with h | h
    · exact hl.proper x h
    · cases List.mem_singleton.mp h
      exact hc

theorem uniqueCredid_iff (id : Int) (creds : List Cred) :
    uniqueCredid id creds = true ↔ id ∉ creds.map Cred.credid := by
  unfold uniqueCredid
  rw [List.mem_map, Bool.not_eq_true', List.any_eq_false]
  constructor
  · rintro h ⟨c, hc, he⟩
    exact h c hc (decide_eq_true he)
  · intro h c hc he
    exact h ⟨c, hc, of_decide_eq_true he⟩

/-- after the removal no credential has the id -/
theorem unique_remove {creds : List Cred} (h : (creds.map Cred.credid).Nodup) (id : Int) :
    uniqueCredid id (ocSecRemoveCredByCredid id creds) = true := by
  rw [uniqueCredid_iff]
  unfold ocSecRemoveCredByCredid
  induction creds with
  | nil => exact List.not_mem_nil
  | cons c creds ih =>
    rw [List.map_cons, List.nodup_cons] at h
    by_cases hc : c.credid = id
    · rw [List.eraseP_cons_of_pos (by simpa using hc), ← hc]
      exact h.1
    · rw [List.eraseP_cons_of_neg (by simpa using hc), List.map_cons, List.mem_cons]
      rintro (he | he)
      · exact hc he.symm
      · exact ih h.2 he

theorem newCred_proper {d : CredDraft} {kp : Option Bytes} {priv : CredData} {id : Int}
    (subject : Uuid) (chain child : Option Int) (hid : id ≠ -1) (hp : d.storedPrivate kp = some priv) :
    (newCred d subject priv id chain child).Proper where
  credid := hid
  role := by
    show (0 : UInt8) ∉ (d.role.map cstr).getD []
    cases d.role with
    | none => exact List.not_mem_nil
    | some t => exact zero_not_mem_cstr t
  authority := by
    show (0 : UInt8) ∉ (if d.role = none then [] else (d.authority.map cstr).getD [])
    split
    · exact List.not_mem_nil
    · cases d.authority with
      | none => exact List.not_mem_nil
      | some t => exact zero_not_mem_cstr t
  psk := by
    intro ht he
    replace ht : d.credtype = credtypePsk := ht
    replace he : priv.encoding = .base64 := he
    unfold CredDraft.storedPrivate at hp
    split at hp
    · cases kp with
      | none => cases hp; cases he
      | some key => cases hp; cases he
    · split at hp
      · split at hp
        · cases hp
        · obtain ⟨key, -, rfl⟩ := Option.map_eq_some_iff.mp hp
          cases he
      · next hn =>
        cases hp
        exact hn ⟨ht, he⟩
  publicdata := by
    intro h
    show d.storedPublic = CredData.none
    replace h : d.storedPublic.data = [] := h
    unfold CredDraft.storedPublic at h ⊢
    split
    · rfl
    · next hn =>
      rw [if_neg hn] at h
      exact absurd h hn

theorem chooseCredid_spec (pf : Platform) {credid : Int} {creds : List Cred} (draws : Nat)
    (h : credid ∉ creds.map Cred.credid) :
    (chooseCredid pf credid creds draws).1 ≠ -1 ∧
      (chooseCredid pf credid creds draws).1 ∉ creds.map Cred.credid := by
  unfold chooseCredid
  split
  · have h0 := pf.newId_nonneg draws (creds.map Cred.credid ++ [0])
    have hm := pf.newId_not_mem draws (creds.map Cred.credid ++ [0])
    exact ⟨by omega, fun hc => hm (List.mem_append_left _ hc)⟩
  · next hc => exact ⟨hc, h⟩

/-- the list after `oc_sec_add_new_cred`: some of the credentials that were there, and perhaps the
new one behind them -/
inductive Outcome (pf : Platform) (d : CredDraft) (creds : List Cred) : List Cred → Prop
  | fewer (l : List Cred) (h : (l.map Cred.data).Sublist (creds.map Cred.data)) : Outcome pf d creds l
  | added (l rest : List Cred) (subject : Uuid) (kp : Option Bytes) (priv : CredData) (draws : Nat)
    (chain child : Option Int) (hs : rest.Sublist (ocSecRemoveCredByCredid d.credid creds))
    (hp : d.storedPrivate kp = some priv)
    (hl : l.map Cred.data = rest.map Cred.data ++
      [(newCred d subject priv (chooseCredid pf d.credid rest draws).1 chain child).data]) :
    Outcome pf d creds l

section
variable {pf : Platform} {device : Nat} {di : Uuid} {d : CredDraft} {creds : List Cred}

theorem Outcome.of_sublist {l : List Cred}
    (h : l.Sublist (ocSecRemoveCredByCredid d.credid creds)) : Outcome pf d creds l :=
  .fewer l ((h.trans List.eraseP_sublist).map _)

theorem storeCred_outcome {m : List Cred} (hm : m.Sublist (ocSecRemoveCredByCredid d.credid creds))
    (subject : Uuid) (kp : Option Bytes) (draws : Nat) :
    Outcome pf d creds (storeCred pf d subject kp m draws).2.1 := by
  unfold storeCred
  cases hp : d.storedPrivate kp with
  | none => exact Outcome.of_sublist hm
  | some priv =>
    exact .added _ m subject kp priv draws none none hm hp (by rw [List.map_append]; rfl)

theorem storeInChain_outcome (subject : Uuid) (kp : Option Bytes) (i : Nat) (chain : Cred)
    (draws : Nat) :
    Outcome pf d creds (storeInChain pf d subject kp i chain
      (ocSecRemoveCredByCredid d.credid creds) draws).2.1 := by
  unfold storeInChain
  cases hp : d.storedPrivate kp with
  | none => exact Outcome.of_sublist (List.Sublist.refl _)
  | some priv =>
    dsimp only
    split
    · refine .added _ _ subject kp priv draws none (some chain.credid) (List.Sublist.refl _) hp ?_
      rw [List.map_append, Scan.map_modify_same]
      · rfl
      · exact fun c => rfl
    · split
      · refine .added _ _ subject kp priv draws (some chain.credid) none (List.Sublist.refl _) hp ?_
        rw [List.map_append, Scan.map_modify_same]
        · rfl
        · exact fun c => rfl
      · exact Outcome.of_sublist (List.Sublist.refl _)

theorem addDeviceCred_outcome (pf : Platform) (device : Nat) (di : Uuid) (d : CredDraft)
    (creds : List Cred) (draws : Nat) :
    Outcome pf d creds (addDeviceCred pf device di d creds draws).2.1 := by
  unfold addDeviceCred
  cases d.subject with
  | none => exact .fewer _ (List.Sublist.refl _)
  | some subject =>
    dsimp only
    split
    · exact .fewer _ (List.Sublist.refl _)
    · cases searchCreds d subject 0 (ocSecRemoveCredByCredid d.credid creds) with
      | fresh => exact storeCred_outcome (List.Sublist.refl _) _ _ _
      | replaced i => exact storeCred_outcome (List.eraseIdx_sublist _ _) _ _ _
      | duplicate id => exact Outcome.of_sublist (List.Sublist.refl _)
      | chain i c => exact storeInChain_outcome _ _ _ _ _

theorem Outcome.wellKept {l : List Cred} (h : Outcome pf d creds l) (hw : WellKept creds) :
    WellKept l := by
  have hm : (creds.map Cred.data).map Cred.data = creds.map Cred.data := by
    rw [List.map_map]
    rfl
  cases h with
  | fewer h =>
    have hd : WellKept (l.map Cred.data) := (hw.congr hm.symm).sub h
    refine hd.congr ?_
    rw [List.map_map]
    rfl
  | added rest subject kp priv draws chain child hs hp hl =>
    have hr : WellKept rest := hw.sub (hs.trans List.eraseP_sublist)
    have hu : d.credid ∉ rest.map Cred.credid := by
      intro hc
      exact (uniqueCredid_iff _ _).mp (unique_remove hw.nodup d.credid) ((hs.map _).subset hc)
    obtain ⟨h1, h2⟩ := chooseCredid_spec pf draws hu
    refine (hr.snoc (newCred_proper subject chain child h1 hp) h2).congr ?_
    rw [List.map_append, hl]
    rfl

theorem ocSecDecodeCred_wellKept (s : State) (rep : List Rep) (fromStorage : Bool)
    (hw : WellKept (s.device device).creds.creds) :
    WellKept ((ocSecDecodeCred pf s rep fromStorage none device).2.2.device device).creds.creds := by
  unfold ocSecDecodeCred
  dsimp only
  split
  · show WellKept ((s.put device _).device device).creds.creds
    rw [State.put_device]
    rw [runUntil_items]
    refine runUntil_inv (fun r : CredRun => WellKept r.creds) (fun i _ r hr => ?_) hw
    cases i with
    | owner t => exact hr
    | entry props =>
      show WellKept (decodeCredEntry pf device (s.device device).di none props r).2.creds
      cases hd : props.foldlM decodeCredProp CredDraft.empty with
      | none =>
        unfold decodeCredEntry
        rw [hd]
        exact hr
      | some d =>
        by_cases hn : props = []
        · subst hn
          exact hr
        · have he := (decodeCredEntry_some pf device (s.device device).di (c := none) hd hn r).2
          rw [show (decodeCredEntry pf device (s.device device).di none props r).2.creds = _ from
            congrArg Stores.creds he]
          exact (addDeviceCred_outcome pf device (s.device device).di d r.creds r.draws).wellKept hr
  · exact hw

theorem Reachable.wellKept {cs : Creds} (h : Reachable pf device cs) : WellKept cs.creds := by
  induction h with
  | start => exact ⟨List.nodup_nil, List.forall_mem_nil _⟩
  | add cs di d draws _ ih => exact (addDeviceCred_outcome pf device di d cs.creds draws).wellKept ih
  | decode s rep fromStorage _ ih => exact ocSecDecodeCred_wellKept s rep fromStorage ih
  | remove cs id _ ih => exact ih.sub List.eraseP_sublist

end

/-! ## credentials that survive -/

/-- the private data survives: bytes in any case, a text without NUL; an identity certificate
without a key is given that of the device -/
def Cred.PrivateKept (pf : Platform) (device : Nat) (di : Uuid) (c : Cred) : Prop :=
  match c.privatedata.encoding with
  | .unsupported => c.privatedata.data = [] ∧ c.credusage ≠ .identityCert
  | .raw => c.privatedata.data ≠ [] ∨
    c.credusage = .identityCert ∧ di = c.subjectuuid ∧ pf.keypair device = some []
  | .der => c.privatedata.data ≠ []
  | .base64 | .pem => c.privatedata.data ≠ [] ∧ (0 : UInt8) ∉ c.privatedata.data

/-- the data of a credential survives -/
structure Cred.Kept (pf : Platform) (device : Nat) (di : Uuid) (c : Cred) : Prop where
  subject : c.subjectuuid.head = 42 → c.subjectuuid = Uuid.wildcard
  privatedata : c.PrivateKept pf device di
  publicdata : c.publicdata.encoding = .pem → (0 : UInt8) ∉ c.publicdata.data
  roleid : c.role = [] → c.authority = []

/-- of the same subject, type and usage -/
def Cred.alike (c e : Cred) : Bool :=
  e.subjectuuid = c.subjectuuid ∧ e.credtype = c.credtype ∧ e.credusage = c.credusage

def Cred.isAnchor (c : Cred) : Bool := c.credusage = .trustca ∨ c.credusage = .mfgTrustca

/-- the same certificate -/
def Cred.repeats (c e : Cred) : Prop :=
  c.publicdata.data ≠ [] ∧ c.publicdata.data = e.publicdata.data

/-- the credentials before a certificate do not get in its way: none of those alike is the same
trust anchor; the first of those alike is another certificate, and one of the two has a private key -/
def Admitted (pre : List Cred) (c : Cred) : Prop :=
  c.credtype = credtypeCert →
    if c.isAnchor then ∀ e ∈ pre, c.alike e = true → ¬ c.repeats e
    else ∀ e, pre.find? c.alike = some e →
      ¬ c.repeats e ∧ (e.privatedata.data ≠ [] ∨ c.privatedata.data ≠ [])

/-- every credential survives, behind those before it -/
def Storable (pf : Platform) (device : Nat) (di : Uuid) (creds : List Cred) : Prop :=
  ∀ pre c, pre ++ [c] <+: creds → c.Kept pf device di ∧ Admitted pre c

theorem admitted_congr {l m : List Cred} (h : l.map Cred.data = m.map Cred.data) (c : Cred)
    (hl : Admitted l c) : Admitted m c := by
  intro ht
  have h' := hl ht
  split at h' <;> rename_i ha
  · rw [if_pos ha]
    intro e he hk
    obtain ⟨e', he', hd⟩ := List.mem_map.mp (h ▸ List.mem_map_of_mem he : e.data ∈ l.map Cred.data)
    have hk' : c.alike e' = true := by
      rw [show c.alike e' = c.alike e'.data from rfl, hd]
      exact hk
    have hn := h' e' he' hk'
    rw [show c.repeats e' = c.repeats e'.data from rfl, hd] at hn
    exact hn
  · rw [if_neg ha]
    intro e he
    have hf : (l.find? c.alike).map Cred.data = (m.find? c.alike).map Cred.data := by
      have hc : c.alike = c.alike ∘ Cred.data := rfl
      rw [hc, ← List.find?_map, ← List.find?_map, h]
    rw [he] at hf
    cases hx : l.find? c.alike with
    | none => rw [hx] at hf; cases hf
    | some e' =>
      rw [hx] at hf
      have hd : e'.data = e.data := Option.some.inj hf
      have hn := h' e' hx
      rw [show c.repeats e' = c.repeats e'.data from rfl,
        show e'.privatedata = e'.data.privatedata from rfl, hd] at hn
      exact hn

/-- a credential that the search passes by does not matter -/
theorem admitted_cons {c e : Cred} {pre : List Cred}
    (h : c.credtype = credtypeCert → c.alike e = false ∨ c.isAnchor = true ∧ ¬ c.repeats e) :
    Admitted (e :: pre) c ↔ Admitted pre c := by
  refine forall_congr' fun ht => ?_
  rcases h ht with h | ⟨ha, hr⟩
  · have hn : ¬ c.alike e = true := Bool.eq_false_iff.mp h
    split
    · exact ⟨fun hx x hm => hx x (List.mem_cons_of_mem _ hm), fun hx => List.forall_mem_cons.mpr
        ⟨fun hk => absurd hk hn, hx⟩⟩
    · rw [List.find?_cons_of_neg hn]
  · rw [if_pos ha, if_pos ha]
    exact ⟨fun hx x hm => hx x (List.mem_cons_of_mem _ hm), fun hx => List.forall_mem_cons.mpr
      ⟨fun _ => hr, hx⟩⟩

/-- what the search makes of a credential, in terms of the credentials before it -/
def Search.Finds (pre : List Cred) (c : Cred) : Search → Prop
  | .fresh => Admitted pre c
  | .replaced _ => False
  | .duplicate _ => ¬ Admitted pre c
  | .chain _ e => Admitted pre c ↔ e.privatedata.data ≠ [] ∨ c.privatedata.data ≠ []

theorem Search.Finds.cons {pre : List Cred} {c e : Cred} {x : Search}
    (h : c.credtype = credtypeCert → c.alike e = false ∨ c.isAnchor = true ∧ ¬ c.repeats e)
    (hx : x.Finds pre c) : x.Finds (e :: pre) c := by
  have ha : Admitted (e :: pre) c ↔ Admitted pre c := admitted_cons h
  cases x with
  | fresh => exact ha.mpr hx
  | replaced i => exact hx
  | duplicate id => exact fun h => hx (ha.mp h)
  | chain i c => exact ha.trans hx

theorem searchCreds_finds {d : CredDraft} {c : Cred} (ht : d.credtype = c.credtype)
    (hu : d.credusage = c.credusage) (hp : d.publicdata.data = c.publicdata.data) {pre : List Cred}
    (hid : uniqueCredid d.credid pre = true) (i : Nat) :
    (searchCreds d c.subjectuuid i pre).Finds pre c := by
  induction pre generalizing i with
  | nil =>
    intro _
    split
    · exact List.forall_mem_nil _
    · rintro e he
      cases he
  | cons e pre ih =>
    rw [uniqueCredid, List.any_cons, Bool.not_or, Bool.and_eq_true] at hid
    have hc : ¬ e.credid = d.credid := by simpa using hid.1
    have hrest := ih hid.2 (i + 1)
    unfold searchCreds
    rw [if_neg hc, ht, hu, hp]
    split
    · next hs =>
      split
      · next hk =>
        have hal : c.alike e = true := decide_eq_true ⟨hs.1, hs.2, hk.2⟩
        split
        · next hd =>
          -- the same certificate
          intro ha
          have h' := ha hk.1
          split at h'
          · exact h' e List.mem_cons_self hal hd
          · exact (h' e (List.find?_cons_of_pos hal)).1 hd
        · next hd =>
          split
          · next hna =>
            have han : ¬ c.isAnchor = true := by
              intro h
              rw [hk.2] at hna
              rcases of_decide_eq_true h with h | h
              · exact hna.1 h
              · exact hna.2 h
            constructor
            · intro ha
              have h' := ha hk.1
              rw [if_neg han] at h'
              exact (h' e (List.find?_cons_of_pos hal)).2
            · intro hl _
              rw [if_neg han]
              intro x hx
              cases (List.find?_cons_of_pos hal).symm.trans hx
              exact ⟨hd, hl⟩
          · next hna =>
            refine hrest.cons fun _ => Or.inr ⟨?_, hd⟩
            rw [hk.2] at hna
            exact decide_eq_true (by tauto)
      · next hk =>
        refine hrest.cons fun hcert => Or.inl (decide_eq_false fun h => hk ⟨hcert, h.2.2⟩)
    · next hs =>
      exact hrest.cons fun _ => Or.inl (decide_eq_false fun h => hs ⟨h.1, h.2.1⟩)

/-! ## one credential read back -/

/-- the subject as it is read back -/
def restoredSubject (u : Uuid) : Uuid := if u.head = 42 then Uuid.wildcard else u

theorem draftOf_subject (c : Cred) : (draftOf c).subject = some (restoredSubject c.subjectuuid) := by
  show some (if (subjectText c.subjectuuid).head? = some 42 then Uuid.wildcard
    else ocStrToUuid (subjectText c.subjectuuid) Uuid.nil) = _
  unfold restoredSubject subjectText
  by_cases h : c.subjectuuid.head = 42
  · rw [if_pos h, if_pos h]
    rfl
  · rw [if_neg h, if_neg h, if_neg (head_ocUuidToStr _), ocStrToUuid_ocUuidToStr]

theorem restoredSubject_iff (u : Uuid) : restoredSubject u = u ↔ (u.head = 42 → u = Uuid.wildcard) := by
  unfold restoredSubject
  by_cases h : u.head = 42
  · rw [if_pos h]
    exact ⟨fun he _ => he.symm, fun he => (he h).symm⟩
  · rw [if_neg h]
    exact ⟨fun _ hc => absurd hc h, fun _ => rfl⟩

theorem storedPublic_iff {c : Cred} (hc : c.Proper) : (draftOf c).storedPublic = c.publicdata ↔
    (c.publicdata.encoding = .pem → (0 : UInt8) ∉ c.publicdata.data) := by
  show (if (restoredPublic c.publicdata).data = [] then CredData.none
    else restoredPublic c.publicdata) = _ ↔ _
  have hp := hc.publicdata
  generalize c.publicdata = x at hp
  obtain ⟨data, e⟩ := x
  unfold restoredPublic
  dsimp only at hp ⊢
  by_cases hd : data = []
  · rw [if_pos hd, ite_self, hp hd, hd]
    exact ⟨fun _ _ => List.not_mem_nil, fun _ => rfl⟩
  · rw [if_neg hd]
    by_cases he : e = .pem
    · rw [if_pos he, ← cstr_eq_self_iff]
      constructor
      · intro h _
        split at h
        · have hx := congrArg CredData.encoding h
          rw [he] at hx
          cases hx
        · exact congrArg CredData.data h
      · intro h
        rw [h he, if_neg hd]
    · rw [if_neg he, if_neg hd]
      exact ⟨fun _ hx => absurd hx he, fun _ => rfl⟩

/-- a text of an encoding that has a name -/
theorem storedPrivate_text {c : Cred} (hc : c.Proper) (kp : Option Bytes)
    (he : c.privatedata.encoding = .base64 ∨ c.privatedata.encoding = .pem) :
    (draftOf c).storedPrivate kp = some c.privatedata ↔
      c.privatedata.data ≠ [] ∧ (0 : UInt8) ∉ c.privatedata.data := by
  have hr : restoredPrivate c.privatedata = ⟨cstr c.privatedata.data, c.privatedata.encoding⟩ := by
    unfold restoredPrivate
    rcases he with h | h
    · rw [h]
      rfl
    · rw [h]
      rfl
  have hpsk : ¬ (c.credtype = credtypePsk ∧ c.privatedata.encoding = .base64) :=
    fun h => hc.psk h.1 h.2
  unfold CredDraft.storedPrivate
  rw [show (draftOf c).privatedata = _ from hr, show (draftOf c).credtype = c.credtype from rfl]
  by_cases h0 : cstr c.privatedata.data = []
  · rw [if_pos h0]
    constructor
    · intro h
      have hx : c.privatedata.encoding = .raw ∨ c.privatedata.encoding = .unsupported := by
        cases kp with
        | none => exact Or.inr (congrArg CredData.encoding (Option.some.inj h)).symm
        | some key => exact Or.inl (congrArg CredData.encoding (Option.some.inj h)).symm
      rcases he with h | h
      · rw [h] at hx
        rcases hx with hx | hx
        · cases hx
        · cases hx
      · rw [h] at hx
        rcases hx with hx | hx
        · cases hx
        · cases hx
    · rintro ⟨hn, hz⟩
      rw [(cstr_eq_self_iff _).mpr hz] at h0
      exact absurd h0 hn
  · rw [if_neg h0, if_neg hpsk]
    constructor
    · intro h
      have hx := congrArg CredData.data (Option.some.inj h)
      refine ⟨fun hn => h0 ?_, (cstr_eq_self_iff _).mp hx⟩
      rw [hn]
      rfl
    · rintro ⟨-, hz⟩
      rw [(cstr_eq_self_iff _).mpr hz]

/-- the key pair that a credential is read back with -/
def kpOf (pf : Platform) (device : Nat) (c : Cred) : Option Bytes :=
  if (draftOf c).needsKeypair then pf.keypair device else none

/-- without bytes an identity certificate takes the key of the device, another one has none -/
theorem storedPrivate_empty {pf : Platform} {device : Nat} {di : Uuid} {c : Cred}
    (hk : (draftOf c).needsKeypair = true → di = c.subjectuuid ∧ pf.keypair device ≠ none)
    (hd : (restoredPrivate c.privatedata).data = []) :
    (c.credusage = .identityCert ∧ di = c.subjectuuid ∧ ∃ key, pf.keypair device = some key ∧
      (draftOf c).storedPrivate (kpOf pf device c) = some ⟨key, .raw⟩) ∨
    c.credusage ≠ .identityCert ∧
      (draftOf c).storedPrivate (kpOf pf device c) = some CredData.none := by
  have hsome (key : Bytes) : (draftOf c).storedPrivate (some key) = some ⟨key, .raw⟩ := if_pos hd
  have hnone : (draftOf c).storedPrivate none = some CredData.none := if_pos hd
  by_cases hi : c.credusage = .identityCert
  · have hn : (draftOf c).needsKeypair = true := decide_eq_true ⟨hi, hd⟩
    obtain ⟨h1, h2⟩ := hk hn
    obtain ⟨key, hkey⟩ := Option.ne_none_iff_exists'.mp h2
    rw [show kpOf pf device c = some key from (if_pos hn).trans hkey]
    exact Or.inl ⟨hi, h1, key, hkey, hsome key⟩
  · have hn : ¬ (draftOf c).needsKeypair = true := fun h => hi (of_decide_eq_true h).1
    rw [show kpOf pf device c = none from if_neg hn]
    exact Or.inr ⟨hi, hnone⟩

/-- bytes are stored as they are, but for the key of a PSK in Base64 -/
theorem storedPrivate_bytes {c : Cred} (kp : Option Bytes) (hd : (restoredPrivate c.privatedata).data ≠ [])
    (he : (restoredPrivate c.privatedata).encoding ≠ .base64) :
    (draftOf c).storedPrivate kp = some (restoredPrivate c.privatedata) := by
  unfold CredDraft.storedPrivate
  exact (if_neg hd).trans (if_neg fun h => he h.2)

theorem restoredPrivate_binary {x : CredData} (h : x.encoding = .raw ∨ x.encoding = .der) :
    restoredPrivate x = x := by
  have hu : x.encoding ≠ .unsupported := by
    rcases h with h | h
    · rw [h]
      exact Encoding.noConfusion
    · rw [h]
      exact Encoding.noConfusion
  unfold restoredPrivate
  rw [if_pos h, if_neg hu]

theorem restoredPrivate_unsupported {x : CredData} (h : x.encoding = .unsupported) :
    restoredPrivate x = ⟨cstr x.data, .raw⟩ := by
  unfold restoredPrivate
  rw [h]
  rfl

/-- data of another encoding is other data -/
theorem CredData.some_ne {x y : CredData} (h : y.encoding ≠ x.encoding) : some x ≠ some y :=
  fun hxy => h (congrArg CredData.encoding (Option.some.inj hxy)).symm

section
variable {pf : Platform} {device : Nat} {di : Uuid} {c : Cred}
  (hk : (draftOf c).needsKeypair = true → di = c.subjectuuid ∧ pf.keypair device ≠ none)
include hk

/-- a credential without an encoding comes back without one only if it has no data -/
theorem storedPrivate_unsupported (he : c.privatedata.encoding = .unsupported) :
    (draftOf c).storedPrivate (kpOf pf device c) = some c.privatedata ↔
      c.privatedata.data = [] ∧ c.credusage ≠ .identityCert := by
  have hr := restoredPrivate_unsupported he
  have hraw : ∀ data, some (⟨data, .raw⟩ : CredData) ≠ some c.privatedata := fun _ =>
    CredData.some_ne (by rw [he]; exact Encoding.noConfusion)
  by_cases hz : cstr c.privatedata.data = []
  · rcases storedPrivate_empty hk (by rw [hr]; exact hz) with ⟨hi, -, key, -, hs⟩ | ⟨hi, hs⟩
    · rw [hs]
      exact iff_of_false (hraw key) fun h => h.2 hi
    · rw [hs]
      constructor
      · intro h
        exact ⟨(congrArg CredData.data (Option.some.inj h)).symm, hi⟩
      · rintro ⟨h, -⟩
        have hx : c.privatedata = ⟨c.privatedata.data, c.privatedata.encoding⟩ := rfl
        rw [hx, h, he]
        rfl
  · rw [storedPrivate_bytes _ (by rw [hr]; exact hz) (by rw [hr]; exact Encoding.noConfusion), hr]
    refine iff_of_false (hraw _) fun h => hz ?_
    rw [h.1]
    rfl

/-- raw data without bytes comes back if it is the key of the device -/
theorem storedPrivate_raw (he : c.privatedata.encoding = .raw) :
    (draftOf c).storedPrivate (kpOf pf device c) = some c.privatedata ↔
      c.privatedata.data ≠ [] ∨
        c.credusage = .identityCert ∧ di = c.subjectuuid ∧ pf.keypair device = some [] := by
  have hr : restoredPrivate c.privatedata = c.privatedata := restoredPrivate_binary (Or.inl he)
  by_cases hz : c.privatedata.data = []
  · rcases storedPrivate_empty hk (by rw [hr]; exact hz) with ⟨hi, hdi, key, hkey, hs⟩ | ⟨hi, hs⟩
    · rw [hs, hkey]
      constructor
      · intro h
        have hx : key = [] := (congrArg CredData.data (Option.some.inj h)).trans hz
        exact Or.inr ⟨hi, hdi, by rw [hx]⟩
      · rintro (h | ⟨-, -, h⟩)
        · exact absurd hz h
        · cases h
          have hx : c.privatedata = ⟨c.privatedata.data, c.privatedata.encoding⟩ := rfl
          rw [hx, hz, he]
    · rw [hs]
      refine iff_of_false (CredData.some_ne (by rw [he]; exact Encoding.noConfusion)) ?_
      rintro (h | ⟨h, -⟩)
      · exact h hz
      · exact hi h
  · rw [storedPrivate_bytes _ (by rw [hr]; exact hz) (by rw [hr, he]; exact Encoding.noConfusion), hr]
    exact ⟨fun _ => Or.inl hz, fun _ => rfl⟩

theorem storedPrivate_der (he : c.privatedata.encoding = .der) :
    (draftOf c).storedPrivate (kpOf pf device c) = some c.privatedata ↔ c.privatedata.data ≠ [] := by
  have hr : restoredPrivate c.privatedata = c.privatedata := restoredPrivate_binary (Or.inr he)
  by_cases hz : c.privatedata.data = []
  · refine iff_of_false ?_ fun h => h hz
    rcases storedPrivate_empty hk (by rw [hr]; exact hz) with ⟨-, -, key, -, hs⟩ | ⟨-, hs⟩
    · rw [hs]
      exact CredData.some_ne (by rw [he]; exact Encoding.noConfusion)
    · rw [hs]
      exact CredData.some_ne (by rw [he]; exact Encoding.noConfusion)
  · rw [storedPrivate_bytes _ (by rw [hr]; exact hz) (by rw [hr, he]; exact Encoding.noConfusion), hr]
    exact ⟨fun _ => hz, fun _ => rfl⟩

theorem storedPrivate_iff (hc : c.Proper) :
    (draftOf c).storedPrivate (kpOf pf device c) = some c.privatedata ↔
      c.PrivateKept pf device di := by
  unfold Cred.PrivateKept
  cases he : c.privatedata.encoding with
  | base64 => exact storedPrivate_text hc _ (Or.inl he)
  | pem => exact storedPrivate_text hc _ (Or.inr he)
  | unsupported => exact storedPrivate_unsupported hk he
  | raw => exact storedPrivate_raw hk he
  | der => exact storedPrivate_der hk he

end

theorem newCred_data_iff {c : Cred} (hc : c.Proper) (subject : Uuid) (priv : CredData)
    (chain child : Option Int) :
    (newCred (draftOf c) subject priv c.credid chain child).data = c.data ↔
      subject = c.subjectuuid ∧ priv = c.privatedata ∧ (draftOf c).storedPublic = c.publicdata ∧
        (c.role = [] → c.authority = []) := by
  have hrole : ((draftOf c).role.map cstr).getD [] = c.role := by
    show ((if c.role = [] then none else some (cstr c.role)).map cstr).getD [] = c.role
    split
    · next h => exact h.symm
    · show cstr (cstr c.role) = c.role
      rw [(cstr_eq_self_iff _).mpr hc.role, (cstr_eq_self_iff _).mpr hc.role]
  have hauth : (if (draftOf c).role = none then [] else ((draftOf c).authority.map cstr).getD []) =
      if c.role = [] then [] else c.authority := by
    unfold draftOf
    dsimp only
    by_cases h : c.role = []
    · rw [if_pos h, if_pos rfl, if_pos h]
    · rw [if_neg h, if_neg (Option.some_ne_none _), if_neg h]
      split
      · next h' => exact (h'.resolve_left h).symm
      · show cstr (cstr c.authority) = c.authority
        rw [(cstr_eq_self_iff _).mpr hc.authority, (cstr_eq_self_iff _).mpr hc.authority]
  have he : (newCred (draftOf c) subject priv c.credid chain child).data =
      { c.data with
        subjectuuid := subject, privatedata := priv, publicdata := (draftOf c).storedPublic
        authority := if c.role = [] then [] else c.authority } := by
    unfold newCred Cred.data
    rw [hrole, hauth]
    rfl
  rw [he]
  constructor
  · intro h
    refine ⟨congrArg Cred.subjectuuid h, congrArg Cred.privatedata h, congrArg Cred.publicdata h,
      fun hr => ?_⟩
    have ha : (if c.role = [] then [] else c.authority) = c.authority := congrArg Cred.authority h
    rw [if_pos hr] at ha
    exact ha.symm
  · rintro ⟨rfl, rfl, h3, h4⟩
    have ha : (if c.role = [] then [] else c.authority) = c.authority := by
      split
      · next hr => exact (h4 hr).symm
      · rfl
    rw [h3, ha]
    rfl

section
variable {pf : Platform} {device : Nat} {di : Uuid} {c : Cred} {pre creds : List Cred}

theorem Cred.Kept.restoredPrivate_data (h : c.Kept pf device di) :
    (restoredPrivate c.privatedata).data = c.privatedata.data := by
  have hp := h.privatedata
  unfold Cred.PrivateKept at hp
  unfold restoredPrivate
  cases he : c.privatedata.encoding with
  | raw => rfl
  | der => rfl
  | unsupported =>
    rw [he] at hp
    show cstr c.privatedata.data = _
    rw [hp.1]
    rfl
  | base64 =>
    rw [he] at hp
    exact (cstr_eq_self_iff _).mpr hp.2
  | pem =>
    rw [he] at hp
    exact (cstr_eq_self_iff _).mpr hp.2

theorem Cred.Kept.restoredPublic_data (h : c.Kept pf device di) :
    (restoredPublic c.publicdata).data = c.publicdata.data := by
  unfold restoredPublic
  split
  · next hd => exact hd.symm
  · show (if c.publicdata.encoding = .pem then cstr c.publicdata.data else c.publicdata.data) = _
    split
    · next he => exact (cstr_eq_self_iff _).mpr (h.publicdata he)
    · rfl

theorem Cred.Kept.suited (h : c.Kept pf device di) (hn : (draftOf c).needsKeypair = true) :
    di = c.subjectuuid ∧ pf.keypair device ≠ none := by
  obtain ⟨hi, hd⟩ := of_decide_eq_true hn
  replace hi : c.credusage = .identityCert := hi
  replace hd : c.privatedata.data = [] := h.restoredPrivate_data.symm.trans hd
  have hp := h.privatedata
  unfold Cred.PrivateKept at hp
  cases he : c.privatedata.encoding with
  | unsupported => rw [he] at hp; exact absurd hi hp.2
  | raw =>
    rw [he] at hp
    rcases hp with hp | ⟨-, h1, h2⟩
    · exact absurd hd hp
    · exact ⟨h1, by rw [h2]; exact Option.some_ne_none _⟩
  | der => rw [he] at hp; exact absurd hd hp
  | base64 => rw [he] at hp; exact absurd hd hp.1
  | pem => rw [he] at hp; exact absurd hd hp.1

/-- the credential that is stored is the one that was written iff its data survives -/
theorem newCred_kept_iff (hc : c.Proper) (hk : (draftOf c).needsKeypair = true →
      di = restoredSubject c.subjectuuid ∧ pf.keypair device ≠ none) {priv : CredData}
    (hp : (draftOf c).storedPrivate (kpOf pf device c) = some priv) (chain child : Option Int) :
    (newCred (draftOf c) (restoredSubject c.subjectuuid) priv c.credid chain child).data = c.data ↔
      c.Kept pf device di := by
  rw [newCred_data_iff hc, restoredSubject_iff, storedPublic_iff hc]
  constructor
  · rintro ⟨h1, rfl, h3, h4⟩
    rw [(restoredSubject_iff _).mpr h1] at hk
    exact ⟨h1, (storedPrivate_iff hk hc).mp hp, h3, h4⟩
  · intro h
    refine ⟨h.subject, ?_, h.publicdata, h.roleid⟩
    have hs := (storedPrivate_iff h.suited hc).mpr h.privatedata
    exact Option.some.inj (hp.symm.trans hs)

theorem snoc_data_iff {l : List Cred} (hl : l.map Cred.data = pre.map Cred.data) (x : Cred) :
    (l ++ [x]).map Cred.data = (pre ++ [c]).map Cred.data ↔ x.data = c.data := by
  rw [List.map_append, List.map_append, hl, List.append_cancel_left_eq]
  simp

/-- The credential is added, with the data that it had, if and only if it survives and is admitted. -/
def Restores (pf : Platform) (device : Nat) (di : Uuid) (pre : List Cred) (c : Cred)
    (x : Int × List Cred × Nat) : Prop :=
  (x.1 ≠ -1 ∧ x.2.1.map Cred.data = (pre ++ [c]).map Cred.data) ↔ c.Kept pf device di ∧ Admitted pre c

theorem restores_refused (hd : creds.map Cred.data = pre.map Cred.data) {x : Int × List Cred × Nat}
    (hx : x.1 = -1) (hn : c.Kept pf device di → ¬ Admitted creds c) : Restores pf device di pre c x :=
  ⟨fun h => absurd hx h.1, fun h => absurd (admitted_congr hd.symm c h.2) (hn h.1)⟩

/-- a key that is refused is not the one that was written -/
theorem restores_keyless (hd : creds.map Cred.data = pre.map Cred.data) (hc : c.Proper)
    {x : Int × List Cred × Nat} (hx : x.1 = -1)
    (hp : (draftOf c).storedPrivate (kpOf pf device c) = none) : Restores pf device di pre c x := by
  refine restores_refused hd hx fun h => ?_
  have hs := (storedPrivate_iff h.suited hc).mpr h.privatedata
  exact absurd (hp.symm.trans hs) (Option.some_ne_none _).symm

section
variable (hd : creds.map Cred.data = pre.map Cred.data) (hc : c.Proper)
  (hk : (draftOf c).needsKeypair = true → di = restoredSubject c.subjectuuid ∧ pf.keypair device ≠ none)
include hd hc hk

/-- the new credential goes to the end of the list -/
theorem restores_added {priv : CredData} (hp : (draftOf c).storedPrivate (kpOf pf device c) = some priv)
    {l : List Cred} (hl : l.map Cred.data = creds.map Cred.data) (chain child : Option Int) (draws : Nat)
    (ha : c.Kept pf device di → Admitted creds c) : Restores pf device di pre c (c.credid, l ++
      [newCred (draftOf c) (restoredSubject c.subjectuuid) priv c.credid chain child], draws) := by
  unfold Restores
  rw [snoc_data_iff (hl.trans hd), newCred_kept_iff hc hk hp]
  exact ⟨fun h => ⟨h.2, admitted_congr hd c (ha h.2)⟩, fun h => ⟨hc.credid, h.1⟩⟩

theorem storeCred_restores (draws : Nat) (ha : c.Kept pf device di → Admitted creds c) : Restores pf device di pre c
    (storeCred pf (draftOf c) (restoredSubject c.subjectuuid) (kpOf pf device c) creds draws) := by
  unfold storeCred
  rw [show chooseCredid pf (draftOf c).credid creds draws = (c.credid, draws) from if_neg hc.credid]
  cases hp : (draftOf c).storedPrivate (kpOf pf device c) with
  | none => exact restores_keyless hd hc rfl hp
  | some priv => exact restores_added hd hc hk hp rfl none none draws ha

theorem storeInChain_restores (i : Nat) (e : Cred) (draws : Nat)
    (ha : c.Kept pf device di →
      (Admitted creds c ↔ e.privatedata.data ≠ [] ∨ c.privatedata.data ≠ [])) :
    Restores pf device di pre c (storeInChain pf (draftOf c) (restoredSubject c.subjectuuid)
      (kpOf pf device c) i e creds draws) := by
  unfold storeInChain
  rw [show chooseCredid pf (draftOf c).credid creds draws = (c.credid, draws) from if_neg hc.credid]
  cases hp : (draftOf c).storedPrivate (kpOf pf device c) with
  | none => exact restores_keyless hd hc rfl hp
  | some priv =>
    dsimp only
    by_cases he : e.privatedata.data ≠ []
    · rw [if_pos he]
      refine restores_added hd hc hk hp ?_ none (some e.credid) draws fun h => (ha h).mpr (Or.inl he)
      apply Scan.map_modify_same
      exact fun _ => rfl
    rw [if_neg he]
    by_cases hl : (draftOf c).privatedata.data ≠ []
    · rw [if_pos hl]
      refine restores_added hd hc hk hp ?_ (some e.credid) none draws fun h => ?_
      · apply Scan.map_modify_same
        exact fun _ => rfl
      · exact (ha h).mpr (Or.inr (h.restoredPrivate_data ▸ hl))
    · rw [if_neg hl]
      refine restores_refused hd rfl fun h hadm => ?_
      rcases (ha h).mp hadm with hx | hx
      · exact he hx
      · exact hl (h.restoredPrivate_data.symm ▸ hx)

end

theorem restore_step (hd : creds.map Cred.data = pre.map Cred.data) (hc : c.Proper)
    (hid : c.credid ∉ pre.map Cred.credid) (draws : Nat) :
    ((addDeviceCred pf device di (draftOf c) creds draws).1 ≠ -1 ∧
      (addDeviceCred pf device di (draftOf c) creds draws).2.1.map Cred.data =
        (pre ++ [c]).map Cred.data) ↔ c.Kept pf device di ∧ Admitted pre c := by
  have hu : uniqueCredid (draftOf c).credid creds = true := by
    rw [uniqueCredid_iff, data_credid, hd, ← data_credid]
    exact hid
  have hne : creds.map Cred.data ≠ (pre ++ [c]).map Cred.data := by
    intro h
    have h1 := congrArg List.length (hd.symm.trans h)
    simp only [List.length_map, List.length_append, List.length_singleton] at h1
    omega
  have hfinds (h : c.Kept pf device di) :
      (searchCreds (draftOf c) (restoredSubject c.subjectuuid) 0 creds).Finds creds c := by
    rw [(restoredSubject_iff _).mpr h.subject]
    exact searchCreds_finds rfl rfl h.restoredPublic_data hu 0
  by_cases hs : (draftOf c).needsKeypair ∧
      (di ≠ restoredSubject c.subjectuuid ∨ pf.keypair device = none)
  · have hun : (draftOf c).unsuited pf device di = true := by
      unfold CredDraft.unsuited
      rw [draftOf_subject]
      exact decide_eq_true hs
    rw [addDeviceCred_unsuited pf device di hun]
    refine ⟨fun h => absurd rfl h.1, fun h => ?_⟩
    obtain ⟨h1, h2⟩ := h.1.suited hs.1
    rw [(restoredSubject_iff _).mpr h.1.subject] at hs
    rcases hs.2 with hx | hx
    · exact absurd h1 hx
    · exact absurd hx h2
  · have hk (hn : (draftOf c).needsKeypair = true) :
        di = restoredSubject c.subjectuuid ∧ pf.keypair device ≠ none := by
      constructor
      · by_contra hx
        exact hs ⟨hn, Or.inl hx⟩
      · exact fun hx => hs ⟨hn, Or.inr hx⟩
    unfold addDeviceCred
    rw [draftOf_subject]
    dsimp only
    rw [if_neg hs, (removeCred_iff _ _).mpr hu,
      show (if (draftOf c).needsKeypair = true then pf.keypair device else none) =
        kpOf pf device c from rfl]
    cases hf : searchCreds (draftOf c) (restoredSubject c.subjectuuid) 0 creds with
    | replaced i => exact absurd hf (not_replaced hu)
    | duplicate id =>
      rw [hf] at hfinds
      exact ⟨fun h => absurd h.2 hne,
        fun h => absurd (admitted_congr hd.symm c h.2) (hfinds h.1)⟩
    | fresh =>
      rw [hf] at hfinds
      exact storeCred_restores hd hc hk draws hfinds
    | chain i e =>
      rw [hf] at hfinds
      exact storeInChain_restores hd hc hk i e draws hfinds

/-! ## the whole store -/

variable (pf device di) in
/-- a credential read back: it is added to the list -/
theorem decodeCredEntry_encode (c : Cred) (r : CredRun) :
    (decodeCredEntry pf device di none (encodeCredEntry true c) r).1 =
      decide ((addDeviceCred pf device di (draftOf c) r.creds r.draws).1 ≠ -1) ∧
    (decodeCredEntry pf device di none (encodeCredEntry true c) r).2.creds =
      (addDeviceCred pf device di (draftOf c) r.creds r.draws).2.1 := by
  have hn : encodeCredEntry true c ≠ [] := List.cons_ne_nil _ _
  obtain ⟨h1, h2⟩ := decodeCredEntry_some pf device di (c := none) (decode_encodeCredEntry c) hn r
  exact ⟨h1, congrArg Stores.creds h2⟩

/-- the credentials read back, one after the other -/
def restore (pf : Platform) (device : Nat) (di : Uuid) (creds : List Cred) (r : CredRun) :
    Bool × CredRun :=
  runUntil (decodeCredEntry pf device di none) (creds.map (encodeCredEntry true)) r

theorem restore_snoc (creds : List Cred) (c : Cred) (r : CredRun) :
    restore pf device di (creds ++ [c]) r =
      if (restore pf device di creds r).1 then
        decodeCredEntry pf device di none (encodeCredEntry true c) (restore pf device di creds r).2
      else restore pf device di creds r := by
  unfold restore
  rw [List.map_append, runUntil_append, List.map_singleton, runUntil_singleton]

theorem Outcome.length_le {d : CredDraft} {l : List Cred} (h : Outcome pf d creds l) :
    l.length ≤ creds.length + 1 := by
  cases h with
  | fewer h =>
    have hl := h.length_le
    rw [List.length_map, List.length_map] at hl
    omega
  | added rest subject kp priv draws chain child hs hp hl =>
    have h1 := congrArg List.length hl
    have h2 := (hs.trans List.eraseP_sublist).length_le
    rw [List.length_append, List.length_map, List.length_map, List.length_singleton] at h1
    omega

/-- a list that has grown holds all that it held before -/
theorem Outcome.grown {d : CredDraft} {l : List Cred} (h : Outcome pf d creds l)
    (hl : l.length = creds.length + 1) : ∃ x, l.map Cred.data = creds.map Cred.data ++ [x] := by
  cases h with
  | fewer h =>
    have hx := h.length_le
    rw [List.length_map, List.length_map] at hx
    omega
  | added rest subject kp priv draws chain child hs hp he =>
    have hsub := hs.trans List.eraseP_sublist
    have h1 := congrArg List.length he
    rw [List.length_append, List.length_map, List.length_map, List.length_singleton] at h1
    rw [hsub.eq_of_length (by omega)] at he
    exact ⟨_, he⟩

theorem restore_length (creds : List Cred) {r : CredRun} (hr : r.creds = []) :
    (restore pf device di creds r).2.creds.length ≤ creds.length := by
  induction creds using List.reverseRecOn with
  | nil => exact (congrArg List.length hr).le
  | append_singleton creds c ih =>
    rw [restore_snoc, List.length_append, List.length_singleton]
    split
    · rw [(decodeCredEntry_encode pf device di c _).2]
      have ho := (addDeviceCred_outcome pf device di (draftOf c)
        (restore pf device di creds r).2.creds (restore pf device di creds r).2.draws).length_le
      omega
    · omega

theorem storable_nil : Storable pf device di [] := by
  intro pre c h
  have hl := h.length_le
  rw [List.length_append, List.length_singleton, List.length_nil] at hl
  omega

theorem storable_snoc (creds : List Cred) (c : Cred) : Storable pf device di (creds ++ [c]) ↔
    Storable pf device di creds ∧ c.Kept pf device di ∧ Admitted creds c := by
  constructor
  · intro h
    exact ⟨fun pre x hx => h pre x (hx.trans (List.prefix_append _ _)), h creds c List.prefix_rfl⟩
  · rintro ⟨h, hc⟩ pre x hx
    rcases List.prefix_concat_iff.mp hx with he | he
    · obtain ⟨rfl, hxc⟩ := List.append_inj' he rfl
      cases hxc
      exact hc
    · exact h pre x he

theorem restore_iff {creds : List Cred} (hw : WellKept creds) {r : CredRun} (hr : r.creds = []) :
    ((restore pf device di creds r).1 = true ∧
      (restore pf device di creds r).2.creds.map Cred.data = creds.map Cred.data) ↔
      Storable pf device di creds := by
  induction creds using List.reverseRecOn with
  | nil =>
    refine ⟨fun _ => storable_nil, fun _ => ⟨rfl, ?_⟩⟩
    show r.creds.map Cred.data = _
    rw [hr]
  | append_singleton creds c ih =>
    have hw' : WellKept creds := hw.sub (List.sublist_append_left _ _)
    have hc : c.Proper := hw.proper c (List.mem_append_right _ (List.mem_singleton.mpr rfl))
    have hid : c.credid ∉ creds.map Cred.credid := by
      have hn := hw.nodup
      rw [List.map_append, List.nodup_append] at hn
      exact fun h => hn.2.2 _ h _ (List.mem_singleton.mpr rfl) rfl
    have hlen : (restore pf device di creds r).2.creds.length ≤ creds.length :=
      restore_length creds hr
    rw [storable_snoc, ← ih hw', restore_snoc]
    cases ha : (restore pf device di creds r).1 with
    | false =>
      rw [if_neg Bool.false_ne_true, ha]
      exact ⟨fun h => absurd h.1 Bool.false_ne_true, fun h => absurd h.1.1 Bool.false_ne_true⟩
    | true =>
      generalize (restore pf device di creds r).2 = r' at hlen ⊢
      obtain ⟨h1, h2⟩ := decodeCredEntry_encode pf device di c r'
      rw [if_pos rfl, h1, h2, decide_eq_true_iff]
      constructor
      · rintro ⟨hok, hl⟩
        -- as many credentials as steps: each step has added one and removed none
        have ho := addDeviceCred_outcome pf device di (draftOf c) r'.creds r'.draws
        have hn := congrArg List.length hl
        rw [List.length_map, List.length_map, List.length_append, List.length_singleton] at hn
        obtain ⟨x, hx⟩ := ho.grown (by have := ho.length_le; omega)
        rw [hx, List.map_append] at hl
        have hd : r'.creds.map Cred.data = creds.map Cred.data := (List.append_inj' hl rfl).1
        rw [← List.map_append, ← hx] at hl
        exact ⟨⟨rfl, hd⟩, (restore_step hd hc hid r'.draws).mp ⟨hok, hl⟩⟩
      · rintro ⟨⟨-, hd⟩, hk⟩
        exact (restore_step hd hc hid r'.draws).mpr hk

end

/-- reading back what was written succeeds, with the same credentials and the same rowneruuid -/
def Restored (pf : Platform) (s : State) (device : Nat) (cs : Creds) : Prop :=
  (ocSecDecodeCred pf s (ocSecEncodeCred true cs) true none device).1 = true ∧
    ((ocSecDecodeCred pf s (ocSecEncodeCred true cs) true none device).2.2.device device).creds.creds.map
      Cred.data = cs.creds.map Cred.data ∧
    ((ocSecDecodeCred pf s (ocSecEncodeCred true cs) true none device).2.2.device
      device).creds.rowneruuid = cs.rowneruuid

theorem credPropOk_storage (s : Dos) (t : Rep) : credPropOk true s t = true := by
  unfold credPropOk
  cases t.value with
  | string u => simp
  | objectArray objs => simp
  | _ => rfl

theorem decodeCred_stored (pf : Platform) (s : State) (device : Nat) (cs : Creds) :
    ∃ r, ocSecDecodeCred pf s (ocSecEncodeCred true cs) true none device =
        ((restore pf device (s.device device).di cs.creds (s.credRun device none)).1, r.owner,
          s.afterRun device none r) ∧
      r.creds = (restore pf device (s.device device).di cs.creds (s.credRun device none)).2.creds ∧
      ((restore pf device (s.device device).di cs.creds (s.credRun device none)).1 = true →
        r.rowneruuid = cs.rowneruuid) := by
  have hall : (ocSecEncodeCred true cs).all (credPropOk true (s.device device).pstat.s) = true :=
    List.all_eq_true.mpr fun t _ => credPropOk_storage _ t
  have hc (r : CredRun) : decodeCredRep pf device (s.device device).di none (.mk (ascii "creds")
      (.objectArray (cs.creds.map (encodeCredEntry true)))) r =
        restore pf device (s.device device).di cs.creds r := rfl
  have ho (r : CredRun) : decodeCredRep pf device (s.device device).di none
      (textProp "rowneruuid" (ocUuidToStr cs.rowneruuid)) r =
        (true, { r with rowneruuid := cs.rowneruuid }) := by
    show (true, { r with
      rowneruuid := ocStrToUuid (cstr (ocUuidToStr cs.rowneruuid)) r.rowneruuid }) = _
    rw [cstr_ocUuidToStr, ocStrToUuid_ocUuidToStr]
  unfold ocSecDecodeCred
  dsimp only
  rw [hall, if_pos (Bool.or_true _)]
  unfold ocSecEncodeCred
  rw [runUntil, hc, runUntil_singleton, ho]
  cases ha : (restore pf device (s.device device).di cs.creds (s.credRun device none)).1 with
  | false => exact ⟨_, rfl, rfl, fun h => absurd h Bool.false_ne_true⟩
  | true => exact ⟨_, rfl, rfl, fun _ => rfl⟩

theorem persisted_iff (pf : Platform) (device : Nat) {cs : Creds} (h : Reachable pf device cs)
    (s : State) (hs : (s.device device).creds.creds = []) :
    Restored pf s device cs ↔ Storable pf device (s.device device).di cs.creds := by
  obtain ⟨r, he, hc, ho⟩ := decodeCred_stored pf s device cs
  have hr : (s.credRun device none).creds = [] := hs
  have hd : (s.afterRun device none r).device device =
      { s.device device with creds := ⟨r.creds, r.rowneruuid⟩ } := State.put_device _ _ _
  unfold Restored
  rw [he, ← restore_iff h.wellKept hr]
  dsimp only
  rw [hd]
  dsimp only
  rw [hc]
  exact ⟨fun h => ⟨h.1, h.2.1⟩, fun h => ⟨h.1, h.2, ho h.1⟩⟩

/-! ## stores with one key -/

/-- a key of sixteen bytes for a peer -/
def keyDraft (subject : Bytes) : CredDraft :=
  { CredDraft.empty with
    credid := 1, credtype := credtypePsk, subjectuuid := some subject
    privatedata := ⟨List.replicate 16 7, .raw⟩ }

def keyStore (subject : Bytes) : Creds :=
  ⟨(addDeviceCred (plainPlatform 1) 0 Uuid.nil (keyDraft subject) [] 0).2.1, Uuid.nil⟩

theorem keyStore_reachable (subject : Bytes) : Reachable (plainPlatform 1) 0 (keyStore subject) :=
  .add ⟨[], Uuid.nil⟩ Uuid.nil (keyDraft subject) 0 .start

theorem persisted_key :
    Reachable (plainPlatform 1) 0 (keyStore (ascii "a0000000-0000-0000-0000-000000000000")) ∧
    (State.zero.device 0).creds.creds = [] ∧
    Restored (plainPlatform 1) State.zero 0
      (keyStore (ascii "a0000000-0000-0000-0000-000000000000")) := by
  have h := keyStore_reachable (ascii "a0000000-0000-0000-0000-000000000000")
  refine ⟨h, rfl, (persisted_iff (plainPlatform 1) 0 h State.zero rfl).mpr ?_⟩
  refine (storable_snoc [] _).mpr ⟨storable_nil, ⟨fun hs => ?_, ?_, fun he => ?_, fun _ => rfl⟩, ?_⟩
  · exact absurd hs (by decide +kernel)
  · exact Or.inl (List.cons_ne_nil _ _)
  · cases he
  · intro ht
    cases ht

/-- a peer whose uuid begins with the byte `2a` comes back as the wildcard -/
theorem not_persisted_asterisk :
    Reachable (plainPlatform 1) 0 (keyStore (ascii "2a000000-0000-0000-0000-000000000001")) ∧
    (State.zero.device 0).creds.creds = [] ∧
    ¬ Restored (plainPlatform 1) State.zero 0
      (keyStore (ascii "2a000000-0000-0000-0000-000000000001")) := by
  refine ⟨keyStore_reachable _, rfl, fun h => ?_⟩
  have hl := h.2.1
  revert hl
  decide +kernel

end Security
