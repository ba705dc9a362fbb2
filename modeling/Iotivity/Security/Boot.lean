import Iotivity.Lib.Flags
import Iotivity.Security.Operational
import Iotivity.Security.Persist

/-!
# Loading the devices: `oc_store.c`, `oc_main_init`

Storage holds one payload for each record of a device.  `oc_main_init` starts from zeroed records and
runs the decoders on what is there, the status first and the security profile last.  The decoder of
the profile is the one for network updates: it refuses everything in RFNOP, and a `currentprofile`
that is not among the supported profiles, of which the zeroed record has none.

* `load_status`            the status comes back as it was written;
* `profile_restored_iff`   a profile comes back only if it has no current profile.
-/

namespace Security

/-! ## writing -/

/-- the properties of the baseline interface of a security resource -/
def baselineProps (rt : String) : List Rep :=
  [.mk (ascii "rt") (.stringArray [ascii rt]),
    .mk (ascii "if") (.stringArray [ascii "oic.if.baseline"])]

/-- an array of texts; the parser takes an empty array for a value of no type -/
def arrayProp (name : String) (ss : List Bytes) : Rep :=
  .mk (ascii name) (if ss = [] then .nil else .stringArray ss)

/-- the number of a state -/
def Dos.toInt : Dos → Int
  | .reset => 0
  | .rfotm => 1
  | .rfpro => 2
  | .rfnop => 3
  | .sreset => 4
  | .other n => n

/-- `oc_sec_encode_pstat` -/
def ocSecEncodePstat (ps : Pstat) : List Rep :=
  baselineProps "oic.r.pstat" ++
  [.mk (ascii "dos") (.object [.mk (ascii "p") (.bool ps.p), .mk (ascii "s") (.int ps.s.toInt)]),
    .mk (ascii "cm") (.int ps.cm), .mk (ascii "tm") (.int ps.tm), .mk (ascii "om") (.int ps.om),
    .mk (ascii "sm") (.int ps.sm), .mk (ascii "isop") (.bool ps.isop),
    textProp "rowneruuid" (ocUuidToStr ps.rowneruuid)]

/-- `sp_to_string` -/
def spToString (sp : UInt32) : Option Bytes :=
  if sp = 2 then some (ascii "1.3.6.1.4.1.51414.0.0.1.0")
  else if sp = 4 then some (ascii "1.3.6.1.4.1.51414.0.0.2.0")
  else if sp = 8 then some (ascii "1.3.6.1.4.1.51414.0.0.3.0")
  else if sp = 16 then some (ascii "1.3.6.1.4.1.51414.0.0.4.0")
  else none

/-- the four profiles -/
def spFlags : List UInt32 := [2, 4, 8, 16]

/-- the supported profiles by name -/
def profileNames (supported : UInt32) : List Bytes :=
  Flags.names (fun p => (spToString p).getD []) spFlags supported

/-- `oc_sec_encode_sp`; a profile without a name is not written, and neither is the credid -1 -/
def ocSecEncodeSp (sp : Sp) : List Rep :=
  baselineProps "oic.r.sp" ++
  ((spToString sp.currentProfile).map (textProp "currentprofile")).toList ++
  [arrayProp "supportedprofiles" (profileNames sp.supportedProfiles)] ++
  if sp.credid = -1 then [] else [.mk (ascii "credid") (.int sp.credid)]

/-- what storage holds for one device -/
structure Stored where
  pstat : Option (List Rep)
  doxm : Option (List Rep)
  cred : Option (List Rep)
  acl : Option (List Rep)
  sp : Option (List Rep)

/-- what it holds for all of them -/
abbrev Storage := Nat → Stored

/-- `oc_sec_dump_pstat` -/
def ocSecDumpPstat (s : State) (st : Storage) (device : Nat) : Storage :=
  Function.update st device
    { st device with pstat := some (ocSecEncodePstat (s.device device).pstat) }

/-- `oc_sec_dump_sp` -/
def ocSecDumpSp (s : State) (st : Storage) (device : Nat) : Storage :=
  Function.update st device { st device with sp := some (ocSecEncodeSp (s.device device).sp) }

/-! ## reading -/

/-- `oc_sec_load_pstat` -/
def ocSecLoadPstat (pf : Platform) (s : State) (device : Nat) : Option (List Rep) → State
  | none => ocSecPstatDefault pf s device
  | some rep => (ocSecDecodePstat pf s rep true device).2

/-- `oc_sec_load_doxm` -/
def ocSecLoadDoxm (pf : Platform) (s : State) (device : Nat) (stored : Option (List Rep)) : State :=
  let s := match stored with
    | none => s
    | some rep => (ocSecDecodeDoxm pf s rep true device).2
  s.put device { s.device device with di := (s.device device).doxm.deviceuuid }

/-- `oc_sec_load_cred` -/
def ocSecLoadCred (pf : Platform) (s : State) (device : Nat) : Option (List Rep) → State
  | none => s
  | some rep => (ocSecDecodeCred pf s rep true none device).2.2

/-- `oc_sec_load_acl` -/
def ocSecLoadAcl (pf : Platform) (s : State) (device : Nat) : Option (List Rep) → State
  | none => s
  | some rep => (ocSecDecodeAcl pf s rep true device).2

/-- `oc_sec_load_sp` -/
def ocSecLoadSp (pf : Platform) (s : State) (device : Nat) : Option (List Rep) → State
  | none => s.put device { s.device device with sp := pf.spMfgDefault device }
  | some rep => (ocSecDecodeSp s rep device).2

/-- the body of the loop of `oc_main_init` -/
def loadDevice (pf : Platform) (st : Storage) (s : State) (device : Nat) : State :=
  let s := ocSecLoadPstat pf s device (st device).pstat
  let s := ocSecLoadDoxm pf s device (st device).doxm
  let s := ocSecLoadCred pf s device (st device).cred
  let s := ocSecLoadAcl pf s device (st device).acl
  ocSecLoadSp pf s device (st device).sp

/-- `oc_main_init` -/
def ocMainInit (pf : Platform) (st : Storage) : State :=
  (List.range pf.numDevices).foldl (loadDevice pf st) State.zero

/-! ## one device at a time -/

section
variable {pf : Platform} {s : State} {d : Nat}

theorem loadPstat_ne {k : Nat} (x : Option (List Rep)) (h : k ≠ d) :
    (ocSecLoadPstat pf s d x).device k = s.device k := by
  cases x with
  | none => exact (handled pf s d _).frame h
  | some rep =>
    show (ocSecDecodePstat pf s rep true d).2.device k = _
    unfold ocSecDecodePstat
    split
    · rfl
    · rw [if_pos (Or.inl rfl), if_neg fun hc => hc.1 rfl]
      exact State.put_device_ne s _ h

theorem loadDoxm_ne {k : Nat} (x : Option (List Rep)) (h : k ≠ d) :
    (ocSecLoadDoxm pf s d x).device k = s.device k := by
  refine (State.put_device_ne _ _ h).trans ?_
  cases x with
  | none => rfl
  | some rep => exact (decodeDoxm_framed pf s d true rep).others k h

theorem loadCred_ne {k : Nat} (x : Option (List Rep)) (h : k ≠ d) :
    (ocSecLoadCred pf s d x).device k = s.device k := by
  cases x with
  | none => rfl
  | some rep => exact (decodeCred_framed pf s d true none rep).others k h

theorem loadAcl_ne {k : Nat} (x : Option (List Rep)) (h : k ≠ d) :
    (ocSecLoadAcl pf s d x).device k = s.device k := by
  cases x with
  | none => rfl
  | some rep => exact (decodeAcl_framed pf s d true rep).others k h

theorem loadSp_ne {k : Nat} (x : Option (List Rep)) (h : k ≠ d) :
    (ocSecLoadSp pf s d x).device k = s.device k := by
  cases x with
  | none => exact State.put_device_ne s _ h
  | some rep => exact (decodeSp_framed s d rep).others k h

theorem loadDevice_ne {st : Storage} {k : Nat} (h : k ≠ d) :
    (loadDevice pf st s d).device k = s.device k := by
  unfold loadDevice
  dsimp only
  rw [loadSp_ne _ h, loadAcl_ne _ h, loadCred_ne _ h, loadDoxm_ne _ h, loadPstat_ne _ h]

/-- a device is loaded into its zeroed records, and not touched again -/
theorem ocMainInit_device (pf : Platform) (st : Storage) (h : d < pf.numDevices) :
    ∃ s : State, s.device d = Device.zero ∧
      (ocMainInit pf st).device d = (loadDevice pf st s d).device d := by
  have hrun : ∀ n, (n ≤ d → ((List.range n).foldl (loadDevice pf st) State.zero).device d =
      Device.zero) ∧ (d < n → ∃ s : State, s.device d = Device.zero ∧
        ((List.range n).foldl (loadDevice pf st) State.zero).device d =
          (loadDevice pf st s d).device d) := by
    intro n
    induction n with
    | zero => exact ⟨fun _ => rfl, fun h => absurd h (Nat.not_lt_zero d)⟩
    | succ n ih =>
      rw [List.range_succ, List.foldl_append, List.foldl_cons, List.foldl_nil]
      refine ⟨fun hn => ?_, fun hn => ?_⟩
      · rw [loadDevice_ne (by omega)]
        exact ih.1 (by omega)
      · by_cases he : d = n
        · subst he
          exact ⟨_, ih.1 (Nat.le_refl d), rfl⟩
        · rw [loadDevice_ne he]
          exact ih.2 (by omega)
  exact (hrun pf.numDevices).2 h

/-! ## the status -/

theorem Dos.ofInt_eq_rfnop (n : Int) : Dos.ofInt n = .rfnop ↔ n = 3 := by
  unfold Dos.ofInt
  split
  · next h => simp [h]
  split
  · next h => simp [h]
  split
  · next h => simp [h]
  split
  · next h => simp [h]
  split
  · next h => simp [h]
  · next h3 _ => simp [h3]

/-- the status comes back, but for the flag `p` -/
theorem load_status (ps : Pstat) :
    (ocSecLoadPstat pf s d (some (ocSecEncodePstat ps))).device d =
      (s.device d).withPstat { ps with
        p := (s.device d).pstat.p, s := Dos.ofInt ps.s.toInt } := by
  have hd : (ocSecEncodePstat ps).foldlM (decodePstatProp true) ⟨(s.device d).pstat, false⟩ =
      some ⟨{ ps with
        p := (s.device d).pstat.p, s := Dos.ofInt ps.s.toInt
        rowneruuid := ocStrToUuid (cstr (ocUuidToStr ps.rowneruuid)) (s.device d).pstat.rowneruuid },
        true⟩ := rfl
  rw [cstr_ocUuidToStr, ocStrToUuid_ocUuidToStr] at hd
  show (ocSecDecodePstat pf s (ocSecEncodePstat ps) true d).2.device d = _
  unfold ocSecDecodePstat
  rw [hd]
  dsimp only
  rw [if_pos (Or.inl rfl), if_neg fun hc => hc.1 rfl]
  exact State.put_device s d _

theorem loadDoxm_kept (x : Option (List Rep)) :
    ((ocSecLoadDoxm pf s d x).device d).pstat = (s.device d).pstat ∧
      ((ocSecLoadDoxm pf s d x).device d).sp = (s.device d).sp := by
  unfold ocSecLoadDoxm
  dsimp only
  rw [State.put_device]
  cases x with
  | none => exact ⟨rfl, rfl⟩
  | some rep =>
    dsimp only
    unfold ocSecDecodeDoxm
    dsimp only
    split
    · obtain ⟨doxm, di, h⟩ := foldl_doxm_frame pf true rep (s.device d, s.draws)
      show ((s.put d _).device d).pstat = _ ∧ ((s.put d _).device d).sp = _
      rw [State.put_device, h]
      exact ⟨rfl, rfl⟩
    · exact ⟨rfl, rfl⟩

theorem loadCred_kept (x : Option (List Rep)) :
    ((ocSecLoadCred pf s d x).device d).pstat = (s.device d).pstat ∧
      ((ocSecLoadCred pf s d x).device d).sp = (s.device d).sp := by
  cases x with
  | none => exact ⟨rfl, rfl⟩
  | some rep =>
    show ((ocSecDecodeCred pf s rep true none d).2.2.device d).pstat = _ ∧
      ((ocSecDecodeCred pf s rep true none d).2.2.device d).sp = _
    unfold ocSecDecodeCred
    dsimp only
    split
    · show ((s.put d _).device d).pstat = _ ∧ ((s.put d _).device d).sp = _
      rw [State.put_device]
      exact ⟨rfl, rfl⟩
    · exact ⟨rfl, rfl⟩

theorem loadAcl_kept (x : Option (List Rep)) :
    ((ocSecLoadAcl pf s d x).device d).pstat = (s.device d).pstat ∧
      ((ocSecLoadAcl pf s d x).device d).sp = (s.device d).sp := by
  cases x with
  | none => exact ⟨rfl, rfl⟩
  | some rep =>
    show ((ocSecDecodeAcl pf s rep true d).2.device d).pstat = _ ∧
      ((ocSecDecodeAcl pf s rep true d).2.device d).sp = _
    unfold ocSecDecodeAcl
    dsimp only
    split
    · show ((s.put d _).device d).pstat = _ ∧ ((s.put d _).device d).sp = _
      rw [State.put_device]
      exact ⟨rfl, rfl⟩
    · exact ⟨rfl, rfl⟩

/-- what is loaded between the status and the profile leaves both alone -/
theorem loadRest_kept (pf : Platform) (s : State) (d : Nat) (x y z : Option (List Rep)) :
    ((ocSecLoadAcl pf (ocSecLoadCred pf (ocSecLoadDoxm pf s d x) d y) d z).device d).pstat =
        (s.device d).pstat ∧
      ((ocSecLoadAcl pf (ocSecLoadCred pf (ocSecLoadDoxm pf s d x) d y) d z).device d).sp =
        (s.device d).sp := by
  rw [(loadAcl_kept z).1, (loadCred_kept y).1, (loadDoxm_kept x).1, (loadAcl_kept z).2,
    (loadCred_kept y).2, (loadDoxm_kept x).2]
  exact ⟨rfl, rfl⟩

end

/-! ## the profile -/

/-- the record before anything is loaded -/
def Sp.zero : Sp := ⟨0, 0, 0⟩

/-- the profiles that have a name -/
def knownProfiles : UInt32 := Flags.join spFlags

theorem isFlag_sp : ∀ f ∈ spFlags, Flags.IsFlag f := by
  intro f hf
  simp only [spFlags, List.mem_cons, List.not_mem_nil, or_false] at hf
  rcases hf with rfl | rfl | rfl | rfl
  · exact Flags.isFlag_of_twoPow 1 (by decide)
  · exact Flags.isFlag_of_twoPow 2 (by decide)
  · exact Flags.isFlag_of_twoPow 3 (by decide)
  · exact Flags.isFlag_of_twoPow 4 (by decide)

theorem foldl_profileNames (m : UInt32) :
    (profileNames m).foldl (fun p s => p ||| stringToSp s) 0 = m &&& knownProfiles := by
  have hall : (spFlags.all fun f => stringToSp ((spToString f).getD []) = f) = true := by decide
  have hv : ∀ f ∈ spFlags, stringToSp ((spToString f).getD []) = f :=
    fun f hf => of_decide_eq_true (List.all_eq_true.mp hall f hf)
  have h := Flags.foldl_names (fun p => (spToString p).getD []) isFlag_sp hv m 0
  rwa [UInt32.zero_or] at h

/-- a current profile that has a name is refused: nothing is supported yet -/
theorem decode_current {t : Bytes} :
    decodeSpProp (textProp "currentprofile" t) Sp.zero = (false, Sp.zero) := by
  show (if stringToSp (cstr t) &&& 0 = 0 then (false, Sp.zero) else _) = _
  rw [UInt32.and_zero, if_pos rfl]

theorem decode_supported (m : UInt32) (sp : Sp) :
    decodeSpProp (arrayProp "supportedprofiles" (profileNames m)) sp =
      if profileNames m = [] then (false, sp)
      else (true, { sp with supportedProfiles := m &&& knownProfiles }) := by
  unfold arrayProp
  by_cases h : profileNames m = []
  · rw [if_pos h, if_pos h]
    rfl
  · rw [if_neg h, if_neg h, ← foldl_profileNames]
    rfl

/-- the record that is read back outside RFNOP -/
def restoredSp (sp : Sp) : Sp :=
  if (spToString sp.currentProfile).isSome ∨ profileNames sp.supportedProfiles = [] then Sp.zero
  else ⟨sp.supportedProfiles &&& knownProfiles, 0, if sp.credid = -1 then 0 else sp.credid⟩

theorem decode_encodeSp (sp : Sp) :
    (runUntil decodeSpProp (ocSecEncodeSp sp) Sp.zero).2 = restoredSp sp := by
  have hb : runUntil decodeSpProp (baselineProps "oic.r.sp") Sp.zero = (true, Sp.zero) := rfl
  have hc (y : Sp) : runUntil decodeSpProp
      (if sp.credid = -1 then [] else [Rep.mk (ascii "credid") (.int sp.credid)]) y =
        (true, if sp.credid = -1 then y else { y with credid := sp.credid }) := by
    split
    · rfl
    · rfl
  unfold ocSecEncodeSp restoredSp
  rw [runUntil_append, runUntil_append, runUntil_append, hb, if_pos rfl]
  cases hp : spToString sp.currentProfile with
  | some t =>
    have hr : runUntil decodeSpProp ((Option.some t).map (textProp "currentprofile")).toList
        Sp.zero = (false, Sp.zero) := by
      rw [Option.map_some, Option.toList_some, runUntil_singleton]
      exact decode_current
    rw [hr]
    rfl
  | none =>
    have hr : runUntil decodeSpProp ((Option.none : Option Bytes).map
        (textProp "currentprofile")).toList Sp.zero = (true, Sp.zero) := rfl
    rw [hr, if_pos rfl, runUntil_singleton, decode_supported]
    by_cases hn : profileNames sp.supportedProfiles = []
    · rw [if_pos hn, if_pos (Or.inr hn)]
      rfl
    · rw [if_neg hn, if_pos rfl, Option.isSome_none, if_neg (not_or.mpr ⟨Bool.false_ne_true, hn⟩), hc]
      dsimp only
      split
      · rfl
      · rfl

/-- nothing is recorded, or the device is not in RFNOP, no profile is current, the supported profiles
all have a name and the credid can be written -/
def Sp.Kept (ps : Pstat) (sp : Sp) : Prop :=
  sp = Sp.zero ∨ ps.s.toInt ≠ Dos.rfnop.toInt ∧ sp.currentProfile = 0 ∧ sp.supportedProfiles ≠ 0 ∧
    sp.supportedProfiles &&& knownProfiles = sp.supportedProfiles ∧ sp.credid ≠ -1

theorem restoredSp_iff (sp : Sp) : restoredSp sp = sp ↔ sp = Sp.zero ∨
    sp.currentProfile = 0 ∧ sp.supportedProfiles ≠ 0 ∧
      sp.supportedProfiles &&& knownProfiles = sp.supportedProfiles ∧ sp.credid ≠ -1 := by
  obtain ⟨m, c, id⟩ := sp
  unfold restoredSp
  dsimp only
  by_cases hc : (spToString c).isSome ∨ profileNames m = []
  · rw [if_pos hc]
    refine ⟨fun h => Or.inl h.symm, fun h => (h.resolve_right ?_).symm⟩
    rintro ⟨rfl, h0, hm, -⟩
    rcases hc with hc | hc
    · cases hc
    · rw [profileNames, Flags.names_eq_nil_iff] at hc
      exact h0 (hm.symm.trans (Flags.and_join_eq_zero hc))
  · rw [if_neg hc]
    constructor
    · intro h
      have h1 : m &&& knownProfiles = m := congrArg Sp.supportedProfiles h
      have h2 : 0 = c := congrArg Sp.currentProfile h
      have h3 : (if id = -1 then 0 else id) = id := congrArg Sp.credid h
      refine Or.inr ⟨h2.symm, ?_, h1, ?_⟩
      · rintro rfl
        exact hc (Or.inr rfl)
      · rintro rfl
        cases h3
    · rintro (h | ⟨rfl, h0, hm, hid⟩)
      · cases h
        exact absurd (Or.inr rfl) hc
      · rw [hm, if_neg hid]

section
variable {pf : Platform}

/-- the profile after the restart -/
theorem loadSp_encode {s : State} {d : Nat} (sp : Sp) (hz : (s.device d).sp = Sp.zero) :
    ((ocSecLoadSp pf s d (some (ocSecEncodeSp sp))).device d).sp =
      if (s.device d).pstat.s = .rfnop then Sp.zero else restoredSp sp := by
  show ((ocSecDecodeSp s (ocSecEncodeSp sp) d).2.device d).sp = _
  unfold ocSecDecodeSp
  dsimp only
  split
  · exact hz
  · rw [State.put_device, hz]
    exact decode_encodeSp sp

theorem profile_restored_iff (pf : Platform) (st : Storage) (s : State) {d : Nat}
    (hd : d < pf.numDevices) :
    ((ocMainInit pf (ocSecDumpSp s (ocSecDumpPstat s st d) d)).device d).sp = (s.device d).sp ↔
      (s.device d).sp.Kept (s.device d).pstat := by
  obtain ⟨s0, hz, hi⟩ := ocMainInit_device pf (ocSecDumpSp s (ocSecDumpPstat s st d) d) hd
  have hst : ocSecDumpSp s (ocSecDumpPstat s st d) d d =
      { st d with
        pstat := some (ocSecEncodePstat (s.device d).pstat)
        sp := some (ocSecEncodeSp (s.device d).sp) } := by
    unfold ocSecDumpSp ocSecDumpPstat
    rw [Function.update_self, Function.update_self]
  rw [hi]
  unfold loadDevice
  rw [hst]
  dsimp only
  -- only the status and the zeroed profile matter to the last of the loads
  obtain ⟨hp, hsp⟩ := loadRest_kept pf
    (ocSecLoadPstat pf s0 d (some (ocSecEncodePstat (s.device d).pstat))) d
    (st d).doxm (st d).cred (st d).acl
  rw [load_status, hz] at hp hsp
  rw [loadSp_encode _ hsp, hp]
  show (if Dos.ofInt (s.device d).pstat.s.toInt = .rfnop then _ else _) = _ ↔ _
  unfold Sp.Kept
  by_cases hr : (s.device d).pstat.s.toInt = 3
  · rw [if_pos ((Dos.ofInt_eq_rfnop _).mpr hr)]
    exact ⟨fun h => Or.inl h.symm, fun h => (h.resolve_right fun h => h.1 hr).symm⟩
  · rw [if_neg fun h => hr ((Dos.ofInt_eq_rfnop _).mp h), restoredSp_iff]
    exact or_congr_right ⟨fun h => ⟨hr, h⟩, fun h => h.2⟩

end

/-- device 0 before it is provisioned, with a profile -/
def profileState (sp : Sp) : State :=
  State.zero.put 0 { Device.zero with
    pstat := { Device.zero.pstat with s := .rfotm }
    sp := sp }

/-- nothing stored -/
def emptyStorage : Storage := fun _ => ⟨none, none, none, none, none⟩

/-- after the dump -/
def profileStorage (sp : Sp) : Storage :=
  ocSecDumpSp (profileState sp) (ocSecDumpPstat (profileState sp) emptyStorage 0) 0

theorem profile_restored_none :
    ((ocMainInit (plainPlatform 1) (profileStorage ⟨6, 0, 4⟩)).device 0).sp = ⟨6, 0, 4⟩ :=
  (profile_restored_iff (plainPlatform 1) emptyStorage (profileState ⟨6, 0, 4⟩)
    (d := 0) (by decide)).mpr (Or.inr (by decide))

/-- the default profile of a device: baseline, and nothing else supported -/
theorem profile_lost_baseline :
    ¬ ((ocMainInit (plainPlatform 1) (profileStorage ⟨2, 2, -1⟩)).device 0).sp = ⟨2, 2, -1⟩ := by
  decide +kernel

end Security
