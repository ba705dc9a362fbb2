import Iotivity.Security.State

/-!
# Peers that present a certificate: `verify_certificate` of `oc_tls.c`

mbedTLS calls `verify_certificate` for each certificate of a chain.  On the certificate of the peer
itself, at depth 0, it looks for a trust anchor that authorises the peer: one of the same device, with
the usage TRUSTCA, the peer's root certificate, and the peer or `*` as subject.  That an entry is of
the same device and usage is part of the condition of the loop, so the loop ends at the first other
entry, and an entry that ends the loop counts as found.

* `findAnchor_iff`           when the loop ends with an entry;
* `verify_authorized_iff`    when a peer that is let in is authorised.
-/

namespace Security

/-- a chain of certificates as mbedTLS links them, by their raw bytes: `crt` and what follows `next` -/
structure Chain where
  crt : Bytes
  next : List Bytes
deriving DecidableEq

/-- the root of a chain, at the end of it -/
def Chain.root (c : Chain) : Bytes := c.next.getLast?.getD c.crt

/-- `oc_x509_crt_t`; `cert` is the address of its mbedTLS chain -/
structure IdentityCert where
  device : Nat
  cred : Cred
  cert : Nat
deriving DecidableEq

/-- `oc_x509_cacrt_t`, with the credential and the raw certificate that it points at -/
structure CaCert where
  device : Nat
  cred : Cred
  cert : Bytes
deriving DecidableEq

/-- the checks and the parsers of `oc_certs.c` on top of mbedTLS -/
structure Certs where
  validateRootCert : Bytes → Bool
  validateIntermediateCert : Bytes → Bool
  validateEndEntityCert : Bytes → Bool
  parseCnForUuid : Bytes → Option Bytes
  extractPublicKey : Bytes → Option Bytes

/-- the part of the loop condition that looks at an entry -/
def CaCert.inScope (device : Nat) (ca : CaCert) : Bool :=
  ca.device = device ∧ ca.cred.credusage = .trustca

/-- the entry authorises the peer: its certificate is the root, and its subject the peer or `*` -/
def CaCert.authorizes (root : Bytes) (uuid : Uuid) (ca : CaCert) : Bool :=
  ca.cert = root ∧ (ca.cred.subjectuuid = uuid ∨ ca.cred.subjectuuid = Uuid.wildcard)

/-- the loop over `ca_certs`, from the cursor on: the cursor where it ends -/
def findAnchor (device : Nat) (root : Bytes) (uuid : Uuid) : List CaCert → List CaCert
  | [] => []
  | ca :: rest =>
    if ca.inScope device then
      if ca.authorizes root uuid then ca :: rest else findAnchor device root uuid rest
    else ca :: rest

/-- `get_identity_cert_for_session`; `keyCert` is the address in the configuration of the session -/
def getIdentityCertForSession (identityCerts : List IdentityCert) (keyCert : Nat) :
    Option IdentityCert :=
  identityCerts.find? (·.cert = keyCert)

/-- `verify_certificate`: its result, and the peer with what was read from the certificate -/
def verifyCertificate (cx : Certs) (identityCerts : List IdentityCert) (caCerts : List CaCert)
    (keyCert : Nat) (peer : Peer) (crt : Chain) (depth : Nat) : Int × Peer :=
  if depth > 0 then
    if ¬ cx.validateRootCert crt.crt ∧ ¬ cx.validateIntermediateCert crt.crt then (-1, peer)
    else (0, peer)
  else if ¬ cx.validateEndEntityCert crt.crt then (-1, peer)
  else match cx.parseCnForUuid crt.crt with
    | none => (-1, peer)
    | some uuid =>
      let peer := { peer with uuid := ocStrToUuid uuid peer.uuid }
      match cx.extractPublicKey crt.crt with
      | none => (-1, peer)
      | some key =>
        let peer := { peer with publicKey := key }
        match getIdentityCertForSession identityCerts keyCert with
        | none => (-1, peer)
        | some idCert =>
          if idCert.cred.credusage ≠ .mfgCert ∧
              findAnchor idCert.device crt.root peer.uuid caCerts = [] then (-1, peer)
          else (0, peer)

/-! ## the loop -/

section
variable {device : Nat} {root : Bytes} {uuid : Uuid}

theorem findAnchor_iff (cas : List CaCert) : findAnchor device root uuid cas ≠ [] ↔
    (∃ ca ∈ cas, ca.inScope device = false) ∨
      ∃ ca ∈ cas, ca.inScope device = true ∧ ca.authorizes root uuid = true := by
  induction cas with
  | nil => simp [findAnchor]
  | cons ca rest ih =>
    unfold findAnchor
    cases hs : ca.inScope device with
    | false =>
      rw [if_neg Bool.false_ne_true]
      exact ⟨fun _ => Or.inl ⟨ca, List.mem_cons_self, hs⟩, fun _ => List.cons_ne_nil _ _⟩
    | true =>
      rw [if_pos rfl]
      cases ha : ca.authorizes root uuid with
      | true =>
        rw [if_pos rfl]
        exact ⟨fun _ => Or.inr ⟨ca, List.mem_cons_self, hs, ha⟩, fun _ => List.cons_ne_nil _ _⟩
      | false =>
        rw [if_neg Bool.false_ne_true, ih]
        simp [hs, ha]

end

/-! ## peers that are let in -/

section
variable (cx : Certs) (ids : List IdentityCert) (cas : List CaCert) (keyCert : Nat) (peer : Peer)
  (crt : Chain)

/-- the certificate of the peer passes the checks, and has a uuid and a public key -/
def Certs.Presentable : Prop :=
  cx.validateEndEntityCert crt.crt = true ∧ (cx.parseCnForUuid crt.crt).isSome ∧
    (cx.extractPublicKey crt.crt).isSome

/-- the uuid that is read from the certificate of the peer -/
def Certs.peerUuid : Uuid :=
  ocStrToUuid ((cx.parseCnForUuid crt.crt).getD []) peer.uuid

/-- a trust anchor of the device authorises the peer -/
def Authorized (device : Nat) (uuid : Uuid) : Prop :=
  ∃ ca ∈ cas, ca.device = device ∧ ca.cred.credusage = .trustca ∧ ca.cert = crt.root ∧
    (ca.cred.subjectuuid = uuid ∨ ca.cred.subjectuuid = Uuid.wildcard)

/-- all entries are trust anchors of the device -/
def Unmixed (device : Nat) : Prop := ∀ ca ∈ cas, ca.device = device ∧ ca.cred.credusage = .trustca

theorem authorized_iff (device : Nat) (uuid : Uuid) : Authorized cas crt device uuid ↔
    ∃ ca ∈ cas, ca.inScope device = true ∧ ca.authorizes crt.root uuid = true := by
  unfold Authorized CaCert.inScope CaCert.authorizes
  simp only [decide_eq_true_eq, and_assoc]

theorem not_unmixed_iff (device : Nat) :
    ¬ Unmixed cas device ↔ ∃ ca ∈ cas, ca.inScope device = false := by
  unfold Unmixed CaCert.inScope
  simp only [not_forall, decide_eq_false_iff_not, exists_prop]

variable {ids keyCert}

/-- what the function makes of the peer's own certificate -/
theorem verify_depth_zero {id : IdentityCert} (hid : getIdentityCertForSession ids keyCert = some id)
    (hm : id.cred.credusage ≠ .mfgCert) :
    (verifyCertificate cx ids cas keyCert peer crt 0).1 = 0 ↔
      cx.Presentable crt ∧
        (¬ Unmixed cas id.device ∨ Authorized cas crt id.device (cx.peerUuid peer crt)) := by
  rw [not_unmixed_iff, authorized_iff, ← findAnchor_iff]
  unfold verifyCertificate Certs.Presentable Certs.peerUuid
  rw [if_neg (Nat.lt_irrefl 0)]
  cases cx.validateEndEntityCert crt.crt with
  | false => simp
  | true =>
    cases cx.parseCnForUuid crt.crt with
    | none => simp
    | some uuid =>
      cases cx.extractPublicKey crt.crt with
      | none => simp
      | some key =>
        simp only [hid, not_true_eq_false, if_false, Option.isSome_some, true_and, Option.getD_some]
        by_cases hf : findAnchor id.device crt.root (ocStrToUuid uuid peer.uuid) cas = []
        · simp [hm, hf]
        · simp [hf]

theorem verify_uuid {id : IdentityCert} (hid : getIdentityCertForSession ids keyCert = some id)
    (h : (verifyCertificate cx ids cas keyCert peer crt 0).1 = 0) :
    (verifyCertificate cx ids cas keyCert peer crt 0).2.uuid = cx.peerUuid peer crt := by
  revert h
  unfold verifyCertificate Certs.peerUuid
  rw [if_neg (Nat.lt_irrefl 0)]
  cases cx.validateEndEntityCert crt.crt with
  | false => simp
  | true =>
    cases cx.parseCnForUuid crt.crt with
    | none => simp
    | some uuid =>
      cases cx.extractPublicKey crt.crt with
      | none => simp
      | some key =>
        intro _
        simp only [hid, not_true_eq_false, if_false, Option.getD_some]
        split
        · rfl
        · rfl

/-- of a session with an identity certificate that is not the manufacturer's: a peer that is let in is
authorised iff the certificate of the peer is refused anyway, the list holds nothing but trust anchors
of the device, or one of these authorises the peer -/
theorem verify_authorized_iff {id : IdentityCert}
    (hid : getIdentityCertForSession ids keyCert = some id) (hm : id.cred.credusage ≠ .mfgCert) :
    ((verifyCertificate cx ids cas keyCert peer crt 0).1 = 0 →
      Authorized cas crt id.device (verifyCertificate cx ids cas keyCert peer crt 0).2.uuid) ↔
    ¬ cx.Presentable crt ∨ Unmixed cas id.device ∨
      Authorized cas crt id.device (cx.peerUuid peer crt) := by
  have hz := verify_depth_zero cx cas peer crt hid hm
  constructor
  · intro h
    by_contra hn
    obtain ⟨h1, h2⟩ := not_or.mp hn
    obtain ⟨h2, h3⟩ := not_or.mp h2
    have h0 := hz.mpr ⟨not_not.mp h1, Or.inl h2⟩
    have ha := h h0
    rw [verify_uuid cx cas peer crt hid h0] at ha
    exact h3 ha
  · intro h h0
    obtain ⟨h1, h2⟩ := hz.mp h0
    rw [verify_uuid cx cas peer crt hid h0]
    rcases h with h | h | h
    · exact absurd h1 h
    · exact h2.resolve_left fun hn => hn h
    · exact h

end

/-! ## a device with anchors of two kinds -/

/-- a credential for the certificate of a trust anchor, for any peer -/
def anchorCred (usage : CredUsage) (cert : Bytes) : Cred :=
  { role := [], authority := [], privatedata := CredData.none, publicdata := ⟨cert, .der⟩
    credusage := usage, chain := none, child := none, credid := 1, credtype := credtypeCert
    subjectuuid := Uuid.wildcard }

/-- checks that let everything pass -/
def lenientCerts : Certs :=
  ⟨fun _ => true, fun _ => true, fun _ => true,
    fun _ => some (ascii "b0000000-0000-0000-0000-000000000000"), fun _ => some [4]⟩

/-- the identity certificate of device 0 -/
def ownCert : IdentityCert := ⟨0, anchorCred .identityCert [48, 0], 100⟩

def anyPeer : Peer := ⟨1, ⟨0, ⟨true, false, true, false, false, false, false⟩, 5684, []⟩, Uuid.nil, [], false⟩

/-- a peer whose root is the certificate `[48, 9]` -/
def strangerChain : Chain := ⟨[48, 7], [[48, 9]]⟩

theorem verify_authorized_known :
    getIdentityCertForSession [ownCert] 100 = some ownCert ∧ ownCert.cred.credusage ≠ .mfgCert ∧
    ((verifyCertificate lenientCerts [ownCert] [⟨0, anchorCred .trustca [48, 9], [48, 9]⟩] 100 anyPeer
        strangerChain 0).1 = 0 →
      Authorized [⟨0, anchorCred .trustca [48, 9], [48, 9]⟩] strangerChain 0
        (verifyCertificate lenientCerts [ownCert] [⟨0, anchorCred .trustca [48, 9], [48, 9]⟩] 100
          anyPeer strangerChain 0).2.uuid) := by
  have hid : getIdentityCertForSession [ownCert] 100 = some ownCert := rfl
  have hm : ownCert.cred.credusage ≠ .mfgCert := CredUsage.noConfusion
  refine ⟨hid, hm, (verify_authorized_iff lenientCerts _ anyPeer strangerChain hid hm).mpr ?_⟩
  refine Or.inr (Or.inl fun ca hca => ?_)
  cases List.mem_singleton.mp hca
  exact ⟨rfl, rfl⟩

/-- the anchor of the manufacturer is all there is, and its certificate is not the peer's root -/
theorem stranger_let_in :
    getIdentityCertForSession [ownCert] 100 = some ownCert ∧ ownCert.cred.credusage ≠ .mfgCert ∧
    ¬ ((verifyCertificate lenientCerts [ownCert] [⟨0, anchorCred .mfgTrustca [48, 8], [48, 8]⟩] 100
        anyPeer strangerChain 0).1 = 0 →
      Authorized [⟨0, anchorCred .mfgTrustca [48, 8], [48, 8]⟩] strangerChain 0
        (verifyCertificate lenientCerts [ownCert] [⟨0, anchorCred .mfgTrustca [48, 8], [48, 8]⟩] 100
          anyPeer strangerChain 0).2.uuid) := by
  refine ⟨rfl, CredUsage.noConfusion, fun h => ?_⟩
  obtain ⟨ca, hca, -, hu, -⟩ := h rfl
  cases List.mem_singleton.mp hca
  cases hu

end Security
