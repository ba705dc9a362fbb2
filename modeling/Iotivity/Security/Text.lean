import Mathlib.Data.List.Basic
import Mathlib.Data.Fintype.Basic

/-!
# Texts, uuids and base64: `oc_uuid.c`, `oc_base64.c`

Bytes are `UInt8`, a C string is the list of its bytes before the terminator.  `oc_str_to_uuid`
takes 36 characters whatever it is given: behind the end of a shorter text the model reads zeros,
and what it would store behind the sixteenth byte is dropped.

* `ocStrToUuid_ocUuidToStr`   a printed uuid is read back, whatever was there before.
-/

namespace Security

abbrev Bytes := List UInt8

/-- the bytes of a literal of the source -/
def ascii (s : String) : Bytes := s.toList.map fun c => c.toNat.toUInt8

/-- what `strlen` and everything built on it sees of a text: the part before the first NUL -/
def cstr (b : Bytes) : Bytes := b.takeWhile (· ≠ 0)

/-- `oc_uuid_t` -/
structure Uuid where
  id : Bytes
  length_id : id.length = 16
deriving DecidableEq

namespace Uuid

/-- `memset(uuid->id, 0, 16)` -/
def nil : Uuid := ⟨List.replicate 16 0, rfl⟩

/-- `uuid->id[j] = c` -/
def set (u : Uuid) (j : Nat) (c : UInt8) : Uuid := ⟨u.id.set j c, by rw [List.length_set, u.length_id]⟩

/-- the first byte -/
def head (u : Uuid) : UInt8 := u.id.headD 0

/-- the subject `*`: a nil uuid whose first byte is the character `*` -/
def wildcard : Uuid := nil.set 0 42

end Uuid

/-- `nil_uuid` -/
def nilUuid (u : Uuid) : Bool := u.id.all (· == 0)

theorem nilUuid_iff (u : Uuid) : nilUuid u = true ↔ u = Uuid.nil := by
  constructor
  · intro h
    have hr : u.id = List.replicate 16 0 :=
      List.eq_replicate_iff.mpr ⟨u.length_id, fun b hb => eq_of_beq (List.all_eq_true.mp h b hb)⟩
    cases u
    cases hr
    rfl
  · rintro rfl
    rfl

/-! ## `oc_str_to_uuid` -/

/-- the variables of the loop -/
structure StrState where
  uuid : Uuid
  j : Nat
  k : Nat
  c : UInt8

/-- what a character adds to the byte under construction -/
def nibble (ch : UInt8) : UInt8 :=
  if (65 ≤ ch ∧ ch ≤ 90) ∨ (97 ≤ ch ∧ ch ≤ 122) then
    if 65 ≤ ch ∧ ch ≤ 70 then ch - 55 else if 97 ≤ ch ∧ ch ≤ 102 then ch - 87 else 0
  else ch - 48

def strStep (st : StrState) (ch : UInt8) : StrState :=
  if ch = 45 then st
  else if (st.j + 1) * 2 = st.k then
    ⟨st.uuid.set st.j (st.c ||| nibble ch), st.j + 1, st.k + 1, 0⟩
  else { st with c := (st.c ||| nibble ch) <<< 4, k := st.k + 1 }

/-- the 36 characters the loop reads -/
def uuidText (str : Bytes) : Bytes := (List.range 36).map fun i => str.getD i 0

def ocStrToUuid (str : Bytes) (uuid : Uuid) : Uuid :=
  ((uuidText str).foldl strStep ⟨uuid, 0, 1, 0⟩).uuid

/-! ## `oc_uuid_to_str` -/

/-- a digit of `%02x` -/
def hexDigit (n : UInt8) : UInt8 := if n < 10 then 48 + n else 87 + n

/-- the two digits of a byte -/
def hexByte (b : UInt8) : Bytes := [hexDigit (b >>> 4), hexDigit (b &&& 15)]

/-- byte `i` as it is printed, behind a dash where the text has one -/
def uuidChunk (b : UInt8) (i : Nat) : Bytes :=
  (if i = 4 ∨ i = 6 ∨ i = 8 ∨ i = 10 then [45] else []) ++ hexByte b

def ocUuidToStr (uuid : Uuid) : Bytes := uuid.id.zipIdx.flatMap fun x => uuidChunk x.1 x.2

/-! ## `oc_gen_uuid` -/

/-- `oc_gen_uuid` on sixteen random bytes -/
def ocGenUuid (r : Uuid) : Uuid :=
  (r.set 8 ((r.id.getD 8 0 &&& 0x3f) ||| 0x40)).set 6 ((r.id.getD 6 0 &&& 0x0f) ||| 0x40)

/-! ## `oc_base64_decode` -/

/-- the reverse of the Base64 alphabet -/
def base64Value (ch : UInt8) : Option UInt8 :=
  if 65 ≤ ch ∧ ch ≤ 90 then some (ch - 65)
  else if 97 ≤ ch ∧ ch ≤ 122 then some (ch - 71)
  else if 48 ≤ ch ∧ ch ≤ 57 then some (ch + 4)
  else if ch = 43 then some 62
  else if ch = 47 then some 63
  else none

/-- the loop over the characters from position `i` on; `valC` is the byte under construction -/
def base64Loop (len : Nat) : Nat → Bytes → UInt8 → Bytes → Option Bytes
  | _, [], _, out => some out
  | i, ch :: rest, valC, out =>
    if ch = 61 then
      if i < len - 2 then none
      else if i = len - 2 ∧ rest.head? ≠ some 61 then none
      else some out
    else match base64Value ch with
      | none => none
      | some v =>
        if i % 4 = 0 then base64Loop len (i + 1) rest ((v <<< 2) &&& 0xFD) out
        else if i % 4 = 1 then
          base64Loop len (i + 1) rest ((v <<< 4) &&& 0xF0) (out ++ [valC ||| (v >>> 4)])
        else if i % 4 = 2 then
          base64Loop len (i + 1) rest ((v <<< 6) &&& 0xD0) (out ++ [valC ||| (v >>> 2)])
        else base64Loop len (i + 1) rest valC (out ++ [valC ||| v])

/-- `oc_base64_decode`: the decoded bytes, or a negative result -/
def ocBase64Decode (str : Bytes) : Option Bytes :=
  if str.length % 4 ≠ 0 then none else base64Loop str.length 0 str 0 []

example : ocBase64Decode (ascii "YWJjZA==") = some (ascii "abcd") := by decide

/-! ## the round trip -/

theorem strStep_dash (st : StrState) : strStep st 45 = st := if_pos rfl

theorem forall_byte {P : UInt8 → Prop} (h : ∀ n : Fin 256, P (UInt8.ofNat n)) (c : UInt8) : P c := by
  have hc := h ⟨c.toNat, c.toNat_lt⟩
  rwa [UInt8.ofNat_toNat] at hc

theorem nibble_hexByte : ∀ b : UInt8,
    hexDigit (b >>> 4) ≠ 45 ∧ hexDigit (b &&& 15) ≠ 45 ∧
      (((0 : UInt8) ||| nibble (hexDigit (b >>> 4))) <<< 4) ||| nibble (hexDigit (b &&& 15)) = b :=
  forall_byte (by decide +kernel)

/-- the loop takes a printed byte for the next one of the uuid -/
theorem foldl_uuidChunk (b : UInt8) (i : Nat) (u : Uuid) (j : Nat) :
    (uuidChunk b i).foldl strStep ⟨u, j, 2 * j + 1, 0⟩ = ⟨u.set j b, j + 1, 2 * (j + 1) + 1, 0⟩ := by
  obtain ⟨h1, h2, h3⟩ := nibble_hexByte b
  have hd : (uuidChunk b i).foldl strStep ⟨u, j, 2 * j + 1, 0⟩ =
      (hexByte b).foldl strStep ⟨u, j, 2 * j + 1, 0⟩ := by
    unfold uuidChunk
    split
    · rw [List.foldl_append, List.foldl_cons, strStep_dash, List.foldl_nil]
    · rw [List.nil_append]
  have e1 : strStep ⟨u, j, 2 * j + 1, 0⟩ (hexDigit (b >>> 4)) =
      ⟨u, j, 2 * j + 2, ((0 : UInt8) ||| nibble (hexDigit (b >>> 4))) <<< 4⟩ := by
    unfold strStep
    rw [if_neg h1, if_neg (show ¬ (j + 1) * 2 = 2 * j + 1 by omega)]
  have e2 : strStep ⟨u, j, 2 * j + 2, ((0 : UInt8) ||| nibble (hexDigit (b >>> 4))) <<< 4⟩
      (hexDigit (b &&& 15)) = ⟨u.set j b, j + 1, 2 * (j + 1) + 1, 0⟩ := by
    unfold strStep
    rw [if_neg h2, if_pos (show (j + 1) * 2 = 2 * j + 2 by omega), h3]
    rfl
  rw [hd, hexByte, List.foldl_cons, List.foldl_cons, List.foldl_nil, e1, e2]

/-- a text of 36 characters is what the loop reads -/
theorem uuidText_of_length {str : Bytes} (h : str.length = 36) : uuidText str = str := by
  refine List.ext_getElem (by simp [uuidText, h]) fun i h1 h2 => ?_
  simp [uuidText, List.getD_eq_getElem?_getD, List.getElem?_eq_getElem h2]

/-- what a printed uuid sets from byte `j` on -/
theorem foldl_uuidText (l : Bytes) : ∀ (u : Uuid) (j : Nat), j + l.length ≤ 16 →
    (((l.zipIdx j).flatMap fun x => uuidChunk x.1 x.2).foldl strStep ⟨u, j, 2 * j + 1, 0⟩).uuid.id =
      u.id.take j ++ l ++ u.id.drop (j + l.length) := by
  induction l with
  | nil =>
    intro u j _
    rw [List.append_nil]
    exact (List.take_append_drop j u.id).symm
  | cons b l ih =>
    intro u j hj
    have hsum : j + 1 + l.length = j + (b :: l).length := by
      rw [List.length_cons]
      omega
    have hlen : j + 1 + l.length ≤ 16 := by rwa [hsum]
    have hj' : j < u.id.length := by rw [u.length_id]; omega
    have htake : (u.set j b).id.take (j + 1) = u.id.take j ++ [b] := by
      show (u.id.set j b).take (j + 1) = _
      rw [List.take_add_one, List.take_set_of_le (Nat.le_refl j), List.getElem?_set_self hj']
      rfl
    have hdrop : (u.set j b).id.drop (j + 1 + l.length) = u.id.drop (j + (b :: l).length) := by
      show (u.id.set j b).drop (j + 1 + l.length) = _
      rw [List.drop_set_of_lt (by omega), hsum]
    rw [List.zipIdx_cons, List.flatMap_cons, List.foldl_append, foldl_uuidChunk, ih _ _ hlen, htake, hdrop,
      List.append_assoc (u.id.take j) [b] l]
    rfl

theorem length_ocUuidToStr (u : Uuid) : (ocUuidToStr u).length = 36 := by
  obtain ⟨l, hl⟩ := u
  match l, hl with
  | [_, _, _, _, _, _, _, _, _, _, _, _, _, _, _, _], _ => rfl

theorem ocStrToUuid_ocUuidToStr (u v : Uuid) : ocStrToUuid (ocUuidToStr u) v = u := by
  have hset := foldl_uuidText u.id v 0 (by rw [u.length_id])
  rw [List.take_zero, List.nil_append, u.length_id, List.drop_of_length_le (Nat.le_of_eq v.length_id),
    List.append_nil] at hset
  have hid : (ocStrToUuid (ocUuidToStr u) v).id = u.id := by
    unfold ocStrToUuid
    rw [uuidText_of_length (length_ocUuidToStr u)]
    exact hset
  generalize ocStrToUuid (ocUuidToStr u) v = w at hid
  cases u
  cases w
  cases hid
  rfl

end Security
