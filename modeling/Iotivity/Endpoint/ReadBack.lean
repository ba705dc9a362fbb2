import Iotivity.Endpoint.RoundTrip

/-!
# Endpoints read back from C strings

The printed text of an endpoint is a C string, and every run of the parser that has enough fuel ends alike.

* `ocStringToEndpoint_mono`   more fuel changes nothing;
* `zero_not_mem_text`         there is no zero in the text;
* `read_back`                 an endpoint is read back from its text.
-/

namespace EndpointString
open Security Coap

/-! ## fuel -/

/-- a step that ends as before, in front of a rest that does -/
theorem bind_keeps {α β : Type} {x y : Checked α} {f g : α → Checked β} {r : β}
    (hx : ∀ a, x = .ok a → y = .ok a) (hf : ∀ a, f a = .ok r → g a = .ok r) (h : (x >>= f) = .ok r) :
    (y >>= g) = .ok r := by
  cases x with
  | error e => cases h
  | ok a =>
    rw [hx a rfl]
    exact hf a h

section
variable {fuel : Nat} (n : Nat)

theorem ocParseIpv6Address_mono {len : Nat} {text a : Bytes}
    (h : ocParseIpv6Address fuel text len = .ok a) : ocParseIpv6Address (fuel + n) text len = .ok a := by
  unfold ocParseIpv6Address at h ⊢
  exact bind_keeps (fun _ hst => ipv6Loop_mono hst n) (fun _ h => h) h

theorem parseAddress_mono {b : Build} {len : Nat} {flags : TransportFlags} {port : UInt16} {ep : Endpoint}
    {text : Bytes} {r : Option Endpoint} (h : parseAddress b fuel flags port ep text len = .ok r) :
    parseAddress b (fuel + n) flags port ep text len = .ok r := by
  unfold parseAddress at h ⊢
  refine bind_keeps (fun _ h => h) (fun brackets h => ?_) h
  cases brackets with
  | false => exact h
  | true => exact bind_keeps (fun _ ha => ocParseIpv6Address_mono n ha) (fun _ h => h) h

/-- more fuel changes nothing -/
theorem ocStringToEndpoint_mono {b : Build} {s : Bytes} {ep : Endpoint} {r : Option (Endpoint × Bytes)}
    (h : ocStringToEndpoint b fuel s ep = .ok r) : ocStringToEndpoint b (fuel + n) s ep = .ok r := by
  unfold ocStringToEndpoint at h ⊢
  refine bind_keeps (fun _ h => h) (fun flags h => ?_) h
  cases flags with
  | none => exact h
  | some flags =>
    revert h
    cases strrchr 58 (s ++ [0]) with
    | none => exact id
    | some colon =>
      refine bind_keeps (fun _ h => h) fun port => ?_
      refine bind_keeps (fun _ h => h) fun slash h => ?_
      cases slash with
      | none => cases h
      | some slash =>
        refine bind_keeps (fun _ h => h) (fun host h => ?_) h
        cases host with
        | none => exact h
        | some host => exact bind_keeps (fun _ ha => parseAddress_mono n ha) (fun _ h => h) h

end

/-! ## the text -/

theorem zero_not_mem_scheme {tcp : Bool} : ∀ p ∈ schemes tcp, 0 ∉ p.1 := by
  revert tcp
  decide

theorem zero_not_mem_decimal (n : Nat) : 0 ∉ Numeral.decimal n := fun hm => (decimal_text n 0 hm).2.1 rfl

theorem zero_not_mem_ipv4 {ep : Endpoint} (h : ep.address.length = 16) : 0 ∉ ipv4Text ep := by
  obtain ⟨o₀, o₁, o₂, o₃, rest, ha⟩ : ∃ o₀ o₁ o₂ o₃ rest, ep.address = o₀ :: o₁ :: o₂ :: o₃ :: rest := by
    match ep.address, h with
    | o₀ :: o₁ :: o₂ :: o₃ :: rest, _ => exact ⟨o₀, o₁, o₂, o₃, rest, rfl⟩
  rw [ipv4Text_eq ha, List.mem_append, List.mem_cons]
  exact not_or.mpr ⟨fun hm => (dotted_text _ 0 hm).1 rfl, not_or.mpr ⟨by decide, zero_not_mem_decimal _⟩⟩

theorem zero_not_mem_ipv6 {ep : Endpoint} (h : ep.address.length = 16) : 0 ∉ ipv6Text ep := by
  have hbrackets {t : Bytes} (ht : 0 ∉ t) : 0 ∉ 91 :: t ++ [93, 58] ++ Numeral.decimal ep.port.toNat := by
    have hport := zero_not_mem_decimal ep.port.toNat
    simpa using ⟨ht, hport⟩
  obtain ⟨gs, hl, ha⟩ := exists_groups (n := 8) h
  by_cases hz : (0, 0) ∈ gs
  · obtain ⟨j, -, -, ht⟩ := ipv6Text_gap hl ha hz
    rw [ht]
    refine hbrackets ?_
    rw [List.mem_append, List.mem_cons, List.mem_append]
    refine not_or.mpr ⟨body_text _, not_or.mpr ⟨by decide, not_or.mpr ⟨?_, ?_⟩⟩⟩
    · exact words_text fun g hg => printed_ne hg
    · rcases ending_text gs with hen | hen <;> rw [hen] <;> decide
  · rw [ipv6Text_plain hl ha hz]
    exact hbrackets (body_text gs)

theorem zero_not_mem_text {b : Build} {ep : Endpoint} (h : Fits b ep) {text : Bytes}
    (ht : ocEndpointToString b ep = some text) : 0 ∉ text := by
  have hscheme := zero_not_mem_scheme _ (scheme_mem h.tcp)
  unfold ocEndpointToString at ht
  split at ht
  · rw [← Option.some.inj ht, List.mem_append]
    exact not_or.mpr ⟨hscheme, zero_not_mem_ipv6 h.address⟩
  · split at ht
    · rw [← Option.some.inj ht, List.mem_append]
      exact not_or.mpr ⟨hscheme, zero_not_mem_ipv4 h.address⟩
    · cases ht

/-- the endpoint can be printed and read back -/
structure Printable (b : Build) (ep : Endpoint) : Prop extends Fits b ep where
  oneRun : ep.flags.ipv6 = true → OneRun ep.address

/-- an endpoint is read back from its text, as a C string -/
theorem read_back {b : Build} {ep : Endpoint} (h : Printable b ep) :
    ∃ text, ocEndpointToString b ep = some text ∧ cstr text = text ∧
      ∃ fuel e uri, ocStringToEndpoint b fuel text blankEndpoint = .ok (some (e, uri)) ∧ Agree ep e := by
  obtain ⟨text, ht, hback⟩ := (round_trip_iff h.toFits).mpr h.oneRun
  exact ⟨text, ht, (cstr_eq_self_iff _).mpr (zero_not_mem_text h.toFits ht), hback blankEndpoint (by decide)⟩

end EndpointString
