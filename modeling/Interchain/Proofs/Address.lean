/-
Addresses that have a place on the wire.

An account number of 31 digits may name an address beyond 160 bits.  Such an address is
an account name, but neither its text nor a word is read back as an address.  The addresses
that 40 digits name are all narrow (`IsDigitText.isNarrow`).
-/
import Interchain.Address.Reread
import Interchain.Proofs.Bytes.Hex
import Interchain.Proofs.Outcome

namespace Interchain

theorem Hex.encode_append (b c : Bytes) : encode (b ++ c) = encode b ++ encode c := by
  induction b with
  | nil => rfl
  | cons x b ih => rw [List.cons_append, encode, encode, ih, List.cons_append, List.cons_append]

theorem Hex.encode_ofNat (w n : Nat) : encode (Bytes.ofNat w n) = ofNat (2 * w) n := by
  induction w generalizing n with
  | zero => rfl
  | succ w ih =>
    have hbyte : (UInt8.ofNat (n % 256)).toNat = n % 256 := by
      rw [UInt8.toNat_ofNat']
      omega
    have hhigh : n % 256 / 16 = n / 16 % 16 := by omega
    have hlow : n % 256 % 16 = n % 16 := by omega
    have hrest : n / 16 / 16 = n / 256 := Nat.div_div_eq_div_mul n 16 16
    rw [Bytes.ofNat, encode_append, ih, encode, encode, hbyte, hhigh, hlow,
      Nat.mul_succ, ofNat, ofNat, hrest, List.append_assoc]
    rfl

namespace Address

def IsNarrow (a : Address) : Prop := a.value < 2 ^ 160

instance (a : Address) : Decidable a.IsNarrow := inferInstanceAs (Decidable (a.value < 2 ^ 160))

theorem reread_eq_ok {a b : Address} : a.reread = .ok b ↔ b = a ∧ a.IsNarrow := by
  rw [reread]
  split
  · next h =>
    rw [Except.ok.injEq]
    exact ⟨fun e => ⟨e.symm, h⟩, fun e => e.1.symm⟩
  · next h => exact iff_of_false (by simp) (fun e => h e.2)

theorem parse?_eq_some {t : String} {a : Address} : parse? t = some a ↔ parse t = .ok a :=
  toOption_eq_some

/-- The text of an address names that address or none. -/
theorem parse?_render_eq_some {a b : Address} :
    parse? a.render = some b ↔ b = a ∧ a.IsNarrow := by
  rw [parse?_eq_some, parse_render, reread_eq_ok]

theorem renderLower_of_narrow {a : Address} (h : a.IsNarrow) :
    a.renderLower = Hex.render (Bytes.ofNat 20 a.value) := by
  have hwidth : (if a.value < 2 ^ 160 then 40 else 41) = 40 := if_pos h
  have hdigits : a.digits = Hex.ofNat 40 a.value := by rw [digits, hwidth]
  rw [renderLower, Hex.render, Hex.encode_ofNat, hdigits]

/-- Digits without letters carry no checksum. -/
theorem render_eq_renderLower {a : Address}
    (h : a.digits.all (fun d => Digit.upper d == d) = true) : a.render = a.renderLower := by
  have hsame := map_checksummed id id (fun d (_ : d ∈ a.digits) => rfl)
    (fun d hd => eq_of_beq (List.all_eq_true.1 h d hd))
  rw [List.map_id, List.map_id] at hsame
  rw [render, renderLower, hsame]

theorem toList_render_ne_nil (a : Address) : a.render.toList ≠ [] := by
  rw [render, String.toList_ofList]
  exact List.cons_ne_nil _ _

/-! ## The normal text of an address -/

def normal (t : String) : String := ((parse? t).map render).getD t

theorem normal_of_parse? {t : String} {a : Address} (h : parse? t = some a) :
    normal t = a.render := by
  rw [normal, h]
  rfl

/-- What is written for an address is never respelled, whether it is read back or not. -/
theorem normal_render (a : Address) : normal a.render = a.render := by
  cases h : parse? a.render with
  | none =>
    rw [normal, h]
    rfl
  | some b =>
    obtain ⟨rfl, -⟩ := parse?_render_eq_some.1 h
    exact normal_of_parse? h

def IsNormal (t : String) : Prop := (∃ a, parse? t = some a) ∧ normal t = t

theorem isNormal_iff {t : String} : IsNormal t ↔ ∃ a : Address, a.IsNarrow ∧ a.render = t := by
  constructor
  · rintro ⟨⟨a, ha⟩, hnormal⟩
    rw [normal_of_parse? ha] at hnormal
    rw [← hnormal] at ha
    exact ⟨a, (parse?_render_eq_some.1 ha).2, hnormal⟩
  · rintro ⟨a, hnarrow, rfl⟩
    exact ⟨⟨a, parse?_render_eq_some.2 ⟨rfl, hnarrow⟩⟩, normal_render a⟩

/-! ## Texts of 40 digits -/

def IsDigitText (t : String) : Prop :=
  ∃ ds, (t.toList = ds ∨ t.toList = '0' :: 'x' :: ds) ∧ ds.length = 40 ∧ ∀ d ∈ ds, Hex.IsDigit d

theorem unmarked_of_isDigit {ds : List Char} (h : ∀ d ∈ ds, Hex.IsDigit d) : unmarked ds = ds := by
  rw [unmarked.eq_def]
  split
  · next es =>
    have hx : ¬ Hex.IsDigit 'x' := by decide
    exact absurd (h 'x' (by simp)) hx
  · rfl

theorem eq_or_eq_unmarked (ds : List Char) : ds = unmarked ds ∨ ds = '0' :: 'x' :: unmarked ds := by
  rw [unmarked.eq_def]
  split
  · exact Or.inr rfl
  · exact Or.inl rfl

theorem isDigitText_iff {t : String} :
    IsDigitText t ↔ (unmarked t.toList).length = 40 ∧
      (unmarked t.toList).all (fun d => decide (Hex.IsDigit d)) = true := by
  simp only [List.all_eq_true, decide_eq_true_eq]
  constructor
  · rintro ⟨ds, htext, hlength, hdigits⟩
    have hunmarked : unmarked t.toList = ds := by
      rcases htext with htext | htext
      · rw [htext, unmarked_of_isDigit hdigits]
      · rw [htext, unmarked]
    rw [hunmarked]
    exact ⟨hlength, hdigits⟩
  · rintro ⟨hlength, hdigits⟩
    exact ⟨_, eq_or_eq_unmarked t.toList, hlength, hdigits⟩

instance (t : String) : Decidable (IsDigitText t) := decidable_of_iff _ isDigitText_iff.symm

theorem isNarrow_of_ofDigits {ds : List Char} {hlength : ds.length = 40} {a : Address}
    (h : ofDigits ds hlength = .ok a) : a.IsNarrow := by
  rw [ofDigits] at h
  split at h
  · cases h
  · next vs hvs =>
    split at h
    · cases h
    · have hlt := Digit.number_lt vs
      rw [Digit.length_readAll? hvs, hlength] at hlt
      cases h
      exact Nat.lt_of_lt_of_le hlt (by decide)

theorem IsDigitText.isNarrow {t : String} {a : Address} (h : IsDigitText t)
    (hparse : parse? t = some a) : a.IsNarrow := by
  have hlength := (isDigitText_iff.1 h).1
  rw [parse?_eq_some] at hparse
  simp only [parse, dif_pos hlength] at hparse
  exact isNarrow_of_ofDigits hparse

end Address
end Interchain
