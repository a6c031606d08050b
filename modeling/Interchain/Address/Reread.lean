/-
Reading back the text of an address.

The text of an address below 2 ^ 160 is read as that address, and the text of any
other is refused.  `parse_render` says so; with it no two addresses have one text.
-/
import Interchain.Address

namespace Interchain

namespace Keccak

theorem length_hash (b : Bytes) : (hash b).length = 32 := by
  simp [hash, List.range_succ, Bytes.length_ofNat]

end Keccak

namespace Address

theorem length_nibbles (b : Bytes) : (nibbles b).length = 2 * b.length := by
  induction b with
  | nil => rfl
  | cons x xs ih =>
    simp only [nibbles, List.flatMap_cons, List.length_append, List.length_cons,
      List.length_nil] at ih ⊢
    omega

theorem map_zipWith {α β γ δ : Type} (f : α → β → γ) (g : γ → δ) (g' : α → δ) :
    ∀ {as : List α} {bs : List β}, as.length ≤ bs.length →
    (∀ a ∈ as, ∀ b, g (f a b) = g' a) → (List.zipWith f as bs).map g = as.map g'
  | [], _, _, _ => rfl
  | _ :: _, [], h, _ => by simp at h
  | a :: as, b :: bs, h, hf => by
    simp only [List.zipWith_cons_cons, List.map_cons, hf a List.mem_cons_self]
    rw [map_zipWith f g g' (Nat.le_of_succ_le_succ h)
      (fun a ha b => hf a (List.mem_cons_of_mem _ ha) b)]

/-- What a function sees in the checksummed digits it sees in the digits, if case is
nothing to it. -/
theorem map_checksummed {δ : Type} (g g' : Char → δ) {ds : List Char}
    (hl : ∀ d ∈ ds, g d = g' d) (hu : ∀ d ∈ ds, g (Digit.upper d) = g' d) :
    (checksummed ds).map g = ds.map g' := by
  have hlen : (ds.take 40).length ≤
      (nibbles (Keccak.hash ((ds.take 40).map (fun c => UInt8.ofNat c.toNat)))).length := by
    rw [length_nibbles, Keccak.length_hash, List.length_take]
    omega
  have htake := map_zipWith (fun c n => if n < 8 then c else Digit.upper c) g g' hlen
    (fun d hd n => show g (if n < 8 then d else Digit.upper d) = g' d by
      have hd := List.mem_of_mem_take hd
      by_cases hn : n < 8
      · rw [if_pos hn, hl d hd]
      · rw [if_neg hn, hu d hd])
  have hdrop : (ds.drop 40).map g = (ds.drop 40).map g' :=
    List.map_congr_left (fun d hd => hl d (List.mem_of_mem_drop hd))
  rw [checksummed, List.map_append, htake, hdrop, ← List.map_append, List.take_append_drop]

theorem length_checksummed (ds : List Char) : (checksummed ds).length = ds.length := by
  have := map_checksummed (fun _ => ()) (fun _ => ()) (fun d (_ : d ∈ ds) => rfl) (fun _ _ => rfl)
  have := congrArg List.length this
  simpa only [List.length_map] using this

def digitValues (a : Address) : List (Fin 16) :=
  Hex.digitsOf (if a.value < 2 ^ 160 then 40 else 41) a.value

theorem digits_eq_map (a : Address) :
    a.digits = a.digitValues.map (fun v => Digit.render v.val) := Hex.ofNat_eq_map _ _

theorem exists_of_mem_digits {a : Address} {d : Char} (h : d ∈ a.digits) :
    ∃ v : Fin 16, d = Digit.render v.val := by
  rw [digits_eq_map] at h
  obtain ⟨v, _, rfl⟩ := List.mem_map.1 h
  exact ⟨v, rfl⟩

theorem length_digits (a : Address) : a.digits.length = if a.value < 2 ^ 160 then 40 else 41 := by
  rw [digits_eq_map, List.length_map, digitValues, Hex.length_digitsOf]

theorem number_digitValues (a : Address) : Digit.number a.digitValues = a.value := by
  refine Hex.number_digitsOf ?_
  have := a.value_lt
  split
  · next h => exact Nat.lt_of_lt_of_le h (by decide)
  · exact Nat.lt_trans this (by decide)

theorem map_lower_checksummed (a : Address) :
    (checksummed a.digits).map Digit.lower = a.digits := by
  have := map_checksummed Digit.lower id
    (fun d (hd : d ∈ a.digits) => by
      obtain ⟨v, rfl⟩ := exists_of_mem_digits hd
      exact Digit.lower_render (Nat.lt_trans v.isLt (by decide)))
    (fun d hd => by
      obtain ⟨v, rfl⟩ := exists_of_mem_digits hd
      exact Digit.lower_upper_render (Nat.lt_trans v.isLt (by decide)))
  rwa [List.map_id] at this

theorem readAll?_checksummed (a : Address) :
    Digit.readAll? 16 (checksummed a.digits) = some a.digitValues := by
  have := map_checksummed (Digit.read? 16) (Digit.read? 16)
    (fun d (_ : d ∈ a.digits) => rfl)
    (fun d hd => by
      obtain ⟨v, rfl⟩ := exists_of_mem_digits hd
      rw [Digit.read?_upper_render, Digit.read?_render])
  rw [Digit.readAll?_congr this, digits_eq_map, Digit.readAll?_map_render]

theorem ofDigits_checksummed (a : Address) (h : (checksummed a.digits).length = 40) :
    ofDigits (checksummed a.digits) h = .ok a := by
  rw [ofDigits]
  split
  · next hv => rw [readAll?_checksummed] at hv; cases hv
  · next vs hv =>
    rw [readAll?_checksummed, Option.some.injEq] at hv
    rw [map_lower_checksummed, bne_self_eq_false, Bool.and_false]
    simp only [Bool.false_eq_true, if_false, ← hv, number_digitValues, ofNat]

/-- The text of an address is read as the address if the address is below 2 ^ 160, and
refused if not. -/
theorem parse_render (a : Address) : parse a.render = a.reread := by
  have hl : (checksummed a.digits).length = if a.value < 2 ^ 160 then 40 else 41 := by
    rw [length_checksummed, length_digits]
  simp only [parse, render, String.toList_ofList, unmarked, reread]
  by_cases h : a.value < 2 ^ 160
  · rw [if_pos h] at hl
    rw [dif_pos hl, if_pos h, ofDigits_checksummed]
  · rw [if_neg h] at hl
    rw [dif_neg (by omega), if_neg h, parseIcap]
    simp

theorem render_injective {a b : Address} (h : a.render = b.render) : a = b := by
  have h := congrArg String.toList h
  simp only [render, String.toList_ofList, List.cons.injEq, true_and] at h
  have hv : a.digitValues = b.digitValues := by
    have := readAll?_checksummed a
    rw [h, readAll?_checksummed, Option.some.injEq] at this
    exact this.symm
  have := number_digitValues a
  rw [hv, number_digitValues] at this
  cases a; cases b; cases this; rfl

end Address
end Interchain
