/-
The texts that name an address.

`Spells t n` says in words of the text alone that `t` is a spelling of the number `n`: 40
hexadecimal digits in one case or with their checksum, marked or not, or an account number with
its check digits.  Reading takes exactly the spellings, as the address of the number that is
spelled (`parse_eq_ok_iff`), so that a text spells one number at most and two texts are read
alike exactly if they spell the same numbers (`parse?_eq_iff`).
-/
import Interchain.Proofs.Address
import Mathlib.Data.Nat.Digits.Defs

namespace Interchain

/-! ## Digits of a base -/

namespace Digit

/-- Digits of either case, and the numbers that they stand for. -/
def Stand {base : Nat} (cs : List Char) (vs : List (Fin base)) : Prop :=
  cs.map value? = vs.map (fun v => some v.val)

theorem read?_eq_some_iff {base : Nat} {c : Char} {v : Fin base} :
    read? base c = some v ↔ value? c = some v.val := by
  constructor
  · exact value?_of_read?
  · intro h
    rw [read?, h]
    exact dif_pos v.isLt

theorem readAll?_eq_some_iff {base : Nat} {cs : List Char} {vs : List (Fin base)} :
    readAll? base cs = some vs ↔ Stand cs vs := by
  induction cs generalizing vs with
  | nil =>
    cases vs with
    | nil => exact iff_of_true rfl rfl
    | cons v vs => exact iff_of_false (by simp [readAll?]) (by simp [Stand])
  | cons c cs ih =>
    have hread : readAll? base (c :: cs) = some vs ↔
        ∃ w ws, read? base c = some w ∧ readAll? base cs = some ws ∧ w :: ws = vs := by
      rw [readAll?]
      split
      · next w ws hw hws => simp [hw, hws]
      · next hnone =>
        refine iff_of_false (by simp) ?_
        rintro ⟨w, ws, hw, hws, -⟩
        exact hnone w ws hw hws
    rw [hread, Stand]
    cases vs with
    | nil => exact iff_of_false (by simp) (by simp)
    | cons v vs =>
      rw [List.map_cons, List.map_cons, List.cons.injEq, ← read?_eq_some_iff, ← Stand, ← ih]
      constructor
      · rintro ⟨w, ws, hw, hws, h⟩
        cases h
        exact ⟨hw, hws⟩
      · rintro ⟨hv, hvs⟩
        exact ⟨v, vs, hv, hvs, rfl⟩

theorem Stand.length_eq {base : Nat} {cs : List Char} {vs : List (Fin base)} (h : Stand cs vs) :
    vs.length = cs.length := by
  have hlength := congrArg List.length h
  rw [List.length_map, List.length_map] at hlength
  exact hlength.symm

/-- The number that digits spell has them as its digits, the last of them first. -/
theorem number_eq_ofDigits {base : Nat} (vs : List (Fin base)) :
    number vs = Nat.ofDigits base (vs.reverse.map Fin.val) := by
  have hfold (ws : List (Fin base)) :
      (ws.foldr (fun d n => n * base + d.val) 0) = Nat.ofDigits base (ws.map Fin.val) := by
    induction ws with
    | nil => rfl
    | cons w ws ih =>
      rw [List.foldr_cons, ih, List.map_cons, Nat.ofDigits_cons, Nat.mul_comm, Nat.add_comm]
  rw [← hfold, List.foldr_reverse, number]

end Digit

namespace Address

/-! ## Case -/

def IsCased (ds : List Char) : Prop :=
  ds.map Digit.lower = ds ∨ ds.map Digit.upper = ds ∨ checksummed (ds.map Digit.lower) = ds

/-- Of hexadecimal digits, those from `A` to `F` are the ones that change in lower case, and
those from `a` to `f` the ones that change in upper case. -/
theorem case_of_isDigit {d : Char} (h : Hex.IsDigit d) :
    (decide ('A' ≤ d ∧ d ≤ 'F') = false ↔ Digit.lower d = d) ∧
      (decide ('a' ≤ d ∧ d ≤ 'f') = false ↔ Digit.upper d = d) := by
  have key : ∀ k : Fin 128, Hex.IsDigit (Char.ofNat k.val) →
      (decide ('A' ≤ Char.ofNat k.val ∧ Char.ofNat k.val ≤ 'F') = false ↔
          Digit.lower (Char.ofNat k.val) = Char.ofNat k.val) ∧
        (decide ('a' ≤ Char.ofNat k.val ∧ Char.ofNat k.val ≤ 'f') = false ↔
          Digit.upper (Char.ofNat k.val) = Char.ofNat k.val) := by decide
  obtain ⟨v, hv⟩ := Hex.isDigit_iff.1 h
  have hsmall := Digit.toNat_lt_of_value? (Digit.value?_of_read? hv)
  have hd := key ⟨d.toNat, hsmall⟩
  rw [Char.ofNat_toNat] at hd
  exact hd h

theorem isMixedCase_eq_false_iff {ds : List Char} (h : ∀ d ∈ ds, Hex.IsDigit d) :
    isMixedCase ds = false ↔ ds.map Digit.lower = ds ∨ ds.map Digit.upper = ds := by
  have hfix (f : Char → Char) : ds.map f = ds ↔ ∀ d ∈ ds, f d = d := by
    conv_lhs => rhs; rw [← List.map_id ds]
    exact List.map_inj_left
  rw [isMixedCase, Bool.and_eq_false_iff, List.any_eq_false, List.any_eq_false, hfix, hfix]
  refine or_congr (forall₂_congr (fun d hd => ?_)) (forall₂_congr (fun d hd => ?_))
  · rw [← (case_of_isDigit (h d hd)).1]
    simp
  · rw [← (case_of_isDigit (h d hd)).2]
    simp

theorem isDigit_of_stand {ds : List Char} {vs : List (Fin 16)} (h : Digit.Stand ds vs) :
    ∀ d ∈ ds, Hex.IsDigit d := by
  intro d hd
  have hvalue : Digit.value? d ∈ vs.map (fun v => some v.val) := h ▸ List.mem_map_of_mem hd
  obtain ⟨v, -, hv⟩ := List.mem_map.1 hvalue
  exact Hex.isDigit_iff.2 ⟨v, Digit.read?_eq_some_iff.2 hv.symm⟩

theorem isCased_iff {ds : List Char} (h : ∀ d ∈ ds, Hex.IsDigit d) :
    IsCased ds ↔ (isMixedCase ds && ds != checksummed (ds.map Digit.lower)) = false := by
  rw [Bool.and_eq_false_iff, isMixedCase_eq_false_iff h, bne_eq_false_iff_eq, or_assoc,
    eq_comm (a := ds) (b := checksummed _)]
  exact Iff.rfl

/-! ## Check digits -/

/-- The check digits are the ones that leave 1 by 97 behind the number and the country mark. -/
theorem icapCheck_eq_iff {vs : List (Fin 36)} {c : Nat} :
    c = icapCheck vs ↔
      (2 ≤ c ∧ c ≤ 98) ∧ (100 * expanded (vs ++ [33, 14]) + c) % 97 = 1 := by
  have hzeros (ws : List (Fin 36)) : expanded (ws ++ [0, 0]) = 100 * expanded ws := by
    rw [expanded, List.foldl_append, ← expanded]
    show expanded ws * 10 * 10 = _
    omega
  have hsplit : vs ++ [33, 14, 0, 0] = (vs ++ [33, 14]) ++ [0, 0] := by
    rw [List.append_assoc]
    rfl
  rw [icapCheck, hsplit, hzeros]
  omega

/-! ## Spellings -/

/-- The texts that spell a number: 40 hexadecimal digits, with or without `0x`, or `XE`, two
check digits and 30 or 31 digits of base 36. -/
inductive Spells (t : String) : Nat → Prop
  | digits {mark ds : List Char} {vs : List (Fin 16)} (htext : t.toList = mark ++ ds)
      (hmark : mark = [] ∨ mark = ['0', 'x']) (hlength : ds.length = 40)
      (hdigits : Digit.Stand ds vs) (hcase : IsCased ds) :
      Spells t (Nat.ofDigits 16 (vs.reverse.map Fin.val))
  | icap {c₁ c₂ : Char} {ds : List Char} {d₁ d₂ : Fin 10} {vs : List (Fin 36)}
      (htext : t.toList = 'X' :: 'E' :: c₁ :: c₂ :: ds)
      (hlength : ds.length = 30 ∨ ds.length = 31)
      (hchecks : Digit.Stand [c₁, c₂] [d₁, d₂]) (hdigits : Digit.Stand ds vs)
      (hrange : 2 ≤ 10 * d₁.val + d₂.val ∧ 10 * d₁.val + d₂.val ≤ 98)
      (hsum : (100 * expanded (vs ++ [33, 14]) + (10 * d₁.val + d₂.val)) % 97 = 1) :
      Spells t (Nat.ofDigits 36 (vs.reverse.map Fin.val))

theorem eq_of_value_eq {a b : Address} (h : a.value = b.value) : a = b := by
  cases a
  cases b
  cases h
  rfl

theorem ofDigits_eq_ok_iff {ds : List Char} {hlength : ds.length = 40} {a : Address} :
    ofDigits ds hlength = .ok a ↔
      ∃ vs : List (Fin 16), Digit.Stand ds vs ∧ IsCased ds ∧ Digit.number vs = a.value := by
  rw [ofDigits]
  split
  · next hnone =>
    refine iff_of_false (by simp) ?_
    rintro ⟨vs, hvs, -⟩
    cases hnone.symm.trans (Digit.readAll?_eq_some_iff.2 hvs)
  · next vs hvs =>
    have hstand := Digit.readAll?_eq_some_iff.1 hvs
    have hcased := isCased_iff (isDigit_of_stand hstand)
    split
    · next hcase =>
      refine iff_of_false (by simp) ?_
      rintro ⟨-, -, h, -⟩
      cases (hcased.1 h).symm.trans hcase
    · next hcase =>
      rw [Except.ok.injEq]
      constructor
      · rintro rfl
        exact ⟨vs, hstand, hcased.2 (Bool.eq_false_iff.2 hcase), rfl⟩
      · rintro ⟨ws, hws, -, hvalue⟩
        cases hvs.symm.trans (Digit.readAll?_eq_some_iff.2 hws)
        exact eq_of_value_eq hvalue

theorem ofIcap_eq_ok_iff {c₁ c₂ : Char} {ds : List Char} {hlength : ds.length ≤ 31}
    {a : Address} :
    ofIcap c₁ c₂ ds hlength = .ok a ↔
      ∃ (d₁ d₂ : Fin 10) (vs : List (Fin 36)), Digit.Stand [c₁, c₂] [d₁, d₂] ∧
        Digit.Stand ds vs ∧ 10 * d₁.val + d₂.val = icapCheck vs ∧ Digit.number vs = a.value := by
  have hchecks (d₁ d₂ : Fin 10) : Digit.Stand [c₁, c₂] [d₁, d₂] ↔
      Digit.read? 10 c₁ = some d₁ ∧ Digit.read? 10 c₂ = some d₂ := by
    simp [Digit.Stand, Digit.read?_eq_some_iff]
  simp only [hchecks, ← Digit.readAll?_eq_some_iff]
  rw [ofIcap]
  split
  · next d₁ d₂ vs h₁ h₂ hvs =>
    split
    · next hcheck =>
      rw [Except.ok.injEq]
      constructor
      · rintro rfl
        exact ⟨d₁, d₂, vs, ⟨h₁, h₂⟩, hvs, hcheck, rfl⟩
      · rintro ⟨_, _, _, ⟨h₁', h₂'⟩, hvs', -, hvalue⟩
        cases hvs.symm.trans hvs'
        exact eq_of_value_eq hvalue
    · next hcheck =>
      refine iff_of_false (by simp) ?_
      rintro ⟨_, _, _, ⟨h₁', h₂'⟩, hvs', h, -⟩
      cases h₁.symm.trans h₁'
      cases h₂.symm.trans h₂'
      cases hvs.symm.trans hvs'
      exact hcheck h
  · next hnone =>
    refine iff_of_false (by simp) ?_
    rintro ⟨d₁, d₂, vs, ⟨h₁, h₂⟩, hvs, -⟩
    exact hnone d₁ d₂ vs h₁ h₂ hvs

theorem spells_of_parse {t : String} {a : Address} (h : parse t = .ok a) : Spells t a.value := by
  simp only [parse] at h
  split at h
  · next hlength =>
    obtain ⟨vs, hdigits, hcase, hvalue⟩ := ofDigits_eq_ok_iff.1 h
    rw [← hvalue, Digit.number_eq_ofDigits]
    rcases eq_or_eq_unmarked t.toList with htext | htext
    · have hplain : t.toList = [] ++ unmarked t.toList := htext
      exact .digits hplain (Or.inl rfl) hlength hdigits hcase
    · have hmarked : t.toList = ['0', 'x'] ++ unmarked t.toList := htext
      exact .digits hmarked (Or.inr rfl) hlength hdigits hcase
  · rw [parseIcap.eq_def] at h
    split at h
    · next c₁ c₂ ds htext =>
      split at h
      · next hlength =>
        obtain ⟨d₁, d₂, vs, hchecks, hdigits, hcheck, hvalue⟩ := ofIcap_eq_ok_iff.1 h
        obtain ⟨hrange, hsum⟩ := icapCheck_eq_iff.1 hcheck
        rw [← hvalue, Digit.number_eq_ofDigits]
        exact .icap htext (by omega) hchecks hdigits hrange hsum
      · cases h
    · cases h

theorem exists_value_eq {base : Nat} (vs : List (Fin base)) (h : base ^ vs.length ≤ 36 ^ 31) :
    ∃ a : Address, Digit.number vs = a.value :=
  ⟨⟨Digit.number vs, Nat.lt_of_lt_of_le (Digit.number_lt vs) h⟩, rfl⟩

theorem parse_of_spells {t : String} {n : Nat} (h : Spells t n) :
    ∃ a, parse t = .ok a ∧ a.value = n := by
  cases h with
  | @digits mark ds vs htext hmark hlength hdigits hcase =>
    have hunmarked : unmarked t.toList = ds := by
      rw [htext]
      rcases hmark with rfl | rfl
      · exact unmarked_of_isDigit (isDigit_of_stand hdigits)
      · rfl
    obtain ⟨a, ha⟩ := exists_value_eq vs (by rw [hdigits.length_eq, hlength]; decide)
    have hread : ofDigits ds hlength = .ok a := ofDigits_eq_ok_iff.2 ⟨vs, hdigits, hcase, ha⟩
    refine ⟨a, ?_, by rw [← ha, Digit.number_eq_ofDigits]⟩
    simp only [parse, hunmarked, hlength, dite_true, hread]
  | @icap c₁ c₂ ds d₁ d₂ vs htext hlength hchecks hdigits hrange hsum =>
    have hfew : 36 ^ vs.length ≤ 36 ^ 31 :=
      Nat.pow_le_pow_right (by decide) (by rw [hdigits.length_eq]; omega)
    obtain ⟨a, ha⟩ := exists_value_eq vs hfew
    have hcheck := icapCheck_eq_iff.2 ⟨hrange, hsum⟩
    have hwithin : 30 ≤ ds.length ∧ ds.length ≤ 31 := by omega
    have hread : ofIcap c₁ c₂ ds hwithin.2 = .ok a :=
      ofIcap_eq_ok_iff.2 ⟨d₁, d₂, vs, hchecks, hdigits, hcheck, ha⟩
    refine ⟨a, ?_, by rw [← ha, Digit.number_eq_ofDigits]⟩
    -- an account number is too short to be read as 40 digits
    have hshort : (unmarked t.toList).length ≠ 40 := by
      rw [htext, unmarked]
      · simp only [List.length_cons]
        omega
      · simp
    have hparse : parse t = parseIcap t.toList := dif_neg hshort
    rw [hparse, htext, parseIcap, dif_pos hwithin, hread]

/-- Reading takes exactly the spellings of numbers, as the addresses of those numbers. -/
theorem parse_eq_ok_iff {t : String} {a : Address} : parse t = .ok a ↔ Spells t a.value := by
  refine ⟨spells_of_parse, fun h => ?_⟩
  obtain ⟨b, hb, hvalue⟩ := parse_of_spells h
  rwa [eq_of_value_eq hvalue] at hb

theorem parse?_eq_some_iff {t : String} {a : Address} : parse? t = some a ↔ Spells t a.value :=
  parse?_eq_some.trans parse_eq_ok_iff

theorem Spells.exists_parse? {t : String} {n : Nat} (h : Spells t n) :
    ∃ a, parse? t = some a ∧ a.value = n := by
  obtain ⟨a, ha, hvalue⟩ := parse_of_spells h
  exact ⟨a, parse?_eq_some.2 ha, hvalue⟩

theorem Spells.unique {t : String} {n m : Nat} (h : Spells t n) (h' : Spells t m) : n = m := by
  obtain ⟨a, ha, rfl⟩ := h.exists_parse?
  obtain ⟨b, hb, rfl⟩ := h'.exists_parse?
  rw [Option.some.inj (ha.symm.trans hb)]

def Respelled (t t' : String) : Prop := ∀ n, Spells t n ↔ Spells t' n

theorem Spells.respelled {t t' : String} {n : Nat} (h : Spells t n) (h' : Spells t' n) :
    Respelled t t' := by
  intro m
  constructor
  · intro hm
    rwa [hm.unique h]
  · intro hm
    rwa [hm.unique h']

theorem parse?_eq_iff {t t' : String} : parse? t = parse? t' ↔ Respelled t t' := by
  constructor
  · intro h n
    have hspells {u u' : String} (h : parse? u = parse? u') (hn : Spells u n) : Spells u' n := by
      obtain ⟨a, ha, rfl⟩ := hn.exists_parse?
      exact parse?_eq_some_iff.1 (h.symm.trans ha)
    exact ⟨hspells h, hspells h.symm⟩
  · intro h
    refine Option.ext (fun a => ?_)
    rw [parse?_eq_some_iff, parse?_eq_some_iff]
    exact h a.value

end Address
end Interchain
