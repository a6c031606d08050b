/-
Texts that spell byte strings.

`IsByteText` says what such a text looks like, and reading takes exactly those
(`isByteText_iff`).  Texts of one byte string differ in the case of their characters only:
made lower case, each is the text that is written (`lowerText_of_parseEitherMark?`), and any
marked text that is that text in lower case spells the byte string (`parse?_eq_some_iff`).
-/
import Interchain.Bytes.Hex

namespace Interchain
namespace Hex

def IsDigit (c : Char) : Prop :=
  ('0' ≤ c ∧ c ≤ '9') ∨ ('a' ≤ c ∧ c ≤ 'f') ∨ ('A' ≤ c ∧ c ≤ 'F')

def IsByteText (t : String) : Prop :=
  ∃ ds, t.toList = '0' :: 'x' :: ds ∧ ds.length % 2 = 0 ∧ ∀ d ∈ ds, IsDigit d

instance (c : Char) : Decidable (IsDigit c) := inferInstanceAs (Decidable (_ ∨ _))

theorem isDigit_iff {c : Char} : IsDigit c ↔ ∃ d, Digit.read? 16 c = some d := by
  have hle : ∀ {a b : Char}, a ≤ b ↔ a.toNat ≤ b.toNat := Iff.rfl
  have hends : ('0' : Char).toNat = 48 ∧ ('9' : Char).toNat = 57 ∧ ('a' : Char).toNat = 97 ∧
      ('f' : Char).toNat = 102 ∧ ('z' : Char).toNat = 122 ∧ ('A' : Char).toNat = 65 ∧
      ('F' : Char).toNat = 70 ∧ ('Z' : Char).toNat = 90 := by decide
  have hread : (∃ d, Digit.read? 16 c = some d) ↔ ∃ n, Digit.value? c = some n ∧ n < 16 := by
    rw [Digit.read?]
    cases Digit.value? c with
    | none => exact iff_of_false (by simp) (by simp)
    | some n =>
      by_cases hn : n < 16
      · exact iff_of_true ⟨⟨n, hn⟩, dif_pos hn⟩ ⟨n, rfl, hn⟩
      · refine iff_of_false ?_ ?_
        · rintro ⟨d, hd⟩
          cases (dif_neg hn).symm.trans hd
        · rintro ⟨k, hk, hlt⟩
          cases hk
          exact hn hlt
  rw [hread, IsDigit]
  simp only [Digit.value?, hle]
  split
  · exact iff_of_true (by omega) ⟨_, rfl, by omega⟩
  · split
    · simp only [Option.some.injEq, exists_eq_left']
      omega
    · split
      · simp only [Option.some.injEq, exists_eq_left']
        omega
      · exact iff_of_false (by omega) (by simp)

theorem decode?_eq_some_iff {cs : List Char} :
    (∃ b, decode? cs = some b) ↔ cs.length % 2 = 0 ∧ ∀ c ∈ cs, IsDigit c := by
  fun_induction decode? cs with
  | case1 => exact iff_of_true ⟨[], rfl⟩ ⟨rfl, List.forall_mem_nil _⟩
  | case2 c => exact iff_of_false (by simp) (by simp)
  | case3 c d rest x y bs hbs hy hx ih =>
    obtain ⟨heven, hrest⟩ := ih.1 ⟨bs, hbs⟩
    refine iff_of_true ⟨_, rfl⟩ ⟨?_, ?_⟩
    · rw [List.length_cons, List.length_cons]
      omega
    · intro e he
      rcases List.mem_cons.1 he with rfl | he
      · exact isDigit_iff.2 ⟨x, hx⟩
      · rcases List.mem_cons.1 he with rfl | he
        · exact isDigit_iff.2 ⟨y, hy⟩
        · exact hrest e he
  | case4 c d rest hnone ih =>
    refine iff_of_false (by simp) ?_
    rintro ⟨heven, hall⟩
    rw [List.length_cons, List.length_cons] at heven
    obtain ⟨x, hx⟩ := isDigit_iff.1 (hall c List.mem_cons_self)
    obtain ⟨y, hy⟩ := isDigit_iff.1 (hall d (List.mem_cons_of_mem _ List.mem_cons_self))
    obtain ⟨bs, hbs⟩ := ih.2 ⟨by omega, fun e he =>
      hall e (List.mem_cons_of_mem _ (List.mem_cons_of_mem _ he))⟩
    exact hnone x y bs hx hy hbs

theorem isByteText_iff {t : String} : IsByteText t ↔ ∃ b, parse? t = some b := by
  rw [IsByteText, parse?]
  split
  · next ds hds =>
    rw [decode?_eq_some_iff]
    constructor
    · rintro ⟨es, hes, h⟩
      cases hds.symm.trans hes
      exact h
    · intro h
      exact ⟨ds, hds, h⟩
  · next hmark =>
    refine iff_of_false ?_ (by simp)
    rintro ⟨ds, hds, -⟩
    exact hmark ds hds

instance (t : String) : Decidable (IsByteText t) :=
  decidable_of_iff ((parse? t).isSome = true) (Option.isSome_iff_exists.trans isByteText_iff.symm)

theorem parseEitherMark?_of_parse? {t : String} {b : Bytes} (h : parse? t = some b) :
    parseEitherMark? t = some b := by
  rw [parse?] at h
  split at h
  · next ds hds =>
    rw [parseEitherMark?, hds]
    exact h
  · cases h

/-- The lower-case text of a byte string is the text that is written for it. -/
theorem lowerText_of_parseEitherMark? {t : String} {b : Bytes} (h : parseEitherMark? t = some b) :
    lowerText t = render b := by
  rw [parseEitherMark?] at h
  split at h
  · next ds hds =>
    rw [lowerText, hds, render, encode_of_decode? h]
    rfl
  · next ds hds =>
    rw [lowerText, hds, render, encode_of_decode? h]
    rfl
  · cases h

theorem lowerText_of_parse? {t : String} {b : Bytes} (h : parse? t = some b) :
    lowerText t = render b := lowerText_of_parseEitherMark? (parseEitherMark?_of_parse? h)

theorem lowerText_render (b : Bytes) : lowerText (render b) = render b :=
  lowerText_of_parse? (parse?_render b)

theorem isByteText_render (b : Bytes) : IsByteText (render b) :=
  isByteText_iff.2 ⟨b, parse?_render b⟩

theorem render_injective {b c : Bytes} (h : render b = render c) : b = c := by
  have hb := parse?_render b
  rw [h, parse?_render] at hb
  exact (Option.some.inj hb).symm

/-- Two texts that are the same in lower case spell the same byte string. -/
theorem eq_of_lowerText_eq {t u : String} {b c : Bytes} (ht : parse? t = some b)
    (hu : parse? u = some c) (h : lowerText t = lowerText u) : b = c := by
  rw [lowerText_of_parse? ht, lowerText_of_parse? hu] at h
  exact render_injective h

/-! ## Digits of either case -/

theorem value?_lower (c : Char) : Digit.value? (Digit.lower c) = Digit.value? c := by
  rw [Digit.lower]
  split
  · next h =>
    have hle : ∀ {a b : Char}, a ≤ b ↔ a.toNat ≤ b.toNat := Iff.rfl
    have hends : ('A' : Char).toNat = 65 ∧ ('Z' : Char).toNat = 90 := by decide
    have key : ∀ k : Fin 26, Digit.value? (Char.ofNat (65 + k.val + 32)) =
        Digit.value? (Char.ofNat (65 + k.val)) := by decide
    rw [hle, hle] at h
    have hk := key ⟨c.toNat - 65, by omega⟩
    have hc : 65 + (c.toNat - 65) = c.toNat := by omega
    simp only [hc, Char.ofNat_toNat] at hk
    exact hk
  · rfl

theorem read?_lower (base : Nat) (c : Char) :
    Digit.read? base (Digit.lower c) = Digit.read? base c := by
  rw [Digit.read?, value?_lower, Digit.read?]

theorem decode?_map_lower (cs : List Char) : decode? (cs.map Digit.lower) = decode? cs := by
  fun_induction decode? cs with
  | case1 => rfl
  | case2 c => rfl
  | case3 c d rest x y bs hbs hy hx ih =>
    simp only [List.map_cons, decode?, read?_lower, ih, hx, hy, hbs]
  | case4 c d rest hnone ih =>
    simp only [List.map_cons, decode?, read?_lower, ih]

/-- The texts of a byte string are the spellings of the one that is written, marked `0x`. -/
theorem parse?_eq_some_iff {t : String} {b : Bytes} :
    parse? t = some b ↔ "0x".toList <+: t.toList ∧ lowerText t = render b := by
  constructor
  · intro h
    refine ⟨?_, lowerText_of_parse? h⟩
    rw [parse?] at h
    split at h
    · next ds hds => exact ⟨ds, hds.symm⟩
    · cases h
  · rintro ⟨⟨ds, hds⟩, hlower⟩
    have hds : t.toList = '0' :: 'x' :: ds := hds.symm
    have hlower := congrArg String.toList hlower
    have hmark : Digit.lower '0' = '0' ∧ Digit.lower 'x' = 'x' := by decide
    rw [lowerText, render, String.toList_ofList, String.toList_ofList, hds, List.map_cons,
      List.map_cons, hmark.1, hmark.2, List.cons.injEq, List.cons.injEq] at hlower
    rw [parse?, hds]
    show decode? ds = some b
    rw [← decode?_map_lower, hlower.2.2, decode?_encode]

end Hex
end Interchain
