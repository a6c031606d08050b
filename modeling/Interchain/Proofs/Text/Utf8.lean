/-
A text that is written in UTF-8 is read back, and no other octets are read as it.

A character opens with an octet that says how many octets follow.  `readChar` takes
exactly those (`readChar_encodeChar`), so that reading goes on at the next character.  It
takes them only if the character is written with them (`encodeChar_of_readChar`): a code
that fewer octets could write, a surrogate and a code past the last are all refused.
-/
import Interchain.Proofs.Outcome
import Interchain.Text.Utf8

namespace Interchain
namespace Utf8

theorem extend_cons {offset code n : Nat} (h : n < 64) (bs : Bytes) :
    extend offset code (UInt8.ofNat (n + 0x80) :: bs) = extend (offset + 1) (code * 64 + n) bs := by
  have hb : (UInt8.ofNat (n + 0x80)).toNat = n + 0x80 := by
    rw [UInt8.toNat_ofNat']
    omega
  rw [extend, hb, if_pos (by omega)]
  congr 1
  omega

/-- A character is none of the surrogates and no greater than the greatest. -/
theorem toNat_bounds (c : Char) :
    c.val.toNat ≤ 0x10FFFF ∧ ¬ (0xD800 ≤ c.val.toNat ∧ c.val.toNat ≤ 0xDFFF) := by
  have h : c.val.toNat.isValidChar := c.valid
  unfold Nat.isValidChar at h
  omega

theorem readTail_eq_ok {offset count least code : Nat} {tail rest : Bytes} {c : Char}
    (hlen : tail.length = count) (hleast : least < c.val.toNat)
    (h : extend (offset + 1) code tail = .ok c.val.toNat) :
    readTail offset count least code (tail ++ rest) = .ok (c, count) := by
  obtain ⟨hmax, hsurrogate⟩ := toNat_bounds c
  have hlong : ¬ (tail ++ rest).length < count := by
    rw [List.length_append]
    omega
  have htake : (tail ++ rest).take count = tail := List.take_left' hlen
  rw [readTail, if_neg hlong, htake, h]
  show (if 0x10FFFF < c.val.toNat then _ else _) = _
  rw [if_neg (by omega), if_neg hsurrogate, if_neg (by omega)]
  exact congrArg (fun c => Except.ok (c, count)) (Char.ofNat_toNat c)

theorem readChar_encodeChar (c : Char) (offset : Nat) (rest : Bytes) :
    ∃ lead tail, String.utf8EncodeChar c = lead :: tail ∧
      readChar offset lead (tail ++ rest) = .ok (c, tail.length) := by
  obtain ⟨hmax, -⟩ := toNat_bounds c
  have hlead : ∀ n, n < 256 → (UInt8.ofNat n).toNat = n := by
    intro n hn
    rw [UInt8.toNat_ofNat']
    omega
  rw [String.utf8EncodeChar]
  -- one case for each number of octets
  by_cases h₁ : c.val.toNat ≤ 0x7f
  · refine ⟨_, [], if_pos h₁, ?_⟩
    rw [readChar, hlead _ (by omega), if_pos (by omega)]
    exact congrArg (fun c => Except.ok (c, 0)) (Char.ofNat_toNat c)
  · by_cases h₂ : c.val.toNat ≤ 0x7ff
    · refine ⟨_, _, (if_neg h₁).trans (if_pos h₂), ?_⟩
      rw [readChar, hlead _ (by omega), if_neg (by omega), if_neg (by omega), if_pos (by omega)]
      refine readTail_eq_ok rfl (by omega) ?_
      rw [extend_cons (by omega), extend]
      congr 1
      omega
    · by_cases h₃ : c.val.toNat ≤ 0xffff
      · refine ⟨_, _, ((if_neg h₁).trans (if_neg h₂)).trans (if_pos h₃), ?_⟩
        rw [readChar, hlead _ (by omega), if_neg (by omega), if_neg (by omega),
          if_neg (by omega), if_pos (by omega)]
        refine readTail_eq_ok rfl (by omega) ?_
        rw [extend_cons (by omega), extend_cons (by omega), extend]
        congr 1
        omega
      · refine ⟨_, _, ((if_neg h₁).trans (if_neg h₂)).trans (if_neg h₃), ?_⟩
        rw [readChar, hlead _ (by omega), if_neg (by omega), if_neg (by omega),
          if_neg (by omega), if_neg (by omega), if_pos (by omega)]
        refine readTail_eq_ok rfl (by omega) ?_
        rw [extend_cons (by omega), extend_cons (by omega), extend_cons (by omega), extend]
        congr 1
        omega

theorem readFrom_append {skipped : Bytes} (offset : Nat) (rest : Bytes) :
    readFrom skipped.length offset (skipped ++ rest) =
      readFrom 0 (offset + skipped.length) rest := by
  induction skipped generalizing offset with
  | nil => rfl
  | cons b bs ih =>
    rw [List.cons_append, List.length_cons, readFrom, ih]
    congr 1
    omega

theorem readFrom_flatMap (cs : List Char) (offset : Nat) :
    readFrom 0 offset (cs.flatMap String.utf8EncodeChar) = .ok cs := by
  induction cs generalizing offset with
  | nil => rfl
  | cons c cs ih =>
    obtain ⟨lead, tail, hc, hread⟩ :=
      readChar_encodeChar c offset (cs.flatMap String.utf8EncodeChar)
    rw [List.flatMap_cons, hc, List.cons_append, readFrom, hread]
    show (readFrom tail.length (offset + 1) (tail ++ _)).map (c :: ·) = _
    rw [readFrom_append, ih]
    rfl

/-- The octets of a text are read as the text. -/
theorem decode_encode (t : String) : decode (encode t) = .ok t := by
  rw [decode, encode, readFrom_flatMap]
  show Except.ok (String.ofList t.toList) = _
  rw [String.ofList_toList]

/-! ## What is read is written -/

theorem toNat_ofNat {n : Nat} (hmax : n ≤ 0x10FFFF) (hsurrogate : ¬ (0xD800 ≤ n ∧ n ≤ 0xDFFF)) :
    (Char.ofNat n).val.toNat = n := by
  have hvalid : n.isValidChar := by
    unfold Nat.isValidChar
    omega
  rw [Char.ofNat, dif_pos hvalid]
  rfl

/-- The first of the octets that are taken in is a continuation octet. -/
theorem extend_succ_eq_ok {offset code n k : Nat} {tail : Bytes} (hlen : tail.length = k + 1)
    (h : extend offset code tail = .ok n) :
    ∃ b more, tail = b :: more ∧ more.length = k ∧ b.toNat / 64 = 2 ∧
      extend (offset + 1) (code * 64 + b.toNat % 64) more = .ok n := by
  obtain ⟨b, more, rfl⟩ := List.exists_cons_of_length_eq_add_one hlen
  rw [extend] at h
  split at h
  · next hb => exact ⟨b, more, rfl, Nat.succ.inj hlen, hb, h⟩
  · cases h

theorem extend_zero_eq_ok {offset code n : Nat} {tail : Bytes} (hlen : tail.length = 0)
    (h : extend offset code tail = .ok n) : tail = [] ∧ n = code := by
  rw [List.eq_nil_of_length_eq_zero hlen] at h ⊢
  cases h
  exact ⟨rfl, rfl⟩

/-- The octets that a character was read from: those that were counted, and a code that fewer
of them could not write. -/
theorem of_readTail {offset count least code : Nat} {rest : Bytes} {c : Char} {k : Nat}
    (h : readTail offset count least code rest = .ok (c, k)) :
    k = count ∧ (rest.take count).length = count ∧ least < c.val.toNat ∧
      extend (offset + 1) code (rest.take count) = .ok c.val.toNat := by
  rw [readTail] at h
  split at h
  · cases h
  next hlong =>
  split at h
  · cases h
  next n hn =>
  split at h
  · cases h
  next hmax =>
  split at h
  · cases h
  next hsurrogate =>
  split at h
  · cases h
  next hleast =>
  cases h
  rw [toNat_ofNat (by omega) hsurrogate]
  exact ⟨rfl, List.length_take_of_le (by omega), by omega, hn⟩

theorem encodeChar_of_readChar {offset : Nat} {lead : UInt8} {rest : Bytes} {c : Char} {k : Nat}
    (h : readChar offset lead rest = .ok (c, k)) :
    String.utf8EncodeChar c = lead :: rest.take k := by
  have hoctet : ∀ (b : UInt8) {n : Nat}, n = b.toNat → UInt8.ofNat n = b := by
    rintro b n rfl
    exact UInt8.ofNat_toNat
  rw [readChar] at h
  -- one case for each number of octets
  split at h
  · next h₁ =>
    cases h
    have hc : (Char.ofNat lead.toNat).val.toNat = lead.toNat := toNat_ofNat (by omega) (by omega)
    rw [String.utf8EncodeChar, hc, if_pos (by omega), hoctet lead rfl, List.take_zero]
  split at h
  · cases h
  split at h
  · obtain ⟨rfl, hlen, hleast, hcode⟩ := of_readTail h
    obtain ⟨b₁, more, htail, hlen, h₁, hcode⟩ := extend_succ_eq_ok hlen hcode
    obtain ⟨rfl, hc⟩ := extend_zero_eq_ok hlen hcode
    rw [htail, String.utf8EncodeChar, hc, if_neg (by omega), if_pos (by omega),
      hoctet lead (by omega), hoctet b₁ (by omega)]
  split at h
  · obtain ⟨rfl, hlen, hleast, hcode⟩ := of_readTail h
    obtain ⟨b₁, more, htail, hlen, h₁, hcode⟩ := extend_succ_eq_ok hlen hcode
    obtain ⟨b₂, more, rfl, hlen, h₂, hcode⟩ := extend_succ_eq_ok hlen hcode
    obtain ⟨rfl, hc⟩ := extend_zero_eq_ok hlen hcode
    rw [htail, String.utf8EncodeChar, hc, if_neg (by omega), if_neg (by omega), if_pos (by omega),
      hoctet lead (by omega), hoctet b₁ (by omega), hoctet b₂ (by omega)]
  split at h
  · obtain ⟨rfl, hlen, hleast, hcode⟩ := of_readTail h
    obtain ⟨b₁, more, htail, hlen, h₁, hcode⟩ := extend_succ_eq_ok hlen hcode
    obtain ⟨b₂, more, rfl, hlen, h₂, hcode⟩ := extend_succ_eq_ok hlen hcode
    obtain ⟨b₃, more, rfl, hlen, h₃, hcode⟩ := extend_succ_eq_ok hlen hcode
    obtain ⟨rfl, hc⟩ := extend_zero_eq_ok hlen hcode
    rw [htail, String.utf8EncodeChar, hc, if_neg (by omega), if_neg (by omega), if_neg (by omega),
      hoctet lead (by omega), hoctet b₁ (by omega), hoctet b₂ (by omega), hoctet b₃ (by omega)]
  cases h

/-- The characters that were read are written with the octets that were not passed over. -/
theorem flatMap_of_readFrom {skip offset : Nat} {b : Bytes} {cs : List Char}
    (h : readFrom skip offset b = .ok cs) : cs.flatMap String.utf8EncodeChar = b.drop skip := by
  induction b generalizing skip offset cs with
  | nil =>
    rw [readFrom] at h
    cases h
    rw [List.drop_nil]
    rfl
  | cons lead rest ih =>
    cases skip with
    | succ skip => exact ih h
    | zero =>
      rw [readFrom] at h
      split at h
      · cases h
      · next c k hchar =>
        obtain ⟨ds, hrest, rfl⟩ := map_eq_ok.1 h
        rw [List.flatMap_cons, encodeChar_of_readChar hchar, ih hrest, List.cons_append,
          List.take_append_drop]
        rfl

/-- A text is written with the octets that it was read from: no other octets give it. -/
theorem encode_of_decode {b : Bytes} {t : String} (h : decode b = .ok t) : encode t = b := by
  rw [decode] at h
  obtain ⟨cs, hread, rfl⟩ := map_eq_ok.1 h
  rw [encode, String.toList_ofList, flatMap_of_readFrom hread, List.drop_zero]

end Utf8
end Interchain
