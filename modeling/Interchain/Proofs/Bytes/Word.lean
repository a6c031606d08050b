/-
Texts of 32-byte words.

A byte string of whole words is the words of some numbers (`Bytes.exists_words`), and in
each text of it, whatever the case of its digits, the 64 digits at a place spell the number
at that place (`Hex.wordAt_of_words`).
-/
import Interchain.Proofs.Bytes.Hex

namespace Interchain

namespace Bytes

theorem toNat_word {n : Nat} (h : n < 2 ^ 256) : toNat (word n) = n := toNat_ofNat h

/-- A byte string of 32 bytes is the word of the number that it spells. -/
theorem word_toNat {b : Bytes} (h : b.length = 32) : word (toNat b) = b := by
  rw [word, ← h]
  exact ofNat_toNat b

def words (ns : List Nat) : Bytes := ns.flatMap word

theorem words_cons (n : Nat) (ns : List Nat) : words (n :: ns) = word n ++ words ns := rfl

theorem exists_words {count : Nat} {b : Bytes} (h : b.length = 32 * count) :
    ∃ ns, ns.length = count ∧ (∀ n ∈ ns, n < 2 ^ 256) ∧ words ns = b := by
  induction count generalizing b with
  | zero => exact ⟨[], rfl, fun _ hn => (nomatch hn), (List.eq_nil_of_length_eq_zero h).symm⟩
  | succ count ih =>
    have hfirst : (b.take 32).length = 32 := by
      rw [List.length_take]
      omega
    obtain ⟨ns, hlength, hfit, hns⟩ := ih (b := b.drop 32) (by rw [List.length_drop]; omega)
    have hlt := toNat_lt (b.take 32)
    rw [hfirst] at hlt
    refine ⟨toNat (b.take 32) :: ns, congrArg Nat.succ hlength, ?_, ?_⟩
    · exact List.forall_mem_cons.2 ⟨hlt, hfit⟩
    · rw [words_cons, word_toNat hfirst, hns, List.take_append_drop]

theorem drop_words (ns : List Nat) (place : Nat) :
    (words ns).drop (32 * place) = words (ns.drop place) := by
  induction place generalizing ns with
  | zero => rfl
  | succ place ih =>
    cases ns with
    | nil => exact List.drop_nil
    | cons n ns =>
      have hfirst : (words (n :: ns)).drop 32 = words ns := List.drop_left' (length_word n)
      rw [Nat.mul_succ, Nat.add_comm, ← List.drop_drop, hfirst, ih]
      rfl

theorem toNat_word_at {ns : List Nat} (h : ∀ n ∈ ns, n < 2 ^ 256) (place : Nat) :
    toNat (((words ns).drop (32 * place)).take 32) = ns.getD place 0 := by
  rw [drop_words, List.getD_eq_getElem?_getD, ← List.head?_drop]
  cases hrest : ns.drop place with
  | nil => rfl
  | cons n rest =>
    have hn : n ∈ ns := List.mem_of_mem_drop (hrest ▸ List.mem_cons_self)
    have htake : (words (n :: rest)).take 32 = word n := List.take_left' (length_word n)
    rw [htake, toNat_word (h n hn)]
    rfl

end Bytes

namespace Hex

/-! ## Digits of the bytes at a place -/

theorem decode?_cons_cons_eq_some {c d : Char} {ds : List Char} {b : Bytes} :
    decode? (c :: d :: ds) = some b ↔
      ∃ x y bs, Digit.read? 16 c = some x ∧ Digit.read? 16 d = some y ∧ decode? ds = some bs ∧
        UInt8.ofNat (16 * x.val + y.val) :: bs = b := by
  rw [decode?]
  split
  · next x y bs hx hy hbs => simp [hx, hy, hbs]
  · next h =>
    refine iff_of_false (by simp) ?_
    rintro ⟨x, y, bs, hx, hy, hbs, -⟩
    exact h x y bs hx hy hbs

theorem length_of_decode? {ds : List Char} {b : Bytes} (h : decode? ds = some b) :
    ds.length = 2 * b.length := by
  fun_induction decode? ds generalizing b with
  | case1 => cases h; rfl
  | case2 => cases h
  | case3 c d rest x y bs hbs hy hx ih =>
    cases h
    have hrest := ih hbs
    simp only [List.length_cons]
    omega
  | case4 => cases h

theorem length_of_parse? {t : String} {b : Bytes} (h : parse? t = some b) :
    t.length = 2 + 2 * b.length := by
  rw [parse?] at h
  split at h
  · next ds hds =>
    rw [← String.length_toList, hds, List.length_cons, List.length_cons, length_of_decode? h]
    omega
  · cases h

theorem decode?_drop {ds : List Char} {b : Bytes} (h : decode? ds = some b) (n : Nat) :
    decode? (ds.drop (2 * n)) = some (b.drop n) := by
  induction n generalizing ds b with
  | zero => exact h
  | succ n ih =>
    match ds with
    | [] => cases h; rw [List.drop_nil, List.drop_nil]; rfl
    | [_] => cases h
    | c :: d :: ds =>
      obtain ⟨x, y, bs, -, -, hbs, rfl⟩ := decode?_cons_cons_eq_some.1 h
      exact ih hbs

theorem decode?_take {ds : List Char} {b : Bytes} (h : decode? ds = some b) (n : Nat) :
    decode? (ds.take (2 * n)) = some (b.take n) := by
  induction n generalizing ds b with
  | zero => rw [List.take_zero]; rfl
  | succ n ih =>
    match ds with
    | [] => cases h; rw [List.take_nil, List.take_nil]; rfl
    | [_] => cases h
    | c :: d :: ds =>
      obtain ⟨x, y, bs, hx, hy, hbs, rfl⟩ := decode?_cons_cons_eq_some.1 h
      exact decode?_cons_cons_eq_some.2 ⟨x, y, bs.take n, hx, hy, ih hbs, rfl⟩

/-! ## The numbers that digits spell -/

def spelled (ds : List Char) : Nat := ds.foldl (fun n d => n * 16 + (Digit.value? d).getD 0) 0

theorem spelled_of_decode? {ds : List Char} {b : Bytes} (h : decode? ds = some b) :
    spelled ds = Bytes.toNat b := by
  have key : ∀ n, ds.foldl (fun n d => n * 16 + (Digit.value? d).getD 0) n =
      b.foldl (fun n x => n * 256 + x.toNat) n := by
    fun_induction decode? ds generalizing b with
    | case1 => cases h; exact fun _ => rfl
    | case2 => cases h
    | case3 c d rest x y bs hbs hy hx ih =>
      cases h
      intro n
      have hbyte : (UInt8.ofNat (16 * x.val + y.val)).toNat = 16 * x.val + y.val := by
        rw [UInt8.toNat_ofNat']
        omega
      have hdigits : (n * 16 + x.val) * 16 + y.val = n * 256 + (16 * x.val + y.val) := by omega
      simp only [List.foldl_cons, Digit.value?_of_read? hx, Digit.value?_of_read? hy,
        Option.getD_some, hbyte, hdigits]
      exact ih hbs _
    | case4 => cases h
  exact key 0

/-- The number that the word at a place spells, in a text of words after the mark. -/
def wordAt (t : String) (place : Nat) : Nat := spelled ((t.toList.drop (2 + 64 * place)).take 64)

theorem wordAt_of_words {t : String} {ns : List Nat} (h : parse? t = some (Bytes.words ns))
    (hfit : ∀ n ∈ ns, n < 2 ^ 256) (place : Nat) : wordAt t place = ns.getD place 0 := by
  rw [parse?] at h
  split at h
  · next ds hds =>
    have hword := decode?_take (decode?_drop h (32 * place)) 32
    have hplace : 2 * (32 * place) = 64 * place := by omega
    rw [hplace] at hword
    rw [wordAt, hds, ← List.drop_drop, ← Bytes.toNat_word_at hfit]
    exact spelled_of_decode? hword
  · cases h

end Hex
end Interchain
