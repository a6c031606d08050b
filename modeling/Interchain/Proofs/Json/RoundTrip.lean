/-
JSON text is read as the value that it was written for.

The value has to be plain: numbers are left out, since a double is written with fewer digits
than it has, and the keys of an object are distinct and none is an array index, so that they
keep their order.  A string is read character by character, whatever it holds
(`text?_quote`): what is escaped is read as one unit, and no unit of a text is half of a pair.
The reader is followed along the value, with the text after it kept general; each bracket costs
it fuel, but no more than the characters that it takes (`value?_print`).
-/
import Interchain.Json.Parser
import Interchain.Json.Printer
import Interchain.Proofs.Bytes.Hex

namespace Interchain
namespace Json

namespace Parser

/-! ## Strings -/

variable {cs rest : List Char}

def consUnit (u : Nat) : Option (List Nat × List Char) → Option (List Nat × List Char) :=
  Option.map (fun r => (u :: r.1, r.2))

theorem units_simple {c : Char} {u : Nat} (h : simpleEscape? c = some u) :
    units ('\\' :: c :: cs) = consUnit u (units cs) := by
  rw [units]
  · rw [h, consUnit]
    cases units cs with
    | none => rfl
    | some r => rfl
  · intro _ _ _ _ _ hc
    rw [hc] at h
    cases h

theorem units_unit {a b c d : Char} {u : Nat} (h : unit? a b c d = some u) :
    units ('\\' :: 'u' :: a :: b :: c :: d :: cs) = consUnit u (units cs) := by
  rw [units, h, consUnit]
  cases units cs with
  | none => rfl
  | some r => rfl

theorem units_plain {c : Char} (hquote : c ≠ '"') (hslash : c ≠ '\\') (hcontrol : ¬ c.toNat < 32) :
    units (c :: cs) = consUnit c.toNat (units cs) := by
  rw [units, if_neg hcontrol, consUnit]
  · cases units cs with
    | none => rfl
    | some r => rfl
  · exact hquote
  · intro _ _ _ _ _ h
    exact absurd h hslash
  · intro _ _ h
    exact absurd h hslash

theorem exists_unit {n : Nat} (h : n < 16 ^ 4) :
    ∃ a b c d, Hex.ofNat 4 n = [a, b, c, d] ∧ unit? a b c d = some n := by
  refine ⟨_, _, _, _, rfl, ?_⟩
  show (Digit.readAll? 16 (Hex.ofNat 4 n)).map Digit.number = some n
  rw [Hex.ofNat_eq_map, Digit.readAll?_map_render, Option.map_some, Hex.number_digitsOf h]

/-- A character is read as its own number, however it is written. -/
theorem units_escape (c : Char) : units (escape c ++ cs) = consUnit c.toNat (units cs) := by
  rw [escape]
  split
  · next h => rw [h]; exact units_simple rfl
  split
  · next h => rw [h]; exact units_simple rfl
  split
  · next h => rw [h]; exact units_simple rfl
  split
  · next h => rw [h]; exact units_simple rfl
  split
  · next h => rw [h]; exact units_simple rfl
  split
  · next h => rw [h]; exact units_simple rfl
  split
  · next h => rw [h]; exact units_simple rfl
  split
  · next hcontrol =>
    obtain ⟨x, y, z, w, hhex, hunit⟩ := exists_unit (n := c.toNat) (by omega)
    rw [hhex]
    exact units_unit hunit
  · next hquote hslash _ _ _ _ _ hcontrol => exact units_plain hquote hslash hcontrol

theorem units_escapes (ds : List Char) :
    units (ds.flatMap escape ++ '"' :: rest) = some (ds.map Char.toNat, rest) := by
  induction ds with
  | nil => rw [List.flatMap_nil, List.nil_append, units, List.map_nil]
  | cons d ds ih => rw [List.flatMap_cons, List.append_assoc, units_escape, ih]; rfl

/-- The number of a character is not half of a pair. -/
theorem isHigh_toNat (c : Char) : isHigh c.toNat = false ∧ isLow c.toNat = false := by
  have hvalid : c.toNat < 0xD800 ∨ 0xDFFF < c.toNat ∧ c.toNat < 0x110000 := c.valid
  simp only [isHigh, isLow, Bool.and_eq_false_iff, decide_eq_false_iff_not]
  omega

theorem joinUnits_cons_toNat (c : Char) (us : List Nat) :
    joinUnits (c.toNat :: us) = c :: joinUnits us := by
  obtain ⟨hhigh, hlow⟩ := isHigh_toNat c
  cases us with
  | nil => simp [joinUnits, hhigh, hlow]
  | cons u us => simp [joinUnits, hhigh, hlow]

theorem joinUnits_map_toNat (ds : List Char) : joinUnits (ds.map Char.toNat) = ds := by
  induction ds with
  | nil => rfl
  | cons d ds ih => rw [List.map_cons, joinUnits_cons_toNat, ih]

theorem quote_append (t : String) :
    quote t ++ rest = '"' :: (t.toList.flatMap escape ++ '"' :: rest) := by
  rw [quote, List.cons_append, List.append_assoc]
  rfl

/-- A string is read as it was before it was written, whatever its characters. -/
theorem text?_quote (t : String) :
    text? (t.toList.flatMap escape ++ '"' :: rest) = some (t, rest) := by
  rw [text?, units_escapes, Option.map_some, joinUnits_map_toNat, String.ofList_toList]

end Parser

/-! ## Plain values -/

mutual
/-- No number, and in every object distinct keys of which none is an array index. -/
def IsPlain : Json → Prop
  | .null | .bool _ | .string _ => True
  | .number _ => False
  | .array xs => ArePlain xs
  | .object fs => (Table.keys fs).Nodup ∧ (∀ k ∈ Table.keys fs, index? k = none) ∧ ArePlainFields fs

def ArePlain : List Json → Prop
  | [] => True
  | x :: xs => x.IsPlain ∧ ArePlain xs

def ArePlainFields : List (String × Json) → Prop
  | [] => True
  | (_, v) :: fs => v.IsPlain ∧ ArePlainFields fs
end

theorem foldl_put {κ ν : Type} [DecidableEq κ] {fs t : Table κ ν}
    (h : (Table.keys (t ++ fs)).Nodup) :
    fs.foldl (fun (t : Table κ ν) f => Table.put f.1 f.2 t) t = t ++ fs := by
  induction fs generalizing t with
  | nil => rw [List.foldl_nil, List.append_nil]
  | cons f fs ih =>
    have hfresh : Table.get? f.1 t = none := by
      rw [Table.get?_eq_none_iff]
      rw [Table.keys, List.map_append] at h
      exact fun hmem => (List.nodup_append.1 h).2.2 _ hmem _ List.mem_cons_self rfl
    rw [List.append_cons] at h
    rw [List.foldl_cons, Table.put_of_get?_eq_none hfresh, ih h, ← List.append_cons]

theorem foldl_eq_self {α β : Type} {f : β → α → β} {as : List α} {b : β}
    (h : ∀ a ∈ as, f b a = b) : as.foldl f b = b := by
  induction as with
  | nil => rfl
  | cons a as ih =>
    rw [List.foldl_cons, h a List.mem_cons_self]
    exact ih (fun a ha => h a (List.mem_cons_of_mem _ ha))

theorem ofFields_eq {fs : List (String × Json)} (hnodup : (Table.keys fs).Nodup)
    (hindex : ∀ k ∈ Table.keys fs, index? k = none) : ofFields fs = .object fs := by
  have hnone : ∀ f ∈ fs, index? f.1 = none := fun f hf => hindex _ (List.mem_map_of_mem hf)
  have hdistinct := foldl_put (t := []) hnodup
  have hfilter : fs.filter (fun f => (index? f.1).isNone) = fs :=
    List.filter_eq_self.2 (fun f hf => by rw [hnone f hf]; rfl)
  rw [List.nil_append] at hdistinct
  rw [ofFields, hdistinct, hfilter, foldl_eq_self (fun f hf => by rw [hnone f hf])]
  rfl

/-- What a plain value begins with is no blank and no bracket that closes. -/
theorem exists_print {j : Json} (h : j.IsPlain) :
    ∃ c cs, print j = c :: cs ∧ Parser.isBlank c = false ∧ c ≠ ']' := by
  cases j with
  | null => exact ⟨_, _, rfl, rfl, by decide⟩
  | bool b =>
    cases b with
    | false => exact ⟨_, _, rfl, rfl, by decide⟩
    | true => exact ⟨_, _, rfl, rfl, by decide⟩
  | number x => cases h
  | string t => exact ⟨_, _, rfl, rfl, by decide⟩
  | array xs =>
    cases xs with
    | nil => exact ⟨_, _, rfl, rfl, by decide⟩
    | cons x xs => exact ⟨_, _, rfl, rfl, by decide⟩
  | object fs =>
    cases fs with
    | nil => exact ⟨_, _, rfl, rfl, by decide⟩
    | cons f fs => exact ⟨_, _, rfl, rfl, by decide⟩

namespace Parser

variable {cs rest : List Char} {n : Nat}

theorem skipBlanks_cons {c : Char} (h : isBlank c = false) : skipBlanks (c :: cs) = c :: cs := by
  rw [skipBlanks, List.dropWhile_cons_of_neg]
  simp [h]

theorem value?_bracket {c : Char} (hblank : isBlank c = false) (hclose : c ≠ ']') :
    value? (n + 1) ('[' :: c :: cs) = (items? n (c :: cs)).map (fun r => (.array r.1, r.2)) := by
  have hbracket : skipBlanks ('[' :: c :: cs) = '[' :: c :: cs := skipBlanks_cons rfl
  rw [value?, hbracket]
  simp only [skipBlanks_cons hblank]
  split
  · next heq =>
    cases heq
    exact absurd rfl hclose
  · rfl

theorem key?_quote (k : String) : key? (quote k ++ ':' :: rest) = some (k, rest) := by
  rw [quote_append, key?, skipBlanks_cons rfl]
  simp only [text?_quote, skipBlanks_cons (c := ':') rfl]

theorem printField_append (k : String) (v : Json) :
    printField (k, v) ++ cs = quote k ++ ':' :: (print v ++ cs) := by
  rw [printField, List.append_assoc, List.cons_append]

mutual
/-- What is written for a plain value is read as that value, up to its last character. -/
theorem value?_print : ∀ (j : Json) (n : Nat) (rest : List Char), j.IsPlain →
    (print j).length ≤ n → value? n (print j ++ rest) = some (j, rest)
  | j, 0, rest, hj, hn => by
    obtain ⟨c, cs, hprint, -⟩ := exists_print hj
    rw [hprint] at hn
    cases hn
  | .null, n + 1, rest, _, _ => rfl
  | .bool true, n + 1, rest, _, _ => rfl
  | .bool false, n + 1, rest, _, _ => rfl
  | .number x, n + 1, rest, hj, _ => by cases hj
  | .string t, n + 1, rest, _, _ => by
    rw [print, quote_append, value?, skipBlanks_cons rfl]
    simp only [text?_quote, Option.map_some]
  | .array [], n + 1, rest, _, _ => rfl
  | .array (x :: xs), n + 1, rest, hj, hn => by
    obtain ⟨c, cs, hprint, hblank, hclose⟩ := exists_print hj.1
    have hitems := items?_print x xs n rest hj (Nat.le_of_succ_le_succ hn)
    rw [print, List.cons_append]
    rw [hprint] at hitems ⊢
    exact (value?_bracket hblank hclose).trans (congrArg _ hitems)
  | .object [], n + 1, rest, _, _ => rfl
  | .object ((k, v) :: fs), n + 1, rest, hj, hn => by
    obtain ⟨hnodup, hindex, hplain⟩ := hj
    have hfields := fields?_print k v fs n rest hplain (Nat.le_of_succ_le_succ hn)
    have hobject := congrArg (Option.map (fun r => (ofFields r.1, r.2))) hfields
    rw [Option.map_some, ofFields_eq hnodup hindex] at hobject
    exact hobject

theorem items?_print : ∀ (x : Json) (xs : List Json) (n : Nat) (rest : List Char),
    ArePlain (x :: xs) → (print x ++ printItems xs).length ≤ n →
      items? n (print x ++ printItems xs ++ rest) = some (x :: xs, rest)
  | x, xs, 0, rest, hx, hn => by
    obtain ⟨c, cs, hprint, -⟩ := exists_print hx.1
    rw [hprint] at hn
    cases hn
  | x, [], n + 1, rest, hx, hn => by
    rw [List.length_append] at hn
    have hvalue := value?_print x n (']' :: rest) hx.1 (Nat.le_of_succ_le_succ hn)
    rw [List.append_assoc, printItems, List.singleton_append, items?, hvalue]
    rfl
  | x, y :: ys, n + 1, rest, hx, hn => by
    have hlength : (print x ++ printItems (y :: ys)).length =
        (print x).length + (print y ++ printItems ys).length + 1 := by
      rw [List.length_append]
      rfl
    have hvalue := value?_print x n (',' :: (print y ++ printItems ys ++ rest)) hx.1 (by omega)
    have hitems := items?_print y ys n rest hx.2 (by omega)
    rw [List.append_assoc, printItems, List.cons_append, items?, hvalue]
    exact congrArg (Option.map (fun r => (x :: r.1, r.2))) hitems

theorem fields?_print : ∀ (k : String) (v : Json) (fs : List (String × Json)) (n : Nat)
    (rest : List Char), ArePlainFields ((k, v) :: fs) →
      (printField (k, v) ++ printFields fs).length ≤ n →
      fields? n (printField (k, v) ++ printFields fs ++ rest) = some ((k, v) :: fs, rest)
  | k, v, fs, 0, rest, _, hn => by cases hn
  | k, v, [], n + 1, rest, hv, hn => by
    rw [printField_append, List.length_append, List.length_cons, List.length_append] at hn
    have hvalue := value?_print v n ('\x7d' :: rest) hv.1 (by omega)
    rw [List.append_assoc, printField_append, printFields, List.singleton_append, fields?,
      key?_quote]
    simp only [hvalue]
    rfl
  | k, v, (l, w) :: fs, n + 1, rest, hv, hn => by
    have hlength : (printFields ((l, w) :: fs)).length =
        (printField (l, w) ++ printFields fs).length + 1 := rfl
    rw [printField_append, List.length_append, List.length_cons, List.length_append] at hn
    have hvalue := value?_print v n (',' :: (printField (l, w) ++ printFields fs ++ rest)) hv.1
      (by omega)
    have hfields := fields?_print l w fs n rest hv.2 (by omega)
    rw [List.append_assoc, printField_append, printFields, List.cons_append, fields?, key?_quote]
    simp only [hvalue]
    exact congrArg (Option.map (fun r => ((k, v) :: r.1, r.2))) hfields
end

end Parser

theorem parse?_render {j : Json} (h : j.IsPlain) : parse? j.render = some j := by
  have hvalue := Parser.value?_print j (2 * (print j).length + 2) [] h (by omega)
  rw [List.append_nil] at hvalue
  rw [parse?, render, String.toList_ofList]
  simp only [hvalue]
  rfl

theorem eq_of_render_eq {i j : Json} (hi : i.IsPlain) (hj : j.IsPlain) (h : i.render = j.render) :
    i = j := by
  have hread := parse?_render hi
  rw [h, parse?_render hj] at hread
  exact (Option.some.inj hread).symm

end Json
end Interchain
