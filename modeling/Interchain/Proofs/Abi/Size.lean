/-
How many bytes values take.

Components in place take what their layout says, so the heads of a tuple end where its
first tail begins, and every offset written for a tail is where that tail stands.
-/
import Interchain.Abi.Decode

namespace Interchain
namespace Abi

theorem length_counted (b : Bytes) :
    (counted b).length = 32 + Bytes.paddedLength b.length := by
  rw [counted, List.length_append, Bytes.length_word, Bytes.length_pad]

theorem length_heads (tail : Nat) (ps : List Part) : (heads tail ps).length = headSizes ps := by
  induction ps generalizing tail with
  | nil => rfl
  | cons p ps ih =>
    rw [heads, headSizes, Part.headSize]
    split
    · rw [List.length_append, Bytes.length_word, ih]
    · rw [List.length_append, ih]

theorem length_layOut (ps : List Part) :
    (layOut ps).length = headSizes ps + (tails ps).length := by
  rw [layOut, List.length_append, length_heads]

def nextTail (tail : Nat) (p : Part) : Nat := if p.isDynamic then tail + p.body.length else tail

theorem length_tails_cons (tail : Nat) (p : Part) (ps : List Part) :
    tail + (tails (p :: ps)).length = nextTail tail p + (tails ps).length := by
  rw [tails, nextTail]
  split
  · rw [List.length_append]
    omega
  · rfl

theorem drop_heads (tail : Nat) (p : Part) (ps : List Part) (rest : Bytes) :
    (heads tail (p :: ps) ++ rest).drop p.headSize = heads (nextTail tail p) ps ++ rest := by
  rw [heads, Part.headSize, nextTail]
  split
  · rw [List.append_assoc]
    exact List.drop_left' (Bytes.length_word tail)
  · rw [List.append_assoc]
    exact List.drop_left' rfl

theorem drop_nextTail {base more : Bytes} {tail : Nat} {p : Part} {ps : List Part}
    (h : base.drop tail = tails (p :: ps) ++ more) :
    base.drop (nextTail tail p) = tails ps ++ more := by
  rw [tails] at h
  rw [nextTail]
  split at h
  · next hp =>
    rw [if_pos hp, ← List.drop_drop, h, List.append_assoc]
    exact List.drop_left' rfl
  · next hp =>
    rw [if_neg hp]
    exact h

/-! ## Components in place -/

theorem tails_eq_nil {ls : List Layout} (h : anyDynamic ls = false) (vs : Values ls) :
    tails (parts ls vs) = [] := by
  induction ls with
  | nil => rfl
  | cons l ls ih =>
    rw [anyDynamic, Bool.or_eq_false_iff] at h
    obtain ⟨v, vs⟩ := vs
    rw [parts, tails, if_neg (by rw [h.1]; exact Bool.false_ne_true)]
    exact ih h.2 vs

mutual
theorem length_encode_of_static : ∀ {l : Layout}, l.isDynamic = false → ∀ v : l.Value,
    (encode l v).length = l.staticSize
  | .uint, _, n => Bytes.length_word n
  | .address, _, a => Bytes.length_word a.value
  | .bytes, h, _ | .text, h, _ | .array _, h, _ => by cases h
  | .tuple ls, h, vs => by
    have key : ∀ vs : Values ls, (layOut (parts ls vs)).length = staticSizes ls := by
      intro vs
      rw [length_layOut, tails_eq_nil h, headSizes_parts_of_static h]
      rfl
    exact key vs

theorem headSizes_parts_of_static : ∀ {ls : List Layout}, anyDynamic ls = false →
    ∀ vs : Values ls, headSizes (parts ls vs) = staticSizes ls
  | [], _, _ => rfl
  | l :: ls, h, (v, vs) => by
    rw [anyDynamic, Bool.or_eq_false_iff] at h
    rw [parts, headSizes, Part.headSize, staticSizes, headSizes_parts_of_static h.2]
    rw [if_neg (by rw [h.1]; exact Bool.false_ne_true), length_encode_of_static h.1]
end

theorem headSize_part (l : Layout) (v : l.Value) :
    (⟨l.isDynamic, encode l v⟩ : Part).headSize = l.headSize := by
  rw [Part.headSize, Layout.headSize]
  cases h : l.isDynamic with
  | true => rfl
  | false => exact length_encode_of_static h v

end Abi
end Interchain
