/-
What is read from the wire could have been written there.

The numbers of a value that was read fit the wire, and its own writing is no longer than
its layout allows (`read_of_decode`): every index that was read is at most `maxIndex`.
-/
import Interchain.Proofs.Abi.RoundTrip

namespace Interchain
namespace Abi

mutual
/-- The most bytes that a value which was read can take. -/
def Layout.bound : Layout → Nat
  | .uint | .address => 32
  | .bytes => 32 + Bytes.paddedLength maxIndex
  | .text => 32 + Bytes.paddedLength (4 * maxIndex)
  | .array e => 32 + maxIndex * (32 + e.bound)
  | .tuple ls => bounds ls

def bounds : List Layout → Nat
  | [] => 0
  | l :: ls => 32 + l.bound + bounds ls
end

def IsRead (l : Layout) (v : l.Value) : Prop := Fits l v ∧ (encode l v).length ≤ l.bound

/-! ## Outcomes -/

theorem sequence_eq_ok {α β γ : Type} {f : α → β → γ} {r : Except Fault (Reading α)}
    {rs : Except Fault (Reading β)} {c : γ} (h : sequence f r rs = .ok (.ok c)) :
    ∃ v vs, r = .ok (.ok v) ∧ rs = .ok (.ok vs) ∧ c = f v vs := by
  rcases r with e | i | v
  · cases h
  · rcases rs with e | j | vs
    · cases h
    · cases h
    · cases h
  · rcases rs with e | j | vs
    · cases h
    · cases h
    · cases h
      exact ⟨v, vs, rfl, rfl, rfl⟩

theorem settle_eq_ok {α : Type} {index : Nat} {r : Except Fault (Reading α)} {v : α}
    (h : settle index r = .ok (.ok v)) : r = .ok (.ok v) := by
  cases r with
  | ok r => exact h
  | error f =>
    rw [settle] at h
    split at h
    · cases h
    · cases h

theorem readPart_eq_ok {α : Type} {isDynamic : Bool} {index : Nat}
    {read : Bytes → Except Fault (Reading α)} {base rest : Bytes} {v : α}
    (h : readPart isDynamic index read base rest = .ok (.ok v)) :
    ∃ data, read data = .ok (.ok v) := by
  rw [readPart] at h
  split at h
  · split at h
    · cases h
    · exact ⟨_, settle_eq_ok h⟩
  · exact ⟨_, settle_eq_ok h⟩

theorem readWord_eq_ok {data : Bytes} {n : Nat} (h : readWord data = .ok n) : IsWord n := by
  rw [readWord] at h
  split at h
  · cases h
  · next hlen =>
    cases h
    have hlt := Bytes.toNat_lt (data.take 32)
    rw [List.length_take_of_le (Nat.le_of_not_lt hlen)] at hlt
    exact hlt

theorem readIndex_eq_ok {data : Bytes} {n : Nat} (h : readIndex data = .ok n) : n ≤ maxIndex := by
  rw [readIndex] at h
  split at h
  · cases h
  · split at h
    · cases h
    · next hle =>
      cases h
      exact Nat.le_of_not_lt hle

theorem readCounted_eq_ok {data b : Bytes} (h : readCounted data = .ok b) :
    b.length ≤ maxIndex := by
  rw [readCounted] at h
  split at h
  · cases h
  · next n hn =>
    simp only at h
    split at h
    · cases h
    · cases h
      exact Nat.le_trans (List.length_take_le _ _) (readIndex_eq_ok hn)

/-! ## Values -/

theorem paddedLength_mono {m n : Nat} (h : m ≤ n) :
    Bytes.paddedLength m ≤ Bytes.paddedLength n := by
  unfold Bytes.paddedLength
  omega

theorem length_layOut_cons_le (p : Part) (ps : List Part) :
    (layOut (p :: ps)).length ≤ 32 + p.body.length + (layOut ps).length := by
  rw [length_layOut, length_layOut, headSizes, Part.headSize, tails]
  split
  · rw [List.length_append]
    omega
  · omega

theorem isRead_uint {data : Bytes} {n : Nat} (h : decode .uint data = .ok (.ok n)) :
    IsRead .uint n := by
  refine ⟨?_, Nat.le_of_eq (Bytes.length_word n)⟩
  rw [decode] at h
  cases hword : readWord data with
  | error f =>
    rw [hword] at h
    cases h
  | ok k =>
    rw [hword] at h
    cases h
    exact readWord_eq_ok hword

theorem isRead_address {data : Bytes} {a : Address} (h : decode .address data = .ok (.ok a)) :
    IsRead .address a := by
  refine ⟨?_, Nat.le_of_eq (Bytes.length_word a.value)⟩
  rw [decode] at h
  split at h
  · cases h
  · split at h
    · next hn =>
      cases h
      exact hn
    · cases h

theorem isRead_bytes {data b : Bytes} (h : decode .bytes data = .ok (.ok b)) :
    IsRead .bytes b := by
  refine ⟨trivial, ?_⟩
  rw [decode] at h
  cases hcounted : readCounted data with
  | error f =>
    rw [hcounted] at h
    cases h
  | ok c =>
    rw [hcounted] at h
    cases h
    show (counted b).length ≤ 32 + Bytes.paddedLength maxIndex
    rw [length_counted]
    exact Nat.add_le_add_left (paddedLength_mono (readCounted_eq_ok hcounted)) 32

theorem isRead_text {data : Bytes} {t : String} (h : decode .text data = .ok (.ok t)) :
    IsRead .text t := by
  refine ⟨trivial, ?_⟩
  rw [decode] at h
  split at h
  · cases h
  · next b hcounted =>
    split at h
    · cases h
    · next u hdecode =>
      cases h
      show (counted (Utf8.encode t)).length ≤ 32 + Bytes.paddedLength (4 * maxIndex)
      rw [length_counted]
      rw [Utf8.encode_of_decode hdecode]
      have hle := readCounted_eq_ok hcounted
      exact Nat.add_le_add_left (paddedLength_mono (by omega)) 32

theorem isRead_elements {e : Layout} {base : Bytes}
    (hread : ∀ {d : Bytes} {v : e.Value}, decode e d = .ok (.ok v) → IsRead e v) :
    ∀ {n index : Nat} {rest : Bytes} {vs : List e.Value},
      readElements e.isDynamic e.headSize (fun d => decode e d) base n index rest = .ok (.ok vs) →
      Each (fun v => Fits e v) vs ∧
        (layOut (vs.map (fun v => ⟨e.isDynamic, encode e v⟩))).length ≤ n * (32 + e.bound) := by
  intro n
  induction n with
  | zero =>
    intro index rest vs h
    cases h
    exact ⟨fun v hv => (nomatch hv), Nat.zero_le _⟩
  | succ n ih =>
    intro index rest vs h
    rw [readElements_succ] at h
    obtain ⟨v, ws, hv, hws, rfl⟩ := sequence_eq_ok h
    obtain ⟨d, hd⟩ := readPart_eq_ok hv
    obtain ⟨hfits, hlen⟩ := hread hd
    obtain ⟨heach, hle⟩ := ih hws
    constructor
    · intro w hw
      rcases List.mem_cons.1 hw with rfl | hw
      · exact hfits
      · exact heach w hw
    · have hcons := length_layOut_cons_le ⟨e.isDynamic, encode e v⟩
        (ws.map (fun v => ⟨e.isDynamic, encode e v⟩))
      simp only at hcons
      rw [List.map_cons, Nat.succ_mul]
      omega

theorem isRead_array {e : Layout} {data : Bytes} {vs : List e.Value}
    (hread : ∀ {d : Bytes} {v : e.Value}, decode e d = .ok (.ok v) → IsRead e v)
    (h : decode (.array e) data = .ok (.ok vs)) : IsRead (.array e) vs := by
  rw [decode] at h
  split at h
  · cases h
  · next n hn =>
    have hread' : readElements e.isDynamic e.headSize (fun d => decode e d) (data.drop 32) n 0
        (data.drop 32) = .ok (.ok vs) := by
      by_cases hshort : data.length < n * 32
      · cases (if_pos hshort).symm.trans h
      · exact (if_neg hshort).symm.trans h
    obtain ⟨hfits, hle⟩ := isRead_elements hread hread'
    refine ⟨hfits, ?_⟩
    show (Bytes.word vs.length ++ _).length ≤ 32 + maxIndex * (32 + e.bound)
    rw [List.length_append, Bytes.length_word]
    exact Nat.add_le_add_left (Nat.le_trans hle (Nat.mul_le_mul_right _ (readIndex_eq_ok hn))) 32

mutual
/-- What is read fits the wire, and its writing is bounded. -/
theorem isRead_of_decode : ∀ (l : Layout) (data : Bytes) (v : l.Value),
    decode l data = .ok (.ok v) → IsRead l v
  | .uint => fun _ _ => isRead_uint
  | .address => fun _ _ => isRead_address
  | .bytes => fun _ _ => isRead_bytes
  | .text => fun _ _ => isRead_text
  | .array e => fun _ _ => isRead_array (isRead_of_decode e _ _)
  | .tuple ls => by
    intro data vs h
    rw [decode] at h
    exact isRead_of_decodeFields ls data data 0 vs h

theorem isRead_of_decodeFields : ∀ (ls : List Layout) (base rest : Bytes) (index : Nat)
    (vs : Values ls), decodeFields ls base index rest = .ok (.ok vs) →
    FitsAll ls vs ∧ (layOut (parts ls vs)).length ≤ bounds ls
  | [] => fun _ _ _ _ _ => ⟨trivial, Nat.zero_le _⟩
  | l :: ls => by
    intro base rest index vs h
    rw [decodeFields_cons] at h
    obtain ⟨v, ws, hv, hws, rfl⟩ := sequence_eq_ok h
    obtain ⟨d, hd⟩ := readPart_eq_ok hv
    obtain ⟨hfits, hlen⟩ := isRead_of_decode l d v hd
    obtain ⟨hall, hle⟩ := isRead_of_decodeFields ls base _ _ ws hws
    have hcons := length_layOut_cons_le ⟨l.isDynamic, encode l v⟩ (parts ls ws)
    simp only at hcons
    refine ⟨⟨hfits, hall⟩, ?_⟩
    rw [parts, bounds]
    omega
end

/-! ## Exact reading -/

theorem of_decodeExact {ls : List Layout} {data : Bytes} {vs : Values ls}
    (h : decodeExact ls data = .ok vs) :
    encode (.tuple ls) vs = data ∧ FitsAll ls vs ∧ data.length ≤ bounds ls := by
  rw [decodeExact] at h
  split at h
  · cases h
  · cases h
  · next ws hread =>
    split at h
    · next hcanonical =>
      cases h
      obtain ⟨hfits, hle⟩ := isRead_of_decode (.tuple ls) data vs hread
      rw [hcanonical] at hle
      exact ⟨hcanonical, hfits, hle⟩
    · cases h

theorem decodeExact_encode_eq_ok {ls : List Layout} {vs ws : Values ls}
    (hroomy : allRoomy ls = true) (hbounds : IsWord (bounds ls)) (hfits : FitsAll ls vs)
    (h : decodeExact ls (encode (.tuple ls) vs) = .ok ws) : ws = vs := by
  obtain ⟨-, -, hle⟩ := of_decodeExact h
  exact eq_of_decodeExact hroomy hfits (Nat.lt_of_le_of_lt hle hbounds) h

end Abi
end Interchain
