/-
A value that is written is read back.

Numbers on the wire fit a word, and an index that is read fits `maxIndex`.  Hence the
writing of a value that `Fits` is read as the value, or else it is so long that one of
its own indices is refused; `ReadsAs` says which of the two, and `decode_encode` that
nothing else happens.  Bytes that follow the writing are never looked at.
-/
import Interchain.Proofs.Abi.Size
import Interchain.Proofs.Address
import Interchain.Proofs.Text.Utf8

namespace Interchain
namespace Abi

def IsWord (n : Nat) : Prop := n < 2 ^ 256

def Each {α : Type} (p : α → Prop) (vs : List α) : Prop := ∀ v ∈ vs, p v

mutual
def Fits : (l : Layout) → l.Value → Prop
  | .uint, n => IsWord n
  | .address, a => Address.IsNarrow a
  | .bytes, _ => True
  | .text, _ => True
  | .array e, vs => Each (fun v => Fits e v) vs
  | .tuple ls, vs => FitsAll ls vs

def FitsAll : (ls : List Layout) → Values ls → Prop
  | [], _ => True
  | l :: ls, (v, vs) => Fits l v ∧ FitsAll ls vs
end

mutual
/-- Every element of an array takes a word or more, so that no array holds more elements
than words. -/
def Layout.isRoomy : Layout → Bool
  | .uint | .address | .bytes | .text => true
  | .array e => decide (32 ≤ e.headSize) && e.isRoomy
  | .tuple ls => allRoomy ls

def allRoomy : List Layout → Bool
  | [] => true
  | l :: ls => l.isRoomy && allRoomy ls
end

/-- Bytes beyond `maxIndex`, of which an index is refused. -/
def Blocked {α : Type} (size : Nat) (r : Except Fault (Reading α)) : Prop :=
  maxIndex < size ∧ (r = .error .overflow ∨ ∃ i, r = .ok (.error i))

/-- The outcome of reading the writing of `v`, of which `size` bytes were there. -/
def ReadsAs {α : Type} (size : Nat) (r : Except Fault (Reading α)) (v : α) : Prop :=
  r = .ok (.ok v) ∨ Blocked size r

/-! ## Words and indices -/

theorem readWord_word {n : Nat} (h : IsWord n) (rest : Bytes) :
    readWord (Bytes.word n ++ rest) = .ok n := by
  have hlen : (Bytes.word n).length = 32 := Bytes.length_word n
  have htake : (Bytes.word n ++ rest).take 32 = Bytes.word n := List.take_left' hlen
  rw [readWord, htake, if_neg (by rw [List.length_append]; omega)]
  exact congrArg _ (Bytes.toNat_ofNat h)

theorem readIndex_word {n : Nat} (h : IsWord n) (rest : Bytes) :
    readIndex (Bytes.word n ++ rest) = if maxIndex < n then .error .overflow else .ok n := by
  rw [readIndex, readWord_word h]

/-- Counted bytes are read, unless the count is refused. -/
theorem readCounted_counted {b more : Bytes} (h : (counted b ++ more).length < 2 ^ 256) :
    readCounted (counted b ++ more) = .ok b ∨
      maxIndex < (counted b ++ more).length ∧
        readCounted (counted b ++ more) = .error .overflow := by
  have hpadded := Bytes.le_paddedLength b.length
  rw [List.length_append, length_counted] at h ⊢
  rw [counted, List.append_assoc, readCounted, readIndex_word (by unfold IsWord; omega)]
  by_cases hlong : maxIndex < b.length
  · rw [if_pos hlong]
    exact Or.inr ⟨by omega, rfl⟩
  · rw [if_neg hlong]
    have hdrop : (Bytes.word b.length ++ (Bytes.pad b ++ more)).drop 32 = Bytes.pad b ++ more :=
      List.drop_left' (Bytes.length_word _)
    have htake : (Bytes.pad b ++ more).take b.length = b := by
      rw [Bytes.pad, List.append_assoc]
      exact List.take_left' rfl
    left
    show (if ((Bytes.word b.length ++ (Bytes.pad b ++ more)).drop 32).length < _ then _
      else Except.ok (((Bytes.word b.length ++ (Bytes.pad b ++ more)).drop 32).take b.length)) = _
    rw [hdrop, htake, if_neg]
    rw [List.length_append, Bytes.length_pad]
    omega

/-! ## Outcomes -/

theorem Blocked.mono {α : Type} {n k : Nat} {r : Except Fault (Reading α)} (h : Blocked n r)
    (hle : n ≤ k) : Blocked k r := ⟨Nat.lt_of_lt_of_le h.1 hle, h.2⟩

theorem ReadsAs.mono {α : Type} {n k : Nat} {r : Except Fault (Reading α)} {v : α}
    (h : ReadsAs n r v) (hle : n ≤ k) : ReadsAs k r v := h.imp_right (fun h => h.mono hle)

/-- A refused index goes no further than the component that it is met in. -/
theorem ReadsAs.settle {α : Type} {size index : Nat} {r : Except Fault (Reading α)} {v : α}
    (h : ReadsAs size r v) : ReadsAs size (settle index r) v := by
  rcases h with rfl | ⟨hsize, rfl | ⟨i, rfl⟩⟩
  · exact Or.inl rfl
  · exact Or.inr ⟨hsize, Or.inr ⟨index, rfl⟩⟩
  · exact Or.inr ⟨hsize, Or.inr ⟨i, rfl⟩⟩

def sequence {α β γ : Type} (f : α → β → γ) (r : Except Fault (Reading α))
    (rs : Except Fault (Reading β)) : Except Fault (Reading γ) :=
  match r, rs with
  | .error e, _ => .error e
  | .ok _, .error e => .error e
  | .ok v, .ok vs => .ok (Reading.both f v vs)

theorem readElements_succ {α : Type} (isDynamic : Bool) (size : Nat)
    (read : Bytes → Except Fault (Reading α)) (base : Bytes) (n index : Nat) (rest : Bytes) :
    readElements isDynamic size read base (n + 1) index rest =
      sequence (· :: ·) (readPart isDynamic index read base rest)
        (readElements isDynamic size read base n (index + 1) (rest.drop size)) := by
  rw [readElements]
  cases readPart isDynamic index read base rest with
  | error e => rfl
  | ok v =>
    cases readElements isDynamic size read base n (index + 1) (rest.drop size) with
    | error e => rfl
    | ok vs => rfl

theorem decodeFields_cons (l : Layout) (ls : List Layout) (base : Bytes) (index : Nat)
    (rest : Bytes) :
    decodeFields (l :: ls) base index rest =
      sequence (Prod.mk : l.Value → Values ls → l.Value × Values ls)
        (readPart l.isDynamic index (fun d => decode l d) base rest)
        (decodeFields ls base (index + 1) (rest.drop l.headSize)) := by
  rw [decodeFields]
  cases readPart l.isDynamic index (fun d => decode l d) base rest with
  | error e => rfl
  | ok v =>
    cases decodeFields ls base (index + 1) (rest.drop l.headSize) with
    | error e => rfl
    | ok vs => rfl

theorem ReadsAs.sequence {α β γ : Type} {size : Nat} {r : Except Fault (Reading α)}
    {rs : Except Fault (Reading β)} {v : α} {vs : β} (f : α → β → γ) (h : ReadsAs size r v)
    (hs : ReadsAs size rs vs) : ReadsAs size (sequence f r rs) (f v vs) := by
  rcases h with rfl | ⟨hsize, rfl | ⟨i, rfl⟩⟩
  · rcases hs with rfl | ⟨hsize, rfl | ⟨i, rfl⟩⟩
    · exact Or.inl rfl
    · exact Or.inr ⟨hsize, Or.inl rfl⟩
    · exact Or.inr ⟨hsize, Or.inr ⟨i, rfl⟩⟩
  · exact Or.inr ⟨hsize, Or.inl rfl⟩
  · rcases hs with rfl | ⟨-, rfl | ⟨j, rfl⟩⟩
    · exact Or.inr ⟨hsize, Or.inr ⟨i, rfl⟩⟩
    · exact Or.inr ⟨hsize, Or.inl rfl⟩
    · exact Or.inr ⟨hsize, Or.inr ⟨i, rfl⟩⟩

/-! ## Components

`Laid base rest tail ps` is what holds between two components: the heads of those to come
stand at the front of `rest`, and their tails in `base` from `tail` on. -/

structure Laid (base rest : Bytes) (tail : Nat) (ps : List Part) : Prop where
  heads_eq : ∃ more, rest = heads tail ps ++ more
  tails_eq : ∃ more, base.drop tail = tails ps ++ more
  tail_le : tail ≤ base.length
  rest_le : rest.length ≤ base.length

theorem laid_layOut (ps : List Part) (more : Bytes) :
    Laid (layOut ps ++ more) (layOut ps ++ more) (headSizes ps) ps := by
  refine ⟨⟨tails ps ++ more, ?_⟩, ⟨more, ?_⟩, ?_, Nat.le_refl _⟩
  · rw [layOut, List.append_assoc]
  · rw [layOut, List.append_assoc]
    exact List.drop_left' (length_heads _ ps)
  · rw [List.length_append, length_layOut]
    omega

theorem Laid.next {base rest : Bytes} {tail : Nat} {p : Part} {ps : List Part}
    (h : Laid base rest tail (p :: ps)) :
    Laid base (rest.drop p.headSize) (nextTail tail p) ps := by
  obtain ⟨more, hheads⟩ := h.heads_eq
  obtain ⟨more', htails⟩ := h.tails_eq
  refine ⟨⟨more, ?_⟩, ⟨more', drop_nextTail htails⟩, ?_, ?_⟩
  · rw [hheads]
    exact drop_heads tail p ps more
  · have hle := h.tail_le
    have hcons := length_tails_cons tail p ps
    have hlen := congrArg List.length htails
    rw [List.length_drop, List.length_append] at hlen
    omega
  · have hle := h.rest_le
    rw [List.length_drop]
    omega

theorem readPart_readsAs {l : Layout} {v : l.Value} {base rest : Bytes} {tail : Nat}
    {ps : List Part} (index : Nat) (hbase : IsWord base.length)
    (hread : ∀ more, IsWord (encode l v ++ more).length →
      ReadsAs (encode l v ++ more).length (decode l (encode l v ++ more)) v)
    (h : Laid base rest tail (⟨l.isDynamic, encode l v⟩ :: ps)) :
    ReadsAs base.length (readPart l.isDynamic index (fun d => decode l d) base rest) v := by
  have hplace : ∀ d : Bytes, d.length ≤ base.length → (∃ more, d = encode l v ++ more) →
      ReadsAs base.length (settle index (decode l d)) v := by
    rintro d hle ⟨more, rfl⟩
    exact ((hread more (Nat.lt_of_le_of_lt hle hbase)).mono hle).settle
  have htail := h.tail_le
  obtain ⟨more, hheads⟩ := h.heads_eq
  obtain ⟨more', htails⟩ := h.tails_eq
  rw [heads] at hheads
  rw [tails] at htails
  rw [readPart]
  cases hdynamic : l.isDynamic with
  | false =>
    simp only [hdynamic, Bool.false_eq_true, if_false] at hheads ⊢
    exact hplace rest h.rest_le ⟨_, hheads.trans (List.append_assoc _ _ _)⟩
  | true =>
    simp only [hdynamic, if_true] at hheads htails ⊢
    rw [hheads, List.append_assoc, readIndex_word (Nat.lt_of_le_of_lt htail hbase)]
    by_cases hlong : maxIndex < tail
    · rw [if_pos hlong]
      exact Or.inr ⟨Nat.lt_of_lt_of_le hlong htail, Or.inl rfl⟩
    · rw [if_neg hlong]
      refine hplace (base.drop tail) ?_ ⟨_, htails.trans (List.append_assoc _ _ _)⟩
      rw [List.length_drop]
      omega

theorem readElements_readsAs {e : Layout} {base : Bytes} (hbase : IsWord base.length)
    (hread : ∀ (v : e.Value) (more : Bytes), Fits e v → IsWord (encode e v ++ more).length →
      ReadsAs (encode e v ++ more).length (decode e (encode e v ++ more)) v) :
    ∀ (vs : List e.Value) (index tail : Nat) (rest : Bytes), Each (fun v => Fits e v) vs →
      Laid base rest tail (vs.map (fun v => ⟨e.isDynamic, encode e v⟩)) →
      ReadsAs base.length (readElements e.isDynamic e.headSize (fun d => decode e d) base
        vs.length index rest) vs := by
  intro vs
  induction vs with
  | nil => exact fun _ _ _ _ _ => Or.inl rfl
  | cons v vs ih =>
    intro index tail rest hfits h
    have hv := readPart_readsAs index hbase
      (fun more => hread v more (hfits v List.mem_cons_self)) h
    have hnext := h.next
    rw [headSize_part] at hnext
    have hvs := ih (index + 1) _ _ (fun w hw => hfits w (List.mem_cons_of_mem _ hw)) hnext
    rw [List.length_cons, readElements_succ]
    exact ReadsAs.sequence _ hv hvs

/-! ## Values -/

theorem uint_readsAs {n : Nat} (h : IsWord n) (more : Bytes) (size : Nat) :
    ReadsAs size (decode .uint (encode .uint n ++ more)) n := by
  have hencode : encode .uint n = Bytes.word n := rfl
  left
  rw [hencode, decode, readWord_word h]
  rfl

theorem address_readsAs {a : Address} (h : a.IsNarrow) (more : Bytes) (size : Nat) :
    ReadsAs size (decode .address (encode .address a ++ more)) a := by
  have hencode : encode .address a = Bytes.word a.value := rfl
  have hword : IsWord a.value := Nat.lt_trans h (by decide)
  left
  rw [hencode, decode, readWord_word hword]
  exact dif_pos h

theorem bytes_readsAs {b more : Bytes} (h : IsWord (encode .bytes b ++ more).length) :
    ReadsAs (encode .bytes b ++ more).length (decode .bytes (encode .bytes b ++ more)) b := by
  have hencode : encode .bytes b = counted b := rfl
  rw [hencode] at h ⊢
  rw [decode]
  rcases readCounted_counted h with hread | ⟨hlong, hread⟩
  · rw [hread]
    exact Or.inl rfl
  · rw [hread]
    exact Or.inr ⟨hlong, Or.inl rfl⟩

theorem text_readsAs {t : String} {more : Bytes} (h : IsWord (encode .text t ++ more).length) :
    ReadsAs (encode .text t ++ more).length (decode .text (encode .text t ++ more)) t := by
  have hencode : encode .text t = counted (Utf8.encode t) := rfl
  rw [hencode] at h ⊢
  rw [decode]
  rcases readCounted_counted h with hread | ⟨hlong, hread⟩
  · left
    simp only [hread, Utf8.decode_encode]
  · rw [hread]
    exact Or.inr ⟨hlong, Or.inl rfl⟩

theorem length_layOut_ge {e : Layout} (hroomy : 32 ≤ e.headSize) (vs : List e.Value) :
    vs.length * 32 ≤ (layOut (vs.map (fun v => ⟨e.isDynamic, encode e v⟩))).length := by
  rw [length_layOut]
  induction vs with
  | nil => exact Nat.zero_le _
  | cons v vs ih =>
    rw [List.map_cons, headSizes, headSize_part, tails, List.length_cons]
    split
    · rw [List.length_append]
      omega
    · omega

theorem array_readsAs {e : Layout} (hroomy : 32 ≤ e.headSize)
    (hread : ∀ (v : e.Value) (more : Bytes), Fits e v → IsWord (encode e v ++ more).length →
      ReadsAs (encode e v ++ more).length (decode e (encode e v ++ more)) v)
    (vs : List e.Value) {data more : Bytes} (hfits : Each (fun v => Fits e v) vs)
    (hdata : data = Bytes.word vs.length ++
      (layOut (vs.map (fun v => ⟨e.isDynamic, encode e v⟩)) ++ more))
    (hsize : IsWord data.length) : ReadsAs data.length (decode (.array e) data) vs := by
  have hcount := length_layOut_ge hroomy vs
  have hlaid := laid_layOut (vs.map (fun v => (⟨e.isDynamic, encode e v⟩ : Part))) more
  have hdrop : data.drop 32 = layOut (vs.map (fun v => ⟨e.isDynamic, encode e v⟩)) ++ more := by
    rw [hdata]
    exact List.drop_left' (Bytes.length_word _)
  rw [← hdrop] at hlaid
  have hlength : vs.length * 32 ≤ (data.drop 32).length := by
    rw [hdrop, List.length_append]
    omega
  rw [List.length_drop] at hlength
  have hbase : IsWord (data.drop 32).length := by
    unfold IsWord at hsize ⊢
    rw [List.length_drop]
    omega
  have hindex : readIndex data = if maxIndex < vs.length then .error .overflow
      else .ok vs.length := by
    rw [hdata]
    refine readIndex_word ?_ _
    unfold IsWord at hsize ⊢
    omega
  -- a count beyond every index is refused before any element is looked at
  by_cases hlong : maxIndex < vs.length
  · rw [decode, hindex, if_pos hlong]
    exact Or.inr ⟨by omega, Or.inl rfl⟩
  · have hdecode : decode (.array e) data = readElements e.isDynamic e.headSize
        (fun d => decode e d) (data.drop 32) vs.length 0 (data.drop 32) := by
      rw [decode, hindex, if_neg hlong]
      exact if_neg (by omega)
    rw [hdecode]
    refine (readElements_readsAs hbase hread vs 0 _ _ hfits hlaid).mono ?_
    rw [List.length_drop]
    exact Nat.sub_le _ _

mutual
/-- The writing of a value is read as the value, whatever follows it, unless an index in
it is refused. -/
theorem decode_encode : ∀ (l : Layout) (v : l.Value) (more : Bytes), l.isRoomy = true →
    Fits l v → IsWord (encode l v ++ more).length →
    ReadsAs (encode l v ++ more).length (decode l (encode l v ++ more)) v
  | .uint, _ => fun more _ hfits _ => uint_readsAs hfits more _
  | .address, _ => fun more _ hfits _ => address_readsAs hfits more _
  | .bytes, _ => fun _ _ _ hsize => bytes_readsAs hsize
  | .text, _ => fun _ _ _ hsize => text_readsAs hsize
  | .array e, vs => by
    intro more hroomy hfits hsize
    rw [Layout.isRoomy, Bool.and_eq_true, decide_eq_true_eq] at hroomy
    exact array_readsAs hroomy.1 (fun v more hv hs => decode_encode e v more hroomy.2 hv hs)
      vs hfits (List.append_assoc _ _ _) hsize
  | .tuple ls, vs => by
    intro more hroomy hfits hsize
    exact decodeFields_readsAs ls vs 0 hroomy hfits hsize (laid_layOut (parts ls vs) more)

theorem decodeFields_readsAs : ∀ (ls : List Layout) (vs : Values ls) {base rest : Bytes}
    {tail : Nat} (index : Nat), allRoomy ls = true → FitsAll ls vs → IsWord base.length →
    Laid base rest tail (parts ls vs) →
    ReadsAs base.length (decodeFields ls base index rest) vs
  | [], _ => fun _ _ _ _ _ => Or.inl rfl
  | l :: ls, (v, vs) => by
    intro index hroomy hfits hbase h
    rw [allRoomy, Bool.and_eq_true] at hroomy
    have hv := readPart_readsAs index hbase
      (fun more hs => decode_encode l v more hroomy.1 hfits.1 hs) h
    have hnext := h.next
    rw [headSize_part] at hnext
    have hvs := decodeFields_readsAs ls vs (index + 1) hroomy.2 hfits.2 hbase hnext
    rw [decodeFields_cons]
    exact ReadsAs.sequence _ hv hvs
end

/-! ## Exact reading -/

theorem eq_of_decodeExact {ls : List Layout} {vs ws : Values ls} (hroomy : allRoomy ls = true)
    (hfits : FitsAll ls vs) (hsize : IsWord (encode (.tuple ls) vs).length)
    (h : decodeExact ls (encode (.tuple ls) vs) = .ok ws) : ws = vs := by
  have hread := decode_encode (.tuple ls) vs [] hroomy hfits (by rwa [List.append_nil])
  rw [List.append_nil] at hread
  rw [decodeExact] at h
  rcases hread with hread | ⟨-, hread | ⟨i, hread⟩⟩
  · rw [hread] at h
    simp only [if_true] at h
    cases h
    rfl
  · rw [hread] at h
    cases h
  · rw [hread] at h
    cases h

/-- Fields are read back unless their writing is beyond every index. -/
theorem decodeExact_encode {ls : List Layout} {vs : Values ls} (hroomy : allRoomy ls = true)
    (hfits : FitsAll ls vs) (hsize : (encode (.tuple ls) vs).length ≤ maxIndex) :
    decodeExact ls (encode (.tuple ls) vs) = .ok vs := by
  have hword : IsWord (encode (.tuple ls) vs).length := Nat.lt_of_le_of_lt hsize (by decide)
  have hread := decode_encode (.tuple ls) vs [] hroomy hfits (by rwa [List.append_nil])
  rw [List.append_nil] at hread
  rcases hread with hread | ⟨hlong, -⟩
  · rw [decodeExact, hread]
    exact if_pos rfl
  · omega

end Abi
end Interchain
