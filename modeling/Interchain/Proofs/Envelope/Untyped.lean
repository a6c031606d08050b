/-
Reading without types comes to the same as reading with them.

A value that is read is handed over in one shape (`Untyped.of`), and is written again with
the bytes that are written for the value (`write_of`).  Where a component is spoilt, writing
again raises the fault of the first such component.  `Shows` says so of whatever is written
again; `Stands` is that of a component by itself, and `InPlace` of one in its place, where its
own fault may have been left.  The induction goes from `Stands` of the components of a layout
to `InPlace` of their places, and from there, place by place, to `Stands` of the layout
(`agrees_read`).
-/
import Interchain.Envelope.Untyped
import Interchain.Proofs.Abi.Reading
import Interchain.Proofs.Envelope.Exact

namespace Interchain
namespace Abi
namespace Untyped

open Envelope

mutual
def of : (l : Layout) → l.Value → Untyped
  | .uint, n => .number n
  | .address, a => .text a.render
  | .bytes, b => .text (Hex.render b)
  | .text, t => .text t
  | .array e, vs => .list (vs.map (fun v => of e v))
  | .tuple ls, vs => .list (ofAll ls vs)

def ofAll : (ls : List Layout) → Values ls → List Untyped
  | [], _ => []
  | l :: ls, (v, vs) => of l v :: ofAll ls vs
end

theorem touch_of (index : Nat) (l : Layout) (v : l.Value) :
    (of l v).touch index = .ok (of l v) := by
  cases l with
  | uint | address | bytes | text | array _ | tuple _ => rfl

/-! ## Writing again -/

theorem writeSlots_cons (isDynamic : Bool) (write : Untyped → Except Failure Bytes) (index : Nat)
    (u : Untyped) (us : List Untyped) :
    writeSlots isDynamic write index (u :: us) =
      (u.touch index >>= write) >>= fun b =>
        writeSlots isDynamic write (index + 1) us >>= fun ps => pure (⟨isDynamic, b⟩ :: ps) := rfl

theorem writeFields_cons (l : Layout) (ls : List Layout) (index : Nat) (u : Untyped)
    (us : List Untyped) :
    writeFields (l :: ls) index (u :: us) =
      (u.touch index >>= fun u => write l u) >>= fun b =>
        writeFields ls (index + 1) us >>= fun ps => pure (⟨l.isDynamic, b⟩ :: ps) := rfl

theorem writeSlots_of {e : Layout} (hwrite : ∀ v, Fits e v → write e (of e v) = .ok (encode e v))
    (vs : List e.Value) (index : Nat) (hfits : Each (fun v => Fits e v) vs) :
    writeSlots e.isDynamic (fun u => write e u) index (vs.map (fun v => of e v)) =
      .ok (vs.map (fun v => ⟨e.isDynamic, encode e v⟩)) := by
  induction vs generalizing index with
  | nil => rfl
  | cons v vs ih =>
    rw [List.map_cons, writeSlots_cons, touch_of, ih (index + 1)
      (fun w hw => hfits w (List.mem_cons_of_mem _ hw))]
    show write e (of e v) >>= _ = _
    rw [hwrite v (hfits v List.mem_cons_self)]
    rfl

theorem write_number {n : Nat} (h : IsWord n) : write .uint (.number n) = .ok (Bytes.word n) := by
  rw [write, wordArgument_of_isWord h]
  rfl

theorem write_address {a : Address} (h : a.IsNarrow) :
    write .address (.text a.render) = .ok (Bytes.word a.value) := by
  rw [write, addressArgument_of_isNarrow h]
  rfl

theorem write_bytes (b : Bytes) : write .bytes (.text (Hex.render b)) = .ok (counted b) := by
  rw [write, bytesArgument_render]
  rfl

theorem write_array {e : Layout} (hwrite : ∀ v, Fits e v → write e (of e v) = .ok (encode e v))
    (vs : List e.Value) (hfits : Each (fun v => Fits e v) vs) :
    write (.array e) (.list (vs.map (fun v => of e v))) = .ok (encode (.array e) vs) := by
  rw [write, writeSlots_of hwrite vs 0 hfits, List.length_map]
  rfl

mutual
/-- A value that fits is written again with its own bytes. -/
theorem write_of : ∀ (l : Layout) (v : l.Value), Fits l v → write l (of l v) = .ok (encode l v)
  | .uint, _ => fun h => write_number h
  | .address, _ => fun h => write_address h
  | .bytes, b => fun _ => write_bytes b
  | .text, _ => fun _ => rfl
  | .array e, vs => fun h => write_array (write_of e) vs h
  | .tuple ls, vs => fun h => by
    show writeFields ls 0 (ofAll ls vs) >>= (fun ps => pure (layOut ps)) = _
    rw [writeFields_ofAll ls vs 0 h]
    rfl

theorem writeFields_ofAll : ∀ (ls : List Layout) (vs : Values ls) (index : Nat), FitsAll ls vs →
    writeFields ls index (ofAll ls vs) = .ok (parts ls vs)
  | [], _ => fun _ _ => rfl
  | l :: ls, (v, vs) => fun index h => by
    rw [ofAll, writeFields_cons, touch_of, writeFields_ofAll ls vs (index + 1) h.2]
    show write l (of l v) >>= _ = _
    rw [write_of l v h.1]
    rfl
end

/-! ## Reading -/

/-- What is handed over stands for the value that was read, which fits, or raises the fault of
the first spoilt component when it is written again. -/
def Shows {α β γ : Type} (of : α → β) (fits : α → Prop) (write : β → Except Failure γ) :
    Reading α → β → Prop
  | .ok v, u => u = of v ∧ fits v
  | .error i, u => write u = .error (.raised (ExactFault.spoilt i).message)

/-- Of one component that was read: no fault is left in its own place. -/
def Stands (l : Layout) (r : Reading l.Value) (u : Untyped) : Prop :=
  (∀ index, u.touch index = .ok u) ∧ Shows (of l) (Fits l) (write l) r u

def InPlace (l : Layout) (index : Nat) : Reading l.Value → Untyped → Prop :=
  Shows (of l) (Fits l) (fun u => u.touch index >>= fun u => write l u)

def Elements (e : Layout) (index : Nat) : Reading (List e.Value) → List Untyped → Prop :=
  Shows (fun vs => vs.map (fun v => of e v)) (Each (fun v => Fits e v))
    (writeSlots e.isDynamic (fun u => write e u) index)

def Fields (ls : List Layout) (index : Nat) : Reading (Values ls) → List Untyped → Prop :=
  Shows (ofAll ls) (FitsAll ls) (writeFields ls index)

/-- Both readings end in one fault, or in what is so related. -/
inductive Agrees {α β : Type} (P : Reading α → β → Prop) :
    Except Fault (Reading α) → Except Fault β → Prop
  | fault (f : Fault) : Agrees P (.error f) (.error f)
  | value {r : Reading α} {u : β} (h : P r u) : Agrees P (.ok r) (.ok u)

theorem Agrees.map {α β γ : Type} {P : Reading α → β → Prop} {Q : Reading α → γ → Prop}
    {r : Except Fault (Reading α)} {u : Except Fault β} {g : β → γ} (h : Agrees P r u)
    (hmap : ∀ r u, P r u → Q r (g u)) : Agrees Q r (u.map g) := by
  cases h with
  | fault f => exact .fault f
  | value h => exact .value (hmap _ _ h)

theorem Agrees.unless {α β : Type} {P : Reading α → β → Prop} {p : Prop} [Decidable p]
    {r : Except Fault (Reading α)} {u : Except Fault β} (h : Agrees P r u) (f : Fault) :
    Agrees P (if p then .error f else r) (if p then .error f else u) := by
  by_cases hp : p
  · rw [if_pos hp, if_pos hp]
    exact .fault f
  · rw [if_neg hp, if_neg hp]
    exact h

theorem Agrees.andThen {α β γ : Type} {P : Reading α → Untyped → Prop}
    {Q : Reading β → List Untyped → Prop} {R : Reading γ → List Untyped → Prop} {f : α → β → γ}
    {r : Except Fault (Reading α)} {u : Except Fault Untyped} {rs : Except Fault (Reading β)}
    {us : Except Fault (List Untyped)} (h : Agrees P r u) (hs : Agrees Q rs us)
    (hboth : ∀ r u rs us, P r u → Q rs us → R (Reading.both f r rs) (u :: us)) :
    Agrees R (sequence f r rs) (andThen u us) := by
  cases h with
  | fault f => exact .fault f
  | value h =>
    cases hs with
    | fault f => exact .fault f
    | value hs => exact .value (hboth _ _ _ _ h hs)

/-- A fault that spoils a component is left in its place, and is met there first. -/
theorem agrees_settle {l : Layout} {index : Nat} {r : Except Fault (Reading l.Value)}
    {u : Except Fault Untyped} (h : Agrees (Stands l) r u) :
    Agrees (InPlace l index) (settle index r) (leave u) := by
  cases h with
  | fault f =>
    rw [settle, leave]
    split
    · exact .fault f
    · exact .value rfl
  | @value r u h =>
    obtain ⟨htouch, hshows⟩ := h
    refine .value ?_
    rcases r with i | v
    · show (u.touch index >>= fun u => write l u) = _
      rw [htouch index]
      exact hshows
    · exact hshows

theorem agrees_readSlot {l : Layout} (hread : ∀ d, Agrees (Stands l) (decode l d) (read l d))
    (index : Nat) (base rest : Bytes) :
    Agrees (InPlace l index) (readPart l.isDynamic index (fun d => decode l d) base rest)
      (readSlot l.isDynamic (fun d => read l d) base rest) := by
  rw [readPart, readSlot]
  split
  · cases readIndex rest with
    | error f => exact .fault f
    | ok offset => exact agrees_settle (hread _)
  · exact agrees_settle (hread rest)

/-- The first fault that is met in a place and those after it is that of the first spoilt
component. -/
theorem InPlace.both {l : Layout} {index : Nat} {β γ : Type} {f : l.Value → β → γ}
    {ofRest : β → List Untyped} {ofBoth : γ → List Untyped} {fitsRest : β → Prop}
    {fitsBoth : γ → Prop} {writeRest writeBoth : List Untyped → Except Failure (List Part)}
    (hof : ∀ v vs, ofBoth (f v vs) = of l v :: ofRest vs)
    (hfits : ∀ v vs, Fits l v → fitsRest vs → fitsBoth (f v vs))
    (hwrite : ∀ u us, writeBoth (u :: us) = (u.touch index >>= fun u => write l u) >>= fun b =>
      writeRest us >>= fun ps => pure (⟨l.isDynamic, b⟩ :: ps))
    (r : Reading l.Value) (u : Untyped) (rs : Reading β) (us : List Untyped)
    (h : InPlace l index r u) (hs : Shows ofRest fitsRest writeRest rs us) :
    Shows ofBoth fitsBoth writeBoth (Reading.both f r rs) (u :: us) := by
  rcases r with i | v
  · have hplace : (u.touch index >>= fun u => write l u) = _ := h
    show writeBoth (u :: us) = _
    rw [hwrite, hplace]
    rfl
  · obtain ⟨rfl, hv⟩ := h
    rcases rs with i | vs
    · have hrest : writeRest us = _ := hs
      show writeBoth (of l v :: us) = _
      rw [hwrite, touch_of, hrest]
      show write l (of l v) >>= _ = _
      rw [write_of l v hv]
      rfl
    · obtain ⟨rfl, hvs⟩ := hs
      exact ⟨(hof v vs).symm, hfits v vs hv hvs⟩

theorem agrees_readSlots {e : Layout} (hread : ∀ d, Agrees (Stands e) (decode e d) (read e d))
    (base : Bytes) (n index : Nat) (rest : Bytes) :
    Agrees (Elements e index)
      (readElements e.isDynamic e.headSize (fun d => decode e d) base n index rest)
      (readSlots e.isDynamic e.headSize (fun d => read e d) base n rest) := by
  induction n generalizing index rest with
  | zero => exact .value ⟨rfl, fun v hv => (nomatch hv)⟩
  | succ n ih =>
    rw [readElements_succ, readSlots]
    exact (agrees_readSlot hread index base rest).andThen (ih (index + 1) (rest.drop e.headSize))
      (InPlace.both (fun _ _ => rfl) (fun _ _ hv hvs => List.forall_mem_cons.2 ⟨hv, hvs⟩)
        (writeSlots_cons _ _ index))

theorem agrees_number (data : Bytes) :
    Agrees (Stands .uint) (decode .uint data) (read .uint data) := by
  rw [decode, read]
  cases hword : readWord data with
  | error f => exact .fault f
  | ok n => exact .value ⟨fun _ => rfl, rfl, readWord_eq_ok hword⟩

theorem agrees_address (data : Bytes) :
    Agrees (Stands .address) (decode .address data) (read .address data) := by
  rw [decode, read]
  cases readWord data with
  | error f => exact .fault f
  | ok n =>
    simp only
    split
    · next h => exact .value ⟨fun _ => rfl, rfl, h⟩
    · exact .fault _

theorem agrees_bytes (data : Bytes) :
    Agrees (Stands .bytes) (decode .bytes data) (read .bytes data) := by
  rw [decode, read]
  cases readCounted data with
  | error f => exact .fault f
  | ok b => exact .value ⟨fun _ => rfl, rfl, trivial⟩

theorem agrees_text (data : Bytes) :
    Agrees (Stands .text) (decode .text data) (read .text data) := by
  rw [decode, read]
  cases readCounted data with
  | error f => exact .fault f
  | ok b =>
    simp only
    cases Utf8.decode b with
    | error f => exact .fault (.invalidText f)
    | ok t => exact .value ⟨fun _ => rfl, rfl, trivial⟩

theorem stands_array {e : Layout} (r : Reading (List e.Value)) (us : List Untyped)
    (h : Elements e 0 r us) : Stands (.array e) r (.list us) := by
  refine ⟨fun _ => rfl, ?_⟩
  rcases r with i | vs
  · have hwrite : writeSlots e.isDynamic (fun u => write e u) 0 us = _ := h
    show write (.array e) (.list us) = _
    rw [write, hwrite]
    rfl
  · obtain ⟨rfl, hfits⟩ := h
    exact ⟨rfl, hfits⟩

theorem agrees_array {e : Layout} (hread : ∀ d, Agrees (Stands e) (decode e d) (read e d))
    (data : Bytes) :
    Agrees (Stands (.array e)) (decode (.array e) data) (read (.array e) data) := by
  rw [decode, read]
  cases readIndex data with
  | error f => exact .fault f
  | ok n =>
    exact ((agrees_readSlots hread (data.drop 32) n 0 (data.drop 32)).map stands_array).unless
      .insufficientLength

theorem stands_tuple {ls : List Layout} (r : Reading (Values ls)) (us : List Untyped)
    (h : Fields ls 0 r us) : Stands (.tuple ls) r (.list us) := by
  refine ⟨fun _ => rfl, ?_⟩
  rcases r with i | vs
  · have hwrite : writeFields ls 0 us = _ := h
    show write (.tuple ls) (.list us) = _
    rw [write, hwrite]
    rfl
  · obtain ⟨rfl, hfits⟩ := h
    exact ⟨rfl, hfits⟩

mutual
theorem agrees_read : ∀ (l : Layout) (data : Bytes),
    Agrees (Stands l) (decode l data) (read l data)
  | .uint => agrees_number
  | .address => agrees_address
  | .bytes => agrees_bytes
  | .text => agrees_text
  | .array e => agrees_array (agrees_read e)
  | .tuple ls => by
    intro data
    rw [decode, read]
    exact (agrees_readFields ls data 0 data).map stands_tuple

theorem agrees_readFields : ∀ (ls : List Layout) (base : Bytes) (index : Nat) (rest : Bytes),
    Agrees (Fields ls index) (decodeFields ls base index rest) (readFields ls base rest)
  | [] => fun _ _ _ => .value ⟨rfl, trivial⟩
  | l :: ls => by
    intro base index rest
    rw [decodeFields_cons, readFields]
    exact (agrees_readSlot (agrees_read l) index base rest).andThen
      (agrees_readFields ls base (index + 1) (rest.drop l.headSize))
      (InPlace.both (fun _ _ => rfl) (fun _ _ hv hvs => ⟨hv, hvs⟩) (writeFields_cons l ls index))
end

end Untyped
end Abi
end Interchain
