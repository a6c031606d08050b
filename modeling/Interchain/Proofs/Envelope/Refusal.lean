/-
Text that cannot be decoded is refused as that, and nothing else is raised.

The decoders that take nothing for granted end as those that know their layouts: in one value,
or in a decode error of one text (`decoders_refuse`).  Fields that were read are the untyped
ones in shape and fit the wire (`decodes_read`), so that no place is missing and no field is
of another shape than is expected.
-/
import Interchain.Proofs.Envelope.Untyped

namespace Interchain

open Abi Envelope

/-- Both return values that are so related, or both refuse with a decode error of one text. -/
inductive Decodes {α β : Type} (P : α → β → Prop) : Except Cause α → Except Failure β → Prop
  | value {a : α} {b : β} (h : P a b) : Decodes P (.ok a) (.ok b)
  | refusal {c d : Cause} (hc : c.code = .decodeError) (hd : d.code = .decodeError)
      (h : d.message = c.message) : Decodes P (.error c) (.error (.ofCause d))

theorem Decodes.bind {α β γ δ : Type} {P : α → β → Prop} {Q : γ → δ → Prop} {x : Except Cause α}
    {y : Except Failure β} {f : α → Except Cause γ} {g : β → Except Failure δ}
    (h : Decodes P x y) (hnext : ∀ a b, P a b → Decodes Q (f a) (g b)) :
    Decodes Q (x >>= f) (y >>= g) := by
  cases h with
  | value h => exact hnext _ _ h
  | refusal hc hd h => exact .refusal hc hd h

theorem Abi.Untyped.place_bind {α : Type} {us : List Untyped} {index : Nat} {u : Untyped}
    {take : Untyped → Except Failure α} {a : α} (hplace : place us index = .ok u)
    (htake : take u = .ok a) : place us index >>= take = .ok a := bind_eq_ok.2 ⟨u, hplace, htake⟩

/-- A place that is there and holds what is expected goes unseen. -/
theorem Decodes.field {α β γ : Type} {P : α → γ → Prop} {x : Except Cause α} {us : List Untyped}
    {index : Nat} {u : Untyped} {take : Untyped → Except Failure β} {b : β}
    {g : β → Except Failure γ} (hplace : Untyped.place us index = .ok u) (htake : take u = .ok b)
    (h : Decodes P x (g b)) : Decodes P x (Untyped.place us index >>= take >>= g) := by
  rw [Untyped.place_bind hplace htake]
  exact h

/-- A place that holds the whole of what is returned. -/
theorem Decodes.last {α β : Type} {P : α → β → Prop} {us : List Untyped} {index : Nat}
    {u : Untyped} {take : Untyped → Except Failure β} {a : α} {b : β}
    (hplace : Untyped.place us index = .ok u) (htake : take u = .ok b) (h : P a b) :
    Decodes P (.ok a) (Untyped.place us index >>= take) := by
  rw [Untyped.place_bind hplace htake]
  exact .value h

theorem Decodes.ite {α β : Type} {P : α → β → Prop} {p : Prop} [Decidable p]
    {x x' : Except Cause α} {y y' : Except Failure β} (h : Decodes P x y) (h' : Decodes P x' y') :
    Decodes P (if p then x else x') (if p then y else y') := by
  split
  · exact h
  · exact h'

namespace Envelope

def Handed (ls : List Layout) (vs : Values ls) (us : List Untyped) : Prop :=
  us = Untyped.ofAll ls vs ∧ FitsAll ls vs

/-- Fields are read as those that are handed over, or refused for the same reason. -/
theorem decodes_read (item : Item) (ls : List Layout) (data : String) :
    Decodes (Handed ls) (read item ls data) (readUntyped item ls data) := by
  rw [read, readUntyped]
  cases Hex.parse? data with
  | none => exact .refusal rfl rfl rfl
  | some b =>
    have hagrees := Untyped.agrees_readFields ls b 0 b
    simp only [decodeExact, Abi.decode]
    generalize decodeFields ls b 0 b = r, Untyped.readFields ls b b = u at hagrees ⊢
    cases hagrees with
    | fault f => exact .refusal rfl rfl rfl
    | @value r us h =>
      rcases r with i | vs
      · -- What is spoilt does not show before the fields are written again.
        have hwrite : Untyped.write (.tuple ls) (.list us) = _ := (Untyped.stands_tuple _ us h).2
        show Decodes (Handed ls) _ (quoting _ (Untyped.write (.tuple ls) _) >>= _)
        rw [hwrite]
        exact .refusal rfl rfl rfl
      · obtain ⟨rfl, hfits⟩ := h
        have hwrite : Untyped.write (.tuple ls) (.list (Untyped.ofAll ls vs)) = _ :=
          Untyped.write_of (.tuple ls) vs hfits
        show Decodes (Handed ls) _ (quoting _ (Untyped.write (.tuple ls) _) >>= _)
        rw [hwrite]
        -- One side compares the bytes, the other their texts.
        by_cases hcanonical : Abi.encode (.tuple ls) vs = b
        · show Decodes (Handed ls) _ (if Hex.render (Abi.encode (.tuple ls) vs) = _ then _ else _)
          rw [if_pos (congrArg Hex.render hcanonical)]
          simp only [if_pos hcanonical]
          exact .value ⟨rfl, hfits⟩
        · show Decodes (Handed ls) _ (if Hex.render (Abi.encode (.tuple ls) vs) = _ then _ else _)
          rw [if_neg (fun h => hcanonical (Hex.render_injective h))]
          simp only [if_neg hcanonical]
          exact .refusal rfl rfl rfl

end Envelope

/-! ## Fields -/

namespace Abi
namespace Untyped

theorem asNumber_of (n : Nat) : asNumber (.number n) = .ok n := rfl

theorem asText_of (t : String) : asText (.text t) = .ok t := rfl

theorem asAddress_of {a : Address} (h : a.IsNarrow) : asAddress (.text a.render) = .ok a :=
  bind_eq_ok.2 ⟨a.render, asText_of a.render, addressArgument_of_isNarrow h⟩

theorem asBytes_of (b : Bytes) : asBytes (.text (Hex.render b)) = .ok (Hex.render b) := by
  rw [asBytes, Hex.parse?_render, Option.isSome_some, if_pos rfl]

theorem decodes_asChainId (b : Bytes) :
    Decodes Eq (readChainId b) (asChainId (.text (Hex.render b))) := by
  have hspelled : asBytes (.text (Hex.render b)) >>= spelledText = spelledText (Hex.render b) := by
    rw [asBytes_of]
    rfl
  rw [asChainId, hspelled, spelledText, bytesArgument_render, readChainId]
  show Decodes Eq _ (quoting _ ((Utf8.decode b).mapError _))
  cases Utf8.decode b with
  | error f => exact .refusal rfl rfl rfl
  | ok t => exact .value rfl

/-- No fault is left among byte strings that were read. -/
theorem mapM_touch (bs : List Bytes) (index : Nat) :
    ((bs.map (fun b => text (Hex.render b))).zipIdx index).mapM (fun u => u.1.touch u.2) =
      .ok (bs.map (fun b => text (Hex.render b))) := by
  induction bs generalizing index with
  | nil => rfl
  | cons b bs ih =>
    rw [List.map_cons, List.zipIdx_cons, List.mapM_cons, ih (index + 1)]
    rfl

theorem mapM_asBytes (bs : List Bytes) :
    (bs.map (fun b => text (Hex.render b))).mapM asBytes = .ok (bs.map Hex.render) := by
  induction bs with
  | nil => rfl
  | cons b bs ih =>
    rw [List.map_cons, List.mapM_cons, asBytes_of, ih]
    rfl

theorem asByteTexts_of (bs : List Bytes) :
    asByteTexts (.list (bs.map (fun b => text (Hex.render b)))) = .ok (bs.map Hex.render) := by
  show (bs.map (fun b => text (Hex.render b))).zipIdx.mapM (fun u => u.1.touch u.2) >>= _ = _
  rw [mapM_touch]
  exact mapM_asBytes bs

end Untyped
end Abi

/-! ## Decoders -/

open Untyped

theorem Payload.decodes (data : String) :
    Decodes Eq (Payload.decode data) (Payload.decodeUntyped data) := by
  rw [decode, decodeUntyped]
  split
  · refine (decodes_read .payload layout data).bind ?_
    rintro ⟨r, s, n, ⟨⟩⟩ _ ⟨rfl, hr, hs, -⟩
    refine .field rfl (asAddress_of hr) ?_
    refine .field rfl (asAddress_of hs) ?_
    refine .field rfl (asNumber_of n) ?_
    exact .value rfl
  · exact .refusal rfl rfl rfl

theorem PostEnvelope.decodes (data : String) :
    Decodes Eq (PostEnvelope.decode data) (PostEnvelope.decodeUntyped data) := by
  refine (decodes_read .postEnvelope layout data).bind ?_
  rintro ⟨dest, m, body, t, g, ⟨⟩⟩ _ ⟨rfl, -⟩
  refine (decodes_asChainId dest).bind ?_
  rintro id _ rfl
  refine .field rfl (asBytes_of m) ?_
  refine .field rfl (asBytes_of body) ?_
  exact .value rfl

theorem GetEnvelope.decodes (data : String) :
    Decodes Eq (GetEnvelope.decode data) (GetEnvelope.decodeUntyped data) := by
  refine (decodes_read .getEnvelope layout data).bind ?_
  rintro ⟨dest, h, ks, t, g, ⟨⟩⟩ _ ⟨rfl, -⟩
  refine (decodes_asChainId dest).bind ?_
  rintro id _ rfl
  refine .field rfl (asNumber_of h) ?_
  refine .field rfl (asByteTexts_of ks) ?_
  exact .value rfl

theorem ResponseEnvelope.decodes (data : String) :
    Decodes Eq (ResponseEnvelope.decode data) (ResponseEnvelope.decodeUntyped data) := by
  refine (decodes_read .responseEnvelope layout data).bind ?_
  rintro ⟨⟨source, dest, n, f, recipient, t, body, g, ⟨⟩⟩, r, ⟨⟩⟩ _ ⟨rfl, -⟩
  refine (decodes_asChainId source).bind ?_
  rintro s _ rfl
  refine (decodes_asChainId dest).bind ?_
  rintro d _ rfl
  refine .field rfl (asNumber_of n) ?_
  refine .field rfl (asBytes_of f) ?_
  refine .field rfl (asBytes_of recipient) ?_
  refine .field rfl (asNumber_of t) ?_
  refine .field rfl (asBytes_of body) ?_
  refine .field rfl (asNumber_of g) ?_
  refine .field rfl (asBytes_of r) ?_
  exact .value rfl

theorem Acknowledgement.decodes (data : String) :
    Decodes Eq (Acknowledgement.decode data) (Acknowledgement.decodeUntyped data) := by
  refine (decodes_read .acknowledgement layout data).bind ?_
  rintro ⟨t, a, ⟨⟩⟩ _ ⟨rfl, -, ha, -⟩
  refine .field rfl (asText_of t) ?_
  refine .ite ?_ ?_
  · exact .last rfl (asAddress_of ha) rfl
  · exact .refusal rfl rfl rfl

/-- Whatever the text, a decoder returns one value or refuses with a decode error of one text,
with or without its layout: no fault of reading, writing again, a place, an address or the
spelling of a text gets out as such. -/
theorem decoders_refuse (data : String) :
    Decodes Eq (Payload.decode data) (Payload.decodeUntyped data) ∧
      Decodes Eq (PostEnvelope.decode data) (PostEnvelope.decodeUntyped data) ∧
      Decodes Eq (GetEnvelope.decode data) (GetEnvelope.decodeUntyped data) ∧
      Decodes Eq (ResponseEnvelope.decode data) (ResponseEnvelope.decodeUntyped data) ∧
      Decodes Eq (Acknowledgement.decode data) (Acknowledgement.decodeUntyped data) :=
  ⟨Payload.decodes data, PostEnvelope.decodes data, GetEnvelope.decodes data,
    ResponseEnvelope.decodes data, Acknowledgement.decodes data⟩

end Interchain
