/-
Which texts are payloads and which are acknowledgements.

A payload is three words, and a text is read as one exactly if it spells three words of which
the first two are below 2 ^ 160 (`Payload.payload_codec_exact`).  An acknowledgement of an
address is one text, up to the case of its digits (`Acknowledgement.acknowledgement_codec_exact`):
a tag or an offset that is not the written one, a byte too few or too many and a word that is no
address are all refused.
-/
import Interchain.Proofs.Bytes.Word
import Interchain.Proofs.Envelope.Exact
import Mathlib.Data.List.Basic

namespace Interchain

open Abi Envelope

namespace Payload

variable {t : String} {p : Payload}

theorem encode_eq_words (p : Payload) :
    p.encode = Bytes.words [p.recipient.value, p.sender.value, p.amount] := by
  show layOut [⟨false, Bytes.word p.recipient.value⟩, ⟨false, Bytes.word p.sender.value⟩,
    ⟨false, Bytes.word p.amount⟩] = _
  simp only [layOut, heads, tails, Bool.false_eq_true, if_false, List.append_nil, Bytes.words,
    List.flatMap_cons, List.flatMap_nil]

/-- The text of a payload, in digits of either case: three words, of which the first two are
those of addresses. -/
structure IsText (t : String) : Prop where
  bytes : Hex.IsByteText t
  length : t.length = 2 + 2 * size
  recipient : Hex.wordAt t 0 < 2 ^ 160
  sender : Hex.wordAt t 1 < 2 ^ 160

theorem Fits.lt (h : p.Fits) :
    ∀ n ∈ [p.recipient.value, p.sender.value, p.amount], n < 2 ^ 256 := by
  have hrecipient : p.recipient.value < 2 ^ 256 := Nat.lt_trans h.recipient (by decide)
  have hsender : p.sender.value < 2 ^ 256 := Nat.lt_trans h.sender (by decide)
  have hamount : p.amount < 2 ^ 256 := isWord_iff.2 h.amount
  simp only [List.forall_mem_cons]
  exact ⟨hrecipient, hsender, hamount, fun _ hn => (nomatch hn)⟩

theorem of_decode (h : decode t = .ok p) :
    IsText t ∧ p.recipient.value = Hex.wordAt t 0 ∧ p.sender.value = Hex.wordAt t 1 ∧
      p.amount = Hex.wordAt t 2 := by
  obtain ⟨hfits, hparse⟩ := decode_eq_ok_iff.1 h
  have hlength := Hex.length_of_parse? hparse
  rw [length_encode] at hlength
  have hbytes := Hex.isByteText_iff.2 ⟨_, hparse⟩
  rw [encode_eq_words] at hparse
  have hword := Hex.wordAt_of_words hparse hfits.lt
  refine ⟨⟨hbytes, hlength, ?_, ?_⟩, (hword 0).symm, (hword 1).symm, (hword 2).symm⟩
  · rw [hword]
    exact hfits.recipient
  · rw [hword]
    exact hfits.sender

theorem IsText.exists_decode (h : IsText t) : ∃ p, decode t = .ok p := by
  obtain ⟨b, hparse⟩ := Hex.isByteText_iff.1 h.bytes
  have hlength : b.length = 32 * 3 := by
    have hlength := h.length
    rw [Hex.length_of_parse? hparse, size] at hlength
    omega
  obtain ⟨ns, hcount, hfit, rfl⟩ := Bytes.exists_words hlength
  obtain ⟨r, s, n, rfl⟩ := List.length_eq_three.1 hcount
  have hr : Hex.wordAt t 0 = r := Hex.wordAt_of_words hparse hfit 0
  have hs : Hex.wordAt t 1 = s := Hex.wordAt_of_words hparse hfit 1
  have hrecipient : r < 2 ^ 160 := hr ▸ h.recipient
  have hsender : s < 2 ^ 160 := hs ▸ h.sender
  have hamount : n < 2 ^ 256 := hfit n (by simp)
  refine ⟨⟨.ofNat r hrecipient, .ofNat s hsender, n⟩, decode_eq_ok_iff.2 ⟨?_, ?_⟩⟩
  · exact ⟨hrecipient, hsender, isWord_iff.1 hamount⟩
  · rw [encode_eq_words]
    exact hparse

def written (recipient sender : String) (amount : Int) : Except Failure String :=
  (ofArguments (addressArgument recipient) (addressArgument sender) amount).map
    (fun p => Hex.render p.encode)

theorem written_eq_ok {recipient sender text : String} {amount : Int} :
    written recipient sender amount = .ok text ↔
      ∃ n : Nat, (amount = n ∧ n ≤ maxUint256) ∧ ∃ a, Address.parse? recipient = some a ∧
        ∃ b, Address.parse? sender = some b ∧ Hex.render (encode ⟨a, b, n⟩) = text := by
  simp only [written, ofArguments, map_eq_ok, bind_eq_ok, pure_eq_ok, refuse_eq_ok,
    ensureRange_eq_ok, addressArgument_eq_ok]
  constructor
  · rintro ⟨p, ⟨n, hn, a, ha, b, hb, rfl⟩, htext⟩
    exact ⟨n, hn, a, ha, b, hb, htext⟩
  · rintro ⟨n, hn, a, ha, b, hb, htext⟩
    exact ⟨_, ⟨n, hn, a, ha, b, hb, rfl⟩, htext⟩

theorem written_of_decode (h : decode t = .ok p) :
    written p.recipient.render p.sender.render p.amount = .ok (Hex.lowerText t) := by
  obtain ⟨hfits, hparse⟩ := decode_eq_ok_iff.1 h
  exact written_eq_ok.2 ⟨p.amount, ⟨rfl, hfits.amount⟩, p.recipient,
    Address.parse?_render_eq_some.2 ⟨rfl, hfits.recipient⟩, p.sender,
    Address.parse?_render_eq_some.2 ⟨rfl, hfits.sender⟩, (Hex.lowerText_of_parse? hparse).symm⟩

/-- Addresses of 40 digits and an amount are written exactly if the amount fits a word, as
96 bytes from which they are read back.  A text is read exactly if it is the text of a payload:
its words are then the numbers of what is read, which is written as the text in lower case. -/
theorem payload_codec_exact :
    (∀ (recipient sender : String) (a b : Address) (amount : Int),
      Address.IsDigitText recipient → Address.parse? recipient = some a →
      Address.IsDigitText sender → Address.parse? sender = some b →
      ((∃ text, written recipient sender amount = .ok text) ↔ 0 ≤ amount ∧ amount ≤ maxUint256) ∧
        ∀ text, written recipient sender amount = .ok text →
          (∃ bytes, Hex.parse? text = some bytes ∧ bytes.length = 96) ∧
            ∃ n : Nat, amount = n ∧ decode text = .ok ⟨a, b, n⟩) ∧
    ∀ data, ((∃ p, decode data = .ok p) ↔ IsText data) ∧
      ∀ p, decode data = .ok p →
        (p.recipient.value = Hex.wordAt data 0 ∧ p.sender.value = Hex.wordAt data 1 ∧
          p.amount = Hex.wordAt data 2) ∧
        written p.recipient.render p.sender.render p.amount = .ok (Hex.lowerText data) := by
  constructor
  · intro recipient sender a b amount hrecipient ha hsender hb
    constructor
    · constructor
      · rintro ⟨text, htext⟩
        obtain ⟨n, ⟨rfl, hn⟩, -⟩ := written_eq_ok.1 htext
        omega
      · rintro ⟨hzero, hmax⟩
        exact ⟨_, written_eq_ok.2 ⟨amount.toNat, by omega, a, ha, b, hb, rfl⟩⟩
    · intro text htext
      obtain ⟨n, ⟨hn, hmax⟩, a', ha', b', hb', rfl⟩ := written_eq_ok.1 htext
      cases ha.symm.trans ha'
      cases hb.symm.trans hb'
      refine ⟨⟨_, Hex.parse?_render _, length_encode _⟩, n, hn, decode_render ?_⟩
      exact ⟨hrecipient.isNarrow ha, hsender.isNarrow hb, hmax⟩
  · intro data
    constructor
    · constructor
      · rintro ⟨p, hp⟩
        exact (of_decode hp).1
      · exact IsText.exists_decode
    · intro p hp
      exact ⟨(of_decode hp).2, written_of_decode hp⟩

/-- Three for an address in capitals from one that is marked. -/
theorem payload_codec_exact_mixed :
    let upper := "00000000000000000000000000000000000000DD"
    let lower := "0x00000000000000000000000000000000000000cc"
    let p : Payload := ⟨⟨0xdd, by decide⟩, ⟨0xcc, by decide⟩, 3⟩
    Address.IsDigitText upper ∧ Address.IsDigitText lower ∧
      ∃ text, written upper lower 3 = .ok text ∧ decode text = .ok p ∧ IsText text ∧
        written p.recipient.render p.sender.render 3 = .ok (Hex.lowerText text) := by
  intro upper lower p
  have hupper : Address.IsDigitText upper := by decide +kernel
  have hlower : Address.IsDigitText lower := by decide +kernel
  have hrecipient : Address.parse? upper = some p.recipient := by decide +kernel
  have hsender : Address.parse? lower = some p.sender := by decide +kernel
  obtain ⟨hback, hagain⟩ := payload_codec_exact
  obtain ⟨hfits, hread⟩ := hback upper lower _ _ 3 hupper hrecipient hlower hsender
  obtain ⟨text, htext⟩ := hfits.2 (by decide)
  obtain ⟨-, n, hn, hdecode⟩ := hread text htext
  cases hn
  exact ⟨hupper, hlower, text, htext, hdecode, (hagain text).1.1 ⟨_, hdecode⟩,
    ((hagain text).2 _ hdecode).2⟩

end Payload

namespace Acknowledgement

def written (executor : String) : Except Failure String := (addressArgument executor).map encode

theorem written_eq_ok {executor text : String} :
    written executor = .ok text ↔ ∃ a, Address.parse? executor = some a ∧ encode a = text := by
  simp only [written, map_eq_ok, addressArgument_eq_ok]

/-- An address is read from the spellings of its own acknowledgement and from nothing else. -/
theorem decode_eq_ok_iff_lower {data : String} {a : Address} :
    decode data = .ok a ↔
      a.IsNarrow ∧ "0x".toList <+: data.toList ∧ Hex.lowerText data = encode a := by
  rw [decode_eq_ok_iff, Hex.parse?_eq_some_iff]
  rfl

/-- The acknowledgement by a module that 40 digits name is read as its address.  A text is read
as an address exactly if it is marked `0x`, the address is given by its normal text, and the
text is in lower case the one that is written for it; any other is refused as undecodable. -/
theorem acknowledgement_codec_exact :
    (∀ executor a, Address.IsDigitText executor → Address.parse? executor = some a →
      ∃ text, written executor = .ok text ∧ decode text = .ok a) ∧
    (∀ data executor, (∃ a, decode data = .ok a ∧ a.render = executor) ↔
      "0x".toList <+: data.toList ∧ Address.IsNormal executor ∧
        written executor = .ok (Hex.lowerText data)) ∧
    ∀ data c, decode data = .error c → c.code = .decodeError := by
  refine ⟨?_, ?_, fun _ _ => code_of_decode⟩
  · intro executor a hdigits ha
    exact ⟨encode a, written_eq_ok.2 ⟨a, ha, rfl⟩, decode_encode (hdigits.isNarrow ha)⟩
  · intro data executor
    constructor
    · rintro ⟨a, hdecode, rfl⟩
      obtain ⟨hnarrow, hmark, hlower⟩ := decode_eq_ok_iff_lower.1 hdecode
      have hparse := Address.parse?_render_eq_some.2 ⟨rfl, hnarrow⟩
      exact ⟨hmark, Address.isNormal_iff.2 ⟨a, hnarrow, rfl⟩,
        written_eq_ok.2 ⟨a, hparse, hlower.symm⟩⟩
    · rintro ⟨hmark, hnormal, hwrite⟩
      obtain ⟨a, hnarrow, rfl⟩ := Address.isNormal_iff.1 hnormal
      obtain ⟨b, hb, hencode⟩ := written_eq_ok.1 hwrite
      obtain ⟨rfl, -⟩ := Address.parse?_render_eq_some.1 hb
      exact ⟨b, decode_eq_ok_iff_lower.2 ⟨hnarrow, hmark, hencode.symm⟩, rfl⟩

/-- The acknowledgement by a module that is named in capitals. -/
theorem acknowledgement_codec_exact_mixed :
    let upper := "00000000000000000000000000000000000000BB"
    let a : Address := ⟨0xbb, by decide⟩
    Address.IsDigitText upper ∧
      ∃ text, written upper = .ok text ∧ decode text = .ok a ∧ Address.IsNormal a.render ∧
        written a.render = .ok (Hex.lowerText text) := by
  intro upper a
  have hupper : Address.IsDigitText upper := by decide +kernel
  have hparse : Address.parse? upper = some a := by decide +kernel
  obtain ⟨hback, hexact, -⟩ := acknowledgement_codec_exact
  obtain ⟨text, htext, hdecode⟩ := hback upper a hupper hparse
  obtain ⟨-, hnormal, hagain⟩ := (hexact text a.render).1 ⟨a, hdecode, rfl⟩
  exact ⟨hupper, text, htext, hdecode, hnormal, hagain⟩

end Acknowledgement
end Interchain
