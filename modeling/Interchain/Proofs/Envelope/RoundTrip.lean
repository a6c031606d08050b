/-
Payloads and envelopes, written and read.

A payload that fits is read from the texts of its own bytes and from no others
(`Payload.decode_eq_ok_iff`), and an acknowledgement from those of the bytes that are written
for its address (`Acknowledgement.decode_eq_ok_iff`).  Whoever can read the
envelope of a transfer at all reads the destination, the payload and the limits that were
written (`PostEnvelope.eq_of_decode`), however long the destination is.  An envelope that
is not beyond every index can be read (`PostEnvelope.decode_of_encode`,
`GetEnvelope.decode_of_encode`).
-/
import Interchain.Envelope.Acknowledgement
import Interchain.Envelope.Get
import Interchain.Envelope.Post
import Interchain.Proofs.Abi.Reading
import Interchain.Proofs.Envelope.Arguments

namespace Interchain

open Abi Envelope

namespace Envelope

variable {item : Item} {ls : List Layout} {vs ws : Values ls}

theorem read_eq_ok {data : String} :
    read item ls data = .ok vs ↔ ∃ b, Hex.parse? data = some b ∧ decodeExact ls b = .ok vs := by
  rw [read]
  constructor
  · intro h
    split at h
    · cases h
    · next b hb =>
      split at h
      · cases h
      · next us hus =>
        cases h
        exact ⟨b, hb, hus⟩
  · rintro ⟨b, hb, hvs⟩
    simp only [hb, hvs]

/-- Fields whose writing is not beyond every index are read from the texts of that writing and
from no others. -/
theorem read_eq_ok_iff {data : String} (hroomy : allRoomy ls = true)
    (hsize : (Abi.encode (.tuple ls) vs).length ≤ maxIndex) :
    read item ls data = .ok vs ↔
      FitsAll ls vs ∧ Hex.parse? data = some (Abi.encode (.tuple ls) vs) := by
  rw [read_eq_ok]
  constructor
  · rintro ⟨b, hb, hread⟩
    obtain ⟨hcanonical, hfits, -⟩ := of_decodeExact hread
    rw [hcanonical]
    exact ⟨hfits, hb⟩
  · rintro ⟨hfits, hparse⟩
    exact ⟨_, hparse, decodeExact_encode hroomy hfits hsize⟩

theorem code_of_read {data : String} {c : Cause} (h : read item ls data = .error c) :
    c.code = .decodeError := by
  rw [read] at h
  split at h
  · cases h
    rfl
  · split at h
    · cases h
      rfl
    · cases h

/-- Fields are read from their text unless it is beyond every index. -/
theorem read_write (hroomy : allRoomy ls = true) (hfits : FitsAll ls vs)
    (hsize : (Abi.encode (.tuple ls) vs).length ≤ maxIndex) : read item ls (write ls vs) = .ok vs :=
  (read_eq_ok_iff hroomy hsize).2 ⟨hfits, Hex.parse?_render _⟩

/-- Nothing but the fields themselves is read from their text. -/
theorem eq_of_read_write (ls : List Layout) (vs : Values ls) {ws : Values ls}
    (hroomy : allRoomy ls = true) (hbounds : IsWord (bounds ls)) (hfits : FitsAll ls vs)
    (h : read item ls (write ls vs) = .ok ws) : ws = vs := by
  obtain ⟨b, hb, hws⟩ := read_eq_ok.1 h
  rw [write, Hex.parse?_render, Option.some.injEq] at hb
  rw [← hb] at hws
  exact decodeExact_encode_eq_ok hroomy hbounds hfits hws

def IsIndexed (text : String) : Prop := ∀ b, Hex.parse? text = some b → b.length ≤ maxIndex

theorem isIndexed_write :
    IsIndexed (write ls vs) ↔ (Abi.encode (.tuple ls) vs).length ≤ maxIndex := by
  constructor
  · intro h
    exact h _ (Hex.parse?_render _)
  · intro h b hb
    rw [write, Hex.parse?_render, Option.some.injEq] at hb
    rwa [← hb]

theorem isWord_iff {n : Nat} : IsWord n ↔ n ≤ maxUint256 := by
  unfold IsWord maxUint256
  omega

theorem isWord_of_le {n : Nat} (h : n ≤ maxUint64) : IsWord n :=
  Nat.lt_of_le_of_lt h (by decide)

theorem readChainId_encode (id : String) : readChainId (Utf8.encode id) = .ok id := by
  rw [readChainId, Utf8.decode_encode]

end Envelope

namespace Payload

structure Fits (p : Payload) : Prop where
  recipient : p.recipient.IsNarrow
  sender : p.sender.IsNarrow
  amount : p.amount ≤ maxUint256

theorem fits_iff {p : Payload} :
    p.Fits ↔ FitsAll layout (p.recipient, p.sender, p.amount, ()) := by
  constructor
  · rintro ⟨hr, hs, hn⟩
    exact ⟨hr, hs, isWord_iff.2 hn, trivial⟩
  · rintro ⟨hr, hs, hn, -⟩
    exact ⟨hr, hs, isWord_iff.1 hn⟩

theorem length_encode (p : Payload) : p.encode.length = size :=
  length_encode_of_static (l := .tuple layout) rfl (p.recipient, p.sender, p.amount, ())

theorem decode_eq_ok {t : String} {p : Payload} :
    decode t = .ok p ↔ (Hex.parse? t).any (fun b => b.length = size) = true ∧
      read .payload layout t = .ok (p.recipient, p.sender, p.amount, ()) := by
  rw [decode]
  split
  · next hsize =>
    rw [bind_eq_ok]
    constructor
    · rintro ⟨⟨r, s, n, ⟨⟩⟩, hread, h⟩
      cases h
      exact ⟨hsize, hread⟩
    · rintro ⟨-, hread⟩
      exact ⟨_, hread, rfl⟩
  · next hsize =>
    constructor
    · intro h
      cases h
    · intro h
      exact absurd h.1 hsize

theorem code_of_decode {t : String} {c : Cause} (h : decode t = .error c) :
    c.code = .decodeError := by
  rw [decode] at h
  split at h
  · rcases bind_eq_error.1 h with h | ⟨⟨r, s, n, ⟨⟩⟩, -, h⟩
    · exact code_of_read h
    · cases h
  · cases h
    rfl

theorem decode_eq_ok_iff {t : String} {p : Payload} :
    decode t = .ok p ↔ p.Fits ∧ Hex.parse? t = some p.encode := by
  have hlength : (Abi.encode (.tuple layout) (p.recipient, p.sender, p.amount, ())).length =
    size := length_encode p
  have hsize : (Abi.encode (.tuple layout) (p.recipient, p.sender, p.amount, ())).length ≤
      maxIndex := by
    rw [hlength]
    decide
  rw [decode_eq_ok, read_eq_ok_iff rfl hsize, ← fits_iff]
  constructor
  · rintro ⟨-, hfits, hparse⟩
    exact ⟨hfits, hparse⟩
  · rintro ⟨hfits, hparse⟩
    refine ⟨?_, hfits, hparse⟩
    rw [hparse, Option.any_some, decide_eq_true_eq]
    exact hlength

theorem decode_render {p : Payload} (h : p.Fits) : decode (Hex.render p.encode) = .ok p :=
  decode_eq_ok_iff.2 ⟨h, Hex.parse?_render _⟩

theorem fits_of_decode {t : String} {p : Payload} (h : decode t = .ok p) : p.Fits :=
  (decode_eq_ok_iff.1 h).1

theorem bytesArgument_of_decode {t : String} {p : Payload} (h : decode t = .ok p) :
    bytesArgument t = .ok p.encode :=
  bytesArgument_eq_ok.2 (Hex.parseEitherMark?_of_parse? (decode_eq_ok_iff.1 h).2)

end Payload

namespace Acknowledgement

theorem length_encode (a : Address) :
    (Abi.encode (.tuple layout) (tag, a, ())).length = 128 := by
  have hheads : headSizes (parts layout (tag, a, ())) =
      Layout.text.headSize + (Layout.address.headSize + 0) := by
    rw [← headSize_part .text tag, ← headSize_part .address a]
    rfl
  have htails : tails (parts layout (tag, a, ())) = counted (Utf8.encode tag) :=
    List.append_nil _
  have htag : (counted (Utf8.encode tag)).length = 64 := by decide
  show (layOut (parts layout (tag, a, ()))).length = 128
  rw [length_layOut, hheads, htails, htag]
  rfl

/-- An address is let through under its own tag only. -/
theorem tagged_eq_ok {t : String} {a b : Address} :
    (if isTag t then pure b else throw (.decode .notAcknowledgement) : Except Cause Address) =
      .ok a ↔ t = tag ∧ b = a := by
  by_cases htag : isTag t = true
  · rw [if_pos htag, pure_eq_ok, and_iff_right (beq_iff_eq.1 htag)]
  · rw [if_neg htag]
    exact iff_of_false (fun h => (nomatch h)) (fun h => htag (beq_iff_eq.2 h.1))

theorem code_of_tagged {t : String} {b : Address} {c : Cause}
    (h : (if isTag t then pure b else throw (.decode .notAcknowledgement) : Except Cause Address) =
      .error c) : c.code = .decodeError := by
  split at h
  · cases h
  · cases h
    rfl

theorem decode_eq_ok_iff {t : String} {a : Address} :
    decode t = .ok a ↔
      a.IsNarrow ∧ Hex.parse? t = some (Abi.encode (.tuple layout) (tag, a, ())) := by
  have hsize : (Abi.encode (.tuple layout) (tag, a, ())).length ≤ maxIndex := by
    rw [length_encode]
    decide
  have hfits : FitsAll layout (tag, a, ()) ↔ a.IsNarrow :=
    ⟨fun h => h.2.1, fun h => ⟨trivial, h, trivial⟩⟩
  have hexact : read .acknowledgement layout t = .ok (tag, a, ()) ↔ _ := read_eq_ok_iff rfl hsize
  rw [← hfits, ← hexact, decode]
  constructor
  · intro h
    obtain ⟨⟨u, b, ⟨⟩⟩, hread, htagged⟩ := bind_eq_ok.1 h
    obtain ⟨rfl, rfl⟩ := tagged_eq_ok.1 htagged
    exact hread
  · intro hread
    exact bind_eq_ok.2 ⟨_, hread, tagged_eq_ok.2 ⟨rfl, rfl⟩⟩

theorem decode_encode {a : Address} (h : a.IsNarrow) : decode (encode a) = .ok a :=
  decode_eq_ok_iff.2 ⟨h, Hex.parse?_render _⟩

theorem code_of_decode {t : String} {c : Cause} (h : decode t = .error c) :
    c.code = .decodeError := by
  rw [decode] at h
  rcases bind_eq_error.1 h with h | ⟨⟨u, a, ⟨⟩⟩, -, h⟩
  · exact code_of_read h
  · exact code_of_tagged h

end Acknowledgement

namespace PostEnvelope

theorem isWord_bounds : IsWord (bounds layout) := by
  show bounds layout < 2 ^ 256
  decide

theorem encode_eq_ok {dest moduleId text : String} {payload : Payload} {timeout gasLimit : Int} :
    encode dest moduleId payload timeout gasLimit = .ok text ↔
      ∃ t : Nat, (timeout = t ∧ t ≤ maxUint64) ∧ ∃ g : Nat, (gasLimit = g ∧ g ≤ maxUint64) ∧
        ∃ m, bytesArgument moduleId = .ok m ∧
          write layout (Utf8.encode dest, m, payload.encode, t, g, ()) = text := by
  simp only [encode, bind_eq_ok, pure_eq_ok, refuse_eq_ok, ensureRange_eq_ok]

variable {dest moduleId text : String} {payload : Payload} {timeout gasLimit : Int}

theorem fits_fields {t g : Nat} (m : Bytes) (ht : t ≤ maxUint64) (hg : g ≤ maxUint64) :
    FitsAll layout (Utf8.encode dest, m, payload.encode, t, g, ()) :=
  ⟨trivial, trivial, trivial, isWord_of_le ht, isWord_of_le hg, trivial⟩

/-- Whoever reads the envelope of a transfer reads what was written. -/
theorem eq_of_decode {e : PostEnvelope}
    (hencode : encode dest moduleId payload timeout gasLimit = .ok text)
    (hdecode : decode text = .ok e) :
    ∃ m, bytesArgument moduleId = .ok m ∧
      e = ⟨dest, Hex.render m, Hex.render payload.encode, timeout.toNat, gasLimit.toNat⟩ := by
  obtain ⟨t, ⟨rfl, ht⟩, g, ⟨rfl, hg⟩, m, hm, rfl⟩ := encode_eq_ok.1 hencode
  simp only [decode, bind_eq_ok] at hdecode
  obtain ⟨ws, hread, hdecode⟩ := hdecode
  have hws := eq_of_read_write layout (Utf8.encode dest, m, payload.encode, t, g, ()) rfl
    isWord_bounds (fits_fields m ht hg) hread
  subst hws
  obtain ⟨id, hid, he⟩ := bind_eq_ok.1 hdecode
  rw [readChainId_encode] at hid
  cases hid
  cases he
  exact ⟨m, hm, rfl⟩

/-- The envelope of a transfer is read back as it was written. -/
theorem decode_of_encode (hencode : encode dest moduleId payload timeout gasLimit = .ok text)
    (hsize : IsIndexed text) :
    ∃ m, bytesArgument moduleId = .ok m ∧
      decode text =
        .ok ⟨dest, Hex.render m, Hex.render payload.encode, timeout.toNat, gasLimit.toNat⟩ := by
  obtain ⟨t, ⟨rfl, ht⟩, g, ⟨rfl, hg⟩, m, hm, rfl⟩ := encode_eq_ok.1 hencode
  have hread : read .postEnvelope layout (write layout (_, m, _, t, g, ())) = .ok _ :=
    read_write rfl (fits_fields m ht hg) (isIndexed_write.1 hsize)
  refine ⟨m, hm, ?_⟩
  rw [decode, bind_eq_ok]
  exact ⟨_, hread, bind_eq_ok.2 ⟨dest, readChainId_encode dest, rfl⟩⟩

end PostEnvelope

namespace GetEnvelope

theorem encode_eq_ok {dest text : String} {keys : List String} {height timeout gasLimit : Int} :
    encode dest keys height timeout gasLimit = .ok text ↔
      ∃ h : Nat, (height = h ∧ h ≤ maxUint64) ∧ ∃ t : Nat, (timeout = t ∧ t ≤ maxUint64) ∧
        ∃ g : Nat, (gasLimit = g ∧ g ≤ maxUint64) ∧ ∃ ks, keys.mapM bytesArgument = .ok ks ∧
          write layout (Utf8.encode dest, h, ks, t, g, ()) = text := by
  simp only [encode, bind_eq_ok, pure_eq_ok, refuse_eq_ok, ensureRange_eq_ok]

/-- The envelope of a get is read back with its keys in lower case. -/
theorem decode_of_encode {dest text : String} {keys : List String} {height timeout gasLimit : Int}
    (hencode : encode dest keys height timeout gasLimit = .ok text) (hsize : IsIndexed text) :
    ∃ ks, keys.mapM bytesArgument = .ok ks ∧
      decode text =
        .ok ⟨dest, height.toNat, ks.map Hex.render, timeout.toNat, gasLimit.toNat⟩ := by
  obtain ⟨h, ⟨rfl, hh⟩, t, ⟨rfl, ht⟩, g, ⟨rfl, hg⟩, ks, hks, rfl⟩ := encode_eq_ok.1 hencode
  have hfits : FitsAll layout (Utf8.encode dest, h, ks, t, g, ()) :=
    ⟨trivial, isWord_of_le hh, fun _ _ => trivial, isWord_of_le ht, isWord_of_le hg, trivial⟩
  have hread : read .getEnvelope layout (write layout (_, h, ks, t, g, ())) = .ok _ :=
    read_write rfl hfits (isIndexed_write.1 hsize)
  refine ⟨ks, hks, ?_⟩
  rw [decode, bind_eq_ok]
  exact ⟨_, hread, bind_eq_ok.2 ⟨dest, readChainId_encode dest, rfl⟩⟩

variable {p : GetParams} {q : Query} {text : String}

theorem exists_encode_of_check (hcheck : p.check = .ok q) :
    ∃ text, encode q.dest.id q.keys q.height q.timeout q.gasLimit = .ok text := by
  obtain ⟨bs, hbs, -⟩ := GetParams.keys_of_check hcheck
  obtain ⟨-, -, ⟨-, hheight⟩, ⟨-, htimeout⟩, -, hgas⟩ := GetParams.check_eq_ok.1 hcheck
  exact ⟨_, encode_eq_ok.2
    ⟨_, ⟨rfl, hheight⟩, _, ⟨rfl, htimeout⟩, _, ⟨rfl, hgas⟩, bs, hbs, rfl⟩⟩

theorem decode_of_check (hcheck : p.check = .ok q)
    (hencode : encode q.dest.id q.keys q.height q.timeout q.gasLimit = .ok text)
    (hsize : IsIndexed text) :
    decode text = .ok ⟨q.dest.id, q.height, q.keys, q.timeout, q.gasLimit⟩ := by
  obtain ⟨bs, hbs, hrender⟩ := GetParams.keys_of_check hcheck
  obtain ⟨ks, hks, hdecode⟩ := decode_of_encode hencode hsize
  rw [hbs, Except.ok.injEq] at hks
  rw [← hks, hrender] at hdecode
  exact hdecode

end GetEnvelope
end Interchain
