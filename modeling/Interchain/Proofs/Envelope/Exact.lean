/-
Envelopes are exact.

Reading undoes writing, up to the case of the byte fields; and what is read, written again,
is the text that was read, in lower case.  So there is one byte string for each envelope:
offsets that are shuffled, shared or too long, bytes that are missing or left over and
octets that only resemble UTF-8 are all refused.  `response_envelope_exact`,
`get_envelope_exact` and `post_envelope_exact` say so of the three envelopes.
-/
import Interchain.Envelope.Response
import Interchain.Proofs.Envelope.RoundTrip

namespace Interchain

open Abi Envelope

namespace Envelope

variable {item : Item} {ls : List Layout} {vs : Values ls}

theorem wordArgument_of_isWord {n : Nat} (h : IsWord n) : wordArgument n = .ok n :=
  wordArgument_eq_ok.2 ⟨rfl, isWord_iff.1 h⟩

/-- A chain is read from its own octets and from no others. -/
theorem readChainId_eq_ok {b : Bytes} {id : String} :
    readChainId b = .ok id ↔ b = Utf8.encode id := by
  constructor
  · intro h
    rw [readChainId] at h
    split at h
    · cases h
    · next t ht =>
      cases h
      exact (Utf8.encode_of_decode ht).symm
  · rintro rfl
    exact readChainId_encode id

/-- Fields fit the wire, and the text that they were read from is, in lower case, the text
that is written for them. -/
theorem of_read {data : String} (h : read item ls data = .ok vs) :
    FitsAll ls vs ∧ write ls vs = Hex.lowerText data := by
  obtain ⟨b, hb, hvs⟩ := read_eq_ok.1 h
  obtain ⟨hcanonical, hfits, -⟩ := of_decodeExact hvs
  refine ⟨hfits, ?_⟩
  rw [write, hcanonical, Hex.lowerText_of_parse? hb]

end Envelope

/-! ## Responses -/

def PostRequest.lowered (r : PostRequest) : PostRequest :=
  { r with
    fromModule := Hex.lowerText r.fromModule
    toModule := Hex.lowerText r.toModule
    body := Hex.lowerText r.body }

/-- A request whose fields can all be written. -/
structure PostRequest.IsWritable (r : PostRequest) : Prop where
  nonce : 0 ≤ r.nonce ∧ r.nonce ≤ maxUint256
  fromModule : Hex.IsByteText r.fromModule
  toModule : Hex.IsByteText r.toModule
  timeout : 0 ≤ r.timeout ∧ r.timeout ≤ maxUint256
  body : Hex.IsByteText r.body
  gasLimit : 0 ≤ r.gasLimit ∧ r.gasLimit ≤ maxUint256

namespace ResponseEnvelope

variable {request : PostRequest} {response text data : String}

theorem encode_eq_ok :
    encode request response = .ok text ↔
      ∃ n, wordArgument request.nonce = .ok n ∧ ∃ f, bytesArgument request.fromModule = .ok f ∧
        ∃ r, bytesArgument request.toModule = .ok r ∧ ∃ t, wordArgument request.timeout = .ok t ∧
          ∃ body, bytesArgument request.body = .ok body ∧
            ∃ g, wordArgument request.gasLimit = .ok g ∧ ∃ b, bytesArgument response = .ok b ∧
              write layout ((Utf8.encode request.source, Utf8.encode request.dest, n, f, r, t,
                body, g, ()), b, ()) = text := by
  simp only [encode, bind_eq_ok, pure_eq_ok]

theorem exists_encode (hrequest : request.IsWritable) (hresponse : Hex.IsByteText response) :
    ∃ text, encode request response = .ok text := by
  have hword : ∀ n : Int, 0 ≤ n ∧ n ≤ maxUint256 → ∃ k, wordArgument n = .ok k := by
    rintro n ⟨h₀, hmax⟩
    exact ⟨n.toNat, wordArgument_eq_ok.2 ⟨by omega, by omega⟩⟩
  obtain ⟨n, hn⟩ := hword _ hrequest.nonce
  obtain ⟨f, hf⟩ := exists_bytesArgument hrequest.fromModule
  obtain ⟨r, hr⟩ := exists_bytesArgument hrequest.toModule
  obtain ⟨t, ht⟩ := hword _ hrequest.timeout
  obtain ⟨body, hbody⟩ := exists_bytesArgument hrequest.body
  obtain ⟨g, hg⟩ := hword _ hrequest.gasLimit
  obtain ⟨b, hb⟩ := exists_bytesArgument hresponse
  exact ⟨_, encode_eq_ok.2 ⟨n, hn, f, hf, r, hr, t, ht, body, hbody, g, hg, b, hb, rfl⟩⟩

/-- A request and a response are read back with their byte fields in lower case. -/
theorem decode_of_encode (hencode : encode request response = .ok text) (hsize : IsIndexed text) :
    decode text = .ok ⟨request.lowered, Hex.lowerText response⟩ := by
  obtain ⟨n, hn, f, hf, r, hr, t, ht, body, hbody, g, hg, b, hb, rfl⟩ := encode_eq_ok.1 hencode
  obtain ⟨hnonce, hn⟩ := wordArgument_eq_ok.1 hn
  obtain ⟨htimeout, ht⟩ := wordArgument_eq_ok.1 ht
  obtain ⟨hgas, hg⟩ := wordArgument_eq_ok.1 hg
  have hfits : FitsAll layout ((Utf8.encode request.source, Utf8.encode request.dest, n, f, r, t,
      body, g, ()), b, ()) :=
    ⟨⟨trivial, trivial, isWord_iff.2 hn, trivial, trivial, isWord_iff.2 ht, trivial,
      isWord_iff.2 hg, trivial⟩, trivial, trivial⟩
  have hread : read .responseEnvelope layout (write layout ((_, _, n, f, r, t, body, g, ()), b, ()))
      = .ok _ := read_write rfl hfits (isIndexed_write.1 hsize)
  rw [decode, bind_eq_ok]
  refine ⟨_, hread, bind_eq_ok.2 ⟨_, readChainId_encode _, bind_eq_ok.2
    ⟨_, readChainId_encode _, ?_⟩⟩⟩
  rw [PostRequest.lowered, ← render_of_bytesArgument hf, ← render_of_bytesArgument hr,
    ← render_of_bytesArgument hbody, ← render_of_bytesArgument hb, hnonce, htimeout, hgas]
  rfl

theorem read_of_decode {v : PostResponse} (h : decode data = .ok v) :
    ∃ (n : Nat) (f r : Bytes) (t : Nat) (body : Bytes) (g : Nat) (b : Bytes),
      read .responseEnvelope layout data = .ok ((Utf8.encode v.request.source,
        Utf8.encode v.request.dest, n, f, r, t, body, g, ()), b, ()) ∧
      v = ⟨⟨v.request.source, v.request.dest, n, Hex.render f, Hex.render r, t, Hex.render body,
        g⟩, Hex.render b⟩ := by
  simp only [decode, bind_eq_ok] at h
  obtain ⟨⟨⟨source, dest, n, f, r, t, body, g, ⟨⟩⟩, b, ⟨⟩⟩, hread, h⟩ := h
  obtain ⟨s, hs, h⟩ := bind_eq_ok.1 h
  obtain ⟨d, hd, h⟩ := bind_eq_ok.1 h
  cases h
  cases readChainId_eq_ok.1 hs
  cases readChainId_eq_ok.1 hd
  exact ⟨n, f, r, t, body, g, b, hread, rfl⟩

/-- What is read, written again, is the text that was read. -/
theorem encode_of_decode {v : PostResponse} (h : decode data = .ok v) :
    encode v.request v.response = .ok (Hex.lowerText data) := by
  obtain ⟨n, f, r, t, body, g, b, hread, hv⟩ := read_of_decode h
  obtain ⟨⟨⟨-, -, hn, -, -, ht, -, hg, -⟩, -⟩, hwrite⟩ := of_read hread
  rw [hv]
  exact encode_eq_ok.2 ⟨n, wordArgument_of_isWord hn, f, bytesArgument_render f, r,
    bytesArgument_render r, t, wordArgument_of_isWord ht, body, bytesArgument_render body, g,
    wordArgument_of_isWord hg, b, bytesArgument_render b, hwrite⟩

/-- A request and a response that can be written are read back, with their byte fields in
lower case, from an envelope that is not beyond every index; what is read from any text is
written as that text in lower case; and no two byte strings are read as the same. -/
theorem response_envelope_exact :
    (∀ request response, request.IsWritable → Hex.IsByteText response →
      ∃ text, encode request response = .ok text ∧
        (IsIndexed text → decode text = .ok ⟨request.lowered, Hex.lowerText response⟩)) ∧
    (∀ data v, decode data = .ok v → encode v.request v.response = .ok (Hex.lowerText data)) ∧
    ∀ data data' v, decode data = .ok v → decode data' = .ok v →
      Hex.parse? data = Hex.parse? data' := by
  refine ⟨fun request response hrequest hresponse => ?_, fun _ _ => encode_of_decode, ?_⟩
  · obtain ⟨text, hencode⟩ := exists_encode hrequest hresponse
    exact ⟨text, hencode, decode_of_encode hencode⟩
  · intro data data' v h h'
    obtain ⟨_, _, _, _, _, _, _, hread, -⟩ := read_of_decode h
    obtain ⟨_, _, _, _, _, _, _, hread', -⟩ := read_of_decode h'
    obtain ⟨b, hb, -⟩ := read_eq_ok.1 hread
    obtain ⟨b', hb', -⟩ := read_eq_ok.1 hread'
    have hsame := Except.ok.inj ((encode_of_decode h).symm.trans (encode_of_decode h'))
    rw [hb, hb', Hex.eq_of_lowerText_eq hb hb' hsame]

/-- A request in mixed case from a chain that is not named in ASCII. -/
def mixed : PostRequest :=
  ⟨"GRANDPA-Ωλ", "KUSAMA-7", 2 ^ 256 - 1, "0xAb", "0x", 0, "0x00FF", 1⟩

def mixedFields : Values layout :=
  ((Utf8.encode "GRANDPA-Ωλ", Utf8.encode "KUSAMA-7", (2 ^ 256 - 1 : Nat), [0xab], [],
    (0 : Nat), [0x00, 0xff], (1 : Nat), ()), [0xc0, 0xde], ())

theorem isWritable_mixed : mixed.IsWritable :=
  ⟨by decide, by decide, by decide, by decide, by decide, by decide⟩

theorem encode_mixed : encode mixed "0xC0de" = .ok (write layout mixedFields) :=
  encode_eq_ok.2 ⟨2 ^ 256 - 1, wordArgument_eq_ok.2 (by decide), [0xab],
    bytesArgument_eq_ok.2 (by decide), [], bytesArgument_eq_ok.2 (by decide), 0,
    wordArgument_eq_ok.2 (by decide), [0x00, 0xff], bytesArgument_eq_ok.2 (by decide), 1,
    wordArgument_eq_ok.2 (by decide), [0xc0, 0xde], bytesArgument_eq_ok.2 (by decide), rfl⟩

theorem isIndexed_mixed : IsIndexed (write layout mixedFields) :=
  isIndexed_write.2 (by decide +kernel)

theorem response_envelope_exact_mixed :
    ∃ text, encode mixed "0xC0de" = .ok text ∧
      decode text = .ok ⟨mixed.lowered, "0xc0de"⟩ ∧
      encode mixed.lowered "0xc0de" = .ok (Hex.lowerText text) := by
  obtain ⟨hback, hagain, -⟩ := response_envelope_exact
  obtain ⟨text, hencode, hdecode⟩ := hback mixed "0xC0de" isWritable_mixed (by decide)
  have htext : write layout mixedFields = text := Except.ok.inj (encode_mixed.symm.trans hencode)
  have hread := hdecode (htext ▸ isIndexed_mixed)
  have hlower : Hex.lowerText "0xC0de" = "0xc0de" := by decide
  rw [hlower] at hread
  exact ⟨text, hencode, hread, hagain text _ hread⟩

end ResponseEnvelope

/-! ## Gets -/

namespace GetEnvelope

variable {dest data text : String} {keys : List String} {e : GetEnvelope}

/-- The text that is written for an envelope as it was read: numbers may take a whole word. -/
def asWritten (e : GetEnvelope) : Except Failure String := do
  let h ← wordArgument e.height
  let ks ← e.keys.mapM bytesArgument
  let t ← wordArgument e.timeout
  let g ← wordArgument e.gasLimit
  return write layout (Utf8.encode e.dest, h, ks, t, g, ())

theorem asWritten_eq_ok :
    e.asWritten = .ok text ↔
      ∃ h, wordArgument e.height = .ok h ∧ ∃ ks, e.keys.mapM bytesArgument = .ok ks ∧
        ∃ t, wordArgument e.timeout = .ok t ∧ ∃ g, wordArgument e.gasLimit = .ok g ∧
          write layout (Utf8.encode e.dest, h, ks, t, g, ()) = text := by
  simp only [asWritten, bind_eq_ok, pure_eq_ok]

theorem read_of_decode (h : decode data = .ok e) :
    ∃ ks : List Bytes, e.keys = ks.map Hex.render ∧
      read .getEnvelope layout data =
        .ok (Utf8.encode e.dest, e.height, ks, e.timeout, e.gasLimit, ()) := by
  simp only [decode, bind_eq_ok] at h
  obtain ⟨⟨dest, n, ks, t, g, ⟨⟩⟩, hread, h⟩ := h
  obtain ⟨id, hid, h⟩ := bind_eq_ok.1 h
  cases h
  cases readChainId_eq_ok.1 hid
  exact ⟨ks, rfl, hread⟩

theorem asWritten_of_decode (h : decode data = .ok e) :
    e.asWritten = .ok (Hex.lowerText data) := by
  obtain ⟨ks, hkeys, hread⟩ := read_of_decode h
  obtain ⟨⟨-, hh, -, ht, hg, -⟩, hwrite⟩ := of_read hread
  refine asWritten_eq_ok.2 ⟨_, wordArgument_of_isWord hh, ks, ?_, _, wordArgument_of_isWord ht, _,
    wordArgument_of_isWord hg, hwrite⟩
  rw [hkeys]
  exact mapM_bytesArgument_render ks

/-- Any keys and limits that can be asked for are read back, the keys in order and in lower
case, from an envelope that is not beyond every index; and what is read from any text is
written as that text in lower case. -/
theorem get_envelope_exact :
    (∀ (dest : String) (keys : List String) (height timeout gasLimit : Nat),
      (∀ key ∈ keys, Hex.IsByteText key) → height ≤ maxUint64 → timeout ≤ maxUint64 →
      gasLimit ≤ maxUint64 →
      ∃ text, encode dest keys height timeout gasLimit = .ok text ∧
        (IsIndexed text →
          decode text = .ok ⟨dest, height, keys.map Hex.lowerText, timeout, gasLimit⟩)) ∧
    ∀ data e, decode data = .ok e → e.asWritten = .ok (Hex.lowerText data) := by
  refine ⟨fun dest keys height timeout gasLimit hkeys hh ht hg => ?_,
    fun _ _ => asWritten_of_decode⟩
  obtain ⟨ks, hks⟩ := exists_bytesArguments hkeys
  have hencode : encode dest keys height timeout gasLimit = .ok _ :=
    encode_eq_ok.2 ⟨height, ⟨rfl, hh⟩, timeout, ⟨rfl, ht⟩, gasLimit, ⟨rfl, hg⟩, ks, hks, rfl⟩
  refine ⟨_, hencode, fun hsize => ?_⟩
  obtain ⟨ks', hks', hdecode⟩ := decode_of_encode hencode hsize
  rw [hdecode, map_render_of_bytesArguments hks']
  rfl

def mixedFields : Values layout :=
  (Utf8.encode "BEEFY-é", (5 : Nat), [[0xab, 0xcd], []], (2 ^ 64 - 1 : Nat), (0 : Nat), ())

theorem encode_mixed :
    encode "BEEFY-é" ["0xABcd", "0x"] 5 (2 ^ 64 - 1 : Nat) 0 = .ok (write layout mixedFields) := by
  have hkeys : ["0xABcd", "0x"].mapM bytesArgument = .ok [[0xab, 0xcd], []] := rfl
  exact encode_eq_ok.2 ⟨5, ⟨rfl, by decide⟩, 2 ^ 64 - 1, ⟨rfl, by decide⟩, 0, ⟨rfl, by decide⟩,
    _, hkeys, rfl⟩

theorem get_envelope_exact_mixed :
    ∃ text, encode "BEEFY-é" ["0xABcd", "0x"] 5 (2 ^ 64 - 1 : Nat) 0 = .ok text ∧
      decode text = .ok ⟨"BEEFY-é", 5, ["0xabcd", "0x"], 2 ^ 64 - 1, 0⟩ ∧
      asWritten ⟨"BEEFY-é", 5, ["0xabcd", "0x"], 2 ^ 64 - 1, 0⟩ = .ok (Hex.lowerText text) := by
  obtain ⟨hback, hagain⟩ := get_envelope_exact
  obtain ⟨text, hencode, hdecode⟩ := hback "BEEFY-é" ["0xABcd", "0x"] 5 (2 ^ 64 - 1) 0 (by decide)
    (by decide) (by decide) (by decide)
  have htext : write layout mixedFields = text := Except.ok.inj (encode_mixed.symm.trans hencode)
  have hindexed : IsIndexed (write layout mixedFields) := isIndexed_write.2 (by decide +kernel)
  have hread := hdecode (htext ▸ hindexed)
  have hlower : ["0xABcd", "0x"].map Hex.lowerText = ["0xabcd", "0x"] := by decide
  rw [hlower] at hread
  exact ⟨text, hencode, hread, hagain text _ hread⟩

end GetEnvelope

/-! ## Posts -/

namespace PostEnvelope

variable {data text : String} {e : PostEnvelope}

/-- The text that is written for an envelope as it was read: numbers may take a whole word. -/
def asWritten (e : PostEnvelope) : Except Failure String := do
  let m ← bytesArgument e.toModule
  let body ← bytesArgument e.body
  let t ← wordArgument e.timeout
  let g ← wordArgument e.gasLimit
  return write layout (Utf8.encode e.dest, m, body, t, g, ())

theorem asWritten_eq_ok :
    e.asWritten = .ok text ↔
      ∃ m, bytesArgument e.toModule = .ok m ∧ ∃ body, bytesArgument e.body = .ok body ∧
        ∃ t, wordArgument e.timeout = .ok t ∧ ∃ g, wordArgument e.gasLimit = .ok g ∧
          write layout (Utf8.encode e.dest, m, body, t, g, ()) = text := by
  simp only [asWritten, bind_eq_ok, pure_eq_ok]

theorem read_of_decode (h : decode data = .ok e) :
    ∃ m body : Bytes, e.toModule = Hex.render m ∧ e.body = Hex.render body ∧
      read .postEnvelope layout data =
        .ok (Utf8.encode e.dest, m, body, e.timeout, e.gasLimit, ()) := by
  simp only [decode, bind_eq_ok] at h
  obtain ⟨⟨dest, m, body, t, g, ⟨⟩⟩, hread, h⟩ := h
  obtain ⟨id, hid, h⟩ := bind_eq_ok.1 h
  cases h
  cases readChainId_eq_ok.1 hid
  exact ⟨m, body, rfl, rfl, hread⟩

theorem asWritten_of_decode (h : decode data = .ok e) :
    e.asWritten = .ok (Hex.lowerText data) := by
  obtain ⟨m, body, hmodule, hbody, hread⟩ := read_of_decode h
  obtain ⟨⟨-, -, -, ht, hg, -⟩, hwrite⟩ := of_read hread
  rw [asWritten_eq_ok, hmodule, hbody]
  exact ⟨m, bytesArgument_render m, body, bytesArgument_render body, _, wordArgument_of_isWord ht,
    _, wordArgument_of_isWord hg, hwrite⟩

/-- Any module, payload and limits that can be sent are read back, the module in lower case
and the payload as the text that is written for it, from an envelope that is not beyond every
index; and what is read from any text is written as that text in lower case. -/
theorem post_envelope_exact :
    (∀ (dest moduleId recipient sender : String) (a b : Address) (amount timeout gasLimit : Nat),
      Hex.IsByteText moduleId → Address.parse? recipient = some a → Address.parse? sender = some b →
      amount ≤ maxUint256 → timeout ≤ maxUint64 → gasLimit ≤ maxUint64 →
      Payload.ofArguments (addressArgument recipient) (addressArgument sender) amount =
          .ok ⟨a, b, amount⟩ ∧
        ∃ text, encode dest moduleId ⟨a, b, amount⟩ timeout gasLimit = .ok text ∧
          (IsIndexed text → decode text = .ok ⟨dest, Hex.lowerText moduleId,
            Hex.render (Payload.encode ⟨a, b, amount⟩), timeout, gasLimit⟩)) ∧
    ∀ data e, decode data = .ok e → e.asWritten = .ok (Hex.lowerText data) := by
  refine ⟨fun dest moduleId recipient sender a b amount timeout gasLimit hmodule ha hb hn ht hg =>
    ⟨?_, ?_⟩, fun _ _ => asWritten_of_decode⟩
  · simp only [Payload.ofArguments, bind_eq_ok, refuse_eq_ok, ensureRange_eq_ok]
    exact ⟨amount, ⟨rfl, hn⟩, a, addressArgument_eq_ok.2 ha, b, addressArgument_eq_ok.2 hb, rfl⟩
  · obtain ⟨m, hm⟩ := exists_bytesArgument hmodule
    have hencode : encode dest moduleId ⟨a, b, amount⟩ timeout gasLimit = .ok _ :=
      encode_eq_ok.2 ⟨timeout, ⟨rfl, ht⟩, gasLimit, ⟨rfl, hg⟩, m, hm, rfl⟩
    refine ⟨_, hencode, fun hsize => ?_⟩
    obtain ⟨m', hm', hdecode⟩ := decode_of_encode hencode hsize
    rw [hdecode, render_of_bytesArgument hm']
    rfl

def mixedPayload : Payload := ⟨⟨0xdd, by decide⟩, ⟨0xcc, by decide⟩, 3⟩

def mixedFields : Values layout :=
  (Utf8.encode "ETH-BASE", [0xbb], mixedPayload.encode, (0 : Nat), (7 : Nat), ())

theorem encode_mixed :
    encode "ETH-BASE" "0xBB" mixedPayload 0 7 = .ok (write layout mixedFields) :=
  encode_eq_ok.2 ⟨0, ⟨rfl, by decide⟩, 7, ⟨rfl, by decide⟩, [0xbb],
    bytesArgument_eq_ok.2 (by decide), rfl⟩

theorem post_envelope_exact_mixed :
    ∃ text, encode "ETH-BASE" "0xBB" mixedPayload 0 7 = .ok text ∧
      decode text = .ok ⟨"ETH-BASE", "0xbb", Hex.render mixedPayload.encode, 0, 7⟩ ∧
      asWritten ⟨"ETH-BASE", "0xbb", Hex.render mixedPayload.encode, 0, 7⟩ =
        .ok (Hex.lowerText text) := by
  obtain ⟨hback, hagain⟩ := post_envelope_exact
  obtain ⟨-, text, hencode, hdecode⟩ := hback "ETH-BASE" "0xBB"
    "00000000000000000000000000000000000000DD" "0x00000000000000000000000000000000000000cc"
    mixedPayload.recipient mixedPayload.sender 3 0 7 (by decide) (by decide +kernel)
    (by decide +kernel) (by decide) (by decide) (by decide)
  have htext : write layout mixedFields = text := Except.ok.inj (encode_mixed.symm.trans hencode)
  have hindexed : IsIndexed (write layout mixedFields) := isIndexed_write.2 (by decide +kernel)
  have hread := hdecode (htext ▸ hindexed)
  have hlower : Hex.lowerText "0xBB" = "0xbb" := by decide
  rw [hlower] at hread
  exact ⟨text, hencode, hread, hagain text _ hread⟩

end PostEnvelope
end Interchain
