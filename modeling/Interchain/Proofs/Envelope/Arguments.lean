/-
Which arguments can be written to the wire, and what is written for them.

An address beyond 160 bits is an account name but no argument, so the messages of a
module only ever name narrow ones.
-/
import Interchain.Asset.Params
import Interchain.Envelope.Payload
import Interchain.Ledger.Basic
import Interchain.Proofs.Address
import Interchain.Proofs.Bytes.Hex
import Interchain.Proofs.Outcome

namespace Interchain

theorem inRange_eq_ok {ε : Type} {e : ε} {n max : Int} {k : Nat} :
    (if n < 0 ∨ max < n then Except.error e else .ok n.toNat) = .ok k ↔
      n = k ∧ (k : Int) ≤ max := by
  split
  · next h => exact iff_of_false (by simp) (by omega)
  · next h =>
    rw [Except.ok.injEq]
    omega

theorem Ledger.holder_eq_ok {a b : Address} : holder a = .ok b ↔ b = a ∧ a.IsNarrow := by
  rw [holder, ← Address.reread_eq_ok]
  cases a.reread with
  | error f => exact iff_of_false (by simp) (by simp)
  | ok c => rw [Except.ok.injEq, Except.ok.injEq]

theorem Ledger.account_render_of_narrow {a : Address} (h : a.IsNarrow) :
    account a.render = .ok a := by
  rw [account_render]
  exact holder_eq_ok.2 ⟨rfl, h⟩

theorem Ledger.amount_eq_ok {n : Int} {k : Nat} : amount n = .ok k ↔ n = k ∧ k ≤ maxUint256 := by
  rw [amount, inRange_eq_ok, Int.ofNat_le]

namespace Params

theorem address_eq_ok {t field : String} {a : Address} :
    address t field = .ok a ↔ Address.parse? t = some a := by
  rw [address]
  cases Address.parse? t with
  | none => exact ⟨fun e => (nomatch e), fun e => (nomatch e)⟩
  | some b => rw [Except.ok.injEq, Option.some.injEq]

theorem chain_eq_ok {id : String} {c : Chain} : chain id = .ok c ↔ Chain.parse id = .ok c := by
  rw [chain]
  cases Chain.parse id with
  | error f => exact iff_of_false (by simp) (by simp)
  | ok d => rw [Except.ok.injEq, Except.ok.injEq]

theorem uint_eq_ok {n max : Int} {field : String} {k : Nat} :
    uint n max field = .ok k ↔ n = k ∧ (k : Int) ≤ max := by
  exact inRange_eq_ok

end Params

theorem ensureHost_eq_ok {caller : String} {host : Address} :
    ensureHost caller host = .ok () ↔ Address.parse? caller = some host := by
  rw [ensureHost]
  by_cases h : Address.parse? caller = some host
  · exact iff_of_true (if_pos h) h
  · refine iff_of_false (fun e => ?_) h
    rw [if_neg h] at e
    cases e

theorem TransferParams.check_eq_ok {p : TransferParams} {t : Transfer} :
    p.check = .ok t ↔ Address.parse? p.recipient = some t.recipient ∧
      Chain.parse p.dest = .ok t.dest ∧ (p.amount = t.amount ∧ t.amount ≤ maxUint256) ∧
      (p.timeout = t.timeout ∧ t.timeout ≤ maxUint64) ∧
      p.gasLimit = t.gasLimit ∧ t.gasLimit ≤ maxUint64 := by
  simp only [TransferParams.check, bind_eq_ok, pure_eq_ok, Params.address_eq_ok,
    Params.chain_eq_ok, Params.uint_eq_ok, Int.ofNat_le]
  constructor
  · rintro ⟨r, hr, d, hd, n, hn, k, hk, g, hg, rfl⟩
    exact ⟨hr, hd, hn, hk, hg⟩
  · rintro ⟨hr, hd, hn, hk, hg⟩
    exact ⟨_, hr, _, hd, _, hn, _, hk, _, hg, rfl⟩

theorem TransferParams.amount_le_of_check {p : TransferParams} {t : Transfer}
    (h : p.check = .ok t) : t.amount ≤ maxUint256 := by
  obtain ⟨-, -, ⟨-, hamount⟩, -⟩ := check_eq_ok.1 h
  exact hamount

namespace Envelope

theorem rereadArgument_eq_ok {a b : Address} :
    rereadArgument a = .ok b ↔ b = a ∧ a.IsNarrow := by
  rw [rereadArgument, ← Address.reread_eq_ok]
  cases a.reread with
  | error f => exact iff_of_false (by simp) (by simp)
  | ok c => rw [Except.ok.injEq, Except.ok.injEq]

theorem addressArgument_of_isNarrow {a : Address} (h : a.IsNarrow) :
    addressArgument a.render = .ok a := by
  rw [addressArgument_render, rereadArgument_eq_ok.2 ⟨rfl, h⟩]

theorem ensureRange_eq_ok {field : String} {max : Nat} {n : Int} {k : Nat} :
    ensureRange field max n = .ok k ↔ n = k ∧ k ≤ max := by
  rw [ensureRange, inRange_eq_ok, Int.ofNat_le]

theorem bytesArgument_eq_ok {t : String} {b : Bytes} :
    bytesArgument t = .ok b ↔ Hex.parseEitherMark? t = some b := by
  rw [bytesArgument]
  cases Hex.parseEitherMark? t with
  | none => exact iff_of_false (by simp) (by simp)
  | some c => rw [Except.ok.injEq, Option.some.injEq]

theorem render_of_bytesArgument {t : String} {b : Bytes} (h : bytesArgument t = .ok b) :
    Hex.render b = Hex.lowerText t :=
  (Hex.lowerText_of_parseEitherMark? (bytesArgument_eq_ok.1 h)).symm

theorem exists_bytesArgument {t : String} (h : Hex.IsByteText t) :
    ∃ b, bytesArgument t = .ok b := by
  obtain ⟨b, hb⟩ := Hex.isByteText_iff.1 h
  exact ⟨b, bytesArgument_eq_ok.2 (Hex.parseEitherMark?_of_parse? hb)⟩

theorem map_render_of_bytesArguments {ts : List String} {bs : List Bytes}
    (h : ts.mapM bytesArgument = .ok bs) : bs.map Hex.render = ts.map Hex.lowerText := by
  induction ts generalizing bs with
  | nil =>
    cases h
    rfl
  | cons t ts ih =>
    simp only [List.mapM_cons, bind_eq_ok, pure_eq_ok] at h
    obtain ⟨b, hb, bs, hbs, rfl⟩ := h
    rw [List.map_cons, List.map_cons, render_of_bytesArgument hb, ih hbs]

theorem exists_bytesArguments {ts : List String} (h : ∀ t ∈ ts, Hex.IsByteText t) :
    ∃ bs, ts.mapM bytesArgument = .ok bs := by
  induction ts with
  | nil => exact ⟨[], rfl⟩
  | cons t ts ih =>
    obtain ⟨b, hb⟩ := exists_bytesArgument (h t List.mem_cons_self)
    obtain ⟨bs, hbs⟩ := ih (fun u hu => h u (List.mem_cons_of_mem _ hu))
    refine ⟨b :: bs, ?_⟩
    rw [List.mapM_cons, hb, hbs]
    rfl

theorem addressArgument_eq_ok {t : String} {a : Address} :
    addressArgument t = .ok a ↔ Address.parse? t = some a := by
  rw [addressArgument, Address.parse?_eq_some]
  cases Address.parse t with
  | error f => exact iff_of_false (by simp) (by simp)
  | ok b => rw [Except.ok.injEq, Except.ok.injEq]

theorem wordArgument_eq_ok {n : Int} {k : Nat} :
    wordArgument n = .ok k ↔ n = k ∧ k ≤ maxUint256 := by
  rw [wordArgument, inRange_eq_ok, Int.ofNat_le]

theorem bytesArgument_render (b : Bytes) : bytesArgument (Hex.render b) = .ok b := by
  have hread : Hex.parseEitherMark? (Hex.render b) = some b := by
    rw [Hex.parseEitherMark?, Hex.render, String.toList_ofList]
    exact Hex.decode?_encode b
  rw [bytesArgument, hread]

theorem mapM_bytesArgument_render (bs : List Bytes) :
    (bs.map Hex.render).mapM bytesArgument = .ok bs := by
  induction bs with
  | nil => rfl
  | cons b bs ih =>
    rw [List.map_cons, List.mapM_cons, bytesArgument_render, ih]
    rfl

end Envelope

/-- Keys are taken if each of them spells a byte string, and are put in lower case. -/
theorem Params.keysFrom_eq_ok {i : Nat} {ks ks' : List String} :
    keysFrom i ks = .ok ks' ↔ (∀ k ∈ ks, Hex.IsByteText k) ∧ ks.map Hex.lowerText = ks' := by
  induction ks generalizing i ks' with
  | nil =>
    rw [keysFrom, Except.ok.injEq]
    exact (and_iff_right (List.forall_mem_nil _)).symm
  | cons k ks ih =>
    rw [keysFrom, List.forall_mem_cons, Hex.isByteText_iff]
    cases Hex.parse? k with
    | none => exact iff_of_false (by simp) (by simp)
    | some b =>
      have hfirst : ∃ c, some b = some c := ⟨b, rfl⟩
      rw [map_eq_ok, and_iff_right hfirst, List.map_cons]
      constructor
      · rintro ⟨rest, hrest, rfl⟩
        obtain ⟨hks, rfl⟩ := ih.1 hrest
        exact ⟨hks, rfl⟩
      · rintro ⟨hks, rfl⟩
        exact ⟨_, ih.2 ⟨hks, rfl⟩, rfl⟩

theorem GetParams.check_eq_ok {p : GetParams} {q : Query} :
    p.check = .ok q ↔ ((∀ k ∈ p.keys, Hex.IsByteText k) ∧ p.keys.map Hex.lowerText = q.keys) ∧
      Chain.parse p.dest = .ok q.dest ∧ (p.height = q.height ∧ q.height ≤ maxUint64) ∧
      (p.timeout = q.timeout ∧ q.timeout ≤ maxUint64) ∧
      p.gasLimit = q.gasLimit ∧ q.gasLimit ≤ maxUint64 := by
  simp only [GetParams.check, bind_eq_ok, pure_eq_ok, Params.keysFrom_eq_ok, Params.chain_eq_ok,
    Params.uint_eq_ok, Int.ofNat_le]
  constructor
  · rintro ⟨ks, hks, d, hd, n, hn, t, ht, g, hg, rfl⟩
    exact ⟨hks, hd, hn, ht, hg⟩
  · rintro ⟨hks, hd, hn, ht, hg⟩
    exact ⟨_, hks, _, hd, _, hn, _, ht, _, hg, rfl⟩

/-- Keys that were checked are the texts that are written for byte strings. -/
theorem GetParams.keys_of_check {p : GetParams} {q : Query} (h : p.check = .ok q) :
    ∃ bs, q.keys.mapM Envelope.bytesArgument = .ok bs ∧ bs.map Hex.render = q.keys := by
  obtain ⟨⟨hkeys, hlower⟩, -⟩ := check_eq_ok.1 h
  obtain ⟨bs, hbs⟩ := Envelope.exists_bytesArguments hkeys
  have hrender := (Envelope.map_render_of_bytesArguments hbs).trans hlower
  exact ⟨bs, hrender ▸ Envelope.mapM_bytesArgument_render bs, hrender⟩

theorem Payload.ofArguments_eq_ok {a b : Address} {n : Nat} {p : Payload} :
    Payload.ofArguments (Envelope.rereadArgument a) (Envelope.rereadArgument b) n = .ok p ↔
      p = ⟨a, b, n⟩ ∧ a.IsNarrow ∧ b.IsNarrow ∧ n ≤ maxUint256 := by
  simp only [Payload.ofArguments, bind_eq_ok, refuse_eq_ok, Envelope.ensureRange_eq_ok,
    Envelope.rereadArgument_eq_ok]
  constructor
  · rintro ⟨k, ⟨hk, hmax⟩, _, ⟨rfl, ha⟩, _, ⟨rfl, hb⟩, h⟩
    cases h
    cases hk
    exact ⟨rfl, ha, hb, hmax⟩
  · rintro ⟨rfl, ha, hb, hmax⟩
    exact ⟨n, ⟨rfl, hmax⟩, a, ⟨rfl, ha⟩, b, ⟨rfl, hb⟩, rfl⟩

end Interchain
