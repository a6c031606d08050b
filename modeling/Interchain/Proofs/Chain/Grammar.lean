/-
The grammar of chain identifiers.

`Names t c` says in words of the text alone that `t` names the chain `c`.  Reading takes
exactly the texts that name a chain and gives the chain that they name (`parse_eq_ok_iff`), and
rounding a number to a double first does not change what is read (`chain?_of_numeral`).  So an
identifier, its chain and its normal form determine each other (`identifiers_exact`): the normal
form is one of the names of the chain, and the only one that normalizing gives for any of them.
-/
import Interchain.Chain.Description
import Interchain.Proofs.Chain
import Interchain.Proofs.Double
import Interchain.Proofs.Envelope.Arguments

namespace Interchain

/-! ## Numerals -/

namespace Decimal

def IsNumeral (t : String) : Prop := t.toList ≠ [] ∧ ∀ c ∈ t.toList, c.isDigit = true

def value (t : String) : Nat := Nat.ofDigitChars 10 t.toList 0

theorem isNumeral_iff {t : String} : IsNumeral t ↔ isNumeral t = true := by
  simp only [IsNumeral, isNumeral, Bool.and_eq_true, Bool.not_eq_true',
    List.isEmpty_eq_false_iff, List.all_eq_true]

instance (t : String) : Decidable (IsNumeral t) := decidable_of_iff _ isNumeral_iff.symm

theorem parse?_eq_some_iff {t : String} {n : Nat} :
    parse? t = some n ↔ IsNumeral t ∧ value t = n := by
  rw [parse?, isNumeral_iff]
  split
  · next h => exact ⟨fun e => ⟨h, Option.some.inj e⟩, fun e => congrArg some e.2⟩
  · next h => exact iff_of_false (by simp) (fun e => h e.1)

theorem isNumeral_toString (n : Nat) : IsNumeral (toString n) :=
  (parse?_eq_some_iff.1 (parse?_repr n)).1

theorem value_toString (n : Nat) : value (toString n) = n :=
  (parse?_eq_some_iff.1 (parse?_repr n)).2

def zeros (k : Nat) (t : String) : String := String.ofList (List.replicate k '0' ++ t.toList)

theorem isNumeral_zeros (k : Nat) {t : String} (h : IsNumeral t) : IsNumeral (zeros k t) := by
  rw [IsNumeral, zeros, String.toList_ofList]
  refine ⟨List.append_ne_nil_of_right_ne_nil _ h.1, fun c hc => ?_⟩
  rcases List.mem_append.1 hc with hc | hc
  · rw [(List.mem_replicate.1 hc).2]
    rfl
  · exact h.2 c hc

theorem value_zeros (k : Nat) (t : String) : value (zeros k t) = value t := by
  rw [value, zeros, String.toList_ofList, value]
  induction k with
  | zero => rfl
  | succ k ih => exact ih

end Decimal

/-! ## Identifiers -/

namespace Chain

/-- The texts that name a chain. -/
inductive Names : String → Chain → Prop
  | polygon : Names "POLY" .polygon
  | bsc : Names "BSC" .bsc
  | ethereum (l : EthereumLayer) : Names ("ETH" ++ "-" ++ l.name) (.ethereum l)
  | parachain (r : RelayChain) {t : String} (h : Decimal.IsNumeral t)
      (hfits : Decimal.value t ≤ 2 ^ 32 - 1) :
      Names (r.name ++ "-" ++ t) (.parachain r (Decimal.value t))
  | consensus (p : ConsensusProtocol) {t : String} (h : t ≠ "") :
      Names (p.name ++ "-" ++ t) (.consensus p t)

theorem toList_eq_nil_iff {t : String} : t.toList = [] ↔ t = "" := by
  rw [← String.toList_inj]
  exact Iff.rfl

theorem eq_of_split? {t family rest : String} (h : split? t = some (family, rest)) :
    t = family ++ "-" ++ rest := by
  rw [split?] at h
  split at h
  · cases h
  · next c cs hdrop =>
    cases h
    -- what stops the scan is the hyphen
    have hc : c = '-' := by
      have hhead := List.head?_dropWhile_not (fun x => decide (x ≠ '-')) t.toList
      rw [hdrop] at hhead
      simpa using hhead
    have hwhole := List.takeWhile_append_dropWhile (p := fun x => decide (x ≠ '-')) (l := t.toList)
    rw [hdrop, hc] at hwhole
    rw [← String.toList_inj]
    simp only [String.toList_append, String.toList_ofList, List.append_assoc]
    exact hwhole.symm

theorem parachain?_eq_ok_iff {r : RelayChain} {t : String} {c : Chain} :
    parachain? r t = .ok c ↔
      (Decimal.IsNumeral t ∧ Decimal.value t ≤ 2 ^ 32 - 1) ∧
        c = .parachain r (Decimal.value t) := by
  rw [parachain?]
  cases h : Decimal.parse? t with
  | none =>
    refine iff_of_false (by simp) (fun e => ?_)
    cases h.symm.trans (Decimal.parse?_eq_some_iff.2 ⟨e.1.1, rfl⟩)
  | some n =>
    obtain ⟨hnumeral, rfl⟩ := Decimal.parse?_eq_some_iff.1 h
    show (if maxParaId < Decimal.value t then _ else _) = _ ↔ _
    split
    · next hlt => exact iff_of_false (by simp) (fun e => Nat.not_lt.2 e.1.2 hlt)
    · next hle =>
      rw [Except.ok.injEq]
      exact ⟨fun e => ⟨⟨hnumeral, Nat.le_of_not_lt hle⟩, e.symm⟩, fun e => e.2.symm⟩

theorem name_injective {l l' : EthereumLayer} (h : l.name = l'.name) : l = l' := by
  have key : ∀ l l' : EthereumLayer, l.name = l'.name → l = l' := by
    intro l l'
    cases l <;> cases l' <;> decide
  exact key l l' h

theorem ethereum?_eq_ok_iff {t : String} {c : Chain} :
    ethereum? t = .ok c ↔ ∃ l : EthereumLayer, t = l.name ∧ c = .ethereum l := by
  rw [ethereum?]
  cases h : EthereumLayer.ofName? t with
  | none =>
    refine iff_of_false (by simp) ?_
    rintro ⟨l, rfl, -⟩
    cases l <;> cases h
  | some l =>
    rw [EthereumLayer.ofName?] at h
    have hbeq := List.find?_some h
    have hname : l.name = t := eq_of_beq hbeq
    rw [Except.ok.injEq]
    constructor
    · rintro rfl
      exact ⟨l, hname.symm, rfl⟩
    · rintro ⟨l', hl', rfl⟩
      rw [name_injective (hname.trans hl')]

theorem consensus?_eq_ok_iff {p : ConsensusProtocol} {t : String} {c : Chain} :
    consensus? p t = .ok c ↔ t ≠ "" ∧ c = .consensus p t := by
  rw [consensus?]
  split
  · next h =>
    exact iff_of_false (by simp) (fun e => e.1 (toList_eq_nil_iff.1 (List.isEmpty_iff.1 h)))
  · next h =>
    have hne : t ≠ "" := fun e => h (List.isEmpty_iff.2 (toList_eq_nil_iff.2 e))
    rw [Except.ok.injEq]
    exact ⟨fun e => ⟨hne, e.symm⟩, fun e => e.2.symm⟩

theorem names_of_parse {t : String} {c : Chain} (h : parse t = .ok c) : Names t c := by
  rw [parse] at h
  split at h
  · next ht =>
    cases h
    rw [ht]
    exact .polygon
  split at h
  · next ht =>
    cases h
    rw [ht]
    exact .bsc
  split at h
  · cases h
  next family rest hsplit =>
  rw [eq_of_split? hsplit]
  -- one case for each family of identifiers
  split at h
  · next hfamily =>
    obtain ⟨⟨hnumeral, hfits⟩, rfl⟩ := parachain?_eq_ok_iff.1 h
    rw [hfamily]
    exact .parachain .polkadot hnumeral hfits
  split at h
  · next hfamily =>
    obtain ⟨⟨hnumeral, hfits⟩, rfl⟩ := parachain?_eq_ok_iff.1 h
    rw [hfamily]
    exact .parachain .kusama hnumeral hfits
  split at h
  · next hfamily =>
    obtain ⟨l, rfl, rfl⟩ := ethereum?_eq_ok_iff.1 h
    rw [hfamily]
    exact .ethereum l
  split at h
  · next hfamily =>
    obtain ⟨hrest, rfl⟩ := consensus?_eq_ok_iff.1 h
    rw [hfamily]
    exact .consensus .grandpa hrest
  split at h
  · next hfamily =>
    obtain ⟨hrest, rfl⟩ := consensus?_eq_ok_iff.1 h
    rw [hfamily]
    exact .consensus .beefy hrest
  · cases h

theorem parse_parachain (r : RelayChain) (t : String) :
    parse (r.name ++ "-" ++ t) = parachain? r t := by
  cases r with
  | polkadot => exact parse_hyphen (by decide) _
  | kusama => exact parse_hyphen (by decide) _

theorem parse_of_names {t : String} {c : Chain} (h : Names t c) : parse t = .ok c := by
  cases h with
  | polygon => rfl
  | bsc => rfl
  | ethereum l => exact (parse_hyphen (by decide) _).trans (ethereum?_eq_ok_iff.2 ⟨l, rfl, rfl⟩)
  | parachain r h hfits =>
    exact (parse_parachain r _).trans (parachain?_eq_ok_iff.2 ⟨⟨h, hfits⟩, rfl⟩)
  | consensus p h =>
    have hrest (protocol : ConsensusProtocol) := (consensus?_eq_ok_iff (p := protocol)).2 ⟨h, rfl⟩
    cases p with
    | grandpa => exact (parse_hyphen (by decide) _).trans (hrest _)
    | beefy => exact (parse_hyphen (by decide) _).trans (hrest _)

/-- Reading takes exactly the texts that name a chain. -/
theorem parse_eq_ok_iff {t : String} {c : Chain} : parse t = .ok c ↔ Names t c :=
  ⟨names_of_parse, parse_of_names⟩

/-! ## Normal forms -/

theorem chain_eq_ok_iff {t : String} {c : Chain} : Params.chain t = .ok c ↔ Names t c :=
  Params.chain_eq_ok.trans parse_eq_ok_iff

theorem code_of_chain {t : String} {cause : Cause} (h : Params.chain t = .error cause) :
    cause.code = .validationFailed := by
  rw [Params.chain] at h
  split at h
  · cases h
    rfl
  · cases h

theorem Names.id {t : String} {c : Chain} (h : Names t c) : Names c.id c :=
  parse_eq_ok_iff.1 (parse_id (isNamed_of_parse (parse_eq_ok_iff.2 h)))

theorem Names.unique {t : String} {c c' : Chain} (h : Names t c) (h' : Names t c') : c = c' :=
  Except.ok.inj ((parse_eq_ok_iff.2 h).symm.trans (parse_eq_ok_iff.2 h'))

theorem Names.normalChain {t : String} {c : Chain} (h : Names t c) :
    Params.normalChain t = .ok c.id := by
  rw [Params.normalChain, chain_eq_ok_iff.2 h]
  rfl

theorem Names.eq_of_id {t t' : String} {c c' : Chain} (h : Names t c) (h' : Names t' c')
    (hid : c.id = c'.id) : c = c' := by
  have hname := h.id
  rw [hid] at hname
  exact hname.unique h'.id

/-- Leading zeros are nothing to the chain that a numeral names. -/
theorem names_zeros (r : RelayChain) (k : Nat) {n : Nat} (h : n ≤ 2 ^ 32 - 1) :
    Names (r.name ++ "-" ++ Decimal.zeros k (toString n)) (.parachain r n) := by
  have hvalue : Decimal.value (Decimal.zeros k (toString n)) = n := by
    rw [Decimal.value_zeros, Decimal.value_toString]
  have hnumeral := Decimal.isNumeral_zeros k (Decimal.isNumeral_toString n)
  have hnames := Names.parachain r hnumeral (Nat.le_trans (Nat.le_of_eq hvalue) h)
  rwa [hvalue] at hnames

/-! ## Numbers read as doubles -/

theorem toOption_chain (t : String) : (Params.chain t).toOption = (parse t).toOption := by
  rw [Params.chain]
  cases parse t with
  | error f => rfl
  | ok c => rfl

/-- A number that is in range after rounding was in range before, and was not rounded. -/
theorem chain?_ofDecimal (r : RelayChain) (n : Nat) :
    (ChainDescription.parachain r (Double.ofDecimal false n 0)).chain? =
      if n ≤ maxParaId then some (.parachain r n) else none := by
  have hexact {m : Nat} (hm : m ≤ maxParaId) :
      Double.toNat? (Double.ofDecimal false n 0) = some m ↔ n = m :=
    Double.toNat?_ofDecimal (Nat.lt_of_le_of_lt hm (by decide))
  rw [ChainDescription.chain?]
  by_cases hn : n ≤ maxParaId
  · rw [(hexact hn).2 rfl, if_pos hn]
    exact if_pos hn
  · rw [if_neg hn]
    split
    · next m hm =>
      refine if_neg (fun hle => hn ?_)
      rw [(hexact hle).1 hm]
      exact hle
    · rfl

/-- So the number of a parachain may be read as a double. -/
theorem chain?_of_numeral (r : RelayChain) {t : String} (h : Decimal.IsNumeral t) :
    (ChainDescription.parachain r (Double.ofDecimal false (Decimal.value t) 0)).chain? =
      (Params.chain (r.name ++ "-" ++ t)).toOption := by
  rw [chain?_ofDecimal, toOption_chain, parse_parachain, parachain?,
    Decimal.parse?_eq_some_iff.2 ⟨h, rfl⟩]
  by_cases hn : Decimal.value t ≤ maxParaId
  · simp only [if_pos hn, if_neg (Nat.not_lt.2 hn)]
    rfl
  · simp only [if_neg hn, if_pos (Nat.lt_of_not_le hn)]
    rfl

/-- A text is read exactly if it names a chain, as the chain that it names, and all other texts
are refused as invalid.  To read the number of a parachain as a double comes to the same.  What
is written for a chain that has a name is read as that chain.  The normal form of a text is a
name of the same chain and is its own normal form, so that two texts have one normal form exactly
if they name one chain. -/
theorem identifiers_exact :
    (∀ t c, Params.chain t = .ok c ↔ Names t c) ∧
    (∀ t cause, Params.chain t = .error cause → cause.code = .validationFailed) ∧
    (∀ (r : RelayChain) (k n : Nat), n ≤ 2 ^ 32 - 1 →
      Params.chain (r.name ++ "-" ++ Decimal.zeros k (toString n)) = .ok (.parachain r n)) ∧
    (∀ (r : RelayChain) (t : String), Decimal.IsNumeral t →
      (ChainDescription.parachain r (Double.ofDecimal false (Decimal.value t) 0)).chain? =
        (Params.chain (r.name ++ "-" ++ t)).toOption) ∧
    (∀ c, (∃ t, Names t c) → Params.chain c.id = .ok c) ∧
    (∀ t c, Params.chain t = .ok c →
      ∃ t', Params.normalChain t = .ok t' ∧ Params.chain t' = .ok c ∧
        Params.normalChain t' = .ok t') ∧
    (∀ t t' c c', Params.chain t = .ok c → Params.chain t' = .ok c' →
      (Params.normalChain t = Params.normalChain t' ↔ c = c')) := by
  refine ⟨fun t c => chain_eq_ok_iff, fun t cause => code_of_chain,
    fun r k n h => chain_eq_ok_iff.2 (names_zeros r k h), fun r t => chain?_of_numeral r,
    ?_, ?_, ?_⟩
  · rintro c ⟨t, h⟩
    exact chain_eq_ok_iff.2 h.id
  · intro t c h
    have hname := chain_eq_ok_iff.1 h
    exact ⟨c.id, hname.normalChain, chain_eq_ok_iff.2 hname.id, hname.id.normalChain⟩
  · intro t t' c c' h h'
    have hname := chain_eq_ok_iff.1 h
    have hname' := chain_eq_ok_iff.1 h'
    rw [hname.normalChain, hname'.normalChain, Except.ok.injEq]
    constructor
    · intro hid
      exact hname.eq_of_id hname' hid
    · rintro rfl
      rfl

/-- A number with leading zeros, and a free text that holds a hyphen. -/
theorem identifiers_exact_spelled :
    Params.chain "POLKADOT-0100" = .ok (.parachain .polkadot 100) ∧
      (ChainDescription.parachain .polkadot (Double.ofDecimal false 100 0)).chain? =
        some (.parachain .polkadot 100) ∧
      Params.chain "BEEFY-xy-z" = .ok (.consensus .beefy "xy-z") ∧
      Params.normalChain "POLKADOT-0100" = Params.normalChain "POLKADOT-100" ∧
      Params.normalChain "POLKADOT-0100" ≠ Params.normalChain "BEEFY-xy-z" := by
  obtain ⟨hexact, -, hzeros, hdouble, hid, -, hnormal⟩ := identifiers_exact
  have hpadded : Params.chain "POLKADOT-0100" = .ok (.parachain .polkadot 100) :=
    hzeros .polkadot 1 100 (by decide)
  have hplain := hid _ ⟨_, (hexact _ _).1 hpadded⟩
  have hread := (hdouble .polkadot "0100" (by decide)).trans (congrArg Except.toOption hpadded)
  have hfree := (hexact _ _).2 (.consensus .beefy (t := "xy-z") (by decide))
  refine ⟨hpadded, hread, hfree, (hnormal _ _ _ _ hpadded hplain).2 rfl, ?_⟩
  exact fun h => absurd ((hnormal _ _ _ _ hpadded hfree).1 h) (by decide)

end Chain
end Interchain
