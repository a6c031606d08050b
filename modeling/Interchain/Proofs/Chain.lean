/-
The identifier of a chain names that chain.

Several texts may name one chain, but `id` writes the one that stands for it, and
`parse_id` says that it is read as the chain again.  With it a chain is found by the
identifier that its module, its lane and its requests carry.
-/
import Interchain.Chain

namespace Interchain
namespace Chain

theorem takeWhile_hyphen {family : List Char} (h : '-' ∉ family) (rest : List Char) :
    (family ++ '-' :: rest).takeWhile (· ≠ '-') = family ∧
      (family ++ '-' :: rest).dropWhile (· ≠ '-') = '-' :: rest := by
  induction family with
  | nil => exact ⟨rfl, rfl⟩
  | cons c cs ih =>
    rw [List.mem_cons, not_or] at h
    have hc : decide (c ≠ '-') = true := decide_eq_true (fun e => h.1 e.symm)
    obtain ⟨htake, hdrop⟩ := ih h.2
    rw [List.cons_append]
    constructor
    · rw [List.takeWhile_cons, if_pos hc, htake]
    · rw [List.dropWhile_cons, if_pos hc, hdrop]

theorem split?_hyphen {family : String} (h : '-' ∉ family.toList) (rest : String) :
    split? (family ++ "-" ++ rest) = some (family, rest) := by
  have hlist : (family ++ "-" ++ rest).toList = family.toList ++ '-' :: rest.toList := by
    rw [String.toList_append, String.toList_append, List.append_assoc]
    rfl
  obtain ⟨htake, hdrop⟩ := takeWhile_hyphen h rest.toList
  rw [split?, hlist]
  simp only [hdrop, htake, String.ofList_toList]

theorem hyphen_mem (family rest : String) : '-' ∈ (family ++ "-" ++ rest).toList := by
  rw [String.toList_append, String.toList_append]
  exact List.mem_append_left _ (List.mem_append_right _ List.mem_cons_self)

/-- An identifier with a hyphen is read by what stands before the hyphen. -/
theorem parse_hyphen {family : String} (h : '-' ∉ family.toList) (rest : String) :
    parse (family ++ "-" ++ rest) =
      if family = "POLKADOT" then parachain? .polkadot rest
      else if family = "KUSAMA" then parachain? .kusama rest
      else if family = "ETH" then ethereum? rest
      else if family = "GRANDPA" then consensus? .grandpa rest
      else if family = "BEEFY" then consensus? .beefy rest
      else .error .unknown := by
  have hmem := hyphen_mem family rest
  have hpoly : family ++ "-" ++ rest ≠ "POLY" := by
    intro e
    rw [e] at hmem
    exact absurd hmem (by decide)
  have hbsc : family ++ "-" ++ rest ≠ "BSC" := by
    intro e
    rw [e] at hmem
    exact absurd hmem (by decide)
  rw [parse, if_neg hpoly, if_neg hbsc, split?_hyphen h]

theorem toList_id_ne_nil (c : Chain) : c.id.toList ≠ [] := by
  cases c with
  | parachain r n => exact List.ne_nil_of_mem (hyphen_mem r.name (toString n))
  | consensus p t => exact List.ne_nil_of_mem (hyphen_mem p.name t)
  | ethereum l => exact List.ne_nil_of_mem (hyphen_mem "ETH" l.name)
  | polygon => decide
  | bsc => decide

def IsNamed : Chain → Prop
  | .parachain _ n => n ≤ maxParaId
  | .consensus _ t => t.toList ≠ []
  | .ethereum _ | .polygon | .bsc => True

theorem isNamed_of_parachain? {relay : RelayChain} {t : String} {c : Chain}
    (h : parachain? relay t = .ok c) : c.IsNamed := by
  rw [parachain?] at h
  split at h
  · cases h
  · split at h
    · cases h
    · next hle =>
      cases h
      exact Nat.le_of_not_lt hle

theorem isNamed_of_ethereum? {t : String} {c : Chain} (h : ethereum? t = .ok c) : c.IsNamed := by
  rw [ethereum?] at h
  split at h
  · cases h
  · cases h
    trivial

theorem isNamed_of_consensus? {protocol : ConsensusProtocol} {t : String} {c : Chain}
    (h : consensus? protocol t = .ok c) : c.IsNamed := by
  rw [consensus?] at h
  split at h
  · cases h
  · next hne =>
    cases h
    exact fun e => hne (List.isEmpty_iff.2 e)

theorem isNamed_of_parse {t : String} {c : Chain} (h : parse t = .ok c) : c.IsNamed := by
  rw [parse] at h
  split at h
  · cases h
    trivial
  split at h
  · cases h
    trivial
  split at h
  · cases h
  -- one case for each family of identifiers
  split at h
  · exact isNamed_of_parachain? h
  split at h
  · exact isNamed_of_parachain? h
  split at h
  · exact isNamed_of_ethereum? h
  split at h
  · exact isNamed_of_consensus? h
  split at h
  · exact isNamed_of_consensus? h
  · cases h

theorem parse_id {c : Chain} (h : c.IsNamed) : parse c.id = .ok c := by
  cases c with
  | polygon => rfl
  | bsc => rfl
  | ethereum l =>
    cases l with
    | execution => rfl
    | arbitrum => rfl
    | optimism => rfl
    | base => rfl
  | parachain r n =>
    have hrest : ∀ relay : RelayChain,
        parachain? relay (toString n) = .ok (.parachain relay n) := by
      intro relay
      have hparse : Decimal.parse? (toString n) = some n := Decimal.parse?_repr n
      rw [parachain?, hparse]
      exact if_neg (Nat.not_lt.2 h)
    cases r with
    | polkadot => exact (parse_hyphen (by decide) _).trans (hrest _)
    | kusama => exact (parse_hyphen (by decide) _).trans (hrest _)
  | consensus p t =>
    have hrest : ∀ protocol : ConsensusProtocol,
        consensus? protocol t = .ok (.consensus protocol t) := by
      intro protocol
      exact if_neg (fun e => h (List.isEmpty_iff.1 e))
    cases p with
    | grandpa => exact (parse_hyphen (by decide) _).trans (hrest _)
    | beefy => exact (parse_hyphen (by decide) _).trans (hrest _)

end Chain
end Interchain
