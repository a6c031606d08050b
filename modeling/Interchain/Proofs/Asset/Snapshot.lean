/-
Modules come back as they were stored.

From an empty ledger on a module credits and debits only accounts whose text can be read,
so its ledger is restorable at the end of any run (`Continues.run`).  The snapshot of such
a module is accepted, breaks no rule for stored documents, and restores the ledger as it
is (`save_run`).

A snapshot is stored under the names that a module gives its chain and itself, and looked
up under the names that the caller writes, the one that was taken last.  Other spellings of
the same names find nothing, and such spellings are taken when a module is configured.  So
what a module has stored is found under its configuration exactly if that is spelled as the
module spells it (`restoreLatest_run`).
-/
import Mathlib.Data.List.Induction
import Interchain.Proofs.Asset.Replay
import Interchain.Proofs.Chain
import Interchain.Proofs.Ledger.Restore

namespace Interchain

/-! ## Snapshots of modules -/

namespace AssetModule

def snapshot (m : AssetModule) (now : Timestamp) : Snapshot :=
  ⟨m.chain.id, m.address.render, .ofState m.ledger.toState, now⟩

def save (m : AssetModule) (archive : Archive) (now : Timestamp) :
    Except Cause (Snapshot × Archive) :=
  archive.save m.chain.id m.address.render m.ledger.toState now

variable {m m₀ : AssetModule} {archive : Archive}

theorem save_restorable (h : m.ledger.IsRestorable) (archive : Archive) (now : Timestamp) :
    m.save archive now = .ok (m.snapshot now, archive ++ [m.snapshot now]) :=
  bind_eq_ok.2 ⟨_, Ledger.ofState_toState h, rfl⟩

theorem breaches_snapshot (m : AssetModule) (now : Timestamp) :
    (SnapshotDocument.ofSnapshot (m.snapshot now)).breaches = [] :=
  SnapshotDocument.breaches_ofSnapshot m.ledger now m.chain.toList_id_ne_nil
    m.address.toList_render_ne_nil

/-- The module `m₀` in use: it is the same on the same chain, and its ledger is restorable. -/
structure Continues (m₀ m : AssetModule) : Prop where
  chain : m.chain = m₀.chain
  address : m.address = m₀.address
  restorable : m.ledger.IsRestorable

theorem continues_self (h : m.ledger.IsRestorable) : Continues m m := ⟨rfl, rfl, h⟩

end AssetModule

namespace Site

open AssetModule

variable {σ : Type} {g : Gateway σ} {m m₀ : AssetModule} {st st' : σ} {c : ModuleCall}
  {l : Ledger} {body : EventBody}

/-- What a commit credits or debits is an account with a place on the wire. -/
theorem Commit.isRestorable (h : Commit g m st c l body st') (hm : m.ledger.IsRestorable) :
    l.IsRestorable := by
  cases h with
  | transfer _ _ hsender _ hmove _ _ => exact hm.lower hsender hmove
  | mint _ _ _ hnarrow hmove => exact hm.raise hnarrow hmove
  | onAccept _ hdecode hmove _ => exact hm.raise (Payload.fits_of_decode hdecode).recipient hmove
  | onPostTimeout _ hdecode hmove => exact hm.raise (Payload.fits_of_decode hdecode).sender hmove
  | dispatchGet | onPostResponse | onGetResponse | onGetTimeout => exact hm

theorem isRestorable_call (g : Gateway σ) (now : Timestamp) (c : ModuleCall) {site : Site σ}
    (h : site.assets.ledger.IsRestorable) : (site.call g now c).2.assets.ledger.IsRestorable := by
  rcases hcall : site.call g now c with ⟨_ | _, site'⟩
  · rw [(call_error hcall).1]
    exact h
  · obtain ⟨l, body, hcommit, hassets⟩ := call_ok hcall
    rw [hassets]
    exact hcommit.isRestorable h

theorem History.continues_act {h : History σ} (hm : Continues m₀ h.site.assets) (g : Gateway σ)
    (a : Action σ) : Continues m₀ (h.act g a).site.assets := by
  cases a with
  | call now c =>
    obtain ⟨⟨l, es, hassets⟩, -⟩ := call_frame g now c h.site
    have hchain : (h.site.call g now c).2.assets.chain = h.site.assets.chain := by rw [hassets]
    have haddress : (h.site.call g now c).2.assets.address = h.site.assets.address := by
      rw [hassets]
    exact ⟨hchain.trans hm.chain, haddress.trans hm.address,
      isRestorable_call g now c hm.restorable⟩
  | drain | discard => exact ⟨hm.chain, hm.address, hm.restorable⟩
  | reconfigure change => exact hm

theorem History.continues_run {h : History σ} (hm : Continues m₀ h.site.assets) (g : Gateway σ)
    (actions : List (Action σ)) : Continues m₀ (h.run g actions).site.assets := by
  induction actions generalizing h with
  | nil => exact hm
  | cons a actions ih => exact ih (continues_act hm g a)

/-- However a module is used from an empty ledger on, and whatever its gateway does, its
ledger is accepted for storage, the document that is stored breaks no rule, and reading it
restores the ledger: supply, balances and the order of accounts. -/
theorem save_run (g : Gateway σ) (chain : Chain) (host address : Address) (st : σ)
    (metrics : Metrics) (actions : List (Action σ)) (archive : Archive) (now : Timestamp) :
    let start : Site σ := ⟨⟨chain, host, address, .empty, []⟩, st, metrics⟩
    let m := (History.run g ⟨start, []⟩ actions).site.assets
    m.save archive now = .ok (m.snapshot now, archive ++ [m.snapshot now]) ∧
      (SnapshotDocument.ofSnapshot (m.snapshot now)).breaches = [] ∧
      ∃ s, (m.snapshot now).fields.toState = .ok s ∧ Ledger.ofState s = .ok m.ledger := by
  intro start m
  have hm : Continues start.assets m :=
    History.continues_run (h := ⟨start, []⟩) (continues_self Ledger.isRestorable_empty) g actions
  refine ⟨save_restorable hm.restorable archive now, breaches_snapshot m now, m.ledger.toState,
    ?_, ?_⟩
  · exact SnapshotFields.toState_ofState m.ledger
  · exact Ledger.ofState_toState hm.restorable

end Site

/-! ## Looking a snapshot up -/

namespace Archive

variable {m : AssetModule} {archive : Archive} {s t : Snapshot} {now : Timestamp}
  {stateMachine moduleAddress : String}

/-- What modules have stored, one after another, at whatever times. -/
inductive Kept : Archive → Prop
  | empty : Kept []
  | save {archive saved : Archive} {m : AssetModule} {snapshot : Snapshot} {now : Timestamp}
      (h : Kept archive) (hnamed : m.chain.IsNamed)
      (hsave : m.save archive now = .ok (snapshot, saved)) : Kept saved

theorem latest?_concat (archive : Archive) (s : Snapshot) (stateMachine moduleAddress : String) :
    (archive ++ [s]).latest? stateMachine moduleAddress =
      if s.IsOf stateMachine moduleAddress then
        some (later (archive.latest? stateMachine moduleAddress) s)
      else archive.latest? stateMachine moduleAddress := by
  rw [latest?, List.filter_append, List.foldl_append, List.filter_singleton]
  by_cases h : s.IsOf stateMachine moduleAddress
  · rw [if_pos h, decide_eq_true h]
    rfl
  · rw [if_neg h, decide_eq_false h]
    rfl

theorem later_eq (s : Option Snapshot) (t : Snapshot) : later s t = t ∨ s = some (later s t) := by
  cases s with
  | none => exact Or.inl rfl
  | some s =>
    rw [later]
    split
    · exact Or.inr rfl
    · exact Or.inl rfl

theorem isOf_of_latest? (h : archive.latest? stateMachine moduleAddress = some t) :
    t ∈ archive ∧ t.IsOf stateMachine moduleAddress := by
  induction archive using List.reverseRecOn with
  | nil => cases h
  | append_singleton archive s ih =>
    rw [latest?_concat] at h
    split at h
    · next hs =>
      obtain hlater | hlater := later_eq (latest? archive stateMachine moduleAddress) s
      · rw [hlater, Option.some.injEq] at h
        subst h
        exact ⟨List.mem_concat_self, hs⟩
      · obtain ⟨hmem, ht⟩ := ih (hlater.trans h)
        exact ⟨List.mem_append_left _ hmem, ht⟩
    · obtain ⟨hmem, ht⟩ := ih h
      exact ⟨List.mem_append_left _ hmem, ht⟩

theorem latest?_of_newest (hs : s.IsOf stateMachine moduleAddress)
    (hnewest : ∀ t ∈ archive, t.IsOf stateMachine moduleAddress →
      t.takenAt.milliseconds < s.takenAt.milliseconds) :
    (archive ++ [s]).latest? stateMachine moduleAddress = some s := by
  rw [latest?_concat, if_pos hs]
  cases h : archive.latest? stateMachine moduleAddress with
  | none => rfl
  | some t =>
    obtain ⟨hmem, ht⟩ := isOf_of_latest? h
    rw [later, if_neg (Int.not_lt.2 (Int.le_of_lt (hnewest t hmem ht)))]

theorem snapshot_of_save {saved : Archive} {snapshot : Snapshot}
    (h : m.save archive now = .ok (snapshot, saved)) : saved = archive ++ [m.snapshot now] := by
  obtain ⟨_, -, h⟩ := bind_eq_ok.1 h
  cases h
  rfl

/-- Nothing that modules have stored is found under a spelling that they do not use. -/
theorem Kept.latest?_eq_none (h : Kept archive) {chain : Chain} {address : Address}
    (hchain : Chain.parse stateMachine = .ok chain)
    (haddress : Address.parse? moduleAddress = some address)
    (hspelled : ¬ (stateMachine = chain.id ∧ moduleAddress = address.render)) :
    archive.latest? stateMachine moduleAddress = none := by
  induction h with
  | empty => rfl
  | @save archive saved m snapshot now h hnamed hsave ih =>
    rw [snapshot_of_save hsave, latest?_concat, ih]
    refine if_neg (fun hfound => hspelled ?_)
    obtain ⟨hm, ha⟩ := hfound
    have hm : m.chain.id = stateMachine := hm
    have ha : m.address.render = moduleAddress := ha
    rw [← hm, Chain.parse_id hnamed, Except.ok.injEq] at hchain
    rw [← ha, Address.parse?_render_eq_some] at haddress
    exact ⟨by rw [← hm, hchain], by rw [← ha, haddress.1]⟩

/-- A module that was stored after all snapshots under its names is restored under them. -/
theorem restoreLatest_own (h : m.ledger.IsRestorable)
    (hnewest : ∀ t ∈ archive, t.IsOf m.chain.id m.address.render →
      t.takenAt.milliseconds < now.milliseconds) :
    (archive ++ [m.snapshot now]).restoreLatest m.chain.id m.address.render =
      .ok (some m.ledger) := by
  have hown : (m.snapshot now).IsOf m.chain.id m.address.render := ⟨rfl, rfl⟩
  rw [restoreLatest, latest?_of_newest hown hnewest]
  exact bind_eq_ok.2 ⟨_, SnapshotFields.toState_ofState m.ledger,
    bind_eq_ok.2 ⟨_, Ledger.ofState_toState h, rfl⟩⟩

theorem restoreLatest_other (hnames : ¬ (stateMachine = m.chain.id ∧
    moduleAddress = m.address.render)) (archive : Archive) (now : Timestamp) :
    (archive ++ [m.snapshot now]).restoreLatest stateMachine moduleAddress =
      archive.restoreLatest stateMachine moduleAddress := by
  rw [restoreLatest, latest?_concat, if_neg (fun h => hnames ⟨h.1.symm, h.2.symm⟩)]
  rfl

/-- However a module is used from an empty ledger on, what it stores is restored under the
names that it stores it under, if all that was stored under them before was taken earlier.  Under
the names of its configuration it is then restored if these are spelled the same.  If not,
storing changes nothing under them, and if only modules have stored anything there is nothing to
restore, whatever the times. -/
theorem restoreLatest_run {σ : Type} (g : Gateway σ) {c : ModuleConfig} {m₀ : AssetModule}
    (hconfig : AssetModule.ofConfig c .empty = .ok m₀) (st : σ) (metrics : Metrics)
    (actions : List (Site.Action σ)) (archive : Archive) (now : Timestamp) :
    let m := (Site.History.run g ⟨⟨m₀, st, metrics⟩, []⟩ actions).site.assets
    let spelled := c.stateMachine = m.chain.id ∧ c.moduleAddress = m.address.render
    let newest := ∀ s ∈ archive, s.IsOf m.chain.id m.address.render →
      s.takenAt.milliseconds < now.milliseconds
    ∃ saved, m.save archive now = .ok (m.snapshot now, saved) ∧
      (newest → saved.restoreLatest m.chain.id m.address.render = .ok (some m.ledger)) ∧
      (newest → spelled →
        saved.restoreLatest c.stateMachine c.moduleAddress = .ok (some m.ledger)) ∧
      (¬ spelled →
        saved.restoreLatest c.stateMachine c.moduleAddress =
          archive.restoreLatest c.stateMachine c.moduleAddress ∧
        (archive.Kept → saved.restoreLatest c.stateMachine c.moduleAddress = .ok none)) := by
  intro m spelled newest
  obtain ⟨hchain, -, haddress, hempty, -⟩ := AssetModule.ofConfig_eq_ok.1 hconfig
  have hm : AssetModule.Continues m₀ m :=
    Site.History.continues_run (h := ⟨⟨m₀, st, metrics⟩, []⟩)
      (AssetModule.continues_self (hempty ▸ Ledger.isRestorable_empty)) g actions
  rw [← hm.chain] at hchain
  rw [← hm.address] at haddress
  refine ⟨archive ++ [m.snapshot now], AssetModule.save_restorable hm.restorable archive now,
    restoreLatest_own hm.restorable, ?_, fun hspelled => ⟨?_, fun hkept => ?_⟩⟩
  · rintro hnewest ⟨hmachine, haddress⟩
    rw [hmachine, haddress]
    exact restoreLatest_own hm.restorable hnewest
  · exact restoreLatest_other hspelled archive now
  · rw [restoreLatest_other hspelled, restoreLatest, hkept.latest?_eq_none hchain haddress hspelled]

def outset : AssetModule :=
  ⟨.parachain .polkadot 2000, .ofNat 170 (by decide), .ofNat 2 (by decide), .empty, []⟩

def funded : AssetModule :=
  (Site.History.run ⟨fun _ _ st => (.accepted 0, st)⟩ ⟨⟨outset, (), .zero⟩, []⟩
    [.call ⟨0⟩ (.mint "0x00000000000000000000000000000000000000aa"
      "0x0000000000000000000000000000000000000001" 5)]).site.assets

theorem ofConfig_outset {stateMachine : String} (h : Chain.parse stateMachine = .ok outset.chain) :
    AssetModule.ofConfig ⟨stateMachine, "0x00000000000000000000000000000000000000aa",
      "0x0000000000000000000000000000000000000002"⟩ .empty = .ok outset := by
  have hhost : Address.parse? "0x00000000000000000000000000000000000000aa" = some outset.host := by
    decide +kernel
  have haddress : Address.parse? "0x0000000000000000000000000000000000000002" =
      some outset.address := by decide +kernel
  exact AssetModule.ofConfig_eq_ok.2 ⟨h, hhost, haddress, rfl, rfl⟩

theorem render_outset : outset.address.render = "0x0000000000000000000000000000000000000002" :=
  (Address.render_eq_renderLower (by decide +kernel)).trans (by decide +kernel)

/-- The module was stored when it was new, and is stored again with its 5. -/
theorem restoreLatest_run_spelled :
    AssetModule.ofConfig ⟨"POLKADOT-2000", "0x00000000000000000000000000000000000000aa",
        "0x0000000000000000000000000000000000000002"⟩ .empty = .ok outset ∧
      funded.ledger.supply = 5 ∧
      ∃ saved, funded.save [outset.snapshot ⟨0⟩] ⟨1⟩ = .ok (funded.snapshot ⟨1⟩, saved) ∧
        saved.restoreLatest "POLKADOT-2000" "0x0000000000000000000000000000000000000002" =
          .ok (some funded.ledger) := by
  have hnamed : outset.chain.IsNamed := show 2000 ≤ Chain.maxParaId by decide
  have hconfig := ofConfig_outset (Chain.parse_id hnamed)
  obtain ⟨saved, hsave, -, hspelled, -⟩ := restoreLatest_run _ hconfig () .zero
    [.call ⟨0⟩ (.mint "0x00000000000000000000000000000000000000aa"
      "0x0000000000000000000000000000000000000001" 5)] [outset.snapshot ⟨0⟩] ⟨1⟩
  have hnewest : (outset.snapshot ⟨0⟩).takenAt.milliseconds < 1 := by decide
  exact ⟨hconfig, by decide +kernel, saved, hsave,
    hspelled (List.forall_mem_singleton.2 (fun _ => hnewest)) ⟨rfl, render_outset.symm⟩⟩

/-- The same module, configured with a zero before the number of its chain, stores 5 and is
then not found under its configuration. -/
theorem leadingZero_restores_nothing :
    AssetModule.ofConfig ⟨"POLKADOT-02000", "0x00000000000000000000000000000000000000aa",
        "0x0000000000000000000000000000000000000002"⟩ .empty = .ok outset ∧
      funded.ledger.supply = 5 ∧
      ∃ saved, funded.save [] ⟨0⟩ = .ok (funded.snapshot ⟨0⟩, saved) ∧
        saved.restoreLatest "POLKADOT-02000" "0x0000000000000000000000000000000000000002" =
          .ok none := by
  have hfamily : '-' ∉ "POLKADOT".toList := by decide
  have hparse : Chain.parse "POLKADOT-02000" = .ok outset.chain :=
    (Chain.parse_hyphen hfamily "02000").trans rfl
  have hfunded : funded.ledger.IsRestorable :=
    (Site.History.continues_run (h := ⟨⟨outset, (), .zero⟩, []⟩)
      (AssetModule.continues_self Ledger.isRestorable_empty) _ _).restorable
  have hchain : funded.chain.id ≠ "POLKADOT-02000" := by decide +kernel
  refine ⟨ofConfig_outset hparse, by decide +kernel, _, AssetModule.save_restorable hfunded [] ⟨0⟩,
    ?_⟩
  rw [restoreLatest_other (fun h => hchain h.1.symm)]
  rfl

end Archive
end Interchain
