import Templar.Near.Leases

/-!
# Stale callbacks of the NEAR vault

A callback is stale when the operation it was scheduled for is not the one in progress. The
callbacks of a market withdrawal recognise this by their lease, those of a payout, a refresh and
a resync by the operation's id. The callbacks of a supply look at the operation only to stop it,
and so stop whatever operation they find.
-/

namespace Templar.Near

open Checked Vault Curator Callback

variable {A : Type}

/-- Another operation is in progress than the callback's own, or none. -/
def Callback.Stale (callback : Callback A) (c : Contract A) : Prop :=
  ∃ opId, callback.opId = some opId ∧ c.opState.opId ≠ some opId

instance (callback : Callback A) (c : Contract A) : Decidable (callback.Stale c) :=
  inferInstanceAs (Decidable (∃ _, _ ∧ _))

def Callback.isSupply : Callback A → Bool
  | .supply01HandleTransfer _ _ _ _ _ => true
  | .supply02PositionRead _ _ _ _ _ _ _ => true
  | _ => false

namespace Contract

variable {c c' : Contract A} {p : Option (Callback A)} {env : Env A} {opId market token : Nat}

/-- A lease of another operation than the one in progress does not exist. -/
theorem no_lease_of_stale (hg : c.Guarded) (hstale : c.opState.opId ≠ some opId) :
    c.hasCurrentLease env market opId token = false := by
  cases hlease : c.hasCurrentLease env market opId token with
  | false => rfl
  | true =>
    obtain ⟨lease, hlookup, hid⟩ := hasCurrentLease_eq_true hlease
    obtain ⟨k, hk, hown⟩ := hg.owned market lease hlookup
    rw [hid] at hown
    rw [hk, ← hown] at hstale
    exact absurd rfl hstale

variable [DecidableEq A]

/-- What a stale callback does when it returns. -/
theorem quiet_of_stale {callback : Callback A} {reply : Reply} (hs : c.Sound)
    (hsent : callback.Sent c) (hstale : callback.Stale c)
    (hidle : callback.isSupply = true → c.opState = .idle)
    (h : callback.run env c reply = .ok (c', p)) : c' = c ∧ p = none := by
  obtain ⟨k, hk, hother⟩ := hstale
  cases callback with
  | supply01HandleTransfer marketId opId marketIndex attempted remaining =>
    obtain ⟨accepted, -, h⟩ := bind_eq_ok.mp h
    have hop := hidle rfl
    rcases supply01HandleTransfer_eq_ok h with ⟨hstop, -⟩ | ⟨s, a, hop', -⟩
    · exact hstop.of_idle hop
    · rw [hop] at hop'
      cases hop'
  | supply02PositionRead marketId opId marketIndex before attempted accepted remaining =>
    obtain ⟨position, -, h⟩ := bind_eq_ok.mp h
    have hop := hidle rfl
    rcases supply02PositionRead_eq_ok hs.plan h with ⟨hstop, -⟩ | ⟨s, _, _, _, hop', -⟩
    · exact hstop.of_idle hop
    · rw [hop] at hop'
      cases hop'
  | withdraw01HandleCreateRequest opId market need => exact hsent.elim
  | rebalanceWithdraw01AfterCreateRequest marketId amount => cases hk
  | executeWithdraw01 | executeWithdraw02 | executeWithdraw03 | rebalanceWithdraw01
  | rebalanceWithdraw02 | rebalanceWithdraw03 =>
    -- the lease of the operation is gone, and each of them looks for it first
    cases hk
    simp only [run, executeWithdraw01, executeWithdraw02, executeWithdraw03, rebalanceWithdraw01,
      rebalanceWithdraw02, rebalanceWithdraw03, no_lease_of_stale hs.guarded hother, do_ok] at h
    obtain ⟨_, -, rfl, rfl⟩ := h
    exact ⟨rfl, rfl⟩
  | stopAndExitPayout01Reconcile opId =>
    cases hk
    obtain ⟨balance, -, h⟩ := bind_eq_ok.mp h
    rcases stopAndExitPayout01Reconcile_eq_ok h with ⟨rfl, rfl⟩ | ⟨s, _, _, _, hop, hid, -⟩
    · exact ⟨rfl, rfl⟩
    · exact absurd (by rw [hop, ← hid]; rfl) hother
  | payment01ReconcileIdleOrRefund opId receiver amount =>
    cases hk
    obtain ⟨succeeded, -, h⟩ := bind_eq_ok.mp h
    rcases payment01ReconcileIdleOrRefund_eq_ok h with ⟨rfl, rfl⟩ | ⟨s, _, _, hop, hid, -⟩
    · exact ⟨rfl, rfl⟩
    · exact absurd (by rw [hop, ← hid]; rfl) hother
  | refresh01Settle marketId opId index before =>
    cases hk
    obtain ⟨position, -, h⟩ := bind_eq_ok.mp h
    rcases refresh01Settle_eq_ok h with ⟨rfl, rfl⟩ | ⟨s, hop, hid, -⟩
    · exact ⟨rfl, rfl⟩
    · exact absurd (by rw [hop, ← hid]; rfl) hother
  | resyncIdleBalance01Settle opId caller beforeIdle startedAtNs =>
    cases hk
    simp only [run, do_ok] at h
    obtain ⟨balance, -, h⟩ := h
    -- the marker stands for the operation in progress
    have hflag : c.idleResyncInflightOpId = 0 ∨ c.idleResyncInflightOpId ≠ k := by
      by_contra hboth
      obtain ⟨hne, rfl⟩ : c.idleResyncInflightOpId ≠ 0 ∧ c.idleResyncInflightOpId = k := by omega
      exact hother (by rw [(hs.guarded.resync hne).1]; rfl)
    simp only [resyncIdleBalance01Settle, if_pos hflag] at h
    cases h
    exact ⟨rfl, rfl⟩

end Contract

variable [DecidableEq A]

/-- A stale callback changes nothing and schedules nothing, in every state that is reached, with
every answer and at every time. A callback of a supply does so in an idle vault only. -/
theorem stale_callback_changes_nothing {s : System A} (h : s.Reachable)
    {callback : Callback A} {place : Nat} (hpending : s.pending[place]? = some callback)
    (hstale : callback.Stale s.contract)
    (hidle : callback.isSupply = true → s.contract.opState = .idle) (env : Env A) (reply : Reply) :
    (s.step (.callback env place reply)).contract = s.contract ∧
      (s.step (.callback env place reply)).pending = s.pending.eraseIdx place := by
  obtain ⟨hs, hsent⟩ := h.sound
  simp only [System.step, hpending]
  split
  · rename_i c' p hrun
    obtain ⟨rfl, rfl⟩ := Contract.quiet_of_stale hs (hsent callback (List.mem_of_getElem? hpending))
      hstale hidle hrun
    simp
  · exact ⟨rfl, rfl⟩

/-- The first callback of a market withdrawal that was called off arrives during a refresh. -/
theorem stale_callback_changes_nothing_refresh :
    ∃ s : System Nat, s.Reachable ∧ s.contract.opState = .refreshing ⟨3, 0, [0]⟩ ∧
      s.pending[0]? = some (.executeWithdraw01 2 0 1) ∧
      (s.step (.callback (sampleEnv 0 8) 0 (.amount 0))).contract = s.contract ∧
      (s.step (.callback (sampleEnv 0 8) 0 (.amount 0))).pending = s.pending.eraseIdx 0 := by
  obtain ⟨s, hs, hop, hpending, hstale⟩ : ∃ s : System Nat, s.Reachable ∧
      s.contract.opState = .refreshing ⟨3, 0, [0]⟩ ∧ s.pending[0]? = some (executeWithdraw01 2 0 1) ∧
      (executeWithdraw01 2 0 1).Stale s.contract :=
    System.exists_reachable (sampleEnv 8 0) sampleConfiguration
      (sampleSupplied ++
        [.call (sampleEnv 1 4) (.redeem 50 1),
          .call (sampleEnv 8 5) (.executeWithdrawal [0]),
          .call (sampleEnv 8 6) (.executeMarketWithdrawal 2 0),
          .call (sampleEnv 8 7) .unbrick,
          .call (sampleEnv 8 8) (.refreshMarkets [0])]) (by decide +kernel) (by decide)
  have hno : (executeWithdraw01 2 0 1 : Callback Nat).isSupply = true →
      s.contract.opState = .idle := by simp [isSupply]
  exact ⟨s, hs, hop, hpending, stale_callback_changes_nothing hs hpending hstale hno _ _⟩

/-- A supply of thirty is called off while its transfer is in flight, and a request for fifty is
then being paid. The late callback of the supply asks for the end of the payout: the escrowed
shares go back to their owner, and the payment, which succeeds, finds the vault idle. -/
theorem late_supply_callback_refunds_payout : ∃ s : System Nat, s.Reachable ∧
      s.contract.opState = .payout ⟨2, 0, 1, 50, 1, 50, 50⟩ ∧ s.contract.shares.balance 1 = 50 ∧
      s.pending = [.supply01HandleTransfer 0 1 0 30 30, .payment01ReconcileIdleOrRefund 2 1 50] ∧
      (supply01HandleTransfer 0 1 0 30 30).Stale s.contract ∧
      (s.step (.callback (sampleEnv 0 7) 0 (.amount 30))).pending =
        [.payment01ReconcileIdleOrRefund 2 1 50, .stopAndExitPayout01Reconcile 2] ∧
      (s.run [.callback (sampleEnv 0 7) 0 (.amount 30), .callback (sampleEnv 0 8) 1 (.amount 20),
        .callback (sampleEnv 0 9) 0 .done]).contract.shares.balance 1 = 100 ∧
      (s.run [.callback (sampleEnv 0 7) 0 (.amount 30), .callback (sampleEnv 0 8) 1 (.amount 20),
        .callback (sampleEnv 0 9) 0 .done]).contract.opState = .idle := by
  exact System.exists_reachable (sampleEnv 8 0) sampleConfiguration
    (sampleDeposit ++
      [.call (sampleEnv 1 3) (.redeem 50 1),
        .call (sampleEnv 8 4) (.allocate (.supply 0 30)),
        .call (sampleEnv 8 5) .unbrick,
        .call (sampleEnv 8 6) (.executeWithdrawal [])]) (by decide +kernel) (by decide)

end Templar.Near
