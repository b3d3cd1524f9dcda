import Templar.Near.Phases

/-!
# What the NEAR vault holds against its books

The invariant of whole runs: at most one callback of an operation is on its way, and the phase it
is in says where the money is. In an idle vault the idle funds are then covered by the balance and
every principal by a position.

Four things break this, and `Orderly` leaves them out: a read that fails after the money has moved,
a recovery or a second market call while the money is elsewhere, a balance that is read while a
deposit is in transit, and a market that takes more off the position than it pays.
-/

namespace Templar.Near

open Checked Vault Curator MarketRecord List Table

variable {A : Type}

instance (c : Contract A) : Decidable c.Leased :=
  decidable_of_iff (∃ m ∈ c.marketExecutionLock.leasesByTarget.keys,
    (c.marketExecutionLock.leasesByTarget.lookup m).isSome = true)
    ⟨fun ⟨m, _, hm⟩ => ⟨m, hm⟩, fun ⟨m, hm⟩ => ⟨m, AList.lookup_isSome.mp hm, hm⟩⟩

instance [DecidableEq A] (c : Contract A) (call : Call A) : Decidable (call.Orderly c) :=
  match call with
  | .unbrick => inferInstanceAs (Decidable (_ ∨ _))
  | .executeMarketWithdrawal _ _ => inferInstanceAs (Decidable (¬ _))
  | .ftTransfer _ _ | .ftOnTransfer _ _ | .withdraw _ _ | .redeem _ _ | .executeWithdrawal _
  | .executeRebalanceWithdrawal _ | .refreshMarkets _ | .resyncIdleBalance | .allocate _
  | .setSupplyQueue _ | .submitCap _ | .applyChange _ => .isTrue trivial

namespace Reaction

/-- A read fails only where nothing has moved, a balance is read only while nothing is in transit,
and a market pays for what it takes off the position. -/
def Orderly (w : World A) (r : Receipt A) : Reaction → Prop
  | .fails => w.unseen r = 0
  | .proceeds => r.callback.outgoing = .readBalance → w.transit = 0
  | .keeps _ => True
  | .pays amount drop => drop ≤ amount

instance (w : World A) (r : Receipt A) (reaction : Reaction) : Decidable (reaction.Orderly w r) :=
  match reaction with
  | .fails => inferInstanceAs (Decidable (_ = _))
  | .proceeds => inferInstanceAs (Decidable (_ → _))
  | .keeps _ => .isTrue trivial
  | .pays _ _ => inferInstanceAs (Decidable (_ ≤ _))

end Reaction

namespace Event

def Orderly (w : World A) : Event A → Prop
  | .call _ made => made.Orderly w.contract
  | .react place reaction => ∀ r ∈ w.receipts[place]?, reaction.Orderly w r
  | _ => True

instance [DecidableEq A] (w : World A) (event : Event A) : Decidable (event.Orderly w) :=
  match event with
  | .call _ made => inferInstanceAs (Decidable (made.Orderly w.contract))
  | .react place reaction =>
    inferInstanceAs (Decidable (∀ r ∈ w.receipts[place]?, reaction.Orderly w r))
  | .deposit _ _ | .receive _ _ | .refund _ | .donate _ | .earn _ _ | .callback _ _ => .isTrue trivial

/-- Nobody sends tokens or earns interest, and a market takes off the position what it pays. -/
def Exact : Event A → Prop
  | .donate _ => False
  | .earn _ _ => False
  | .react _ (.pays amount drop) => amount = drop
  | _ => True

end Event

/-- The callback belongs to an operation. -/
def Receipt.live (r : Receipt A) : Bool := r.callback.opId.isSome

/-- One callback of an operation at most is on its way, in a phase that says where the money is. -/
structure Held (x : Prop) (w : World A) : Prop where
  fits : w.balance < 2 ^ 128
  phase : ∃ o, Sole Receipt.live w.receipts o ∧ Phase x w.scene o

theorem sole_joined {l : List (Receipt A)} {o : Option (Receipt A)}
    {p : Option (Callback A)} (h : Sole Receipt.live l o)
    (hp : ∀ callback ∈ p, callback.opId.isSome = true → o = none) :
    Sole Receipt.live (l ++ p.toList.map (fun callback => ⟨callback, .scheduled⟩)) (joined o p) := by
  cases p with
  | none => simpa [joined] using h
  | some callback =>
    cases hlive : callback.opId.isSome with
    | true =>
      obtain rfl := hp callback rfl hlive
      simp only [joined, hlive, if_true, Option.toList_some, map_cons, map_nil]
      exact h.append_one hlive
    | false =>
      simp only [joined, hlive, Bool.false_eq_true, if_false, Option.toList_some, map_cons, map_nil]
      exact h.append_other hlive

/-- A callback without an operation answers a request that was created in a market. -/
theorem Receipt.eq_of_not_live {r : Receipt A} (h : r.live = false) :
    ∃ m n, r.callback = .rebalanceWithdraw01AfterCreateRequest m n := by
  unfold live at h
  cases hc : r.callback with
  | rebalanceWithdraw01AfterCreateRequest m n => exact ⟨m, n, rfl⟩
  | _ =>
    rw [hc] at h
    cases h

namespace Held

variable {x : Prop} {w : World A} {place : Nat} {r : Receipt A}

/-- An answer to a callback of the operation moves its phase on. -/
theorem react_live {reaction : Reaction} (hh : Held x w) (hr : w.receipts[place]? = some r)
    (hlive : r.live = true) (hok : reaction.Orderly w r)
    (hex : x → ∀ n d, reaction = .pays n d → n = d) : Held x (w.react place r reaction) := by
  obtain ⟨hfits, o, hsole, hp⟩ := id hh
  obtain ⟨rfl, -, hset⟩ := hsole.at_place hr hlive
  have hsub (n : Nat) : w.balance - n < 2 ^ 128 := Nat.lt_of_le_of_lt (Nat.sub_le _ _) hfits
  cases reaction with
  | fails =>
    simp only [World.react]
    split
    · exact ⟨hfits, _, hset _ hlive, hp.failed (.inl ‹_›) hok⟩
    · exact ⟨hfits, _, hset _ hlive, hp.failed (.inr ⟨_, ‹_›⟩) hok⟩
    · exact hh
  | proceeds =>
    simp only [World.react]
    split
    · split
      · exact ⟨hsub _, _, hset _ hlive, hp.sent ‹_› ‹_› ‹_›⟩
      · exact hh
    · split
      · exact ⟨‹_›, _, hset _ hlive, hp.returned ‹_› ‹_›⟩
      · exact hh
    · split
      · exact ⟨hsub _, _, hset _ hlive, hp.transferred ‹_› ‹_› ‹_›⟩
      · exact hh
    · exact ⟨hfits, _, hset _ hlive, hp.balanceRead ‹_› ‹_› (hok ‹_›)⟩
    · exact ⟨hfits, _, hset _ hlive, hp.positionRead ‹_› ‹_›⟩
    · exact ⟨hfits, _, hset _ hlive, hp.paidRead ‹_› ‹_›⟩
    · next ho =>
      cases hp with
      | _ => cases ho
    · exact hh
  | keeps kept =>
    simp only [World.react]
    split
    · split
      · exact ⟨hfits, _, hset _ hlive, hp.kept ‹_› ‹_› ‹_›⟩
      · exact hh
    · exact hh
  | pays amount drop =>
    simp only [World.react]
    split
    · split
      · next hle =>
        exact ⟨hle.2, _, hset _ hlive, hp.paid ‹_› ‹_› hle.1 hok (fun hx => hex hx _ _ rfl)⟩
      · exact hh
    · exact hh

theorem react {reaction : Reaction} (hh : Held x w) (hr : w.receipts[place]? = some r)
    (hok : reaction.Orderly w r) (hex : x → ∀ n d, reaction = .pays n d → n = d) :
    Held x (w.react place r reaction) := by
  cases hlive : r.live with
  | true => exact hh.react_live hr hlive hok hex
  | false =>
    obtain ⟨m, n, hc⟩ := Receipt.eq_of_not_live hlive
    obtain ⟨hfits, o, hsole, hp⟩ := id hh
    have hadvance (g : Progress) : Held x (w.advance place r g) :=
      ⟨hfits, o, (hsole.at_other hr hlive).2 _ hlive, hp⟩
    cases reaction with
    | _ =>
      simp only [World.react, hc, Callback.outgoing]
      split
      all_goals first | exact hh | exact hadvance _ | contradiction

/-- What happens outside carries the phase along. -/
theorem carry {w' : World A} (hh : Held x w) (hfits : w'.balance < 2 ^ 128)
    (hreceipts : w'.receipts = w.receipts) (hc : w.scene.Carries x w'.scene) : Held x w' := by
  obtain ⟨-, o, hsole, hp⟩ := hh
  exact ⟨hfits, o, by rw [hreceipts]; exact hsole, hp.carry hc⟩

variable [DecidableEq A] {env : Env A}

theorem call {call : Call A} (hh : Held x w) (hsound : w.contract.Sound)
    (hd : call.isDeposit = false) (hok : call.Orderly w.contract) (time : Nat) :
    Held x (w.settle w.receipts time (call.run env w.contract)) := by
  obtain ⟨hfits, o, hsole, hp⟩ := hh
  cases hrun : call.run env w.contract with
  | error e => exact ⟨hfits, o, hsole, hp⟩
  | ok result =>
    obtain ⟨c, p⟩ := result
    obtain ⟨hnext, hjoin⟩ := hp.call hsound hd hok hrun
    exact ⟨hfits, joined o p, sole_joined hsole hjoin, hnext⟩

theorem callback {callback : Callback A} {reply : Reply} (hh : Held x w)
    (hsound : w.contract.Sound) (hsent : callback.Sent w.contract)
    (hr : w.receipts[place]? = some ⟨callback, .answered reply⟩) (time : Nat) :
    Held x (w.settle (w.receipts.eraseIdx place) time (callback.run env w.contract reply)) := by
  obtain ⟨hfits, o, hsole, hp⟩ := hh
  cases hlive : (⟨callback, .answered reply⟩ : Receipt A).live with
  | true =>
    obtain ⟨rfl, herase, -⟩ := hsole.at_place hr hlive
    cases hrun : callback.run env w.contract reply with
    | error e => exact ⟨hfits, none, herase, hp.die⟩
    | ok result =>
      obtain ⟨c, p⟩ := result
      exact ⟨hfits, joined none p, sole_joined herase (fun _ _ _ => rfl),
        hp.callback hsound hsent hfits hrun⟩
  | false =>
    obtain ⟨m, n, hc⟩ := Receipt.eq_of_not_live hlive
    obtain ⟨herase, -⟩ := hsole.at_other hr hlive
    simp only at hc
    subst hc
    cases hrun : (Callback.rebalanceWithdraw01AfterCreateRequest m n).run env w.contract reply with
    | error e => exact ⟨hfits, o, herase, hp⟩
    | ok result =>
      obtain ⟨c, p⟩ := result
      simp only [Callback.run, Contract.rebalanceWithdraw01AfterCreateRequest, do_ok] at hrun
      obtain ⟨_, -, -, rfl, rfl⟩ := hrun
      exact ⟨hfits, o, sole_joined (p := none) herase (by simp), hp⟩

/-- A deposit that is refused goes back, and one that is accepted becomes idle funds. -/
theorem receive {sender : A} {amount : Nat} (hh : Held x w)
    (ha : w.arriving[place]? = some (sender, amount)) :
    Held x (w.receive env place sender amount) := by
  have hsum : amount + ((w.arriving.eraseIdx place).map Prod.snd).sum =
      (w.arriving.map Prod.snd).sum := by
    rw [← eraseIdx_map]
    exact sum_eraseIdx (by rw [getElem?_map, ha]; rfl)
  unfold World.receive
  cases hrun : w.contract.ftOnTransfer env sender amount with
  | error e =>
    refine hh.carry hh.fits rfl ⟨⟨0, ?_, fun _ => rfl⟩, fun _ => .refl x _, rfl, rfl, rfl, rfl, rfl,
      fun _ => rfl, fun _ hk => hk⟩
    simp only [World.scene, World.transit, sum_append, sum_cons, sum_nil]
    omega
  | ok result =>
    obtain ⟨c, refund⟩ := result
    obtain ⟨_, -, hrun⟩ := bind_eq_ok.mp hrun
    obtain ⟨-, -, ⟨rfl, -, ledger, t, rfl⟩ | ⟨accepted, ledger, hidle, -, hle, rfl, -, -, rfl⟩⟩ :=
      Contract.executeSupply_eq_ok hrun
    · refine hh.carry hh.fits rfl ⟨⟨0, ?_, fun _ => rfl⟩, fun _ => .refl x _, rfl, rfl, rfl, rfl, rfl,
        fun _ => rfl, fun _ hk => hk⟩
      simp only [World.scene, World.transit, sum_append, sum_cons, sum_nil]
      omega
    · obtain ⟨hfits, o, hsole, hp⟩ := hh
      obtain ⟨rfl, hs⟩ := hp.of_idle hidle
      refine ⟨hfits, none, hsole, .idle hidle ⟨?_, hs.stakes⟩⟩
      have hcash := hs.cash
      simp only [Scene.Cash, Backed, World.scene, World.transit, sum_append, sum_cons,
        sum_nil] at hcash ⊢
      exact ⟨by omega, fun hx => by have := hcash.2 hx; omega⟩

/-- What one event keeps. -/
theorem step {event : Event A} (hh : Held x w) (hsound : w.contract.Sound)
    (hsent : ∀ r ∈ w.receipts, r.callback.Sent w.contract) (hok : event.Orderly w)
    (hex : x → event.Exact) : Held x (w.step event) := by
  cases event with
  | call env call =>
    simp only [World.step]
    split
    · exact hh.carry hh.fits rfl (.quiet rfl rfl rfl rfl rfl)
    · rename_i hd
      exact hh.call hsound (by simpa using hd) hok _
  | deposit sender amount =>
    simp only [World.step]
    split
    · rename_i hfits
      refine hh.carry hfits rfl ⟨⟨0, ?_, fun _ => rfl⟩, fun _ => .refl x _, rfl, rfl, rfl, rfl, rfl,
        fun _ => rfl, fun _ hk => hk⟩
      simp only [World.scene, World.transit, map_append, map_cons, map_nil,
        sum_append, sum_cons, sum_nil]
      omega
    · exact hh
  | receive env place =>
    simp only [World.step]
    split
    · rename_i ha
      exact hh.receive ha
    · exact hh.carry hh.fits rfl (.quiet rfl rfl rfl rfl rfl)
  | refund place =>
    simp only [World.step]
    split
    · rename_i amount hr
      split
      · rename_i hle
        have hsum := sum_eraseIdx hr
        have hfits := hh.fits
        refine hh.carry (by dsimp only; omega) rfl ⟨⟨0, ?_, fun _ => rfl⟩, fun _ => .refl x _, rfl,
          rfl, rfl, rfl, rfl, fun _ => rfl, fun _ hk => hk⟩
        simp only [World.scene, World.transit]
        omega
      · exact hh
    · exact hh
  | donate amount =>
    simp only [World.step]
    split
    · rename_i hfits
      refine hh.carry hfits rfl ⟨⟨amount, ?_, fun hx => (hex hx).elim⟩, fun _ => .refl x _, rfl, rfl,
        rfl, rfl, rfl, fun _ => rfl, fun _ hk => hk⟩
      simp only [World.scene, World.transit]
      omega
    · exact hh
  | earn market amount =>
    refine hh.carry hh.fits rfl ⟨⟨0, rfl, fun _ => rfl⟩, ?_, rfl, rfl, rfl, rfl, rfl, fun _ => rfl,
      fun _ hk => hk⟩
    intro k
    refine ⟨?_, fun hx => (hex hx).elim⟩
    by_cases hk : k = market
    · subst hk
      simp [World.scene, World.step]
    · simp [World.scene, World.step, Function.update_of_ne hk]
  | react place reaction =>
    simp only [World.step]
    split
    · rename_i r hr
      refine hh.react hr (hok r hr) ?_
      rintro hx n d rfl
      exact hex hx
    · exact hh
  | callback env place =>
    simp only [World.step]
    split
    · rename_i callback reply hr
      exact hh.callback hsound (hsent _ (mem_of_getElem? hr)) hr _
    · exact hh.carry hh.fits rfl (.quiet rfl rfl rfl rfl rfl)

end Held

namespace World

variable [DecidableEq A] {x : Prop} {w : World A} {ok : World A → Event A → Prop}

/-- The contract's own invariant, in a run of the world. -/
theorem ReachableBy.sound (h : ReachableBy ok w) :
    w.contract.Sound ∧ ∀ r ∈ w.receipts, r.callback.Sent w.contract := by
  obtain ⟨hsound, hsent⟩ := h.system.sound
  exact ⟨hsound, fun r hr => hsent r.callback (mem_map_of_mem hr)⟩

theorem ReachableBy.held (h : ReachableBy ok w)
    (hok : ∀ w event, ok w event → event.Orderly w ∧ (x → event.Exact)) : Held x w := by
  induction h with
  | new h =>
    simp only [Contract.new, do_ok] at h
    obtain ⟨-, -, rfl⟩ := h
    refine ⟨Nat.two_pow_pos 128, none, .nil, .idle rfl ⟨.refl x _, fun k => ?_⟩⟩
    exact .refl x _
  | step h ht hevent ih =>
    obtain ⟨hsound, hsent⟩ := h.sound
    obtain ⟨horderly, hexact⟩ := hok _ _ hevent
    exact ih.step hsound hsent horderly hexact

/-- In an idle vault that orderly events have reached, the idle funds are in the vault, and the
idle funds with the recorded principals are covered by the balance and the positions. -/
theorem idle_funds_covered (h : ReachableBy (fun w event => event.Orderly w) w)
    (hidle : w.contract.opState = .idle) :
    w.contract.idleBalance ≤ w.balance ∧
      w.contract.idleBalance + total principal w.contract.markets ≤
        w.balance + (w.contract.markets.keys.map w.positions).sum := by
  have hheld : Held False w := h.held (fun _ _ hevent => ⟨hevent, False.elim⟩)
  obtain ⟨-, o, -, hp⟩ := hheld
  obtain ⟨-, hs⟩ := hp.of_idle hidle
  have hcash : w.contract.idleBalance + w.transit ≤ w.balance + 0 := hs.cash.1
  have hstakes : total principal w.contract.markets ≤
      (w.contract.markets.keys.map w.positions).sum := total_le_sum fun k => (hs.stakes k).1
  exact ⟨by omega, by omega⟩

/-- The market is set up, account 1 deposits a hundred, and the market takes all of it. -/
def sampleSupply : List (Event Nat) :=
  [.call (sampleEnv 8 1) (.submitCap 10),
    .call (sampleEnv 8 1) (.applyChange (.capChange 10 1000)),
    .call (sampleEnv 8 1) (.setSupplyQueue [0]),
    .deposit 1 100,
    .receive (sampleEnv 7 2) 0,
    .refund 0,
    .call (sampleEnv 8 3) (.allocate (.supply 0 100)),
    .react 0 .proceeds,
    .react 0 (.keeps 100),
    .react 0 .proceeds,
    .callback (sampleEnv 0 3) 0]

/-- The supply is booked, and then a market withdrawal of 40 of it. -/
theorem idle_funds_covered_rebalance :
    ∃ w : World Nat, ReachableBy (fun w event => event.Orderly w) w ∧
      w.contract.opState = .idle ∧ w.contract.idleBalance = 40 ∧ w.contract.principalOf 0 = 60 ∧
      w.contract.idleBalance ≤ w.balance ∧
      w.contract.idleBalance + total principal w.contract.markets ≤
        w.balance + (w.contract.markets.keys.map w.positions).sum := by
  obtain ⟨w, hw, hidle, hfunds, hprincipal⟩ :
      ∃ w : World Nat, ReachableBy (fun w event => event.Orderly w) w ∧
        w.contract.opState = .idle ∧ w.contract.idleBalance = 40 ∧ w.contract.principalOf 0 = 60 :=
    exists_reachableBy (sampleEnv 8 0) sampleConfiguration (sampleSupply ++
      [.react 0 .proceeds,
        .callback (sampleEnv 0 3) 0,
        .call (sampleEnv 8 4) (.executeRebalanceWithdrawal 0),
        .react 0 .proceeds,
        .callback (sampleEnv 0 4) 0,
        .react 0 (.pays 40 40),
        .react 0 .proceeds,
        .callback (sampleEnv 0 4) 0,
        .react 0 .proceeds,
        .callback (sampleEnv 0 4) 0]) (by decide +kernel)
  exact ⟨w, hw, hidle, hfunds, hprincipal, idle_funds_covered hw hidle⟩

/-- The market has taken the supply, and the read of the position fails: the vault books the
hundred as idle again. A refresh then books it a second time. -/
theorem idle_funds_not_held :
    ∃ w : World Nat, ReachableBy (fun _ _ => True) w ∧ w.contract.opState = .idle ∧
      w.balance = 0 ∧ w.contract.idleBalance = 100 ∧
      ¬ w.contract.idleBalance ≤ w.balance ∧
      ¬ w.contract.idleBalance + total principal w.contract.markets ≤
        w.balance + (w.contract.markets.keys.map w.positions).sum := by
  exact exists_reachableBy (sampleEnv 8 0) sampleConfiguration (sampleSupply ++
    [.react 0 .fails,
      .callback (sampleEnv 0 3) 0,
      .call (sampleEnv 8 4) (.refreshMarkets [0]),
      .react 0 .proceeds,
      .callback (sampleEnv 0 4) 0]) (by decide +kernel)

end World

end Templar.Near
