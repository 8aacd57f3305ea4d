import HedgeVault.Genesis
import HedgeVault.Instructions.CloseStrategy

/-!
# Closing only what is empty

The holdings of a record are found by what the caller passes, and each part of the handler
stops early where an account does not exist. For DLMM and Phoenix the accounts are pinned, so
an accepted close means that the holdings are zero. A Jupiter record is looked up under the
token program the caller names: under the one that owns the mint its holdings are zero
(`closeJupiter_empty`), under the other one the account never exists.
-/

namespace HedgeVault

open Lib

namespace Programs

variable (P : Programs)

/-- Nothing is left with Phoenix, neither on the trader account nor unwrapped. -/
structure PhoenixEmpty (a : Accounts) (vault traderAccount : Pubkey) (trader : PhoenixTrader)
    (config : PhoenixGlobalConfig) : Prop where
  trader_eq : PhoenixTrader.parse (a traderAccount).data = .ok trader
  collateral : trader.quoteLotCollateral = 0
  positions : trader.positionCount = 0
  queued : trader.withdrawQueueNode = 0
  config_eq : PhoenixGlobalConfig.parse (a PHOENIX_GLOBAL_CONFIGURATION).data = .ok config
  canonical : P.balance a (P.associatedTokenAddress vault config.canonicalMint TOKEN_ID) = 0

/-- The holdings that a record of this type stands for are zero. -/
def Empty (a : Accounts) (vault : Pubkey) : StrategyType → Prop
  | .jupiterSwap targetMint =>
    P.balance a (P.associatedTokenAddress vault targetMint (P.mintProgram targetMint).id) = 0
  | .phoenixPerp traderAccount => ∃ trader config, P.PhoenixEmpty a vault traderAccount trader config
  | .meteoraDlmm position => P.positionLiquidity a position = 0

/-- The call closes a Jupiter record under the token program that does not own its mint. -/
structure WrongProgram (w : World) (authority : Signer) (protocolAccount : Pubkey)
    (remaining : List Pubkey) : Prop where
  accepted : ∃ w', w.vaultCloseStrategy authority protocolAccount (.ok ()) = .ok w'
  wrong : ∃ s targetMint program, w.strategies.lookup protocolAccount = some s ∧
    s.strategyType = .jupiterSwap targetMint ∧ program ≠ P.mintProgram targetMint ∧
    remaining = [P.associatedTokenAddress w.key targetMint program.id, program.id]

variable {P} {a a' : Accounts} {w w' : World} {authority : Signer}
  {vault receiver protocolAccount : Pubkey} {remaining : List Pubkey} {program : TokenProgram}

theorem balance_of_unused {key : Pubkey} (h : (a key).lamports = 0) : P.balance a key = 0 :=
  if_pos h

theorem liquidity_of_unused {key : Pubkey} (h : (a key).lamports = 0) :
    P.positionLiquidity a key = 0 := if_pos h

/-! ## The three parts -/

theorem closeJupiter_ok {targetMint : Pubkey}
    (h : P.closeJupiter a vault receiver targetMint remaining = .ok a') :
    ∃ program : TokenProgram,
      remaining = [P.associatedTokenAddress vault targetMint program.id, program.id] ∧
      ((a (P.associatedTokenAddress vault targetMint program.id)).lamports = 0 ∧ a' = a ∨
        P.closeAccount a program.id (P.associatedTokenAddress vault targetMint program.id) receiver
          vault = .ok a') := by
  unfold closeJupiter at h
  split at h
  · next key id =>
    simp only [bind_eq_ok, validate_eq_ok] at h
    obtain ⟨_, hid, _, rfl, h⟩ := h
    obtain ⟨program, rfl⟩ : ∃ program : TokenProgram, id = program.id := by
      rcases hid with rfl | rfl
      · exact ⟨.token, rfl⟩
      · exact ⟨.token2022, rfl⟩
    refine ⟨program, rfl, ?_⟩
    split at h
    · next hnone => exact .inl ⟨hnone, (pure_eq_ok.1 h).symm⟩
    · simp only [bind_eq_ok, validate_eq_ok] at h
      obtain ⟨_, _, _, _, _, _, h⟩ := h
      exact .inr h
  · cases h

/-- A token account that does not exist or was closed held nothing and holds nothing. -/
theorem balance_closed (hP : P.Faithful) {id key : Pubkey}
    (h : (a key).lamports = 0 ∧ a' = a ∨ P.closeAccount a id key receiver vault = .ok a') :
    P.balance a key = 0 ∧ P.balance a' key = 0 := by
  rcases h with ⟨hnone, rfl⟩ | h
  · exact ⟨balance_of_unused hnone, balance_of_unused hnone⟩
  · obtain ⟨_, hzero, hne, rfl⟩ := hP.closeAccount_ok h
    refine ⟨hzero, balance_of_unused ?_⟩
    rw [Accounts.close_self hne]
    rfl

theorem closeJupiter_empty (hP : P.Faithful) {targetMint : Pubkey}
    (h : P.closeJupiter a vault receiver targetMint remaining = .ok a')
    (hprogram : ∀ program : TokenProgram,
      remaining = [P.associatedTokenAddress vault targetMint program.id, program.id] →
        program = P.mintProgram targetMint) :
    P.Empty a vault (.jupiterSwap targetMint) ∧ P.Empty a' vault (.jupiterSwap targetMint) := by
  obtain ⟨program, hremaining, hclosed⟩ := closeJupiter_ok h
  obtain rfl := hprogram program hremaining
  exact balance_closed hP hclosed

theorem closeDlmm_empty (hP : P.Faithful) {position : Pubkey}
    (h : P.closeDlmm a vault receiver position remaining = .ok a') :
    P.Empty a vault (.meteoraDlmm position) ∧ P.Empty a' vault (.meteoraDlmm position) := by
  unfold closeDlmm at h
  split at h
  · simp only [bind_eq_ok, validate_eq_ok] at h
    obtain ⟨_, rfl, _, _, h⟩ := h
    obtain ⟨hzero, hne, rfl⟩ := hP.closePosition_ok h
    refine ⟨hzero, liquidity_of_unused ?_⟩
    rw [Accounts.close_self hne]
    rfl
  · cases h

theorem phoenixLoad_ok {account : Account} {trader : PhoenixTrader}
    (h : PhoenixTrader.load account = .ok trader) :
    account.owner = PHOENIX_PROGRAM_ID ∧ PhoenixTrader.parse account.data = .ok trader := by
  simp only [PhoenixTrader.load, validateOwner, bind_eq_ok, validate_eq_ok] at h
  obtain ⟨_, howner, h⟩ := h
  exact ⟨howner, h⟩

theorem configLoad_ok {account : Account} {config : PhoenixGlobalConfig}
    (h : PhoenixGlobalConfig.load account = .ok config) :
    account.owner = PHOENIX_PROGRAM_ID ∧ PhoenixGlobalConfig.parse account.data = .ok config := by
  simp only [PhoenixGlobalConfig.load, validateOwner, bind_eq_ok, validate_eq_ok] at h
  obtain ⟨_, howner, h⟩ := h
  exact ⟨howner, h⟩

/-- The accounts of Phoenix stay as they are when a token account is closed. -/
theorem phoenix_kept (hP : P.Faithful) {key k : Pubkey}
    (h : (a key).lamports = 0 ∧ a' = a ∨ P.closeAccount a TOKEN_ID key receiver vault = .ok a')
    (hk : (a k).owner = PHOENIX_PROGRAM_ID) : (a' k).data = (a k).data := by
  rcases h with ⟨_, rfl⟩ | h
  · rfl
  · obtain ⟨howner, _, _, rfl⟩ := hP.closeAccount_ok h
    have hne : k ≠ key := by
      rintro rfl
      exact absurd (hk.symm.trans howner) (by decide)
    exact (Accounts.close_data hne).1

theorem closePhoenix_empty (hP : P.Faithful) {traderAccount : Pubkey}
    (h : P.closePhoenix a vault receiver traderAccount remaining = .ok a') :
    P.Empty a vault (.phoenixPerp traderAccount) ∧ P.Empty a' vault (.phoenixPerp traderAccount) := by
  unfold closePhoenix at h
  split at h
  · simp only [bind_eq_ok, validate_eq_ok, PhoenixTrader.isEmpty] at h
    obtain ⟨_, rfl, _, rfl, _, rfl, trader, htrader, _, ⟨hcollateral, hpositions, hqueued⟩, config,
      hconfig, _, rfl, h⟩ := h
    obtain ⟨howner, htrader⟩ := phoenixLoad_ok htrader
    obtain ⟨howner', hconfig⟩ := configLoad_ok hconfig
    have hclosed : (a (P.associatedTokenAddress vault config.canonicalMint TOKEN_ID)).lamports = 0 ∧
        a' = a ∨ P.closeAccount a TOKEN_ID
          (P.associatedTokenAddress vault config.canonicalMint TOKEN_ID) receiver vault = .ok a' := by
      split at h
      · next hnone => exact .inl ⟨hnone, (pure_eq_ok.1 h).symm⟩
      · exact .inr h
    obtain ⟨hbefore, hafter⟩ := balance_closed hP hclosed
    refine ⟨⟨trader, config, htrader, hcollateral, hpositions, hqueued, hconfig, hbefore⟩,
      ⟨trader, config, ?_, hcollateral, hpositions, hqueued, ?_, hafter⟩⟩
    · rw [phoenix_kept hP hclosed howner]
      exact htrader
    · rw [phoenix_kept hP hclosed howner']
      exact hconfig
  · cases h

/-! ## Whole calls -/

theorem vaultCloseStrategy_ok
    (h : P.vaultCloseStrategy w a authority protocolAccount remaining = .ok (w', a')) :
    ∃ s, w.strategies.lookup protocolAccount = some s ∧
      P.closeHoldings a w.key authority.key remaining s.strategyType = .ok a' ∧
      w.vaultCloseStrategy authority protocolAccount (.ok ()) = .ok w' := by
  simp only [vaultCloseStrategy, bind_eq_ok, World.load_eq_ok, pure_eq_ok] at h
  obtain ⟨s, hs, w₁, hw, a₁, ha, hpair⟩ := h
  cases hpair
  rw [ha] at hw
  exact ⟨s, hs, ha, hw⟩

theorem exists_vaultCloseStrategy {s : Strategy}
    (hs : w.strategies.lookup protocolAccount = some s)
    (ha : P.closeHoldings a w.key authority.key remaining s.strategyType = .ok a')
    (hw : w.vaultCloseStrategy authority protocolAccount (.ok ()) = .ok w') :
    P.vaultCloseStrategy w a authority protocolAccount remaining = .ok (w', a') := by
  have hmap : (Except.ok a' : Result Accounts).map (fun _ => ()) = .ok () := rfl
  simp only [vaultCloseStrategy, World.load_eq_ok.2 hs, ok_bind, ha, hmap, hw]
  rfl

theorem associated_ne (hP : P.Faithful) {mint : Pubkey} {p q : TokenProgram} (h : p ≠ q) :
    P.associatedTokenAddress vault mint p.id ≠ P.associatedTokenAddress vault mint q.id := by
  have hne := hP.programs_ne vault mint
  cases p with
  | token =>
    cases q with
    | token => exact absurd rfl h
    | token2022 => exact hne
  | token2022 =>
    cases q with
    | token => exact hne.symm
    | token2022 => exact absurd rfl h

/-- The token account of the vault for a mint, and nothing else on the chain. -/
def soleAccount (P : Programs) (vault mint : Pubkey) (lamports : Nat) (data : List Byte) : Accounts :=
  Function.update (fun _ => .unused)
    (P.associatedTokenAddress vault mint (P.mintProgram mint).id)
    ⟨(P.mintProgram mint).id, lamports, data⟩

section

variable {mint : Pubkey} {lamports : Nat} {data : List Byte} {t : TokenAccount}

theorem soleAccount_self : P.soleAccount vault mint lamports data
    (P.associatedTokenAddress vault mint (P.mintProgram mint).id) =
      ⟨(P.mintProgram mint).id, lamports, data⟩ := Function.update_self _ _ _

theorem soleAccount_other {key : Pubkey}
    (h : key ≠ P.associatedTokenAddress vault mint (P.mintProgram mint).id) :
    P.soleAccount vault mint lamports data key = .unused := Function.update_of_ne h _ _

theorem soleAccount_consistent (hdata : P.unpackToken data = .ok t) (hmint : t.mint = mint) :
    P.Consistent (P.soleAccount vault mint lamports data) := by
  intro key t' hlive ht
  by_cases hkey : key = P.associatedTokenAddress vault mint (P.mintProgram mint).id
  · subst hkey
    rw [soleAccount_self] at ht ⊢
    rw [hdata] at ht
    cases ht
    rw [hmint]
  · rw [soleAccount_other hkey] at hlive
    exact absurd rfl hlive

theorem soleAccount_balance (hlive : lamports ≠ 0) (hdata : P.unpackToken data = .ok t) :
    P.balance (P.soleAccount vault mint lamports data)
      (P.associatedTokenAddress vault mint (P.mintProgram mint).id) = t.amount.toNat := by
  unfold balance
  rw [soleAccount_self, if_neg hlive, hdata]

end

/-- Under the other token program the account is not found, so the close stops early. -/
theorem closeHoldings_wrong (hP : P.Faithful) {mint : Pubkey} {lamports : Nat} {data : List Byte}
    (hne : program ≠ P.mintProgram mint) :
    P.closeHoldings (P.soleAccount vault mint lamports data) vault receiver
      [P.associatedTokenAddress vault mint program.id, program.id] (.jupiterSwap mint) =
        .ok (P.soleAccount vault mint lamports data) := by
  have hid : program.id = TOKEN_ID ∨ program.id = TOKEN_2022_ID := by
    cases program with
    | token => exact .inl rfl
    | token2022 => exact .inr rfl
  have hlamports : (P.soleAccount vault mint lamports data
      (P.associatedTokenAddress vault mint program.id)).lamports = 0 :=
    congrArg Account.lamports (soleAccount_other (associated_ne hP hne))
  simp only [closeHoldings, closeJupiter, validate_of hid, validate_of, ok_bind, hlamports, if_true]
  rfl

/-- Whatever is on the chain, an accepted `vault_close_strategy` finds the holdings of its
record empty and leaves them empty, if and only if it is not a Jupiter close under the token
program that does not own the target mint. -/
theorem closes_only_empty_iff (hP : P.Faithful) (w : World) (authority : Signer)
    (protocolAccount : Pubkey) (remaining : List Pubkey) :
    (∀ a w' a' s, P.Consistent a → w.strategies.lookup protocolAccount = some s →
      P.vaultCloseStrategy w a authority protocolAccount remaining = .ok (w', a') →
      P.Empty a w.key s.strategyType ∧ P.Empty a' w.key s.strategyType) ↔
    ¬ P.WrongProgram w authority protocolAccount remaining := by
  constructor
  · intro hall hwrong
    obtain ⟨w', hw⟩ := hwrong.accepted
    obtain ⟨s, targetMint, program, hs, htype, hne, hremaining⟩ := hwrong.wrong
    obtain ⟨data, hdata⟩ := hP.packed ⟨targetMint, w.key, 1⟩
    have hone : P.balance (P.soleAccount w.key targetMint 1 data)
        (P.associatedTokenAddress w.key targetMint (P.mintProgram targetMint).id) = 1 :=
      soleAccount_balance Nat.one_ne_zero hdata
    have hclose : P.closeHoldings (P.soleAccount w.key targetMint 1 data) w.key authority.key
        remaining s.strategyType = .ok (P.soleAccount w.key targetMint 1 data) := by
      rw [htype, hremaining]
      exact closeHoldings_wrong hP hne
    have hempty := (hall _ w' _ s (soleAccount_consistent hdata rfl) hs
      (exists_vaultCloseStrategy hs hclose hw)).1
    rw [htype] at hempty
    exact absurd (hone.symm.trans hempty) Nat.one_ne_zero
  · intro hright a w' a' s _ hs h
    obtain ⟨s', hs', hclose, hw⟩ := vaultCloseStrategy_ok h
    obtain rfl : s = s' := Option.some.inj (hs.symm.trans hs')
    cases htype : s.strategyType with
    | meteoraDlmm position =>
      rw [htype] at hclose
      exact closeDlmm_empty hP hclose
    | phoenixPerp traderAccount =>
      rw [htype] at hclose
      exact closePhoenix_empty hP hclose
    | jupiterSwap targetMint =>
      rw [htype] at hclose
      apply closeJupiter_empty hP hclose
      intro program hremaining
      by_contra hne
      exact hright ⟨⟨w', hw⟩, s, targetMint, program, hs, htype, hne, hremaining⟩

/-! ## Sample programs -/

/-- A token account without extensions: the mint, the owner, the amount and what the close
does not read, with the state byte `initialized` among it. -/
def packPlain (t : TokenAccount) : List Byte :=
  leBytes 32 t.mint.toNat ++ (leBytes 32 t.owner.toNat ++ (leBytes 8 t.amount.toNat ++
    (List.replicate 36 0 ++ 1 :: List.replicate 56 0)))

def tokenDecoder : Decoder TokenAccount :=
  (Decoder.word 32).bind fun mint =>
  (Decoder.word 32).bind fun owner =>
  (Decoder.word 8).bind fun amount =>
  .pure { mint, owner, amount }

def unpackPlain (data : List Byte) : Result TokenAccount :=
  if data.length ≠ 165 then .error .accountDidNotDeserialize
  else match tokenDecoder.run data with
    | some (t, _) => .ok t
    | none => .error .accountDidNotDeserialize

theorem unpackPlain_packPlain (t : TokenAccount) : unpackPlain (packPlain t) = .ok t := by
  have hlen : (packPlain t).length = 165 := by
    unfold packPlain
    simp only [List.length_append, length_leBytes, List.length_replicate, List.length_cons]
  have hrun : tokenDecoder.run (packPlain t) =
      some (t, List.replicate 36 0 ++ 1 :: List.replicate 56 0) := by
    refine Decoder.run_bind.2 ⟨t.mint, _, Decoder.run_word_leBytes (n := 32) t.mint, ?_⟩
    refine Decoder.run_bind.2 ⟨t.owner, _, Decoder.run_word_leBytes (n := 32) t.owner, ?_⟩
    refine Decoder.run_bind.2 ⟨t.amount, _, Decoder.run_word_leBytes (n := 8) t.amount, ?_⟩
    exact Decoder.run_pure.2 ⟨rfl, rfl⟩
  unfold unpackPlain
  rw [if_neg (not_not.2 hlen), hrun]

/-- Addresses derived by a sum, one mint (70) of Token-2022, and closes that refuse what is
not empty. -/
def sample : Programs where
  associatedTokenAddress wallet mint program := wallet + mint + program
  unpackToken := unpackPlain
  mintProgram mint := if mint = 70 then .token2022 else .token
  liquidity data := ((List.range 70).map fun i => leNat (slice data (72 + 16 * i) (88 + 16 * i))).sum
  closeAccount a program account destination authority :=
    if (a account).lamports = 0 ∨ (a account).owner ≠ program ∨ account = destination then
      .error .invalidInstructionData
    else match unpackPlain (a account).data with
      | .error e => .error e
      | .ok t =>
        if t.owner ≠ authority then .error (.token .ownerMismatch)
        else if t.amount.toNat ≠ 0 then .error (.token .nonNativeHasBalance)
        else .ok (a.close account destination)
  closePosition a position _ rentReceiver _ :=
    if (a position).owner ≠ DLMM_ID ∨ position = rentReceiver ∨
        (((List.range 70).map fun i =>
          leNat (slice (a position).data (72 + 16 * i) (88 + 16 * i))).sum ≠ 0) then
      .error .programFailed
    else .ok (a.close position rentReceiver)

theorem sample_unpackToken (t : TokenAccount) : sample.unpackToken (packPlain t) = .ok t :=
  unpackPlain_packPlain t

theorem sample_faithful : sample.Faithful where
  closeAccount_ok := by
    intro a a' program account destination authority h
    simp only [sample] at h
    split at h
    · cases h
    · next hok =>
      split at h
      · cases h
      · next t ht =>
        split at h
        · cases h
        · split at h
          · cases h
          · next hzero =>
            cases h
            simp only [not_or, not_not] at hok hzero
            obtain ⟨hlive, howner, hne⟩ := hok
            refine ⟨howner, ?_, hne, rfl⟩
            unfold balance
            rw [if_neg hlive]
            simp only [sample, ht]
            exact hzero
  closePosition_ok := by
    intro a a' position sender rentReceiver eventAuthority h
    simp only [sample] at h
    split at h
    · cases h
    · next hok =>
      cases h
      simp only [not_or, not_not] at hok
      obtain ⟨_, hne, hzero⟩ := hok
      refine ⟨?_, hne, rfl⟩
      unfold positionLiquidity
      split
      · rfl
      · exact hzero
  packed t := ⟨packPlain t, sample_unpackToken t⟩
  programs_ne wallet mint h := absurd ((BitVec.add_right_inj _).1 h) (by decide)

/-- A vault with a Jupiter record for the mint 70, which is of Token-2022. -/
def sampleWorld : World := final World.process World.sample [
  (Instruction.initializeStrategy (.jupiterSwap 70) (.ok ())).sentBy World.manager 100]

theorem closes_only_empty_iff_sample :
    (∀ a w' a' s, sample.Consistent a → sampleWorld.strategies.lookup 70 = some s →
      sample.vaultCloseStrategy sampleWorld a World.manager 70
        [sample.associatedTokenAddress sampleWorld.key 70 TOKEN_2022_ID, TOKEN_2022_ID] =
          .ok (w', a') →
      sample.Empty a sampleWorld.key s.strategyType ∧
        sample.Empty a' sampleWorld.key s.strategyType) ↔
    ¬ sample.WrongProgram sampleWorld World.manager 70
        [sample.associatedTokenAddress sampleWorld.key 70 TOKEN_2022_ID, TOKEN_2022_ID] :=
  closes_only_empty_iff sample_faithful _ _ _ _

/-- The vault holds 5 of the mint 70. -/
def sampleAccounts : Accounts :=
  sample.soleAccount sampleWorld.key 70 2039280 (packPlain ⟨70, sampleWorld.key, 5⟩)

theorem wrong_program_closes : ∃ w', sample.Consistent sampleAccounts ∧
    (sampleWorld.strategies.lookup 70).map (·.strategyType) = some (.jupiterSwap 70) ∧
    sample.vaultCloseStrategy sampleWorld sampleAccounts World.manager 70
      [sample.associatedTokenAddress sampleWorld.key 70 TOKEN_ID, TOKEN_ID] =
        .ok (w', sampleAccounts) ∧
    ¬ sample.Empty sampleAccounts sampleWorld.key (.jupiterSwap 70) := by
  have hdata := sample_unpackToken ⟨70, sampleWorld.key, 5⟩
  have hcons : sample.Consistent sampleAccounts := soleAccount_consistent hdata rfl
  have hfive : sample.balance sampleAccounts
      (sample.associatedTokenAddress sampleWorld.key 70 (sample.mintProgram 70).id) = 5 :=
    soleAccount_balance (by decide) hdata
  refine ⟨_, hcons, rfl, rfl, ?_⟩
  intro hempty
  exact absurd (hfive.symm.trans hempty) (by decide)

end Programs

end HedgeVault
