import HedgeVault.Instructions.Phoenix
import HedgeVault.OrderCodec
import HedgeVault.SwapRelay

/-!
# What a call asks for

`readVenue` reads the data of a call to Phoenix, Ember or Hawkeye, so a call that was sent
says what it asks for in its bytes (`Invocation.Asks`). `Relayed` is what holds of every call
the handlers build: the runtime finds the program and every account it names among the
accounts handed on, and the vault signs under its own seeds where the request needs it and
nowhere else.
-/

namespace HedgeVault

open Lib

inductive VenueRequest where
  | registerTrader (args : RegisterTraderArgs)
  | depositFunds (amount : U64)
  | withdrawFunds (amount : U64)
  | trade (r : PhoenixRequest)
  | wrap (amount : U64)
  | unwrap (amount : Option U64)
  | viewMargin

/-! ## The bytes of a request -/

def readPhoenixArgs (discriminator : List Byte) : Decoder VenueRequest :=
  if discriminator = REGISTER_TRADER then
    deserialize.bind fun (args : RegisterTraderArgs) => .pure (.registerTrader args)
  else if discriminator = DEPOSIT_FUNDS then
    deserialize.bind fun (amount : U64) => .pure (.depositFunds amount)
  else if discriminator = WITHDRAW_FUNDS then
    deserialize.bind fun (amount : U64) => .pure (.withdrawFunds amount)
  else (readArgs discriminator).bind fun r => .pure (.trade r)

def readEmberArgs (discriminator : List Byte) : Decoder VenueRequest :=
  if discriminator = EMBER_DEPOSIT then
    deserialize.bind fun (amount : U64) => .pure (.wrap amount)
  else if discriminator = EMBER_WITHDRAW then
    deserialize.bind fun (amount : Option U64) => .pure (.unwrap amount)
  else .fail

def readHawkeyeArgs (discriminator : List Byte) : Decoder VenueRequest :=
  if discriminator = HAWKEYE_VIEW_MARGIN then .pure .viewMargin else .fail

/-- The arguments that follow a discriminator in a call to a program. -/
def readVenueArgs (programId : Pubkey) : List Byte → Decoder VenueRequest :=
  if programId = PHOENIX_PROGRAM_ID then readPhoenixArgs
  else if programId = EMBER_PROGRAM_ID then readEmberArgs
  else if programId = HAWKEYE_PROGRAM_ID then readHawkeyeArgs
  else fun _ => .fail

def readVenue (programId : Pubkey) : Decoder VenueRequest :=
  (Decoder.bytes 8).bind (readVenueArgs programId)

namespace VenueRequest

/-- Whether the request takes no new risk: it is allowed while the vault is reduce-only. -/
def isExit : VenueRequest → Bool
  | withdrawFunds _ => true
  | unwrap _ => true
  | viewMargin => true
  | trade (.cancel _) => true
  | trade (.order (.immediateOrCancel _ _ _ _ _ _ _ _ _ _ orderFlags _)) =>
    orderFlags = ORDER_FLAG_REDUCE_ONLY
  | _ => false

/-- Who signs the call of the request, given the vault and the authority of the transaction. -/
def signedBy (vault payer : Pubkey) : VenueRequest → List Pubkey
  | registerTrader _ => [payer]
  | viewMargin => []
  | _ => [vault]

def seeds (vaultSeeds : List (List Byte)) : VenueRequest → List (List Byte)
  | registerTrader _ => []
  | viewMargin => []
  | _ => vaultSeeds

/-- Whether the request is about the trader account. -/
def namesTrader : VenueRequest → Bool
  | wrap _ => false
  | unwrap _ => false
  | _ => true

/-- Whether the call carries the account tail of Phoenix. -/
def takesTail : VenueRequest → Bool
  | registerTrader _ => false
  | wrap _ => false
  | unwrap _ => false
  | _ => true

end VenueRequest

namespace Invocation

def keys (c : Invocation) : List Pubkey := c.instruction.accounts.map (·.pubkey)

/-- The keys that sign the call. -/
def signers (c : Invocation) : List Pubkey :=
  (c.instruction.accounts.filter (·.isSigner)).map (·.pubkey)

def Asks (c : Invocation) (r : VenueRequest) : Prop :=
  (readVenue c.instruction.programId).Reads c.instruction.data r

/-- What the call asks for, if all of its bytes are read. -/
def asked (c : Invocation) : Option VenueRequest :=
  match (readVenue c.instruction.programId).run c.instruction.data with
  | some (r, []) => some r
  | _ => none

theorem Asks.asked {c : Invocation} {r : VenueRequest} (h : c.Asks r) : c.asked = some r := by
  unfold Invocation.asked
  rw [h.run]

/-- The program and every account the call names are among those handed on. -/
structure Complete (c : Invocation) : Prop where
  program : ∃ a ∈ c.accountInfos, a.key = c.instruction.programId
  passed : JupiterSwapCpi.Passed c.accountInfos c.instruction.accounts

end Invocation

/-- A call that asks for `r`, on behalf of `vault` in a transaction of `payer`. -/
structure Relayed (vault payer traderAccount : Pubkey) (vaultSeeds : List (List Byte))
    (tail : List FlaggedAccount) (r : VenueRequest) (c : Invocation) : Prop where
  asks : c.Asks r
  complete : c.Complete
  signers : c.signers = r.signedBy vault payer
  seeds : c.signerSeeds = r.seeds vaultSeeds
  trader : r.namesTrader = true → traderAccount ∈ c.keys
  tail : r.takesTail = true → tail.map (·.key) <:+: c.keys

section

variable {programId : Pubkey} {data args : List Byte} {r : VenueRequest}

theorem reads_venue (discriminator : List Byte) (hlen : discriminator.length = 8)
    (h : (readVenueArgs programId discriminator).Reads args r) :
    (readVenue programId).Reads (discriminator ++ args) r := by
  have hbytes := Decoder.reads_bytes discriminator
  rw [hlen] at hbytes
  exact hbytes.bind h

theorem reads_phoenix (discriminator : List Byte) (hlen : discriminator.length = 8)
    (h : (readPhoenixArgs discriminator).Reads args r) :
    (readVenue PHOENIX_PROGRAM_ID).Reads (discriminator ++ args) r := by
  refine reads_venue _ hlen ?_
  unfold readVenueArgs
  rw [if_pos rfl]
  exact h

theorem reads_ember (discriminator : List Byte) (hlen : discriminator.length = 8)
    (h : (readEmberArgs discriminator).Reads args r) :
    (readVenue EMBER_PROGRAM_ID).Reads (discriminator ++ args) r := by
  refine reads_venue _ hlen ?_
  unfold readVenueArgs
  rw [if_neg (by decide), if_pos rfl]
  exact h

theorem reads_hawkeye (discriminator : List Byte) (hlen : discriminator.length = 8)
    (h : (readHawkeyeArgs discriminator).Reads args r) :
    (readVenue HAWKEYE_PROGRAM_ID).Reads (discriminator ++ args) r := by
  refine reads_venue _ hlen ?_
  unfold readVenueArgs
  rw [if_neg (by decide), if_neg (by decide), if_pos rfl]
  exact h

/-- No discriminator of an order or a cancel request is one of the three others. -/
theorem readPhoenixArgs_of_readArgs {discriminator : List Byte} {p : PhoenixRequest}
    (h : (readArgs discriminator).Reads args p) :
    readPhoenixArgs discriminator = (readArgs discriminator).bind fun r => .pure (.trade r) := by
  have hne : ∀ other, readArgs other = .fail → discriminator ≠ other := by
    rintro other hfail rfl
    rw [hfail] at h
    cases h.run
  unfold readPhoenixArgs
  rw [if_neg (hne REGISTER_TRADER rfl), if_neg (hne DEPOSIT_FUNDS rfl),
    if_neg (hne WITHDRAW_FUNDS rfl)]

/-- What was encoded as an order or a cancel request is read as one. -/
theorem PhoenixRequest.reads_venue {p : PhoenixRequest} (h : p.instructionData = .ok data) :
    (readVenue PHOENIX_PROGRAM_ID).Reads data (.trade p) := by
  obtain ⟨discriminator, args, rfl, hlen, hargs⟩ := Decoder.Reads.split_head (PhoenixRequest.reads h)
  refine reads_phoenix _ hlen ?_
  rw [readPhoenixArgs_of_readArgs hargs]
  exact hargs.last VenueRequest.trade

end

/-! ## The calls that are built -/

/-- A call that hands on its accounts in the order it names them, the program before them or
among them, is complete. -/
theorem Invocation.Complete.of_suffix {c : Invocation} {a : FlaggedAccount}
    (ha : a ∈ c.accountInfos) (hprogram : a.key = c.instruction.programId)
    (hkeys : c.keys <:+ c.accountInfos.map (·.key)) : c.Complete := by
  refine ⟨⟨a, ha, hprogram⟩, ?_⟩
  intro m hm
  have hk : m.pubkey ∈ c.accountInfos.map (·.key) := hkeys.subset (List.mem_map_of_mem hm)
  exact List.mem_map.1 hk

section

variable {vault payer : Pubkey} {seeds : List (List Byte)} (cpi : PhoenixCpi) (ember : EmberCpi)
  {amount : U64} {tokenAccount globalVault tokenProgram perpAssetMap withdrawQueue
  systemProgram hawkeyeProgram : FlaggedAccount} {market : PhoenixMarket}

@[simp] theorem PhoenixCpi.tailMetas_keys : cpi.tailMetas.map (·.pubkey) = cpi.tail.map (·.key) := by
  simp [tailMetas]

@[simp] theorem PhoenixCpi.tailMetas_signers : cpi.tailMetas.filter (·.isSigner) = [] := by
  simp [tailMetas]

theorem registerTrader_relayed (payerAccount : FlaggedAccount) {tail : List FlaggedAccount}
    (hprogram : cpi.phoenixProgram.key = PHOENIX_PROGRAM_ID) :
    Relayed vault payerAccount.key cpi.traderAccount.key seeds tail
      (.registerTrader ⟨TRADER_MAX_POSITIONS, 0, TRADER_PDA_INDEX, TRADER_SUBACCOUNT_INDEX⟩)
      (cpi.registerTrader payerAccount systemProgram) := by
  refine ⟨?_, .of_suffix List.mem_cons_self hprogram List.suffix_rfl, ?_, rfl, fun _ => ?_, nofun⟩
  · exact reads_phoenix REGISTER_TRADER rfl
      ((Borsh.reads (⟨_, _, _, _⟩ : RegisterTraderArgs)).last VenueRequest.registerTrader)
  · rfl
  · simp [Invocation.keys, PhoenixCpi.registerTrader, PhoenixCpi.invoke]

theorem depositFunds_relayed (hprogram : cpi.phoenixProgram.key = PHOENIX_PROGRAM_ID) :
    Relayed cpi.trader.key payer cpi.traderAccount.key seeds cpi.tail (.depositFunds amount)
      (cpi.depositFunds tokenAccount globalVault tokenProgram amount seeds) := by
  have hkeys : (cpi.depositFunds tokenAccount globalVault tokenProgram amount seeds).keys =
      [cpi.phoenixProgram.key, cpi.logAuthority.key, cpi.globalConfig.key, cpi.trader.key,
        tokenAccount.key, cpi.traderAccount.key, globalVault.key, tokenProgram.key] ++
      cpi.tail.map (·.key) ++ [] := by
    simp [Invocation.keys, PhoenixCpi.depositFunds, PhoenixCpi.invoke, PhoenixCpi.prefixAccounts]
  refine ⟨?_, .of_suffix List.mem_cons_self hprogram ?_, ?_, rfl, fun _ => ?_, fun _ => ?_⟩
  · exact reads_phoenix DEPOSIT_FUNDS rfl
      ((Borsh.reads amount).last VenueRequest.depositFunds)
  · rw [hkeys]
    simp [PhoenixCpi.depositFunds, PhoenixCpi.invoke, PhoenixCpi.prefixAccounts]
  · simp [Invocation.signers, PhoenixCpi.depositFunds, PhoenixCpi.invoke, List.filter_cons,
      PhoenixCpi.prefixAccounts, VenueRequest.signedBy]
  · simp [hkeys]
  · exact ⟨_, _, hkeys.symm⟩

theorem withdrawFunds_relayed (hprogram : cpi.phoenixProgram.key = PHOENIX_PROGRAM_ID) :
    Relayed cpi.trader.key payer cpi.traderAccount.key seeds cpi.tail (.withdrawFunds amount)
      (cpi.withdrawFunds perpAssetMap globalVault tokenAccount tokenProgram withdrawQueue amount
        seeds) := by
  have hkeys : (cpi.withdrawFunds perpAssetMap globalVault tokenAccount tokenProgram withdrawQueue
      amount seeds).keys =
      [cpi.phoenixProgram.key, cpi.logAuthority.key, cpi.globalConfig.key, cpi.trader.key,
        cpi.traderAccount.key, perpAssetMap.key, globalVault.key, tokenAccount.key,
        tokenProgram.key] ++
      cpi.tail.map (·.key) ++ [withdrawQueue.key] := by
    simp [Invocation.keys, PhoenixCpi.withdrawFunds, PhoenixCpi.invoke, PhoenixCpi.prefixAccounts]
  refine ⟨?_, .of_suffix List.mem_cons_self hprogram ?_, ?_, rfl, fun _ => ?_, fun _ => ?_⟩
  · exact reads_phoenix WITHDRAW_FUNDS rfl
      ((Borsh.reads amount).last VenueRequest.withdrawFunds)
  · rw [hkeys]
    simp [PhoenixCpi.withdrawFunds, PhoenixCpi.invoke, PhoenixCpi.prefixAccounts]
  · simp [Invocation.signers, PhoenixCpi.withdrawFunds, PhoenixCpi.invoke, List.filter_cons,
      PhoenixCpi.prefixAccounts, VenueRequest.signedBy]
  · simp [hkeys]
  · exact ⟨_, _, hkeys.symm⟩

theorem marketAction_relayed {p : PhoenixRequest} {data : List Byte}
    (hprogram : cpi.phoenixProgram.key = PHOENIX_PROGRAM_ID) (hdata : p.instructionData = .ok data) :
    Relayed cpi.trader.key payer cpi.traderAccount.key seeds cpi.tail (.trade p)
      (cpi.marketAction market data seeds) := by
  have hkeys : (cpi.marketAction market data seeds).keys =
      [cpi.phoenixProgram.key, cpi.logAuthority.key, cpi.globalConfig.key, cpi.trader.key,
        cpi.traderAccount.key, market.perpAssetMap.key] ++
      cpi.tail.map (·.key) ++ [market.orderbook.key, market.splineCollection.key] := by
    simp [Invocation.keys, PhoenixCpi.marketAction, PhoenixCpi.invoke, PhoenixCpi.prefixAccounts]
  refine ⟨PhoenixRequest.reads_venue hdata, .of_suffix List.mem_cons_self hprogram ?_, ?_, rfl,
    fun _ => ?_, fun _ => ?_⟩
  · rw [hkeys]
    simp [PhoenixCpi.marketAction, PhoenixCpi.invoke, PhoenixCpi.prefixAccounts]
  · simp [Invocation.signers, PhoenixCpi.marketAction, PhoenixCpi.invoke, List.filter_cons,
      PhoenixCpi.prefixAccounts, VenueRequest.signedBy]
  · simp [hkeys]
  · exact ⟨_, _, hkeys.symm⟩

theorem viewMargin_relayed (hprogram : hawkeyeProgram.key = HAWKEYE_PROGRAM_ID) :
    Relayed vault payer cpi.traderAccount.key seeds cpi.tail .viewMargin
      (cpi.viewMargin hawkeyeProgram perpAssetMap) := by
  have hkeys : (cpi.viewMargin hawkeyeProgram perpAssetMap).keys =
      [cpi.phoenixProgram.key, cpi.globalConfig.key] ++ cpi.tail.map (·.key) ++
      [perpAssetMap.key, cpi.traderAccount.key] := by
    simp [Invocation.keys, PhoenixCpi.viewMargin]
  refine ⟨?_, .of_suffix List.mem_cons_self hprogram ?_, ?_, rfl, fun _ => ?_, fun _ => ?_⟩
  · exact reads_hawkeye HAWKEYE_VIEW_MARGIN rfl
      (Decoder.Reads.pure _)
  · refine ⟨[hawkeyeProgram.key], ?_⟩
    rw [hkeys]
    simp [PhoenixCpi.viewMargin]
  · simp [Invocation.signers, PhoenixCpi.viewMargin, VenueRequest.signedBy]
  · simp [hkeys]
  · exact ⟨_, _, hkeys.symm⟩

/-- The calls to Ember do not take the accounts of Phoenix. -/
theorem ember_relayed {r : VenueRequest} {data : List Byte} {traderAccount : Pubkey}
    {tail : List FlaggedAccount} (hprogram : ember.emberProgram.key = EMBER_PROGRAM_ID)
    (hreads : (readVenue EMBER_PROGRAM_ID).Reads data r)
    (hsigned : r.signedBy ember.trader.key payer = [ember.trader.key])
    (hseeds : r.seeds seeds = seeds) (htrader : r.namesTrader = false)
    (htail : r.takesTail = false) :
    Relayed ember.trader.key payer traderAccount seeds tail r (ember.invoke data seeds) := by
  refine ⟨hreads, .of_suffix List.mem_cons_self hprogram (List.suffix_cons _ _), ?_, hseeds.symm,
    ?_, ?_⟩
  · rw [hsigned]
    rfl
  · rw [htrader]
    exact nofun
  · rw [htail]
    exact nofun

theorem wrap_relayed {traderAccount : Pubkey} {tail : List FlaggedAccount}
    (hprogram : ember.emberProgram.key = EMBER_PROGRAM_ID) :
    Relayed ember.trader.key payer traderAccount seeds tail (.wrap amount)
      (ember.deposit amount seeds) :=
  ember_relayed ember hprogram (reads_ember EMBER_DEPOSIT rfl
    ((Borsh.reads amount).last VenueRequest.wrap)) rfl rfl rfl rfl

theorem unwrap_relayed {traderAccount : Pubkey} {tail : List FlaggedAccount} {n : Option U64}
    (hprogram : ember.emberProgram.key = EMBER_PROGRAM_ID) :
    Relayed ember.trader.key payer traderAccount seeds tail (.unwrap n)
      (ember.withdraw n seeds) :=
  ember_relayed ember hprogram (reads_ember EMBER_WITHDRAW rfl
    ((Borsh.reads n).last VenueRequest.unwrap)) rfl rfl rfl rfl

end

end HedgeVault
