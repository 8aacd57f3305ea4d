import HedgeVault.Protocol.JupiterCpi
import HedgeVault.RouteAgreement

/-!
# When the relayed instruction is well formed

The metas are the vault's own and then the remaining accounts (`Arranged`), for every list
`swap` builds (`listsFor_ok`). Two things can still go wrong: the shared-accounts routes
index three accounts without counting them (`listsFor_error`), and the first meta is SPL
Token whether or not an account of that key is handed on (`passed_iff`).
-/

namespace HedgeVault

/-- Where the metas have the leading remaining accounts. -/
def SwapVariant.fixedSlots : SwapVariant → List Nat
  | .route => []
  | .exactOutRoute => []
  | .routeWithTokenLedger => [7]
  | .sharedAccountsRoute => [1, 4, 5]
  | .sharedAccountsExactOutRoute => [1, 4, 5]

/-- How many metas stand before the other remaining accounts. -/
def SwapVariant.ownMetas : SwapVariant → Nat
  | .route => 9
  | .exactOutRoute => 11
  | .routeWithTokenLedger => 10
  | .sharedAccountsRoute => 13
  | .sharedAccountsExactOutRoute => 13

namespace JupiterSwapCpi

/-- The metas keep the remaining accounts, and only the authority signs by the program. -/
structure Arranged (cpi : JupiterSwapCpi) (variant : SwapVariant)
    (remainingAccounts : List FlaggedAccount) (metas : List AccountMeta) : Prop where
  fixed : variant.fixedSlots.map (fun i => metas[i]?.map (·.pubkey)) =
    (remainingAccounts.take variant.fixedSlots.length).map (fun a => some a.key)
  others : metas.drop variant.ownMetas =
    (remainingAccounts.drop variant.fixedSlots.length).map (·.relayed)
  signers : (metas.take variant.ownMetas).filter (·.isSigner) =
    [.newReadonly cpi.tokenAccountAuthority.key true]

/-- Every key that the metas name is the key of an account handed on. -/
def Passed (infos : List FlaggedAccount) (metas : List AccountMeta) : Prop :=
  ∀ m ∈ metas, ∃ a ∈ infos, a.key = m.pubkey

/-- The call fails without a panic, or builds a well-formed instruction. -/
def RelaysWell (cpi : JupiterSwapCpi) (variant : SwapVariant)
    (remainingAccounts : List FlaggedAccount) : Result Invocation → Prop
  | .error e => e ≠ .programFailed
  | .ok i => Passed i.accountInfos i.instruction.accounts ∧
      cpi.Arranged variant remainingAccounts i.instruction.accounts

/-- The named accounts handed on for a route. -/
def named (cpi : JupiterSwapCpi) (variant : SwapVariant) : List FlaggedAccount :=
  [cpi.sourceTokenProgram, cpi.destinationTokenProgram, cpi.tokenAccountAuthority,
    cpi.sourceTokenAccount, cpi.destinationTokenAccount, cpi.destinationMint,
    cpi.eventAuthority, cpi.jupiterProgram] ++
  match variant with
  | .route | .routeWithTokenLedger => []
  | .exactOutRoute | .sharedAccountsRoute | .sharedAccountsExactOutRoute => [cpi.sourceMint]

/-- One of the accounts of the call is SPL Token. -/
def PassesSplToken (cpi : JupiterSwapCpi) (variant : SwapVariant)
    (remainingAccounts : List FlaggedAccount) : Prop :=
  ∃ a ∈ cpi.named variant ++ remainingAccounts, a.key = TOKEN_ID

/-- The first remaining account is a ledger of Jupiter's for the source account. -/
def AcceptsLedger (cpi : JupiterSwapCpi) (remainingAccounts : List FlaggedAccount) : Prop :=
  ∃ tokenLedger rest ledger, remainingAccounts = tokenLedger :: rest ∧
    tokenLedger.owner = cpi.jupiterProgram.key ∧
    tryDeserialize TokenLedger.discriminator TokenLedger.decoder tokenLedger.data = .ok ledger ∧
    ledger.tokenAccount = cpi.sourceTokenAccount.key

section

variable {cpi : JupiterSwapCpi} {variant : SwapVariant} {remainingAccounts : List FlaggedAccount}
  {lists : List FlaggedAccount × List AccountMeta} {e : Error}

/-! ## The lists of each route -/

/-- The token program of the optional slot is one of three accounts handed on. -/
theorem token2022Program_passed (cpi : JupiterSwapCpi) :
    cpi.token2022Program = cpi.sourceTokenProgram.key ∨
      cpi.token2022Program = cpi.destinationTokenProgram.key ∨
      cpi.token2022Program = cpi.jupiterProgram.key := by
  unfold token2022Program
  cases hf : [cpi.sourceTokenProgram, cpi.destinationTokenProgram].find?
      (·.key = TOKEN_2022_ID) with
  | none => exact .inr (.inr rfl)
  | some program =>
    have hm := List.mem_of_find?_eq_some hf
    simp only [List.mem_cons, List.not_mem_nil, or_false] at hm
    rcases hm with rfl | rfl
    · exact .inl rfl
    · exact .inr (.inl rfl)

/-- What `listsFor` builds: SPL Token first, every other meta for an account handed on. -/
structure Built (cpi : JupiterSwapCpi) (variant : SwapVariant)
    (remainingAccounts : List FlaggedAccount)
    (lists : List FlaggedAccount × List AccountMeta) : Prop where
  infos : ∀ a, a ∈ lists.1 ↔ a ∈ cpi.named variant ++ remainingAccounts
  metas : ∃ own, lists.2 = .newReadonly TOKEN_ID false :: (own ++
      (remainingAccounts.drop variant.fixedSlots.length).map (·.relayed)) ∧
    ∀ m ∈ own, ∃ a ∈ cpi.named variant ++ remainingAccounts, a.key = m.pubkey
  arranged : cpi.Arranged variant remainingAccounts lists.2

theorem route_built : Built cpi .route remainingAccounts (cpi.route remainingAccounts) := by
  refine ⟨fun a => ?_, ⟨_, rfl, ?_⟩, ?_⟩
  · simp [route, named]
  · simp [named]
  · constructor <;> simp [route, SwapVariant.fixedSlots, SwapVariant.ownMetas, List.filter_cons]

theorem exactOutRoute_built :
    Built cpi .exactOutRoute remainingAccounts (cpi.exactOutRoute remainingAccounts) := by
  refine ⟨fun a => ?_, ⟨_, rfl, ?_⟩, ?_⟩
  · grind [exactOutRoute, named]
  · rcases cpi.token2022Program_passed with h | h | h <;> simp [h, named]
  · constructor <;>
      simp [exactOutRoute, SwapVariant.fixedSlots, SwapVariant.ownMetas, List.filter_cons]

theorem accountAt_eq_ok {i : Nat} {a : FlaggedAccount} :
    accountAt remainingAccounts i = .ok a ↔ remainingAccounts[i]? = some a := by
  unfold accountAt
  split <;> simp_all

theorem routeWithTokenLedger_ok (h : cpi.routeWithTokenLedger remainingAccounts = .ok lists) :
    cpi.AcceptsLedger remainingAccounts ∧
      Built cpi .routeWithTokenLedger remainingAccounts lists := by
  simp only [routeWithTokenLedger, bind_eq_ok, validate_eq_ok, accountAt_eq_ok,
    pure_eq_ok] at h
  obtain ⟨-, -, tokenLedger, ht, -, howner, ledger, hl, -, hta, rfl⟩ := h
  obtain _ | ⟨_, rest⟩ := remainingAccounts
  · cases ht
  cases ht
  refine ⟨⟨tokenLedger, rest, ledger, rfl, howner, hl, hta⟩, fun a => ?_, ⟨_, rfl, ?_⟩, ?_⟩
  · grind [named]
  · simp [named]
  · constructor <;> simp [SwapVariant.fixedSlots, SwapVariant.ownMetas, List.filter_cons]

theorem sharedAccountsRoute_length (h : cpi.sharedAccountsRoute remainingAccounts = .ok lists) :
    3 ≤ remainingAccounts.length := by
  simp only [sharedAccountsRoute, bind_eq_ok, accountAt_eq_ok] at h
  obtain ⟨_, -, _, -, _, h2, -⟩ := h
  exact (List.getElem?_eq_some_iff.mp h2).1

theorem sharedAccountsRoute_ok (h : cpi.sharedAccountsRoute remainingAccounts = .ok lists)
    (hid : variant.hasId = true) : Built cpi variant remainingAccounts lists := by
  simp only [sharedAccountsRoute, bind_eq_ok, accountAt_eq_ok, pure_eq_ok] at h
  obtain ⟨a0, h0, a1, h1, a2, h2, rfl⟩ := h
  obtain _ | ⟨b0, _ | ⟨b1, _ | ⟨b2, rest⟩⟩⟩ := remainingAccounts <;> cases h2
  cases h0
  cases h1
  have hslots : variant.fixedSlots = [1, 4, 5] ∧ variant.ownMetas = 13 := by
    cases variant <;> simp_all [SwapVariant.hasId, SwapVariant.fixedSlots, SwapVariant.ownMetas]
  have hnamed : cpi.named variant = cpi.named .sharedAccountsRoute := by
    cases variant <;> simp_all [SwapVariant.hasId, named]
  refine ⟨fun a => ?_, ?_, ?_⟩
  · rw [hnamed]
    simp [named]
    grind
  · rw [hnamed, hslots.1]
    refine ⟨_, rfl, ?_⟩
    rcases cpi.token2022Program_passed with h | h | h <;> simp [h, named]
  · constructor <;> simp [hslots, List.filter_cons]

theorem listsFor_ok (h : cpi.listsFor remainingAccounts variant = .ok lists) :
    Built cpi variant remainingAccounts lists := by
  cases variant with
  | route => exact pure_eq_ok.mp h ▸ route_built
  | exactOutRoute => exact pure_eq_ok.mp h ▸ exactOutRoute_built
  | routeWithTokenLedger => exact (routeWithTokenLedger_ok h).2
  | sharedAccountsRoute | sharedAccountsExactOutRoute => exact sharedAccountsRoute_ok h rfl

/-! ## The two ways out -/

/-- The metas are all handed on exactly when SPL Token is. -/
theorem passed_iff (h : Built cpi variant remainingAccounts lists) :
    Passed lists.1 lists.2 ↔ cpi.PassesSplToken variant remainingAccounts := by
  obtain ⟨own, hmetas, hown⟩ := h.metas
  have hinfos : ∀ m, (∃ a ∈ lists.1, a.key = m) ↔
      ∃ a ∈ cpi.named variant ++ remainingAccounts, a.key = m := fun m => by simp only [h.infos]
  simp only [Passed, PassesSplToken, hinfos, hmetas]
  refine ⟨fun hp => hp _ List.mem_cons_self, fun hs m hm => ?_⟩
  rcases List.mem_cons.mp hm with rfl | hm
  · exact hs
  rcases List.mem_append.mp hm with hm | hm
  · exact hown m hm
  · obtain ⟨a, ha, rfl⟩ := List.mem_map.mp hm
    exact ⟨a, List.mem_append_right _ (List.mem_of_mem_drop ha), rfl⟩

theorem tryDeserialize_no_panic {α : Type} {discriminator : List Lib.Byte}
    {fields : Lib.Decoder α} {data : List Lib.Byte} :
    ErrorsIn (· ≠ .programFailed) (tryDeserialize discriminator fields data) := by
  unfold tryDeserialize
  grind [ErrorsIn]

theorem routeWithTokenLedger_no_panic :
    ErrorsIn (· ≠ .programFailed) (cpi.routeWithTokenLedger remainingAccounts) := by
  refine (ErrorsIn.validate nofun).bind fun _ hne => ?_
  obtain ⟨tokenLedger, rest, rfl⟩ := List.exists_cons_of_ne_nil (validate_eq_ok.mp hne)
  refine (ErrorsIn.ok tokenLedger).bind fun _ _ => ?_
  refine (ErrorsIn.validate nofun).bind fun _ _ => ?_
  refine tryDeserialize_no_panic.bind fun _ _ => ?_
  exact (ErrorsIn.validate nofun).bind fun _ _ => .ok _

/-- The checks on the ledger end the call with an error of the program's own. -/
theorem routeWithTokenLedger_error (h : cpi.routeWithTokenLedger remainingAccounts = .error e) :
    e ≠ .programFailed ∧ ¬ cpi.AcceptsLedger remainingAccounts := by
  refine ⟨routeWithTokenLedger_no_panic e h, ?_⟩
  rintro ⟨tokenLedger, rest, ledger, rfl, howner, hl, hta⟩
  simp [routeWithTokenLedger, accountAt, validate, howner, hl, hta, pure, Except.pure] at h

theorem sharedAccountsRoute_error (h : cpi.sharedAccountsRoute remainingAccounts = .error e) :
    e = .programFailed ∧ remainingAccounts.length < 3 := by
  obtain _ | ⟨_, _ | ⟨_, _ | ⟨_, rest⟩⟩⟩ := remainingAccounts
  · cases h
    exact ⟨rfl, by simp⟩
  · cases h
    exact ⟨rfl, by simp⟩
  · cases h
    exact ⟨rfl, by simp⟩
  · cases h

/-- A route fails without a panic but for the shared-accounts ones, which only panic. -/
theorem listsFor_error (h : cpi.listsFor remainingAccounts variant = .error e) :
    (e = .programFailed ∧ variant.hasId ∧ remainingAccounts.length < 3) ∨
      (e ≠ .programFailed ∧ variant.usesTokenLedger ∧ ¬ cpi.AcceptsLedger remainingAccounts) := by
  cases variant with
  | route | exactOutRoute => cases h
  | routeWithTokenLedger =>
    obtain ⟨he, hl⟩ := routeWithTokenLedger_error h
    exact .inr ⟨he, rfl, hl⟩
  | sharedAccountsRoute | sharedAccountsExactOutRoute =>
    obtain ⟨he, hl⟩ := sharedAccountsRoute_error h
    exact .inl ⟨he, rfl, hl⟩

/-- What a route asks of the caller before it builds its lists. -/
theorem listsFor_ok_checks (h : cpi.listsFor remainingAccounts variant = .ok lists) :
    (variant.hasId → 3 ≤ remainingAccounts.length) ∧
      (variant.usesTokenLedger → cpi.AcceptsLedger remainingAccounts) := by
  cases variant with
  | route | exactOutRoute => exact ⟨nofun, nofun⟩
  | routeWithTokenLedger => exact ⟨nofun, fun _ => (routeWithTokenLedger_ok h).1⟩
  | sharedAccountsRoute | sharedAccountsExactOutRoute =>
    exact ⟨fun _ => sharedAccountsRoute_length h, nofun⟩

/-! ## The checks the handler is modelled with -/

theorem sharedAccountsRoute_checks :
    (cpi.sharedAccountsRoute remainingAccounts).map (fun _ => ()) =
      if remainingAccounts.length < 3 then .error .programFailed else pure () := by
  obtain _ | ⟨_, _ | ⟨_, _ | ⟨_, rest⟩⟩⟩ := remainingAccounts
  · rfl
  · rfl
  · rfl
  · rw [if_neg (by simp)]
    rfl

/-- `swap` makes the checks of `checkRemainingAccounts`, which the handler is modelled with. -/
theorem listsFor_checks (hj : cpi.jupiterProgram.key = JUPITER_ID) {accounts : SwapAccounts}
    (hsource : accounts.vaultSourceTokenAccount = cpi.sourceTokenAccount.key)
    (hremaining : accounts.remainingAccounts = remainingAccounts.map (·.toAccountInfo)) :
    (cpi.listsFor remainingAccounts variant).map (fun _ => ()) =
      checkRemainingAccounts variant accounts := by
  cases variant with
  | route | exactOutRoute => rfl
  | routeWithTokenLedger =>
    simp only [checkRemainingAccounts, hremaining, hsource, listsFor, routeWithTokenLedger, hj]
    obtain _ | ⟨tokenLedger, rest⟩ := remainingAccounts
    · rfl
    simp only [List.map_cons, accountAt, List.getElem?_cons_zero, ok_bind]
    rw [validate_of (List.cons_ne_nil _ _), ok_bind]
    cases validate (tokenLedger.owner = JUPITER_ID) .invalidProgramId with
    | error e => rfl
    | ok u =>
      cases tryDeserialize TokenLedger.discriminator TokenLedger.decoder tokenLedger.data with
      | error e => rfl
      | ok ledger =>
        simp only [ok_bind]
        cases validate (ledger.tokenAccount = cpi.sourceTokenAccount.key)
          .invalidTokenAccountOwner <;> rfl
  | sharedAccountsRoute | sharedAccountsExactOutRoute =>
    simp only [checkRemainingAccounts, hremaining, List.length_map]
    exact sharedAccountsRoute_checks

end

/-- A route is relayed as the caller's list asks exactly when the shared-accounts routes
get their three accounts and one account of the call is SPL Token. -/
theorem swap_relaysWell_iff (cpi : JupiterSwapCpi) (swapData : List Lib.Byte)
    (remainingAccounts : List FlaggedAccount) (signerSeeds : List (List Lib.Byte))
    (variant : SwapVariant) (hv : SwapVariant.fromSwapData swapData = .ok variant) :
    cpi.RelaysWell variant remainingAccounts (cpi.swap swapData remainingAccounts signerSeeds) ↔
      (variant.hasId → 3 ≤ remainingAccounts.length) ∧
      ((variant.usesTokenLedger → cpi.AcceptsLedger remainingAccounts) →
        cpi.PassesSplToken variant remainingAccounts) := by
  have hswap : cpi.swap swapData remainingAccounts signerSeeds =
      cpi.listsFor remainingAccounts variant >>= fun lists => pure
        ⟨⟨cpi.jupiterProgram.key, lists.2, swapData⟩, lists.1, signerSeeds⟩ := by
    simp only [swap, hv, ok_bind]
  rw [hswap]
  cases hl : cpi.listsFor remainingAccounts variant with
  | ok lists =>
    have hb := listsFor_ok hl
    obtain ⟨hid, hledger⟩ := listsFor_ok_checks hl
    have hp := passed_iff hb
    refine ⟨fun hw => ⟨hid, fun _ => hp.mp hw.1⟩, fun hc => ⟨hp.mpr (hc.2 hledger), hb.arranged⟩⟩
  | error e =>
    rcases listsFor_error hl with ⟨rfl, hid, hlen⟩ | ⟨he, hledger, hno⟩
    · refine ⟨fun hw => absurd rfl hw, fun hc => ?_⟩
      have := hc.1 hid
      omega
    · refine ⟨fun _ => ⟨fun hid => ?_, fun ha => absurd (ha hledger) hno⟩, fun _ => he⟩
      cases variant <;> cases hid <;> cases hledger

/-! A swap whose legs run under one token program. -/

def sampleAccount (key : Pubkey) : FlaggedAccount := ⟨⟨⟨Pubkey.default, 0, []⟩, key⟩, false, true⟩

def sample (tokenProgram : Pubkey) : JupiterSwapCpi where
  sourceTokenProgram := sampleAccount tokenProgram
  destinationTokenProgram := sampleAccount tokenProgram
  tokenAccountAuthority := sampleAccount 1
  sourceTokenAccount := sampleAccount 2
  destinationTokenAccount := sampleAccount 3
  sourceMint := sampleAccount 4
  destinationMint := sampleAccount 5
  eventAuthority := sampleAccount 6
  jupiterProgram := sampleAccount JUPITER_ID

/-- The route data of `sampleRouteData` with the id of a program authority. -/
def sampleSharedData : List Lib.Byte :=
  SwapVariant.sharedAccountsRoute.discriminator ++ [1] ++ [0, 0, 0, 0] ++
    [232, 3, 0, 0, 0, 0, 0, 0] ++ [208, 7, 0, 0, 0, 0, 0, 0] ++ [50, 0] ++ [0]

theorem swap_relaysWell_iff_sample :
    (sample TOKEN_ID).RelaysWell .route [sampleAccount 7]
        ((sample TOKEN_ID).swap sampleRouteData [sampleAccount 7] []) ↔
      (SwapVariant.route.hasId → 3 ≤ [sampleAccount 7].length) ∧
      ((SwapVariant.route.usesTokenLedger → (sample TOKEN_ID).AcceptsLedger [sampleAccount 7]) →
        (sample TOKEN_ID).PassesSplToken .route [sampleAccount 7]) :=
  swap_relaysWell_iff (sample TOKEN_ID) sampleRouteData [sampleAccount 7] [] .route rfl

/-- Without remaining accounts a shared-accounts route panics, and a route between two
Token-2022 mints names SPL Token without its account. -/
theorem relay_illFormed :
    (SwapVariant.fromSwapData sampleSharedData = .ok .sharedAccountsRoute ∧
      ¬ (sample TOKEN_ID).RelaysWell .sharedAccountsRoute []
        ((sample TOKEN_ID).swap sampleSharedData [] [])) ∧
    (SwapVariant.fromSwapData sampleRouteData = .ok .route ∧
      ¬ (sample TOKEN_2022_ID).RelaysWell .route []
        ((sample TOKEN_2022_ID).swap sampleRouteData [] [])) := by
  refine ⟨⟨rfl, fun h => h rfl⟩, rfl, fun h => ?_⟩
  obtain ⟨a, ha, hkey⟩ := h.1 (.newReadonly TOKEN_ID false) List.mem_cons_self
  have hkeys : ∀ a ∈ ((sample TOKEN_2022_ID).route []).1, a.key ≠ TOKEN_ID := by decide
  exact hkeys a ha hkey

end JupiterSwapCpi

end HedgeVault
