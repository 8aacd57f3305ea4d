import HedgeVault.Instructions.JupiterSwap

/-!
# The instruction relayed to Jupiter

`JupiterSwapCpi.swap` builds two lists by hand: the accounts it hands to `invoke_signed` and
the metas of the instruction, each with its own order for each route. The routes that take
accounts at fixed slots read them from the front of the remaining ones. `swap` returns what
`invoke_signed` is called with (`Invocation`).
-/

namespace HedgeVault

/-- An account with the flags the caller gave it. -/
structure FlaggedAccount extends AccountInfo where
  isSigner : Bool
  isWritable : Bool

structure AccountMeta where
  pubkey : Pubkey
  isSigner : Bool
  isWritable : Bool
  deriving DecidableEq

/-- `AccountMeta::new`: a writable account. -/
def AccountMeta.new (pubkey : Pubkey) (isSigner : Bool) : AccountMeta := ⟨pubkey, isSigner, true⟩

def AccountMeta.newReadonly (pubkey : Pubkey) (isSigner : Bool) : AccountMeta :=
  ⟨pubkey, isSigner, false⟩

section

variable {k : Pubkey} {s : Bool}

@[simp] theorem AccountMeta.new_pubkey : (AccountMeta.new k s).pubkey = k := rfl

@[simp] theorem AccountMeta.new_isSigner : (AccountMeta.new k s).isSigner = s := rfl

@[simp] theorem AccountMeta.newReadonly_pubkey : (AccountMeta.newReadonly k s).pubkey = k := rfl

@[simp] theorem AccountMeta.newReadonly_isSigner : (AccountMeta.newReadonly k s).isSigner = s := rfl

end

/-- A remaining account under the flags the caller gave it. -/
def FlaggedAccount.relayed (a : FlaggedAccount) : AccountMeta := ⟨a.key, a.isSigner, a.isWritable⟩

/-- `accounts[i]`: out of range, the program panics. -/
def accountAt (accounts : List FlaggedAccount) (i : Nat) : Result FlaggedAccount :=
  match accounts[i]? with
  | some a => .ok a
  | none => .error .programFailed

structure CpiInstruction where
  programId : Pubkey
  accounts : List AccountMeta
  data : List Lib.Byte

/-- The arguments of `invoke_signed`. -/
structure Invocation where
  instruction : CpiInstruction
  accountInfos : List FlaggedAccount
  signerSeeds : List (List Lib.Byte)

structure JupiterSwapCpi where
  sourceTokenProgram : FlaggedAccount
  destinationTokenProgram : FlaggedAccount
  tokenAccountAuthority : FlaggedAccount
  sourceTokenAccount : FlaggedAccount
  destinationTokenAccount : FlaggedAccount
  sourceMint : FlaggedAccount
  destinationMint : FlaggedAccount
  eventAuthority : FlaggedAccount
  jupiterProgram : FlaggedAccount

namespace JupiterSwapCpi

variable (cpi : JupiterSwapCpi)

/-- The optional `token_2022_program` slot: Jupiter's own key stands for `None`. -/
def token2022Program : Pubkey :=
  match [cpi.sourceTokenProgram, cpi.destinationTokenProgram].find? (·.key = TOKEN_2022_ID) with
  | some program => program.key
  | none => cpi.jupiterProgram.key

def exactOutRoute (remainingAccounts : List FlaggedAccount) :
    List FlaggedAccount × List AccountMeta :=
  ([cpi.sourceTokenProgram,
    cpi.destinationTokenProgram,
    cpi.tokenAccountAuthority,
    cpi.sourceTokenAccount,
    cpi.destinationTokenAccount,
    cpi.sourceMint,
    cpi.destinationMint,
    cpi.eventAuthority,
    cpi.jupiterProgram] ++ remainingAccounts,
   [.newReadonly TOKEN_ID false,
    .newReadonly cpi.tokenAccountAuthority.key true,
    .new cpi.sourceTokenAccount.key false,
    .new cpi.destinationTokenAccount.key false,
    .newReadonly cpi.jupiterProgram.key false, -- the optional destination token account
    .newReadonly cpi.sourceMint.key false,
    .newReadonly cpi.destinationMint.key false,
    .newReadonly cpi.jupiterProgram.key false, -- the optional platform fee account
    .newReadonly cpi.token2022Program false,
    .newReadonly cpi.eventAuthority.key false,
    .newReadonly cpi.jupiterProgram.key false] ++ remainingAccounts.map (·.relayed))

def route (remainingAccounts : List FlaggedAccount) : List FlaggedAccount × List AccountMeta :=
  ([cpi.sourceTokenProgram,
    cpi.destinationTokenProgram,
    cpi.tokenAccountAuthority,
    cpi.sourceTokenAccount,
    cpi.destinationTokenAccount,
    cpi.destinationMint,
    cpi.eventAuthority,
    cpi.jupiterProgram] ++ remainingAccounts,
   [.newReadonly TOKEN_ID false,
    .newReadonly cpi.tokenAccountAuthority.key true,
    .new cpi.sourceTokenAccount.key false,
    .new cpi.destinationTokenAccount.key false,
    .newReadonly cpi.jupiterProgram.key false, -- the optional destination token account
    .newReadonly cpi.destinationMint.key false,
    .newReadonly cpi.jupiterProgram.key false, -- the optional platform fee account
    .newReadonly cpi.eventAuthority.key false,
    .newReadonly cpi.jupiterProgram.key false] ++ remainingAccounts.map (·.relayed))

def routeWithTokenLedger (remainingAccounts : List FlaggedAccount) :
    Result (List FlaggedAccount × List AccountMeta) := do
  validate (remainingAccounts ≠ []) .invalidRemainingAccounts
  let tokenLedger ← accountAt remainingAccounts 0
  validate (tokenLedger.owner = cpi.jupiterProgram.key) .invalidProgramId
  let ledger ← tryDeserialize TokenLedger.discriminator TokenLedger.decoder tokenLedger.data
  validate (ledger.tokenAccount = cpi.sourceTokenAccount.key) .invalidTokenAccountOwner
  pure
    ([cpi.sourceTokenProgram,
      cpi.destinationTokenProgram,
      cpi.tokenAccountAuthority,
      cpi.sourceTokenAccount,
      cpi.destinationTokenAccount,
      cpi.destinationMint,
      tokenLedger,
      cpi.eventAuthority,
      cpi.jupiterProgram] ++ remainingAccounts.drop 1,
     [.newReadonly TOKEN_ID false,
      .newReadonly cpi.tokenAccountAuthority.key true,
      .new cpi.sourceTokenAccount.key false,
      .new cpi.destinationTokenAccount.key false,
      .newReadonly cpi.jupiterProgram.key false, -- the optional destination token account
      .newReadonly cpi.destinationMint.key false,
      .newReadonly cpi.jupiterProgram.key false, -- the optional platform fee account
      .newReadonly tokenLedger.key false,
      .newReadonly cpi.eventAuthority.key false,
      .newReadonly cpi.jupiterProgram.key false] ++
        (remainingAccounts.drop 1).map (·.relayed))

/-- Both shared-accounts routes. -/
def sharedAccountsRoute (remainingAccounts : List FlaggedAccount) :
    Result (List FlaggedAccount × List AccountMeta) := do
  let programAuthority ← accountAt remainingAccounts 0
  let programSource ← accountAt remainingAccounts 1
  let programDestination ← accountAt remainingAccounts 2
  pure
    ([cpi.sourceTokenProgram,
      cpi.destinationTokenProgram,
      programAuthority,
      cpi.tokenAccountAuthority,
      cpi.sourceTokenAccount,
      programSource,
      programDestination,
      cpi.destinationTokenAccount,
      cpi.sourceMint,
      cpi.destinationMint,
      cpi.eventAuthority,
      cpi.jupiterProgram] ++ remainingAccounts,
     [.newReadonly TOKEN_ID false,
      .newReadonly programAuthority.key false,
      .newReadonly cpi.tokenAccountAuthority.key true,
      .new cpi.sourceTokenAccount.key false,
      .new programSource.key false,
      .new programDestination.key false,
      .new cpi.destinationTokenAccount.key false,
      .newReadonly cpi.sourceMint.key false,
      .newReadonly cpi.destinationMint.key false,
      .newReadonly cpi.jupiterProgram.key false, -- the optional platform fee account
      .newReadonly cpi.token2022Program false,
      .newReadonly cpi.eventAuthority.key false,
      .newReadonly cpi.jupiterProgram.key false] ++
        (remainingAccounts.drop 3).map (·.relayed))

/-- The arm of the `match` for a route. -/
def listsFor (remainingAccounts : List FlaggedAccount) :
    SwapVariant → Result (List FlaggedAccount × List AccountMeta)
  | .exactOutRoute => pure (cpi.exactOutRoute remainingAccounts)
  | .route => pure (cpi.route remainingAccounts)
  | .routeWithTokenLedger => cpi.routeWithTokenLedger remainingAccounts
  | .sharedAccountsExactOutRoute | .sharedAccountsRoute =>
    cpi.sharedAccountsRoute remainingAccounts

def swap (swapData : List Lib.Byte) (remainingAccounts : List FlaggedAccount)
    (signerSeeds : List (List Lib.Byte)) : Result Invocation := do
  let variant ← SwapVariant.fromSwapData swapData
  let (accountInfos, accounts) ← cpi.listsFor remainingAccounts variant
  pure {
    instruction := { programId := cpi.jupiterProgram.key, accounts, data := swapData }
    accountInfos
    signerSeeds }

end JupiterSwapCpi

end HedgeVault
