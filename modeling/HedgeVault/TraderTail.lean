import HedgeVault.PhoenixLayout

/-!
# The Phoenix trader tail

The tail is accepted exactly when it is two blocks, each a header followed by the
accounts it counts (`validateTraderTail_iff`). The counts come from the headers
themselves, so the second header is found by the first; a list that ends too early, is
too long or has a header that counts nothing is refused with one of two errors.
-/

namespace HedgeVault

open Lib

/-- The accounts a header counts, itself included. -/
def AccountInfo.arenas (a : AccountInfo) : Nat :=
  min (leWord 16 (slice a.data 52 54)).toNat (leWord 16 (slice a.data 54 56)).toNat

structure ArenaHeader (key : Pubkey) (discriminator : List Byte) (a : AccountInfo) : Prop where
  key_eq : a.key = key
  owner_eq : a.owner = PHOENIX_PROGRAM_ID
  discriminator_eq : a.data.take 8 = discriminator
  length_le : MULTI_ARENA_LEN ≤ a.data.length

/-- A header and as many accounts as it counts, the header among them. -/
def ArenaBlock (key : Pubkey) (discriminator : List Byte) (block : List AccountInfo) : Prop :=
  ∃ header rest, block = header :: rest ∧ ArenaHeader key discriminator header ∧
    block.length = header.arenas

/-- The two refusals of a tail. -/
def TailError (e : Error) : Prop :=
  e = .custom .invalidPhoenixRemainingAccounts ∨ e = .custom .invalidPhoenixAccount

section

variable {key : Pubkey} {discriminator : List Byte} {header : Option AccountInfo} {n : Nat}

theorem parseArenaCount_eq_ok {data : List Byte} : parseArenaCount data discriminator = .ok n ↔
    (MULTI_ARENA_LEN ≤ data.length ∧ data.take 8 = discriminator) ∧ 0 < n ∧
      min (leWord 16 (slice data 52 54)).toNat (leWord 16 (slice data 54 56)).toNat = n := by
  rw [parseArenaCount_eq]
  unfold validateAccountData
  simp only [bind_eq_ok, validate_eq_ok, pure_eq_ok]
  constructor
  · rintro ⟨_, h, _, hpos, rfl⟩
    exact ⟨h, hpos, rfl⟩
  · rintro ⟨h, hpos, rfl⟩
    exact ⟨(), h, (), hpos, rfl⟩

theorem arenaCount_eq_ok : arenaCount header key discriminator = .ok n ↔
    ∃ a, header = some a ∧ ArenaHeader key discriminator a ∧ 0 < n ∧ a.arenas = n := by
  unfold arenaCount
  cases header with
  | none =>
    constructor
    · intro h; cases h
    · rintro ⟨_, h, _⟩; cases h
  | some a =>
    simp only [bind_eq_ok, validate_eq_ok, validateOwner, parseArenaCount_eq_ok]
    constructor
    · rintro ⟨_, hkey, _, howner, ⟨hlen, hd⟩, hpos, hn⟩
      exact ⟨a, rfl, ⟨hkey, howner, hd, hlen⟩, hpos, hn⟩
    · rintro ⟨_, ha, h, hpos, hn⟩
      cases ha
      exact ⟨(), h.key_eq, (), h.owner_eq, ⟨h.length_le, h.discriminator_eq⟩, hpos, hn⟩

/-! Every refusal is one of the two. -/

theorem arenaCount_errors : ErrorsIn TailError (arenaCount header key discriminator) := by
  have hremaining : TailError (.custom .invalidPhoenixRemainingAccounts) := .inl rfl
  have haccount : TailError (.custom .invalidPhoenixAccount) := .inr rfl
  unfold arenaCount
  cases header with
  | none => exact .error hremaining
  | some a =>
    refine (ErrorsIn.validate hremaining).bind fun _ _ => ?_
    refine (ErrorsIn.validate haccount).bind fun _ _ => ?_
    rw [parseArenaCount_eq]
    refine (ErrorsIn.validate haccount).bind fun _ _ => ?_
    exact (ErrorsIn.validate hremaining).bind fun _ _ => .ok _

end

namespace PhoenixGlobalConfig

variable {c : PhoenixGlobalConfig} {tail : List AccountInfo}

theorem validateTraderTail_errors : ErrorsIn TailError (c.validateTraderTail tail) := by
  refine arenaCount_errors.bind fun _ _ => ?_
  refine arenaCount_errors.bind fun _ _ => ?_
  exact .validate (.inl rfl)

/-- The counts of an accepted tail cut it into its blocks. -/
theorem validateTraderTail_eq_ok : c.validateTraderTail tail = .ok () ↔
    ∃ first second, tail = first ++ second ∧
      ArenaBlock c.globalTraderIndex GLOBAL_TRADER_INDEX first ∧
      ArenaBlock c.activeTraderBuffer ACTIVE_TRADER_BUFFER second := by
  unfold validateTraderTail
  simp only [bind_eq_ok, validate_eq_ok, arenaCount_eq_ok]
  constructor
  · rintro ⟨n, ⟨a, ha, hheader, hn, ea⟩, m, ⟨b, hb, hheader', hm, eb⟩, hlen⟩
    obtain ⟨hlt, hget⟩ := List.getElem?_eq_some_iff.1 hb
    have hdrop : tail.drop n = b :: tail.drop (n + 1) := by
      rw [List.drop_eq_getElem_cons hlt, hget]
    cases tail with
    | nil => cases ha
    | cons x rest =>
      cases ha
      obtain ⟨k, rfl⟩ := Nat.exists_eq_add_of_lt hn
      refine ⟨(a :: rest).take (0 + k + 1), (a :: rest).drop (0 + k + 1),
        (List.take_append_drop _ _).symm, ⟨a, rest.take (0 + k), rfl, hheader, ?_⟩,
        ⟨b, _, hdrop, hheader', ?_⟩⟩
      · rw [List.length_take, ea]; omega
      · rw [List.length_drop, eb]; omega
  · rintro ⟨first, second, rfl, ⟨a, rest, rfl, hheader, ea⟩, ⟨b, rest', rfl, hheader', eb⟩⟩
    refine ⟨(a :: rest).length, ⟨a, rfl, hheader, Nat.succ_pos _, ea.symm⟩, (b :: rest').length,
      ⟨b, ?_, hheader', Nat.succ_pos _, eb.symm⟩, List.length_append⟩
    rw [List.getElem?_append_right (Nat.le_refl _), Nat.sub_self]
    rfl

/-- A tail is accepted exactly when it is an index block followed by a buffer block; every other
list is refused by one of two checks and none is read out of range. -/
theorem validateTraderTail_iff (c : PhoenixGlobalConfig) (tail : List AccountInfo) :
    (c.validateTraderTail tail = .ok () ↔ ∃ first second, tail = first ++ second ∧
      ArenaBlock c.globalTraderIndex GLOBAL_TRADER_INDEX first ∧
      ArenaBlock c.activeTraderBuffer ACTIVE_TRADER_BUFFER second) ∧
    (c.validateTraderTail tail ≠ .ok () →
      ∃ e, TailError e ∧ c.validateTraderTail tail = .error e) ∧
    c.validateTraderTail tail ≠ .error .programFailed := by
  refine ⟨validateTraderTail_eq_ok, ?_, ?_⟩
  · intro hne
    cases h : c.validateTraderTail tail with
    | ok u => exact absurd h hne
    | error e => exact ⟨e, validateTraderTail_errors e h, rfl⟩
  · intro h
    rcases validateTraderTail_errors _ h with h | h
    · cases h
    · cases h

end PhoenixGlobalConfig

end HedgeVault
