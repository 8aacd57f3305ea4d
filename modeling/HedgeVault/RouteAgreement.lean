import HedgeVault.Protocol.Jupiter

/-!
# Which arguments the vault and Jupiter read

The vault reads the last bytes of the data, Jupiter the bytes its decoder stops after. Both
read the same fields of them (`checkAmountAndSlippage_ok`, `jupiterDecode_ok`), so the two
agree exactly when the bytes are the same: always when nothing is left over, and not when
the data goes on with bytes that the vault takes for the arguments.
-/

namespace HedgeVault

open Lib

namespace SwapVariant

/-- How many bytes the arguments after the plan take. -/
def argsTail (v : SwapVariant) : Nat := if v.usesTokenLedger then TOKEN_LEDGER_ARGS_TAIL else ARGS_TAIL

/-- The amount, quote and slippage at the end of `data`, before the platform fee. -/
def argBytes (v : SwapVariant) (data : List Byte) : List Byte := fromEnd data v.argsTail 1

/-- The arguments that Jupiter reads stand at the end of the data as well. -/
def ArgsAtEnd (v : SwapVariant) (data rest : List Byte) : Prop :=
  v.argBytes data = v.argBytes (data.take (data.length - rest.length))

end SwapVariant

/-- Jupiter decoded what the vault parsed. -/
structure JupiterArgs.Agrees (j : JupiterArgs) (args : RouteArgs) : Prop where
  amount : ∀ a, j.amount = some a → a = args.amount
  quotedAmount : j.quotedAmount = args.quotedAmount
  slippageBps : j.slippageBps = args.slippageBps

/-! ## The fields at the end of a byte string -/

def amountAtEnd (data : List Byte) : U64 := leWord 64 (fromEnd data ARGS_TAIL TOKEN_LEDGER_ARGS_TAIL)

def quotedAtEnd (data : List Byte) : U64 := leWord 64 (fromEnd data TOKEN_LEDGER_ARGS_TAIL SLIPPAGE_TAIL)

def slippageAtEnd (data : List Byte) : U16 := leWord 16 (fromEnd data SLIPPAGE_TAIL 1)

/-- What is read of `data` as the arguments of `v`. -/
structure ReadsArgs (v : SwapVariant) (data : List Byte) (amount : Option U64) (quoted : U64)
    (slippage : U16) : Prop where
  length_le : v.argsTail ≤ data.length
  amount_eq : amount = if v.usesTokenLedger then none else some (amountAtEnd data)
  quoted_eq : quoted = quotedAtEnd data
  slippage_eq : slippage = slippageAtEnd data

section

variable {v : SwapVariant} {data d e rest : List Byte} {args : RouteArgs} {j : JupiterArgs}
  {amount : U64} {slippageBps maxSlippageBps : U16}

theorem quoted_slippage_inj (hd : TOKEN_LEDGER_ARGS_TAIL ≤ d.length)
    (he : TOKEN_LEDGER_ARGS_TAIL ≤ e.length) :
    quotedAtEnd d = quotedAtEnd e ∧ slippageAtEnd d = slippageAtEnd e ↔
      fromEnd d TOKEN_LEDGER_ARGS_TAIL 1 = fromEnd e TOKEN_LEDGER_ARGS_TAIL 1 := by
  unfold TOKEN_LEDGER_ARGS_TAIL SLIPPAGE_TAIL at hd he
  have hq : ∀ x : List Byte, 11 ≤ x.length → (fromEnd x 11 3).length = 8 := fun x hx =>
    length_fromEnd (by decide) hx
  have hs : ∀ x : List Byte, 11 ≤ x.length → (fromEnd x 3 1).length = 2 := fun x hx =>
    length_fromEnd (by decide) (by omega)
  have happ : ∀ x : List Byte, 11 ≤ x.length → fromEnd x 11 3 ++ fromEnd x 3 1 = fromEnd x 11 1 :=
    fun x hx => fromEnd_append (by decide) (by decide) hx
  show leWord 64 (fromEnd d 11 3) = leWord 64 (fromEnd e 11 3) ∧
    leWord 16 (fromEnd d 3 1) = leWord 16 (fromEnd e 3 1) ↔ fromEnd d 11 1 = fromEnd e 11 1
  rw [leWord_inj (by rw [hq d hd]) (by rw [hq e he]), leWord_inj (by rw [hs d hd]) (by rw [hs e he]),
    ← happ d hd, ← happ e he]
  constructor
  · rintro ⟨h1, h2⟩
    rw [h1, h2]
  · intro h
    exact List.append_inj h (by rw [hq d hd, hq e he])

theorem amount_quoted_slippage_inj (hd : ARGS_TAIL ≤ d.length) (he : ARGS_TAIL ≤ e.length) :
    amountAtEnd d = amountAtEnd e ∧ quotedAtEnd d = quotedAtEnd e ∧
      slippageAtEnd d = slippageAtEnd e ↔ fromEnd d ARGS_TAIL 1 = fromEnd e ARGS_TAIL 1 := by
  unfold ARGS_TAIL SLIPPAGE_TAIL at hd he
  have ha : ∀ x : List Byte, 19 ≤ x.length → (fromEnd x 19 11).length = 8 := fun x hx =>
    length_fromEnd (by decide) hx
  have happ : ∀ x : List Byte, 19 ≤ x.length → fromEnd x 19 11 ++ fromEnd x 11 1 = fromEnd x 19 1 :=
    fun x hx => fromEnd_append (by decide) (by decide) hx
  rw [quoted_slippage_inj (d := d) (e := e) (by unfold TOKEN_LEDGER_ARGS_TAIL SLIPPAGE_TAIL; omega)
    (by unfold TOKEN_LEDGER_ARGS_TAIL SLIPPAGE_TAIL; omega)]
  show leWord 64 (fromEnd d 19 11) = leWord 64 (fromEnd e 19 11) ∧
    fromEnd d 11 1 = fromEnd e 11 1 ↔ fromEnd d 19 1 = fromEnd e 19 1
  rw [leWord_inj (by rw [ha d hd]) (by rw [ha e he]), ← happ d hd, ← happ e he]
  constructor
  · rintro ⟨h1, h2⟩
    rw [h1, h2]
  · intro h
    exact List.append_inj h (by rw [ha d hd, ha e he])

/-! ## The vault's side -/

theorem quotedOffset_eq (n : Nat) : n - SLIPPAGE_TAIL - 8 = n - TOKEN_LEDGER_ARGS_TAIL := by
  unfold TOKEN_LEDGER_ARGS_TAIL SLIPPAGE_TAIL
  omega

theorem slippage_slice (h : SLIPPAGE_TAIL ≤ data.length) :
    slice data (data.length - SLIPPAGE_TAIL) (data.length - SLIPPAGE_TAIL + 2) =
      fromEnd data SLIPPAGE_TAIL 1 := by
  have hend : data.length - SLIPPAGE_TAIL + 2 = data.length - 1 := by
    unfold SLIPPAGE_TAIL at *
    omega
  rw [hend]
  rfl

theorem parse_ok (h : RouteArgs.parse data = .ok args) : ARGS_TAIL ≤ data.length ∧
    args = ⟨amountAtEnd data, quotedAtEnd data, slippageAtEnd data⟩ := by
  simp only [RouteArgs.parse, bind_eq_ok, validate_eq_ok, pure_eq_ok] at h
  obtain ⟨_, hlen, rfl⟩ := h
  have hamount : data.length - TOKEN_LEDGER_ARGS_TAIL - 8 = data.length - ARGS_TAIL := by
    unfold TOKEN_LEDGER_ARGS_TAIL ARGS_TAIL
    omega
  refine ⟨hlen, ?_⟩
  rw [quotedOffset_eq, hamount, slippage_slice (Nat.le_trans (by decide) hlen)]
  rfl

theorem parseWithTokenLedger_ok (h : RouteArgs.parseWithTokenLedger data = .ok args) :
    TOKEN_LEDGER_ARGS_TAIL ≤ data.length ∧
      args = ⟨0, quotedAtEnd data, slippageAtEnd data⟩ := by
  simp only [RouteArgs.parseWithTokenLedger, bind_eq_ok, validate_eq_ok, pure_eq_ok] at h
  obtain ⟨_, hlen, rfl⟩ := h
  refine ⟨hlen, ?_⟩
  rw [quotedOffset_eq, slippage_slice (Nat.le_trans (by decide) hlen)]
  rfl

theorem requireEq_eq_ok {a b : U64} {u : Unit} : requireEq a b = .ok u ↔ a = b := by
  unfold requireEq
  split <;> simp_all

/-- An accepted call returns the arguments at the end of the data, within the cap. -/
structure Checked (v : SwapVariant) (data : List Byte) (amount : U64) (maxSlippageBps : U16)
    (args : RouteArgs) : Prop where
  length_le : v.argsTail ≤ data.length
  amount_eq : v.usesTokenLedger = false → amount = args.amount ∧ args.amount = amountAtEnd data
  ledger_pos : v.usesTokenLedger = true → amount > 0
  quoted_eq : args.quotedAmount = quotedAtEnd data
  slippage_eq : args.slippageBps = slippageAtEnd data
  slippage_le : args.slippageBps ≤ maxSlippageBps

theorem checkAmountAndSlippage_ok (hv : SwapVariant.fromSwapData data = .ok v)
    (h : checkAmountAndSlippage data amount slippageBps maxSlippageBps = .ok args) :
    Checked v data amount maxSlippageBps args := by
  simp only [checkAmountAndSlippage, bind_eq_ok, validate_eq_ok, pure_eq_ok] at h
  obtain ⟨_, _, v', hv', args', hargs, _, _, _, hcap, _, _, rfl⟩ := h
  obtain rfl : v = v' := Except.ok.inj (hv.symm.trans hv')
  unfold checkAmount at hargs
  cases hledger : v.usesTokenLedger with
  | true =>
    rw [hledger, if_pos rfl] at hargs
    simp only [bind_eq_ok, validate_eq_ok] at hargs
    obtain ⟨_, hpos, hparse⟩ := hargs
    obtain ⟨hlen, rfl⟩ := parseWithTokenLedger_ok hparse
    refine ⟨?_, fun hno => ?_, fun _ => hpos, rfl, rfl, hcap⟩
    · unfold SwapVariant.argsTail
      rwa [hledger, if_pos rfl]
    · rw [hledger] at hno
      cases hno
  | false =>
    rw [hledger, if_neg Bool.false_ne_true] at hargs
    simp only [bind_eq_ok, pure_eq_ok, requireEq_eq_ok] at hargs
    obtain ⟨args₁, hparse, _, heq, rfl⟩ := hargs
    obtain ⟨hlen, rfl⟩ := parse_ok hparse
    refine ⟨?_, fun _ => ⟨heq, rfl⟩, fun hno => ?_, rfl, rfl, hcap⟩
    · unfold SwapVariant.argsTail
      rwa [hledger, if_neg Bool.false_ne_true]
    · rw [hledger] at hno
      cases hno

/-! ## Jupiter's side -/

theorem amountDecoder_ok {bs mid : List Byte} {a : Option U64}
    (h : v.amountDecoder.run bs = some (a, mid)) :
    ∃ x, bs = x ++ mid ∧ (v.usesTokenLedger = true → x = [] ∧ a = none) ∧
      (v.usesTokenLedger = false → x.length = 8 ∧ a = some (leWord 64 x)) := by
  unfold SwapVariant.amountDecoder at h
  cases hledger : v.usesTokenLedger with
  | true =>
    rw [hledger, if_pos rfl] at h
    obtain ⟨rfl, rfl⟩ := Decoder.run_pure.1 h
    exact ⟨[], rfl, fun _ => ⟨rfl, rfl⟩, nofun⟩
  | false =>
    rw [hledger, if_neg Bool.false_ne_true] at h
    obtain ⟨w, _, h1, h2⟩ := Decoder.run_bind.1 h
    obtain ⟨rfl, rfl⟩ := Decoder.run_pure.1 h2
    obtain ⟨x, rfl, hx, rfl⟩ := Decoder.run_word.1 h1
    exact ⟨x, rfl, nofun, fun _ => ⟨hx, rfl⟩⟩

/-- After anything, the bytes that the decoder reads end in the arguments it returns. -/
theorem argsDecoder_ok {bs : List Byte} (h : v.argsDecoder.run bs = some (j, rest)) :
    ∃ read, bs = read ++ rest ∧
      ∀ before, ReadsArgs v (before ++ read) j.amount j.quotedAmount j.slippageBps := by
  unfold SwapVariant.argsDecoder at h
  obtain ⟨a, _, h1, h⟩ := Decoder.run_bind.1 h
  obtain ⟨q, _, h2, h⟩ := Decoder.run_bind.1 h
  obtain ⟨s, _, h3, h⟩ := Decoder.run_bind.1 h
  obtain ⟨f, _, h4, h⟩ := Decoder.run_bind.1 h
  obtain ⟨rfl, rfl⟩ := Decoder.run_pure.1 h
  obtain ⟨x₄, rfl, hx₄, _⟩ := Decoder.run_word.1 h4
  obtain ⟨x₃, rfl, hx₃, rfl⟩ := Decoder.run_word.1 h3
  obtain ⟨x₂, rfl, hx₂, rfl⟩ := Decoder.run_word.1 h2
  obtain ⟨x₁, rfl, hledger, hplain⟩ := amountDecoder_ok h1
  refine ⟨x₁ ++ x₂ ++ x₃ ++ x₄, by simp only [List.append_assoc], ?_⟩
  intro before
  refine ⟨?_, ?_, ?_, ?_⟩
  · unfold SwapVariant.argsTail TOKEN_LEDGER_ARGS_TAIL ARGS_TAIL SLIPPAGE_TAIL
    cases hv : v.usesTokenLedger with
    | true =>
      rw [if_pos rfl]
      simp only [List.length_append]
      omega
    | false =>
      obtain ⟨hx₁, _⟩ := hplain hv
      rw [if_neg Bool.false_ne_true]
      simp only [List.length_append]
      omega
  · cases hv : v.usesTokenLedger with
    | true => exact (hledger hv).2
    | false =>
      obtain ⟨hx₁, ha⟩ := hplain hv
      have hread := fromEnd_of_append before x₁ (x₂ ++ x₃ ++ x₄)
      simp only [List.length_append, hx₁, hx₂, hx₃, hx₄] at hread
      rw [if_neg Bool.false_ne_true, ha]
      refine congrArg (fun x => some (leWord 64 x)) (hread.symm.trans ?_)
      simp only [List.append_assoc]
      rfl
  · have hread := fromEnd_of_append (before ++ x₁) x₂ (x₃ ++ x₄)
    simp only [List.length_append, hx₂, hx₃, hx₄] at hread
    refine congrArg (leWord 64) (hread.symm.trans ?_)
    simp only [List.append_assoc]
    rfl
  · have hread := fromEnd_of_append (before ++ x₁ ++ x₂) x₃ x₄
    simp only [hx₃, hx₄] at hread
    refine congrArg (leWord 16) (hread.symm.trans ?_)
    simp only [List.append_assoc]
    rfl

theorem fromSwapData_ok (h : SwapVariant.fromSwapData data = .ok v) :
    v.discriminator = data.take 8 := by
  have hpre : v.discriminator <+: data := by
    unfold SwapVariant.fromSwapData at h
    split at h
    · cases h; assumption
    · split at h
      · cases h; assumption
      · split at h
        · cases h; assumption
        · split at h
          · cases h; assumption
          · split at h
            · cases h; assumption
            · cases h
  have hlen : v.discriminator.length = 8 := by cases v <;> rfl
  rw [List.prefix_iff_eq_take.1 hpre, hlen]

/-- Jupiter dispatches as the vault does. -/
theorem jupiterDecode_ok {σ : Type} {step : Decoder σ} (hv : SwapVariant.fromSwapData data = .ok v)
    (h : jupiterDecode step data = some (j, rest)) :
    ReadsArgs v (data.take (data.length - rest.length)) j.amount j.quotedAmount j.slippageBps := by
  unfold jupiterDecode at h
  rw [← fromSwapData_ok hv] at h
  have hfind : [SwapVariant.route, .routeWithTokenLedger, .exactOutRoute, .sharedAccountsRoute,
      .sharedAccountsExactOutRoute].find? (fun u => u.discriminator = v.discriminator) = some v := by
    cases v <;> rfl
  rw [hfind] at h
  change (v.decoder step).run (data.drop 8) = some (j, rest) at h
  unfold SwapVariant.decoder at h
  obtain ⟨id, mid, h1, h⟩ := Decoder.run_bind.1 h
  obtain ⟨plan, mid', h2, h⟩ := Decoder.run_bind.1 h
  obtain ⟨read, rfl, hread⟩ := argsDecoder_ok h
  obtain ⟨before, hbefore⟩ := ((step.vec.suffix _ _ _ h2).trans (v.idDecoder.suffix _ _ _ h1)).trans
    (List.drop_suffix 8 data)
  have htake : data.take (data.length - rest.length) = before ++ read := by
    rw [← hbefore, ← List.append_assoc, List.length_append, Nat.add_sub_cancel, List.take_left]
  rw [htake]
  exact hread before

/-! ## Agreement -/

theorem agrees_iff (hc : Checked v data amount maxSlippageBps args)
    (hj : ReadsArgs v d j.amount j.quotedAmount j.slippageBps) :
    j.Agrees args ↔ v.argBytes data = v.argBytes d := by
  have hlen := hc.length_le
  have hlen' := hj.length_le
  unfold SwapVariant.argBytes SwapVariant.argsTail at *
  cases hv : v.usesTokenLedger with
  | true =>
    rw [hv, if_pos rfl] at hlen hlen' 
    rw [if_pos rfl, ← quoted_slippage_inj hlen hlen', ← hc.quoted_eq, ← hc.slippage_eq, ← hj.quoted_eq,
      ← hj.slippage_eq]
    constructor
    · intro h
      exact ⟨h.quotedAmount.symm, h.slippageBps.symm⟩
    · rintro ⟨h1, h2⟩
      refine ⟨?_, h1.symm, h2.symm⟩
      intro a ha
      rw [hj.amount_eq, hv, if_pos rfl] at ha
      cases ha
  | false =>
    obtain ⟨_, hamount⟩ := hc.amount_eq hv
    have hj' := hj.amount_eq
    rw [hv, if_neg Bool.false_ne_true] at hlen hlen' hj'
    rw [if_neg Bool.false_ne_true, ← amount_quoted_slippage_inj hlen hlen', ← hc.quoted_eq,
      ← hc.slippage_eq, ← hamount, ← hj.quoted_eq, ← hj.slippage_eq]
    constructor
    · intro h
      exact ⟨(h.amount _ hj').symm, h.quotedAmount.symm, h.slippageBps.symm⟩
    · rintro ⟨h0, h1, h2⟩
      refine ⟨?_, h1.symm, h2.symm⟩
      intro a ha
      rw [hj'] at ha
      cases ha
      exact h0.symm

/-- Without left-over bytes the arguments are at the end. -/
theorem argsAtEnd_nil : v.ArgsAtEnd data [] := by
  unfold SwapVariant.ArgsAtEnd
  rw [List.length_nil, Nat.sub_zero, List.take_length]

/-- On data that the vault accepts and Jupiter decodes, the two read the same arguments if and
only if the bytes Jupiter reads as arguments stand at the end of the data as well, as they do
when nothing is left over. Then the decoded amount is the caller's and the decoded slippage
within the cap. -/
theorem route_args_agree_iff {σ : Type} {step : Decoder σ}
    (hv : SwapVariant.fromSwapData data = .ok v)
    (hacc : checkAmountAndSlippage data amount slippageBps maxSlippageBps = .ok args)
    (hdec : jupiterDecode step data = some (j, rest)) :
    (j.Agrees args ↔ v.ArgsAtEnd data rest) ∧
    (v.ArgsAtEnd data rest → (∀ a, j.amount = some a → a = amount) ∧
      j.slippageBps ≤ maxSlippageBps) ∧
    (rest = [] → v.ArgsAtEnd data rest) := by
  have hc := checkAmountAndSlippage_ok hv hacc
  have hj := jupiterDecode_ok hv hdec
  have hiff := agrees_iff hc hj
  refine ⟨hiff, ?_, ?_⟩
  · intro hend
    have hagree := hiff.2 hend
    refine ⟨?_, hagree.slippageBps ▸ hc.slippage_le⟩
    intro a ha
    have hplain : v.usesTokenLedger = false := by
      cases hledger : v.usesTokenLedger with
      | false => rfl
      | true =>
        have hnone := hj.amount_eq
        rw [hledger, if_pos rfl, ha] at hnone
        cases hnone
    rw [(hc.amount_eq hplain).1]
    exact hagree.amount a ha
  · rintro rfl
    exact argsAtEnd_nil

end

/-! ## Runs on both sides of it -/

/-- A route of no steps: swap 1000 for a quote of 2000 at a slippage of 50 bps. -/
def sampleRouteData : List Byte :=
  SwapVariant.route.discriminator ++ [0, 0, 0, 0] ++
    [232, 3, 0, 0, 0, 0, 0, 0] ++ [208, 7, 0, 0, 0, 0, 0, 0] ++ [50, 0] ++ [0]

theorem route_args_agree_iff_sample :
    let args : RouteArgs := ⟨1000, 2000, 50⟩
    let j : JupiterArgs := ⟨some 1000, 2000, 50, 0⟩
    (j.Agrees args ↔ SwapVariant.route.ArgsAtEnd sampleRouteData []) ∧
    (SwapVariant.route.ArgsAtEnd sampleRouteData [] →
      (∀ a, j.amount = some a → a = 1000) ∧ j.slippageBps ≤ 300) ∧
    ([] = ([] : List Byte) → SwapVariant.route.ArgsAtEnd sampleRouteData []) :=
  route_args_agree_iff rfl
    (show checkAmountAndSlippage sampleRouteData 1000 50 300 = .ok ⟨1000, 2000, 50⟩ from rfl)
    (show jupiterDecode (Decoder.bytes 4) sampleRouteData = some (⟨some 1000, 2000, 50, 0⟩, [])
      from rfl)

/-- The arguments of `sampleRouteData` after the ones Jupiter reads: swap 2000 for a quote of
zero at a slippage of all of it. -/
def splitRouteData : List Byte :=
  SwapVariant.route.discriminator ++ [0, 0, 0, 0] ++
    [208, 7, 0, 0, 0, 0, 0, 0] ++ [0, 0, 0, 0, 0, 0, 0, 0] ++ [16, 39] ++ [0] ++
    [232, 3, 0, 0, 0, 0, 0, 0] ++ [208, 7, 0, 0, 0, 0, 0, 0] ++ [50, 0] ++ [0]

theorem trailing_bytes_split : ∃ (args : RouteArgs) (j : JupiterArgs) (rest : List Byte),
    checkAmountAndSlippage splitRouteData 1000 50 300 = .ok args ∧
    jupiterDecode (Decoder.bytes 4) splitRouteData = some (j, rest) ∧
    j.amount = some 2000 ∧ args.amount = 1000 ∧
    j.quotedAmount = 0 ∧ args.quotedAmount = 2000 ∧
    j.slippageBps = 10000 ∧ args.slippageBps = 50 ∧ ¬ j.slippageBps ≤ 300 :=
  ⟨⟨1000, 2000, 50⟩, ⟨some 2000, 0, 10000, 0⟩, _, rfl, rfl, rfl, rfl, rfl, rfl, rfl, rfl, by decide⟩

end HedgeVault
