import HedgeVault.Protocol.PhoenixOrders

/-!
# The order encodings are unambiguous

One decoder, `readRequest`, reads every order and cancel instruction: the discriminator
says which arguments follow. It returns the request that was encoded and consumes its
bytes (`PhoenixRequest.reads`), so no two requests share an encoding, across all five
instructions (`request_codec`).
-/

namespace HedgeVault

open Lib

/-- An order or a cancel request. -/
inductive PhoenixRequest where
  | order (p : OrderPacket)
  | cancel (m : PhoenixCancelMode)

def PhoenixRequest.instructionData : PhoenixRequest → Result (List Byte)
  | .order p => p.instructionData
  | .cancel m => m.instructionData

def readOrder : Decoder PhoenixRequest := deserialize.bind fun p => .pure (.order p)

/-- The arguments that follow a discriminator. -/
def readArgs (discriminator : List Byte) : Decoder PhoenixRequest :=
  if discriminator = PLACE_MARKET_ORDER then readOrder
  else if discriminator = PLACE_LIMIT_ORDER then readOrder
  else if discriminator = CANCEL_ALL then .pure (.cancel .all)
  else if discriminator = CANCEL_UP_TO then
    deserialize.bind fun (args : CancelUpToArgs) =>
      .pure (.cancel (.upTo args.side args.numOrdersToCancel args.tickLimit))
  else if discriminator = CANCEL_ORDERS_BY_ID then
    (Decoder.vec deserialize).bind fun orders => .pure (.cancel (.byId orders))
  else .fail

def readRequest : Decoder PhoenixRequest := (Decoder.bytes 8).bind readArgs

/-- A request is read behind its discriminator. -/
theorem reads_request (discriminator : List Byte) {args : List Byte} {r : PhoenixRequest}
    (hlen : discriminator.length = 8) (h : (readArgs discriminator).Reads args r) :
    readRequest.Reads (discriminator ++ args) r := by
  have hbytes := Decoder.reads_bytes discriminator
  rw [hlen] at hbytes
  exact hbytes.bind h

theorem reads_order (p : OrderPacket) : readOrder.Reads (serialize p) (.order p) :=
  (Borsh.reads p).last PhoenixRequest.order

theorem OrderPacket.readArgs_eq (p : OrderPacket) : readArgs p.discriminator = readOrder := by
  cases p with
  | _ => rfl

theorem OrderPacket.length_discriminator (p : OrderPacket) : p.discriminator.length = 8 := by
  cases p with
  | _ => rfl

theorem PhoenixCancelMode.byId_ok {orders : List PhoenixCancelId} {x : List Byte} :
    (byId orders).instructionData = .ok x ↔ (orders ≠ [] ∧ orders.length ≤ MAX_CANCEL_ORDER_IDS) ∧
      CANCEL_ORDERS_BY_ID ++ serializeVec orders = x := by
  unfold instructionData
  simp only [bind_eq_ok, validate_eq_ok, pure_eq_ok, exists_const]

/-- Whatever is encoded is read back, in front of any bytes. -/
theorem PhoenixRequest.reads {r : PhoenixRequest} {x : List Byte}
    (h : r.instructionData = .ok x) : readRequest.Reads x r := by
  cases r with
  | order p =>
    cases h
    exact reads_request _ p.length_discriminator (p.readArgs_eq ▸ reads_order p)
  | cancel m =>
    cases m with
    | all =>
      cases h
      exact reads_request CANCEL_ALL rfl (Decoder.Reads.pure _)
    | upTo side numOrdersToCancel tickLimit =>
      cases h
      refine reads_request CANCEL_UP_TO rfl ?_
      exact (Borsh.reads (⟨side, numOrdersToCancel, tickLimit⟩ : CancelUpToArgs)).last
        fun args => PhoenixRequest.cancel
          (.upTo args.side args.numOrdersToCancel args.tickLimit)
    | byId orders =>
      obtain ⟨⟨_, hmax⟩, rfl⟩ := PhoenixCancelMode.byId_ok.1 h
      refine reads_request CANCEL_ORDERS_BY_ID rfl ?_
      have hlen : orders.length < 2 ^ 32 := by
        unfold MAX_CANCEL_ORDER_IDS at hmax; omega
      exact (reads_vec hlen).last fun orders => PhoenixRequest.cancel (.byId orders)

/-- A cancel request is rejected exactly for its list of ids. -/
theorem PhoenixCancelMode.instructionData_eq_error (m : PhoenixCancelMode) (e : Error) :
    m.instructionData = .error e ↔ e = .custom .invalidInstructionData ∧
      ∃ orders, m = .byId orders ∧ (orders.length = 0 ∨ MAX_CANCEL_ORDER_IDS < orders.length) := by
  cases m with
  | all => exact ⟨nofun, fun ⟨_, _, h, _⟩ => nomatch h⟩
  | upTo => exact ⟨nofun, fun ⟨_, _, h, _⟩ => nomatch h⟩
  | byId orders =>
    simp only [instructionData, validate]
    by_cases hc : orders ≠ [] ∧ orders.length ≤ MAX_CANCEL_ORDER_IDS
    · rw [if_pos hc]
      refine ⟨nofun, ?_⟩
      rintro ⟨_, _, heq, h⟩
      cases heq
      have hne := List.length_pos_iff.2 hc.1
      omega
    · rw [if_neg hc]
      constructor
      · intro h
        cases h
        refine ⟨rfl, orders, rfl, ?_⟩
        by_contra hn
        have hlen : orders.length ≠ 0 ∧ orders.length ≤ MAX_CANCEL_ORDER_IDS := by omega
        exact hc ⟨fun h0 => hlen.1 (List.length_eq_zero_iff.2 h0), hlen.2⟩
      · rintro ⟨rfl, _⟩
        rfl

/-- Every request that is encoded is recovered with all its bytes consumed, no two requests share
an encoding, and only an empty or too long list of ids is rejected. -/
theorem request_codec :
    (∀ r x, PhoenixRequest.instructionData r = .ok x → readRequest.run x = some (r, [])) ∧
    (∀ r r' x, PhoenixRequest.instructionData r = .ok x →
      PhoenixRequest.instructionData r' = .ok x → r = r') ∧
    (∀ p : OrderPacket, ∃ x, p.instructionData = .ok x) ∧
    (∀ (m : PhoenixCancelMode) (e : Error), m.instructionData = .error e ↔
      e = .custom .invalidInstructionData ∧
        ∃ orders, m = .byId orders ∧
          (orders.length = 0 ∨ MAX_CANCEL_ORDER_IDS < orders.length)) :=
  ⟨fun _ _ h => (PhoenixRequest.reads h).run,
    fun _ _ _ h h' => (PhoenixRequest.reads h).unique (PhoenixRequest.reads h'),
    fun _ => ⟨_, rfl⟩, PhoenixCancelMode.instructionData_eq_error⟩

/-! A reduce-only market order, byte by byte. -/
example : (OrderPacket.immediateOrCancel .ask (some 50000) 1000 none 10 0 .decrementTake none 258
    (some 7) (OrderPacket.orderFlags true) true).instructionData = .ok
      (PLACE_MARKET_ORDER ++ [2, 1, 1] ++ leBytes 8 50000 ++ leBytes 8 1000 ++ [0] ++
        leBytes 8 10 ++ leBytes 8 0 ++ [2, 0] ++ leBytes 16 258 ++ [1] ++ leBytes 8 7 ++
        [128, 1]) := by rfl

end HedgeVault
