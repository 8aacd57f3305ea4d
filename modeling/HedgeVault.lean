import HedgeVault.Lib.Run
import HedgeVault.Lib.Token
import HedgeVault.Lib.Registry
import HedgeVault.Lib.Escrow
import HedgeVault.Lib.Pool
import HedgeVault.Lib.Stamp
import HedgeVault.Redemption
import HedgeVault.PriceLock
import HedgeVault.DepositExit
import HedgeVault.OrderIndependence
import HedgeVault.FeeTimelock
import HedgeVault.HighWaterMark
import HedgeVault.Lib.Rate
import HedgeVault.RateLimit
import HedgeVault.FeeDilution
import HedgeVault.SupplyBound
import HedgeVault.ClaimNeutral
import HedgeVault.Instructions.Close
import HedgeVault.Lib.Serial
import HedgeVault.Census
import HedgeVault.Lib.TokenOp
import HedgeVault.ProtocolProgram
import HedgeVault.ConfigAuthority
import HedgeVault.Lib.Bytes
import HedgeVault.Protocol.Jupiter
import HedgeVault.RouteAgreement
import HedgeVault.Instructions.JupiterSwap
import HedgeVault.SwapBounds
import HedgeVault.Protocol.Phoenix
import HedgeVault.Instructions.CloseStrategy
import HedgeVault.StrategyEmpty
import HedgeVault.TransferFees
import HedgeVault.Lib.Coverage
import HedgeVault.Instructions.Venues
import HedgeVault.Work
import HedgeVault.Custody
import HedgeVault.Rounding
import HedgeVault.NavExact
import HedgeVault.Lib.Buffer
import HedgeVault.Protocol.PhoenixReads
import HedgeVault.PhoenixLayout
import HedgeVault.TraderTail
import HedgeVault.Lib.Codec
import HedgeVault.Protocol.PhoenixOrders
import HedgeVault.OrderCodec
import HedgeVault.State.ConfigLayout
import HedgeVault.Instructions.ConfigMigrate
import HedgeVault.Migration
import HedgeVault.Protocol.JupiterCpi
import HedgeVault.SwapRelay
import HedgeVault.DepositCap
import HedgeVault.Chain
import HedgeVault.PayoutRent
import HedgeVault.TokenMoves
import HedgeVault.SharedLedgers
import HedgeVault.VaultRun
import HedgeVault.OpenVaults
import HedgeVault.Isolation
import HedgeVault.Instructions.Phoenix
import HedgeVault.PhoenixCalls
import HedgeVault.Stamps
import HedgeVault.Trading
import HedgeVault.LogBooks
import HedgeVault.Payments
import HedgeVault.Positions
import HedgeVault.Booking
