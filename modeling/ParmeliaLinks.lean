import ParmeliaLinks.Lib.RelyGuarantee
import ParmeliaLinks.Lib.Table
import ParmeliaLinks.Payments.Repository
import ParmeliaLinks.Payments.Runs
import ParmeliaLinks.Jobs.JobStore
import ParmeliaLinks.Jobs.Exclusivity
import ParmeliaLinks.Payments.Evidence
import ParmeliaLinks.Lib.Embed
import ParmeliaLinks.Payments.Relay
import ParmeliaLinks.Payments.Worker
import ParmeliaLinks.Lib.Invariant
import ParmeliaLinks.Payments.Handlers
import ParmeliaLinks.Payments.Passes
import ParmeliaLinks.Payments.Lifecycle
import ParmeliaLinks.Contracts.Router
import ParmeliaLinks.Contracts.PaymentRouterV2
import ParmeliaLinks.Contracts.CctpPaymentRouter
import ParmeliaLinks.Contracts.AccountWebAuthnV2
import ParmeliaLinks.Lib.Binary64
import ParmeliaLinks.Payments.FeePolicy
import ParmeliaLinks.Payments.QuoteEngine
import ParmeliaLinks.Payments.QuoteAgreement
import ParmeliaLinks.Lib.Alone
import ParmeliaLinks.Lib.SqlText
import ParmeliaLinks.Server.Schema
import ParmeliaLinks.Server.Reorg
import ParmeliaLinks.Server.ChainJournal
import ParmeliaLinks.Server.JournalCanonicality
import ParmeliaLinks.Server.BalanceProjector
import ParmeliaLinks.Server.BalanceFence
import ParmeliaLinks.Pay.Store
import ParmeliaLinks.Pay.Handlers
import ParmeliaLinks.Pay.Requests
import ParmeliaLinks.Pay.Effects
import ParmeliaLinks.Pay.Lifecycle
import ParmeliaLinks.Pay.LinkClaims
import ParmeliaLinks.Auth.Registration
import ParmeliaLinks.Auth.RegistrationOnce
import ParmeliaLinks.Contracts.ParmeliaPaymaster
import ParmeliaLinks.Pay.Paymaster
import ParmeliaLinks.Jobs.JobScheduler
import ParmeliaLinks.Jobs.WebhookAccounting
import ParmeliaLinks.Payments.Executions
import ParmeliaLinks.Server.Wakeups
import ParmeliaLinks.Server.SnapshotOrder
import ParmeliaLinks.Server.ProjectionOrder
import ParmeliaLinks.Server.IndexerProgress
import ParmeliaLinks.Accounts.AccountSync
import ParmeliaLinks.Contracts.ParmeliaCrosschainRouter
import ParmeliaLinks.Payments.CheckoutRoutes
import ParmeliaLinks.Payments.CheckoutAccess
import ParmeliaLinks.Pay.ExecutionSync
import ParmeliaLinks.Jobs.WebhookQueue
import ParmeliaLinks.Payments.DataCutover
import ParmeliaLinks.Payments.WriteGate
import ParmeliaLinks.Payments.GateTraffic
import ParmeliaLinks.Lib.OrderedMap
import ParmeliaLinks.Split.LegacyApp
import ParmeliaLinks.Split.Target
import ParmeliaLinks.Split.Migrate
import ParmeliaLinks.Split.Committed
import ParmeliaLinks.Split.Meaning
import ParmeliaLinks.Lib.Relational
import ParmeliaLinks.Lib.SqlScript
import ParmeliaLinks.Pay.OperationOutcome
import ParmeliaLinks.Pay.ExpiredOperations
import ParmeliaLinks.Payments.Attestation
import ParmeliaLinks.Pay.CheckoutAgreement
import ParmeliaLinks.Server.AncestorSearch
import ParmeliaLinks.Lib.Serial
import ParmeliaLinks.Server.AddressMirror
import ParmeliaLinks.Server.UserEventOutbox
import ParmeliaLinks.Accounts.Faucet
import ParmeliaLinks.Accounts.FaucetAccounting
import ParmeliaLinks.Lib.Ranges
import ParmeliaLinks.Payments.FeeResolution
import ParmeliaLinks.Server.BalanceReconciler
import ParmeliaLinks.Server.LogScan
import ParmeliaLinks.Swap.BuiltSwap
import ParmeliaLinks.Jobs.EndpointIsolation
import ParmeliaLinks.Lib.Watched
import ParmeliaLinks.Payments.Reservations
import ParmeliaLinks.Payments.Simulation
import ParmeliaLinks.Jobs.KeyRotation
import ParmeliaLinks.Lib.HexText
import ParmeliaLinks.Lib.Json
import ParmeliaLinks.Lib.Keyset
import ParmeliaLinks.Server.CctpValidation
import ParmeliaLinks.Server.LedgerPages
import ParmeliaLinks.Server.HomeState
import ParmeliaLinks.Server.HomeVersion
import ParmeliaLinks.Server.EventPages
import ParmeliaLinks.Server.LocalSemaphore
import ParmeliaLinks.Server.RpcAdmission
import ParmeliaLinks.Accounts.PasskeySync
import ParmeliaLinks.Server.UserOperationRpc
import ParmeliaLinks.Server.StableShards
import ParmeliaLinks.Server.WalletShards
import ParmeliaLinks.Pay.BundledPayments
import ParmeliaLinks.Auth.StepUp
import ParmeliaLinks.Auth.StepUpKeeps
import ParmeliaLinks.Auth.StepUpOnce
import ParmeliaLinks.Lib.SqlLexemes
import ParmeliaLinks.Lib.SqlMentions
import ParmeliaLinks.Split.DataArtifact
import ParmeliaLinks.Split.ArtifactExport
import ParmeliaLinks.Split.ArtifactImport
