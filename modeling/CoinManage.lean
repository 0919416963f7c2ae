import CoinManage.Lib.OrderedMap
import CoinManage.Lib.Method
import CoinManage.Lib.Interleaving
import CoinManage.Core
import CoinManage.Money
import CoinManage.Ledger.Types
import CoinManage.Ledger.Contracts
import CoinManage.Ledger.Outbox
import CoinManage.InMemory.Ledger
import CoinManage.InMemory.Calls
import CoinManage.InMemory.Books
import CoinManage.InMemory.Runs
import CoinManage.InMemory.FailedCalls
import CoinManage.InMemory.Lifecycle
import CoinManage.Withdraw.Service
import CoinManage.Withdraw.Payouts
import CoinManage.Lib.DoubleEntry
import CoinManage.Lib.Rows
import CoinManage.Postgres.Columns
import CoinManage.Postgres.Schema
import CoinManage.Postgres.Repository
import CoinManage.Postgres.Ledger
import CoinManage.Postgres.OfflinePay
import CoinManage.Postgres.Journals
import CoinManage.Postgres.Accounts
import CoinManage.Postgres.Operations
import CoinManage.Postgres.Settlements
import CoinManage.Postgres.Events
import CoinManage.Postgres.Calls
import CoinManage.Postgres.Runs
import CoinManage.Postgres.Errors
import CoinManage.Postgres.Conservation
import CoinManage.InMemory.StateMachine
import CoinManage.InMemory.Limits
import CoinManage.Withdraw.Hashes
import CoinManage.Deposits.Credits
import CoinManage.Deposits.Waiting
import CoinManage.Deposits.Jams
import CoinManage.Outbox.Delivery
import CoinManage.Sweeps.Races
import CoinManage.Consumers.Keys
import CoinManage.Ledger.SignedContracts
import CoinManage.OfflinePay.Fingerprint
import CoinManage.Consumers.Attempts
import CoinManage.Fees.Snapshots
import CoinManage.Postgres.Backfill
import CoinManage.OfflinePay.Coverage
import CoinManage.Withdraw.Reconcile
import CoinManage.Monitoring.Wallets
import CoinManage.Alerts.Health
import CoinManage.Alerts.Events
import CoinManage.Wallets.Activation
import CoinManage.Sweeps.Planning
import CoinManage.Wallets.Delegation
import CoinManage.Sweeps.Bot
import CoinManage.Sweeps.Starvation
import CoinManage.Sweeps.Broadcasts
import CoinManage.Audit.Csv
import CoinManage.AmountText
import CoinManage.Wallets.Transfer
import CoinManage.OfflinePay.Breaker
import CoinManage.Wallets.Bindings
import CoinManage.Wallets.Timeline
import CoinManage.Withdraw.SyncFailures
import CoinManage.Withdraw.Recovery
import CoinManage.Postgres.Compensation
import CoinManage.Postgres.Syncs
import CoinManage.Postgres.Replays
import CoinManage.Wallets.Lifecycle
import CoinManage.Wallets.Issuance
import CoinManage.Foxya.Credits
import CoinManage.Postgres.Once
import CoinManage.Foxya.Deposits
