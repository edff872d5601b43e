import SasBackend.Library.Transition
import SasBackend.Semantics.ChangeSequence
import SasBackend.ChangeSequence
import SasBackend.Idempotency
import SasBackend.Library.ChangeLog
import SasBackend.Library.Paging
import SasBackend.Library.Reader
import SasBackend.Semantics.SyncFeed
import SasBackend.SyncFeed
import SasBackend.Semantics.SyncDevice
import SasBackend.SyncDevice
import SasBackend.Library.Decimal
import SasBackend.Library.RowLocks
import SasBackend.Semantics.Enums
import SasBackend.Semantics.SaleExclusion
import SasBackend.SaleExclusion
import SasBackend.Semantics.RegisterShift
import SasBackend.RegisterShift
import SasBackend.Semantics.SyncPush
import SasBackend.SyncPush
import SasBackend.SyncBatch
import SasBackend.Library.Dependency
import SasBackend.SyncSchedule
import SasBackend.SaleReplay
import SasBackend.Semantics.OwnerRetention
import SasBackend.OwnerRetention
import SasBackend.Semantics.Sessions
import SasBackend.Sessions
import SasBackend.RefreshFamily
import SasBackend.CredentialChange
import SasBackend.Library.Tally
import SasBackend.Semantics.Pricing
import SasBackend.Semantics.Refunds
import SasBackend.Library.Outcome
import SasBackend.Refunds
import SasBackend.Semantics.BranchScope
import SasBackend.BranchScope
import SasBackend.ScopedDevice
import SasBackend.Library.Interleaving
import SasBackend.Semantics.Stock
import SasBackend.Oversell
import SasBackend.Library.Savepoint
import SasBackend.Permissions
import SasBackend.Library.Overlay
import SasBackend.Semantics.StockLevels
import SasBackend.StockLevels
import SasBackend.DocumentNumbers
import SasBackend.Leases
import SasBackend.LicenseLineage
import SasBackend.JournalEntries
import SasBackend.KitchenTickets
import SasBackend.CreditSales
import SasBackend.LoginLockout
import SasBackend.LockOrder
import SasBackend.ReplaySession
import SasBackend.Semantics.LockOrder
import SasBackend.Library.SignificantDigits
import SasBackend.Settling
import SasBackend.Settling.Digits
import SasBackend.Discounts
import SasBackend.ReturnProration
import SasBackend.FifoCost
import SasBackend.PermissionCache
import SasBackend.Semantics.FifoCost
import SasBackend.Library.Slots
import SasBackend.Semantics.PlatformLogin
import SasBackend.PlatformLogin
import SasBackend.Expenses
import SasBackend.DiningTabs
import SasBackend.LayerAccounting
import SasBackend.LayerRestoration
import SasBackend.StockRequests
import SasBackend.SaleRequests
import SasBackend.ReturnRequests
import SasBackend.LayerConservation
import SasBackend.PriceBounds
import SasBackend.PrintedTotals
import SasBackend.TabTotals
import SasBackend.Consumption
import SasBackend.MaterialNeeds
import SasBackend.Library.Calendar
import SasBackend.Semantics.Subscriptions
import SasBackend.Subscriptions
import SasBackend.ProductionOrders
import SasBackend.PurchaseOrders
import SasBackend.StockFrame
import SasBackend.ReceiptOrder
import SasBackend.Semantics.Transfers
import SasBackend.TransferRows
import SasBackend.Transfers
import SasBackend.Semantics.SplitReturns
import SasBackend.SplitAmounts
import SasBackend.SplitReturns
import SasBackend.Library.ThreeValued
import SasBackend.Semantics.TenantStatus
import SasBackend.TenantStatus
import SasBackend.TotpReplay
import SasBackend.KotLines
import SasBackend.RateLimit
import SasBackend.Library.Forest
import SasBackend.Categories
import SasBackend.Semantics.ChartOfAccounts
import SasBackend.ChartOfAccounts
import SasBackend.FiredOnce
import SasBackend.Library.Hexadecimal
import SasBackend.Library.Json
import SasBackend.Library.JsonReading
import SasBackend.Library.JsonRoundTrip
import SasBackend.Library.DecimalText
import SasBackend.Library.UuidText
import SasBackend.Semantics.LineNotes
import SasBackend.LineNotes
import SasBackend.Library.IsoDate
import SasBackend.Semantics.LicenseKeys
import SasBackend.LicenseKeys
import SasBackend.Library.Loop
import SasBackend.Semantics.MonthArithmetic
import SasBackend.MonthArithmetic
import SasBackend.SaleMovements
import SasBackend.Semantics.SaleStock
import SasBackend.SaleStock
import SasBackend.SaleNet
import SasBackend.Semantics.VoidedSales
import SasBackend.LayerShifts
import SasBackend.LayerRefill
import SasBackend.SoldStock
import SasBackend.LayerRoom
import SasBackend.VoidedSales
import SasBackend.Semantics.SyncTokens
import SasBackend.SyncTokens
import SasBackend.Library.Csv
import SasBackend.Semantics.Exports
import SasBackend.Exports
import SasBackend.Semantics.Middleware
import SasBackend.Middleware
import SasBackend.Library.UniqueKeys
import SasBackend.Semantics.Catalogue
import SasBackend.Catalogue
import SasBackend.Library.Grouping
import SasBackend.Semantics.Reports
import SasBackend.Reports
import SasBackend.Semantics.Roles
import SasBackend.Roles
import SasBackend.Library.Service
import SasBackend.Semantics.Prices
import SasBackend.Prices
import SasBackend.Semantics.AppSettings
import SasBackend.AppSettings
import SasBackend.Semantics.Boms
import SasBackend.Boms
