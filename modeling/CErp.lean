import CErp.PrefixStack
import CErp.Json
import CErp.Sql
import CErp.Domain
import CErp.DomainSql
import CErp.UserContext
import CErp.RuleEngine
import CErp.RecordRules
import CErp.Money
import CErp.Outcome
import CErp.Table
import CErp.BaseModel
import CErp.CompanyWrites
import CErp.Runs
import CErp.DbConnection
import CErp.SessionManager
import CErp.Tenants
import CErp.TenantIsolation
import CErp.Csv
import CErp.ModelAccess
import CErp.ModelSearch
import CErp.CsvRoutes
import CErp.CsvGrants
import CErp.AccountDb
import CErp.Allotment
import CErp.PaymentAllocation
import CErp.AccountMove
import CErp.AccountAsset
import CErp.AccountPayment
import CErp.BankStatement
import CErp.LockDate
import CErp.Balanced
import CErp.Allocations
import CErp.RuleDomains
import CErp.SequenceText
import CErp.SequenceRuns
import CErp.SequenceSeed
import CErp.JournalNames
import CErp.KeyedSums
import CErp.StockDb
import CErp.StockQuant
import CErp.StockLedger
import CErp.FifoLayers
import CErp.AverageCost
import CErp.WarehouseDb
import CErp.LandedCost
import CErp.ValuationLedger
import CErp.Pickings
import CErp.Reservations
import CErp.LastRemainder
import CErp.Rounding
import CErp.TaxAccuracy
import CErp.OrderQuantities
import CErp.Analytic
import CErp.Reversal
import CErp.Depreciation
import CErp.Calendar
import CErp.RentalDb
import CErp.RentalLines
import CErp.UnitStates
import CErp.UnitLets
import CErp.RentalBilling
import CErp.BilledGroups
import CErp.RentalInvoices
import CErp.PeriodTiling
import CErp.BillingFailures
import CErp.SkippedGroups
import CErp.RentalForecast
import CErp.Residuals
import CErp.LiveAllocations
import CErp.PaidInFull
import CErp.KeyedEntries
import CErp.SessionStore
import CErp.Guards
import CErp.IrCron
import CErp.Markup
import CErp.WebsiteRender
import CErp.SafeMarkup
import CErp.DetachedLinks
import CErp.SqlReader
import CErp.SqlText
import CErp.SearchConditions
import CErp.MrpProduction
import CErp.Doubles
import CErp.OrderInvoices
import CErp.OrderInvoiced
import CErp.InvoiceAgreement
import CErp.SaleLines
import CErp.OrderTotals
import CErp.TtlCache
import CErp.RuleCache
import CErp.SlidingWindow
import CErp.HrKiosk
import CErp.HrAttendance
import CErp.BookedTime
import CErp.DatedEntries
import CErp.PortalStatement
import CErp.StatementComposes
import CErp.StatementAgeing
import CErp.Workflow
import CErp.HrLeave
import CErp.LeaveBalances
import CErp.Designators
import CErp.BomRows
import CErp.BomImport
import CErp.ImportedLines
import CErp.Cascades
import CErp.ResPartner
import CErp.PartnerTree
import CErp.PartnerCascades
import CErp.DerivedPartners
import CErp.PartnerNesting
import CErp.DoubleText
import CErp.Nesting
import CErp.PageBlocks
import CErp.OwnMarkup
import CErp.FairBlocks
import CErp.NestedPages
import CErp.VettedFrames
import CErp.Versions
import CErp.ExpectedWrites
import CErp.ReadonlyFields
import CErp.LoginRateLimiter
import CErp.PartnerRules
import CErp.ReadGroup
import CErp.AuthViewModel
import CErp.GroupReveals
import CErp.SessionDesk
import CErp.SessionPrivileges
import CErp.CompanySwitching
import CErp.Administrators
import CErp.ResetLinks
import CErp.Decimals
import CErp.CountedLoop
import CErp.DesignatorLoops
import CErp.DesignatorRanges
import CErp.FinancialReports
import CErp.StatementsAgree
import CErp.WebsiteForm
import CErp.CategoryTree
import CErp.RecursiveQuery
import CErp.NumberLists
import CErp.ProductVariants
import CErp.VariantChoices
import CErp.VariantGeneration
import CErp.VariantRuns
import CErp.Naming
import CErp.ParamKeywords
import CErp.KeywordRuns
import CErp.AttachmentRuns
import CErp.MoneySplit
import CErp.MoneyText
import CErp.TaxFigures
import CErp.FifoDraws
import CErp.StockCounts
import CErp.StockForecast
import CErp.VideoLinks
import CErp.RecomputeTwice
import CErp.ForeignSettlement
import CErp.IsoDates
import CErp.GroupDrill
import CErp.TimeBuckets
import CErp.LandedShares
import CErp.ReorderRules
import CErp.NextPeriods
import CErp.ClauseBinding
import CErp.DomainGrammar
import CErp.CsvRoundTrip
import CErp.JsonTexts
import CErp.AiReply
import CErp.HoleTexts
import CErp.RenderedDocuments
import CErp.RentalExpenses
import CErp.RecurringExpenses
import CErp.AuthService
import CErp.Passwords
import CErp.Pricelists
import CErp.ProperRounding
import CErp.EditScripts
import CErp.NameSimilarity
import CErp.ArchivedContacts
import CErp.CategoryPaths
import CErp.SiValues
import CErp.DatabaseReset
