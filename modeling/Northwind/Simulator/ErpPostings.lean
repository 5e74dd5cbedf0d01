import Northwind.Simulator.OpsDatabase
import Northwind.Simulator.OpsPlanning

/-!
# Planning and applying revenue postings

Finance reads the issued invoices of Operations, plans one posting for each due
invoice whose order has none, and applies the postings to its own ledger inside
the transaction of its caller.

A posting keeps the columns that a planner, an applier or a constraint reads:
the amount in the currency of the company is left out, the exchange rate it
needs is still looked up.
-/

namespace Northwind
namespace Simulator

open CrashPrograms

/-! ## Tables -/

structure CompanyRow where
  companyCode : String
  functionalCurrency : String
deriving DecidableEq

structure GlAccountRow where
  glAccount : String
  accountType : String
  isPostable : Bool
deriving DecidableEq

structure CostCenterRow where
  costCenterCode : String
  companyCode : String
  isActive : Bool
  validFrom : Nat
  validTo : Option Nat
deriving DecidableEq

structure FxRateRow where
  fromCurrency : String
  toCurrency : String
  rateType : String
  rateDate : Nat
deriving DecidableEq

structure RevenuePostingRow where
  postingId : Nat
  documentNumber : String
  companyCode : String
  orderRef : Option Nat
  postingDate : Nat
  documentCurrency : String
  amountDoc : Int
  companyCurrency : String
deriving DecidableEq

structure ErpDatabase where
  companies : List CompanyRow
  glAccounts : List GlAccountRow
  costCenters : List CostCenterRow
  fxRates : List FxRateRow
  revenuePostings : List RevenuePostingRow
  appliedEvents : List String

inductive ErpTable where
  | revenuePostings
  | appliedEvents
deriving DecidableEq

inductive ErpError where
  | notRevenuePosting
  | unknownCompanies (companyCodes : List String)
  | postingIdCollision (postingId : Nat)
  | unknownCompany (companyCode : String)
  | companyCurrencyChanged (companyCode : String)
  | noAccountOrCostCenter
  | missingFxRate (currency : String) (postingDate : Nat)
  | uniqueViolation (table : ErpTable)
deriving DecidableEq

def ErpError.message : ErpError → String
  | .notRevenuePosting => "ERP applier supports only planned revenue postings"
  | .unknownCompanies companyCodes =>
      "Ops invoice refers to unknown ERP companies: " ++ toString companyCodes
  | .postingIdCollision postingId => "ERP posting ID collision for " ++ toString postingId
  | .unknownCompany companyCode => "unknown ERP company " ++ companyCode
  | .companyCurrencyChanged companyCode => "company currency changed for " ++ companyCode
  | .noAccountOrCostCenter =>
      "ERP posting requires an active revenue account and cost center"
  | .missingFxRate currency postingDate =>
      "missing FX rate for " ++ currency ++ " on or before " ++ toString postingDate
  | .uniqueViolation _ => "duplicate key value violates unique constraint"

abbrev ErpProgram : Type → Type :=
  Program ErpDatabase ErpError

/-! ## Planning -/

/-- The cross-system invoice facts Finance receives from Operations. -/
structure OpsInvoice where
  invoiceId : Nat
  invoiceNumber : String
  orderId : Nat
  invoiceDate : Nat
  companyCode : String
  companyCurrency : String
  documentCurrency : String
  amountDoc : Int
deriving DecidableEq

/-- A row of the invoice query: an issued invoice with its order and customer. -/
def opsInvoice (db : OpsDatabase) (invoice : InvoiceRow) : Option OpsInvoice :=
  if invoice.status ≠ .issued then none
  else
    match db.orders.find? (fun row => row.orderId = invoice.orderId) with
    | none => none
    | some order =>
        (db.customers.find? (fun row => row.customerId = order.customerId)).map
          (fun customer =>
            { invoiceId := invoice.invoiceId
              invoiceNumber := invoice.invoiceNumber
              orderId := invoice.orderId
              invoiceDate := invoice.invoiceDate
              companyCode := customer.companyCode
              companyCurrency := ""
              documentCurrency := invoice.currencyCode
              amountDoc := invoice.amount })

/-- `_read_ops_invoices` -/
def readOpsInvoices (db : OpsDatabase) : List OpsInvoice :=
  (db.invoices.insertionSort (fun row row' => row.invoiceId ≤ row'.invoiceId)).filterMap
    (opsInvoice db)

/-- The functional currency of a company -/
def currencyOf (db : ErpDatabase) (companyCode : String) : Option String :=
  (db.companies.find? (fun row => row.companyCode = companyCode)).map
    CompanyRow.functionalCurrency

/-- The companies of the invoices that Finance does not know, sorted. -/
def missingCompanies (db : ErpDatabase) (invoices : List OpsInvoice) : List String :=
  (((invoices.map OpsInvoice.companyCode).filter
      (fun code => (currencyOf db code).isNone)).dedup).insertionSort (· ≤ ·)

/-- The orders of the invoices that have a posting. -/
def postedOrderIds (db : ErpDatabase) (invoices : List OpsInvoice) : List Nat :=
  (db.revenuePostings.filterMap RevenuePostingRow.orderRef).filter
    (fun orderRef => orderRef ∈ invoices.map OpsInvoice.orderId)

/-- An invoice with the currency of its company. -/
def enriched (db : ErpDatabase) (invoice : OpsInvoice) : OpsInvoice :=
  { invoice with companyCurrency := (currencyOf db invoice.companyCode).getD "" }

/-- `f"{company_code}-{invoice_id:012d}"` -/
def documentNumber (companyCode : String) (invoiceId : Nat) : String :=
  companyCode ++ "-" ++ zeroPadded 12 invoiceId

namespace ErpDailyPlanner

variable (policy : SimulationPolicy) (sha256 : Sha256)

/-- `_posting_delay` -/
def postingDelay (invoice : OpsInvoice) : Nat :=
  let text := "erp:" ++ toString invoice.invoiceId
  if policy.delayedErpPosting (sha256.digest text 1) then policy.invoiceToErp.maximum + 1
  else policy.invoiceToErp.delay sha256 text

/-- An invoice that is due and whose order has no posting; what becomes due on a
breach date is held back. -/
def isEligible (runDate : Nat) (seed : Int) (posted : List Nat) (invoice : OpsInvoice) :
    Bool :=
  let dueDate := invoice.invoiceDate + postingDelay policy sha256 invoice
  invoice.orderId ∉ posted && dueDate ≤ runDate &&
    !(policy.isWeeklySlaBreachDate runDate seed && dueDate = runDate)

def postingFor (runDate postingId : Nat) (invoice : OpsInvoice) : BusinessEvent :=
  sha256.createEvent runDate
    (.revenuePostingCreated
      { postingId := postingId
        documentNumber := documentNumber invoice.companyCode invoice.invoiceId
        invoiceId := invoice.invoiceId
        invoiceNumber := invoice.invoiceNumber
        orderRef := invoice.orderId
        companyCode := invoice.companyCode
        companyCurrency := invoice.companyCurrency
        documentCurrency := invoice.documentCurrency
        amountDoc := invoice.amountDoc
        postingDate := invoice.invoiceDate
        invoiceToErpDelayDays := postingDelay policy sha256 invoice })

/-- `ErpDailyPlanner.plan` -/
def plan (runDate : Nat) (seed : Int) (invoices : List OpsInvoice) (posted : List Nat)
    (nextPostingId : Nat) : List BusinessEvent :=
  planNumbered nextPostingId
    (fun postingId invoice => some (postingFor policy sha256 runDate postingId invoice))
    ((invoices.filter (isEligible policy sha256 runDate seed posted)).insertionSort
      (fun invoice invoice' => invoice.invoiceId ≤ invoice'.invoiceId))

end ErpDailyPlanner

/-! ## Applying -/

namespace ErpEventApplier

open Program

def insertPosting (row : RevenuePostingRow) : ErpProgram PUnit := do
  let db ← read
  if db.revenuePostings.any
      (fun known =>
        known.postingId = row.postingId ||
          (known.companyCode = row.companyCode &&
            known.documentNumber = row.documentNumber)) then
    raise (.uniqueViolation .revenuePostings)
  else write (fun db => { db with revenuePostings := db.revenuePostings ++ [row] })

def insertAppliedEvent (eventId : String) : ErpProgram PUnit := do
  let db ← read
  if eventId ∈ db.appliedEvents then raise (.uniqueViolation .appliedEvents)
  else write (fun db => { db with appliedEvents := db.appliedEvents ++ [eventId] })

/-- A postable revenue account and a cost center of the company. -/
def hasAccountAndCostCenter (db : ErpDatabase) (companyCode : String) (postingDate : Nat) :
    Bool :=
  db.glAccounts.any (fun row => row.accountType = "REVENUE" && row.isPostable) &&
    db.costCenters.any
      (fun row =>
        row.companyCode = companyCode && row.isActive && row.validFrom ≤ postingDate &&
          row.validTo.all (fun validTo => postingDate < validTo))

/-- A rate `_usd_rate` finds -/
def hasUsdRate (db : ErpDatabase) (currency : String) (postingDate : Nat) : Bool :=
  currency = "USD" ||
    db.fxRates.any
      (fun row =>
        row.fromCurrency = currency && row.toCurrency = "USD" && row.rateType = "SPOT" &&
          row.rateDate ≤ postingDate)

/-- The rates `_company_amount` asks for, in their order. -/
def currenciesToConvert (documentCurrency companyCurrency : String) : List String :=
  if documentCurrency = companyCurrency then []
  else if companyCurrency ≠ "USD" then [documentCurrency, companyCurrency]
  else [documentCurrency]

def insertNewPosting (posting : RevenuePostingCreated) (db : ErpDatabase) :
    ErpProgram PUnit :=
  match currencyOf db posting.companyCode with
  | none => raise (.unknownCompany posting.companyCode)
  | some currency =>
      if currency ≠ posting.companyCurrency then
        raise (.companyCurrencyChanged posting.companyCode)
      else if !hasAccountAndCostCenter db posting.companyCode posting.postingDate then
        raise .noAccountOrCostCenter
      else
        match (currenciesToConvert posting.documentCurrency posting.companyCurrency).find?
            (fun currency => !hasUsdRate db currency posting.postingDate) with
        | some currency => raise (.missingFxRate currency posting.postingDate)
        | none =>
            insertPosting
              { postingId := posting.postingId
                documentNumber := posting.documentNumber
                companyCode := posting.companyCode
                orderRef := some posting.orderRef
                postingDate := posting.postingDate
                documentCurrency := posting.documentCurrency
                amountDoc := posting.amountDoc
                companyCurrency := posting.companyCurrency }

/-- `_apply_posting` -/
def applyPosting (posting : RevenuePostingCreated) : ErpProgram PUnit := do
  let db ← read
  match db.revenuePostings.find? (fun row => row.postingId = posting.postingId) with
  | some existing =>
      if existing.orderRef ≠ some posting.orderRef then
        raise (.postingIdCollision posting.postingId)
      else pure ⟨⟩
  | none => insertNewPosting posting db

/-- A posting and its marker, or nothing where the marker is there. -/
def applyUnmarked (eventId : String) (posting : RevenuePostingCreated) : ErpProgram Nat := do
  let db ← read
  if eventId ∈ db.appliedEvents then pure 0
  else do
    applyPosting posting
    insertAppliedEvent eventId
    pure 1

def applyOnce (event : BusinessEvent) : ErpProgram Nat :=
  match event.body with
  | .revenuePostingCreated posting =>
      if event.source ≠ .erp then raise .notRevenuePosting
      else applyUnmarked event.eventId posting
  | _ => raise .notRevenuePosting

/-- `ErpEventApplier.apply` -/
def apply (events : List BusinessEvent) : ErpProgram Nat :=
  sumEach applyOnce events

end ErpEventApplier

end Simulator
end Northwind
