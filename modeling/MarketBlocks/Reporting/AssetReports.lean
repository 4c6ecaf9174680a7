import MarketBlocks.Common.NumberText
import MarketBlocks.Library.Tally
import MarketBlocks.PaperTrading.Ledger
import MarketBlocks.PaperTrading.Precision

/-!
# Asset reports

At the end of a run the report lists the balances of every asset, added up over the exchanges, with
their change since the logger was created. The change is what the fills since then have made of the
balances, exact to the ten digits of a volume.

The vector of reports is a multiset, since it follows the order of an unordered set. Over a data time
range of zero the annual return is a quotient by zero, whose text is a parameter.
-/

namespace MarketBlocks

open Library

/-- `asset_report`, as texts. -/
structure AssetReport where
  asset : String
  startBalance : String
  endBalance : String
  change : String
  percentageChange : String
  annualReturn : String

/-- `calculate_percentage_diff`. -/
def calculatePercentageDiff (a b : ℚ) : ℚ := (b - a) * 100 / a

/-- `test_logger_exchange_data`: the balances at the creation of the logger, and the account. -/
structure ExchangeBalances where
  initialBalances : UnorderedMap String ℚ
  tradeApi : PaperTradeApi

/-- The text of the quotient of two doubles, given the one for the divisor zero. -/
def quotientText (overZero : ℚ → String) (a b : ℚ) (precision : ℤ) : String :=
  if b = 0 then overZero a else toStringWithPrecision (a / b) precision

/-- The report of one asset. -/
def assetReport (overZero : ℚ → String) (dataTimeRange : ℤ) (startBalance finalBalance : ℚ)
    (asset : String) : AssetReport where
  asset := asset
  startBalance := toStringWithPrecision startBalance 8
  endBalance := toStringWithPrecision finalBalance 8
  change := toStringWithPrecision (finalBalance - startBalance) 8
  percentageChange :=
    if startBalance = 0 then "N/A"
    else toStringWithPrecision (calculatePercentageDiff startBalance finalBalance) 2 ++ "%"
  annualReturn :=
    if startBalance = 0 then "N/A"
    else quotientText overZero (calculatePercentageDiff startBalance finalBalance)
      (dataTimeRange / 31536000) 2 ++ "%"

/-- The balances of the exchanges, added up. -/
def totalBalances (balances : ExchangeBalances → UnorderedMap String ℚ)
    (exchangeData : List ExchangeBalances) : UnorderedMap String ℚ :=
  exchangeData.foldl (fun total exchange => total.addEntries (balances exchange)) ∅

/-- The assets of any balance before or after. -/
def uniqueAssets (exchangeData : List ExchangeBalances) : Finset String :=
  exchangeData.foldl (fun assets exchange =>
    assets ∪ exchange.initialBalances.keys ∪ exchange.tradeApi.balanceMap.keys) ∅

/-- `create_asset_reports`, one for each asset. -/
def createAssetReports (overZero : ℚ → String) (dataTimeRange : ℤ) (exchangeData : List ExchangeBalances) :
    Multiset AssetReport :=
  let initialBalances := totalBalances (·.initialBalances) exchangeData
  let finalBalances := totalBalances (·.tradeApi.balanceMap) exchangeData
  (uniqueAssets exchangeData).val.map fun asset => assetReport overZero dataTimeRange
    (initialBalances.findOrDefault asset) (finalBalances.findOrDefault asset) asset

/-! ## Totals -/

/-- The total of an asset. -/
theorem findOrDefault_totalBalances (balances : ExchangeBalances → UnorderedMap String ℚ)
    (exchangeData : List ExchangeBalances) (asset : String) :
    (totalBalances balances exchangeData).findOrDefault asset =
      (exchangeData.map fun exchange => (balances exchange).findOrDefault asset).sum := by
  have hfold : ∀ total : UnorderedMap String ℚ, (exchangeData.foldl (fun total exchange =>
      total.addEntries (balances exchange)) total).findOrDefault asset = total.findOrDefault asset +
        (exchangeData.map fun exchange => (balances exchange).findOrDefault asset).sum := by
    induction exchangeData with
    | nil => simp
    | cons exchange rest ih =>
      intro total
      rw [List.foldl_cons, ih, List.map_cons, List.sum_cons, ← add_assoc]
      congr 1
      exact (UnorderedMap.addEntries_spec total (balances exchange) asset).2
  rw [totalBalances, hfold, UnorderedMap.findOrDefault_empty]
  exact zero_add _

/-- The assets are those that an exchange held at the start or holds at the end. -/
theorem mem_uniqueAssets (exchangeData : List ExchangeBalances) (asset : String) :
    asset ∈ uniqueAssets exchangeData ↔ ∃ exchange ∈ exchangeData,
      asset ∈ exchange.initialBalances ∨ asset ∈ exchange.tradeApi.balanceMap := by
  have hfold : ∀ assets : Finset String, asset ∈ exchangeData.foldl (fun assets exchange =>
      assets ∪ exchange.initialBalances.keys ∪ exchange.tradeApi.balanceMap.keys) assets ↔
        asset ∈ assets ∨ ∃ exchange ∈ exchangeData,
          asset ∈ exchange.initialBalances ∨ asset ∈ exchange.tradeApi.balanceMap := by
    induction exchangeData with
    | nil => simp
    | cons exchange rest ih =>
      intro assets
      rw [List.foldl_cons, ih, List.exists_mem_cons_iff]
      simp only [Finset.mem_union, Finmap.mem_keys, or_assoc]
  rw [uniqueAssets, hfold]
  simp

/-! ## The ledger of a report -/

/-- An exchange that the logger follows: its calls before the logger was created and since then. -/
structure LoggedExchange where
  config : PaperTradingConfig
  before : List (Feed × Call)
  since : List (Feed × Call)

/-- Further fills add their own entries. -/
theorem ledger_append (config : PaperTradingConfig) (fills new : List FilledOrder) (asset : String) :
    ledger config (fills ++ new) asset =
      ledger config fills asset + (new.map (ledgerEntry config.fee · asset)).sum := by
  simp [ledger, add_assoc]

namespace LoggedExchange

/-- The session up to where the logger is made. -/
def atStart (exchange : LoggedExchange) : Session := Session.run exchange.config exchange.before

/-- The session up to where the report is made. -/
def atEnd (exchange : LoggedExchange) : Session :=
  Session.run exchange.config (exchange.before ++ exchange.since)

/-- What the logger is given of an exchange. -/
def data (exchange : LoggedExchange) : ExchangeBalances :=
  { initialBalances := exchange.atStart.api.balanceMap, tradeApi := exchange.atEnd.api }

/-- The fills since the logger was created. -/
def newFills (exchange : LoggedExchange) : List FilledOrder :=
  exchange.atEnd.fills.drop exchange.atStart.fills.length

/-- What the new fills make of an asset, in units of a volume. -/
def gained (exchange : LoggedExchange) (asset : String) : ℤ :=
  (exchange.newFills.map (ledgerEntry exchange.config.fee · asset)).sum

/-- The fee is a percentage and no amount of a fill overflows. -/
structure Regular (exchange : LoggedExchange) : Prop where
  fee : 0 ≤ exchange.config.fee ∧ exchange.config.fee ≤ 100
  fits : Fits exchange.config exchange.atEnd.fills

/-- Calls only append fills. -/
theorem fills_eq (exchange : LoggedExchange) :
    exchange.atEnd.fills = exchange.atStart.fills ++ exchange.newFills := by
  have happend : ∀ (inputs : List (Feed × Call)) (s : Session), s.WellFormed →
      s.fills <+: (inputs.foldl Session.step s).fills := by
    intro inputs
    induction inputs with
    | nil => exact fun s _ => List.prefix_rfl
    | cons input rest ih =>
      intro s hwell
      obtain ⟨new, hfills, -⟩ := hwell.step_fills input
      exact (hfills ▸ List.prefix_append s.fills new).trans (ih _ (hwell.step input))
  obtain ⟨new, hnew⟩ := happend exchange.since exchange.atStart
    (Session.WellFormed.run exchange.config exchange.before)
  have hend : exchange.atEnd = exchange.since.foldl Session.step exchange.atStart :=
    List.foldl_append
  rw [newFills, hend, ← hnew, List.drop_left]

/-- The balance of an asset moves by what the new fills make of it. -/
theorem balance_atEnd {exchange : LoggedExchange} (h : exchange.Regular) (asset : String) :
    (exchange.atEnd.api.balance asset : ℤ) =
      exchange.atStart.api.balance asset + exchange.gained asset := by
  have hend : (exchange.atEnd.api.balance asset : ℤ) = ledger exchange.config exchange.atEnd.fills asset :=
    (Session.Balanced.run h.fee (exchange.before ++ exchange.since)).balance_eq h.fits asset
  have hstartFits : Fits exchange.config exchange.atStart.fills :=
    { converts := fun fill hfill => h.fits.converts fill (by
        rw [fills_eq]
        exact List.mem_append_left _ hfill)
      room := fun before fill hpart => h.fits.room before fill (by
        rw [fills_eq]
        exact hpart.trans (List.prefix_append _ _)) }
  have hstart : (exchange.atStart.api.balance asset : ℤ) =
      ledger exchange.config exchange.atStart.fills asset :=
    (Session.Balanced.run h.fee exchange.before).balance_eq hstartFits asset
  rw [hend, hstart, fills_eq, ledger_append, gained]

/-- What an exchange reports of an asset, at the start and at the end. -/
theorem reported (exchange : LoggedExchange) (asset : String) :
    exchange.data.initialBalances.findOrDefault asset =
        exchange.atStart.api.balance asset / volumeModifier ∧
      exchange.data.tradeApi.balanceMap.findOrDefault asset =
        exchange.atEnd.api.balance asset / volumeModifier := by
  have hread : ∀ api : PaperTradeApi, api.balanceMap.findOrDefault asset =
      api.balance asset / volumeModifier := by
    intro api
    rw [UnorderedMap.findOrDefault, PaperTradeApi.balanceMap, UnorderedMap.lookup_mapEntries,
      PaperTradeApi.balance, UnorderedMap.findOrDefault]
    cases api.balances.lookup asset with
    | none => exact (zero_div volumeModifier).symm
    | some balance => rfl
  exact ⟨hread exchange.atStart.api, hread exchange.atEnd.api⟩

end LoggedExchange

/-- The totals of the report, over some exchanges. -/
private theorem totals_eq {exchanges : List LoggedExchange} (h : ∀ exchange ∈ exchanges, exchange.Regular)
    (asset : String) :
    let start := (exchanges.map fun exchange =>
      exchange.data.initialBalances.findOrDefault asset).sum
    let final := (exchanges.map fun exchange =>
      exchange.data.tradeApi.balanceMap.findOrDefault asset).sum
    start = (exchanges.map fun exchange => (exchange.atStart.api.balance asset : ℚ)).sum / 10 ^ 10 ∧
      final - start = (exchanges.map fun exchange => (exchange.gained asset : ℚ)).sum / 10 ^ 10 := by
  induction exchanges with
  | nil => simp
  | cons exchange rest ih =>
    obtain ⟨hstart, hchange⟩ := ih fun other hother => h other (List.mem_cons_of_mem _ hother)
    obtain ⟨hfirst, hlast⟩ := exchange.reported asset
    have hmove : (exchange.atEnd.api.balance asset : ℚ) =
        exchange.atStart.api.balance asset + exchange.gained asset := by
      exact_mod_cast LoggedExchange.balance_atEnd (h exchange List.mem_cons_self) asset
    simp only [List.map_cons, List.sum_cons, hfirst, hlast, volumeModifier]
    constructor
    · rw [hstart]
      ring
    · rw [hmove, add_sub_add_comm, hchange]
      ring

/-- The report has one entry for every asset that an exchange held when the logger was created or holds
at the end. The entry tells the total at the start, and as its change what the fills since then have
made of the asset on all exchanges; the end balance and the percentages follow from these two. -/
theorem createAssetReports_ledger (overZero : ℚ → String) (dataTimeRange : ℤ)
    (exchanges : List LoggedExchange) (h : ∀ exchange ∈ exchanges, exchange.Regular) :
    let reports := createAssetReports overZero dataTimeRange (exchanges.map LoggedExchange.data)
    (reports.map (·.asset)).Nodup ∧
      (∀ asset, asset ∈ reports.map (·.asset) ↔ ∃ exchange ∈ exchanges,
        asset ∈ exchange.atStart.api.balances ∨ asset ∈ exchange.atEnd.api.balances) ∧
      ∀ report ∈ reports, ∃ start change : ℚ,
        start = (exchanges.map fun exchange =>
          (exchange.atStart.api.balance report.asset : ℚ)).sum / 10 ^ 10 ∧
        change = (exchanges.map fun exchange => (exchange.gained report.asset : ℚ)).sum / 10 ^ 10 ∧
        report.startBalance = toStringWithPrecision start 8 ∧
        report.endBalance = toStringWithPrecision (start + change) 8 ∧
        report.change = toStringWithPrecision change 8 ∧
        report.percentageChange =
          (if start = 0 then "N/A" else toStringWithPrecision (change * 100 / start) 2 ++ "%") ∧
        report.annualReturn = if start = 0 then "N/A"
          else quotientText overZero (change * 100 / start) (dataTimeRange / 31536000) 2 ++ "%" := by
  intro reports
  have hmap : reports.map (·.asset) = (uniqueAssets (exchanges.map LoggedExchange.data)).val := by
    simp only [reports, createAssetReports, Multiset.map_map]
    exact Multiset.map_id _
  have hkeys : ∀ (api : PaperTradeApi) (asset : String),
      asset ∈ api.balanceMap ↔ asset ∈ api.balances := by
    intro api asset
    rw [← Finmap.lookup_isSome, ← Finmap.lookup_isSome, PaperTradeApi.balanceMap,
      UnorderedMap.lookup_mapEntries, Option.isSome_map]
  refine ⟨?_, fun asset => ?_, fun report hreport => ?_⟩
  · rw [hmap]
    exact Finset.nodup _
  · rw [hmap, Finset.mem_val, mem_uniqueAssets]
    simp [LoggedExchange.data, hkeys]
  · obtain ⟨asset, -, rfl⟩ := Multiset.mem_map.mp hreport
    obtain ⟨hstart, hchange⟩ := totals_eq h asset
    refine ⟨_, _, hstart, hchange, ?_⟩
    simp only [assetReport, findOrDefault_totalBalances, List.map_map, Function.comp_def,
      calculatePercentageDiff, add_sub_cancel, and_self]

/-- On two exchanges two units are bought at 20 with a fee of ten percent, out of 100. -/
theorem createAssetReports_ledger_buy :
    let exchange : LoggedExchange := ⟨⟨10, [("GBP", 100)]⟩, [],
      [(Feed.quote 20, .addOrder (createMarketOrder ⟨"BTC", "GBP"⟩ .buy 2))]⟩
    ∀ report ∈ createAssetReports (fun _ => "inf") 86400 ([exchange, exchange].map LoggedExchange.data),
      report.asset = "GBP" → report.startBalance = "200.00000000" ∧
        report.endBalance = "112.00000000" ∧ report.change = "-88.00000000" ∧
        report.percentageChange = "-44.00%" := by
  intro exchange
  have hfills : exchange.atEnd.fills = [] ++ [(createMarketOrder ⟨"BTC", "GBP"⟩ .buy 2, 20)] := by
    decide +kernel
  have hregular : exchange.Regular := by
    refine ⟨by decide +kernel, ?_⟩
    rw [hfills]
    constructor
    case converts =>
      intro fill hfill
      rw [List.nil_append, List.mem_singleton] at hfill
      subst hfill
      constructor <;> decide +kernel
    case room =>
      intro before fill hpart
      rcases List.prefix_concat_iff.mp hpart with heq | hpart
      · obtain ⟨rfl, hlast⟩ := List.append_inj' heq rfl
        cases List.singleton_inj.mp hlast
        decide +kernel
      · simp at hpart
  have hall : ∀ other ∈ [exchange, exchange], other.Regular := by
    intro other hother
    rcases List.mem_pair.mp hother with rfl | rfl <;> exact hregular
  intro report hreport hasset
  obtain ⟨start, change, hstart, hchange, hstartText, hendText, hchangeText, hpercentage, -⟩ :=
    (createAssetReports_ledger (fun _ => "inf") 86400 [exchange, exchange] hall).2.2 report hreport
  rw [hasset] at hstart hchange
  obtain rfl : start = 200 := hstart.trans (by decide +kernel)
  obtain rfl : change = -88 := hchange.trans (by decide +kernel)
  exact ⟨hstartText.trans (by decide +kernel), hendText.trans (by decide +kernel),
    hchangeText.trans (by decide +kernel), hpercentage.trans (by decide +kernel)⟩

end MarketBlocks
