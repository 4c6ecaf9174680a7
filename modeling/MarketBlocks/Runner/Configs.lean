import MarketBlocks.Common.ConfigFile
import MarketBlocks.Library.Calls
import MarketBlocks.PaperTrading.PaperTradeApi
import MarketBlocks.Runner.TimeSteps

/-!
# The configurations

The configurations of the runner, of the two kinds of test and of the exchanges, with what their
constructors check and how they are written to a file and read from it. A configuration that is written
is read back as it was, and one that is read has passed its checks.
-/

namespace MarketBlocks

open Library

/-! ## The runner -/

/-- `run_mode`. -/
inductive RunMode where
  | live
  | liveTest
  | backTest
  | unknown
  deriving DecidableEq, Repr

/-- The name of a mode in a config file. -/
def RunMode.toString : RunMode → String
  | .live => "live"
  | .liveTest => "live_test"
  | .backTest => "back_test"
  | .unknown => "unknown"

/-- Every other text is the unknown mode, which the validation refuses. -/
def RunMode.fromString (runMode : String) : RunMode :=
  if runMode = "live" then .live
  else if runMode = "live_test" then .liveTest
  else if runMode = "back_test" then .backTest
  else .unknown

/-- A mode is read back from its name, the unknown one included. -/
theorem RunMode.fromString_toString (runMode : RunMode) : fromString runMode.toString = runMode := by
  cases runMode <;> decide

/-- `runner_config`. -/
structure RunnerConfig where
  exchangeIds : List String
  runMode : RunMode
  websocketTimeout : ℤ
  httpTimeout : ℤ
  runInterval : ℤ
  syncTime : Bool
  deriving DecidableEq, Repr

namespace RunnerConfig

/-- `validate`, with the members that it leaves. -/
def validate (config : RunnerConfig) : Except Fault RunnerConfig :=
  if config.runMode = .unknown then
    .error (.mbException "Run mode not recognized. Options are: live, live_test, back_test")
  else if config.runInterval < 0 then .ok { config with runInterval := 0 }
  else .ok config

/-- What `validate` asks of the values. -/
structure Valid (config : RunnerConfig) : Prop where
  runMode : config.runMode ≠ .unknown
  runInterval : 0 ≤ config.runInterval

/-- The numbers are those of the machine integers of the source. -/
structure Stored (config : RunnerConfig) : Prop where
  websocketTimeout : IsInt config.websocketTimeout
  httpTimeout : IsInt config.httpTimeout
  runInterval : IsInt config.runInterval

/-- Valid values pass unchanged. -/
theorem validate_of_valid {config : RunnerConfig} (h : config.Valid) : config.validate = .ok config := by
  rw [validate, if_neg h.runMode, if_neg (not_lt.mpr h.runInterval)]

/-- What has passed the validation is valid. -/
theorem valid_of_validate {config config' : RunnerConfig} (h : config.validate = .ok config') :
    config'.Valid := by
  unfold validate at h
  split at h
  · cases h
  · next hmode =>
    split at h
    · cases h
      exact ⟨hmode, le_rfl⟩
    · next hinterval =>
      cases h
      exact ⟨hmode, not_lt.mp hinterval⟩

end RunnerConfig

/-- The members that `to_json` writes. -/
def runnerMembers (config : RunnerConfig) : List (String × Json) :=
  [("exchangeIds", .array (config.exchangeIds.map .string)),
    ("runMode", .string config.runMode.toString),
    ("websocketTimeout", .integer config.websocketTimeout),
    ("httpTimeout", .integer config.httpTimeout),
    ("runInterval", .integer config.runInterval),
    ("syncTime", .boolean config.syncTime)]

/-- `runner_config` in `runner.json`, with its defaults, its reader and its writer. -/
def runnerConfig : ConfigType RunnerConfig where
  name := "runner"
  default :=
    { exchangeIds := [], runMode := .liveTest, websocketTimeout := 5000, httpTimeout := 5000
      runInterval := 0, syncTime := false }
  fromJson json := do
    let exchangeIds ← json.get Json.asStrings "exchangeIds"
    let runMode ← json.get Json.asString "runMode"
    let websocketTimeout ← json.get Json.asInt "websocketTimeout"
    let httpTimeout ← json.get Json.asInt "httpTimeout"
    let runInterval ← json.get Json.asInt "runInterval"
    let syncTime ← json.get Json.asBool "syncTime"
    RunnerConfig.validate
      { exchangeIds, runMode := .fromString runMode, websocketTimeout, httpTimeout, runInterval, syncTime }
  toJson config := .ofMembers (runnerMembers config)

/-- A written list of texts is read back. -/
theorem asStrings_strings (texts : List String) :
    (Json.array (texts.map .string)).asStrings = .ok texts := by
  rw [Json.asStrings]
  induction texts with
  | nil => rfl
  | cons text rest ih =>
    rw [List.map_cons, List.mapM_cons, ih]
    rfl

/-- A number within the range of an `int` is read as it is. -/
theorem asInt_integer {value : ℤ} (h : IsInt value) : (Json.integer value).asInt = .ok value :=
  congrArg Except.ok (narrow_of_isInt h)

/-- The default is valid, and what is written is read back. -/
theorem runnerConfig_persists : runnerConfig.Persists RunnerConfig.Valid RunnerConfig.Stored where
  default_valid := ⟨by decide, le_rfl⟩
  default_stored := ⟨by decide, by decide, by decide⟩
  fromJson_valid document config h := by
    obtain ⟨exchangeIds, -, h⟩ := exists_of_bind_eq_ok h
    obtain ⟨runMode, -, h⟩ := exists_of_bind_eq_ok h
    obtain ⟨websocketTimeout, -, h⟩ := exists_of_bind_eq_ok h
    obtain ⟨httpTimeout, -, h⟩ := exists_of_bind_eq_ok h
    obtain ⟨runInterval, -, h⟩ := exists_of_bind_eq_ok h
    obtain ⟨syncTime, -, h⟩ := exists_of_bind_eq_ok h
    exact RunnerConfig.valid_of_validate h
  fromJson_toJson config hvalid hstored := by
    have hmembers : ((runnerMembers config).map Prod.fst).Nodup := by simp [runnerMembers]
    have hids : (runnerConfig.toJson config).get Json.asStrings "exchangeIds" = .ok config.exchangeIds :=
      (Json.get_ofMembers hmembers 0 rfl _).trans (asStrings_strings _)
    have hmode : (runnerConfig.toJson config).get Json.asString "runMode" =
        .ok config.runMode.toString :=
      Json.get_ofMembers hmembers 1 rfl _
    have hwebsocket : (runnerConfig.toJson config).get Json.asInt "websocketTimeout" =
        .ok config.websocketTimeout :=
      (Json.get_ofMembers hmembers 2 rfl _).trans (asInt_integer hstored.1)
    have hhttp : (runnerConfig.toJson config).get Json.asInt "httpTimeout" = .ok config.httpTimeout :=
      (Json.get_ofMembers hmembers 3 rfl _).trans (asInt_integer hstored.2)
    have hinterval : (runnerConfig.toJson config).get Json.asInt "runInterval" = .ok config.runInterval :=
      (Json.get_ofMembers hmembers 4 rfl _).trans (asInt_integer hstored.3)
    have hsync : (runnerConfig.toJson config).get Json.asBool "syncTime" = .ok config.syncTime :=
      Json.get_ofMembers hmembers 5 rfl _
    revert hids hmode hwebsocket hhttp hinterval hsync
    generalize runnerConfig.toJson config = document
    intro hids hmode hwebsocket hhttp hinterval hsync
    simp only [runnerConfig, hids, hmode, hwebsocket, hhttp, hinterval, hsync, bind, Except.bind,
      RunMode.fromString_toString]
    exact RunnerConfig.validate_of_valid hvalid

/-! ## The back test -/

/-- `back_testing_config` with the directory of its data. -/
structure BackTestingSettings extends BackTestingConfig where
  dataDirectory : String

/-- The members that `to_json` writes. -/
def backTestingMembers (config : BackTestingSettings) : List (String × Json) :=
  [("startTime", .integer config.startTime),
    ("endTime", .integer config.endTime),
    ("stepSize", .integer config.stepSize),
    ("dataDirectory", .string config.dataDirectory),
    ("dynamicDataLoad", .boolean config.dynamicLoad)]

/-- The values of the three integers. A number with a fraction may lie beyond them, and then its conversion
is undefined. -/
def backTestingSettings (startTime endTime stepSize : ℤ) (dataDirectory : String) (dynamicLoad : Bool) :
    Except Fault BackTestingSettings :=
  if h : IsTime startTime ∧ IsTime endTime ∧ IsInt stepSize then
    .ok { startTime, endTime, stepSize, dynamicLoad, dataDirectory, isTime_startTime := h.1,
          isTime_endTime := h.2.1, isInt_stepSize := h.2.2 }
  else .error .undefined

/-- `back_testing_config` in `back_testing.json`. -/
def backTestingConfig : ConfigType BackTestingSettings where
  name := "back_testing"
  default := { DataFactory.defaultConfig with dataDirectory := "back_test_data" }
  fromJson json := do
    let startTime ← json.get Json.asTime "startTime"
    let endTime ← json.get Json.asTime "endTime"
    let stepSize ← json.get Json.asInt "stepSize"
    let dataDirectory ← json.get Json.asString "dataDirectory"
    let dynamicLoad ← json.get Json.asBool "dynamicDataLoad"
    let config ← backTestingSettings startTime endTime stepSize dataDirectory dynamicLoad
    config.validate
    return config
  toJson config := .ofMembers (backTestingMembers config)

/-- What the constructor of the settings lets through. -/
def BackTestingSettings.Valid (config : BackTestingSettings) : Prop := config.validate = .ok ()

/-- A number within the range of a `time_t` is read as it is. -/
theorem asTime_integer {value : ℤ} (h : IsTime value) : (Json.integer value).asTime = .ok value := by
  unfold IsTime at h
  rw [Json.asTime, Int.bmod_eq_of_le] <;> omega

/-- Reading checks what the constructor checks, so only valid settings come back. -/
theorem backTestingConfig_persists : backTestingConfig.Persists BackTestingSettings.Valid fun _ => True where
  default_valid := by rfl
  default_stored := trivial
  fromJson_valid document config h := by
    obtain ⟨startTime, -, h⟩ := exists_of_bind_eq_ok h
    obtain ⟨endTime, -, h⟩ := exists_of_bind_eq_ok h
    obtain ⟨stepSize, -, h⟩ := exists_of_bind_eq_ok h
    obtain ⟨dataDirectory, -, h⟩ := exists_of_bind_eq_ok h
    obtain ⟨dynamicLoad, -, h⟩ := exists_of_bind_eq_ok h
    obtain ⟨read, -, h⟩ := exists_of_bind_eq_ok h
    obtain ⟨⟨⟩, hvalid, h⟩ := exists_of_bind_eq_ok h
    cases h
    exact hvalid
  fromJson_toJson config hvalid _ := by
    have hmembers : ((backTestingMembers config).map Prod.fst).Nodup := by simp [backTestingMembers]
    have hstart : (backTestingConfig.toJson config).get Json.asTime "startTime" = .ok config.startTime :=
      (Json.get_ofMembers hmembers 0 rfl _).trans (asTime_integer config.isTime_startTime)
    have hend : (backTestingConfig.toJson config).get Json.asTime "endTime" = .ok config.endTime :=
      (Json.get_ofMembers hmembers 1 rfl _).trans (asTime_integer config.isTime_endTime)
    have hstep : (backTestingConfig.toJson config).get Json.asInt "stepSize" = .ok config.stepSize :=
      (Json.get_ofMembers hmembers 2 rfl _).trans (asInt_integer config.isInt_stepSize)
    have hdirectory : (backTestingConfig.toJson config).get Json.asString "dataDirectory" =
        .ok config.dataDirectory :=
      Json.get_ofMembers hmembers 3 rfl _
    have hload : (backTestingConfig.toJson config).get Json.asBool "dynamicDataLoad" =
        .ok config.dynamicLoad :=
      Json.get_ofMembers hmembers 4 rfl _
    have hrange : backTestingSettings config.startTime config.endTime config.stepSize
        config.dataDirectory config.dynamicLoad = .ok config :=
      dif_pos ⟨config.isTime_startTime, config.isTime_endTime, config.isInt_stepSize⟩
    have hchecked : config.validate = .ok () := hvalid
    revert hstart hend hstep hdirectory hload
    generalize backTestingConfig.toJson config = document
    intro hstart hend hstep hdirectory hload
    simp only [backTestingConfig, hstart, hend, hstep, hdirectory, hload, hrange, hchecked, bind,
      Except.bind]
    rfl

/-! ## The paper account -/

/-- `get<std::unordered_map<std::string, double>>`. -/
def Json.asAmounts : Json → Except Fault (List (String × ℚ))
  | .object members => members.mapM fun entry => do
    let amount ← entry.2.asDouble
    return (entry.1, amount)
  | _ => .error .otherException

/-- The document of a map of amounts. -/
def amountsJson (amounts : List (String × ℚ)) : Json :=
  amounts.foldl (fun document entry => document.put entry.1 (.float entry.2)) (.object [])

/-- The members that `to_json` writes. -/
def paperTradingMembers (config : PaperTradingConfig) : List (String × Json) :=
  [("fee", .float config.fee), ("balances", amountsJson config.balances)]

/-- `paper_trading_config` in `paper_trading.json`. -/
def paperTradingConfig : ConfigType PaperTradingConfig where
  name := "paper_trading"
  default := { fee := 0, balances := [] }
  fromJson json := do
    let fee ← json.get Json.asDouble "fee"
    let balances ← json.get Json.asAmounts "balances"
    return { fee, balances }
  toJson config := .ofMembers (paperTradingMembers config)

/-- The balances are listed in the order of the assets' names. -/
def PaperTradingConfig.Stored (config : PaperTradingConfig) : Prop :=
  config.balances.Pairwise (·.1.toList < ·.1.toList)

/-- Balances in the order of their names are written in that order. -/
private theorem foldl_put_sorted {amounts : List (String × ℚ)}
    (hsorted : amounts.Pairwise (·.1.toList < ·.1.toList)) :
    amountsJson amounts = .object (amounts.map fun entry => (entry.1, .float entry.2)) := by
  induction amounts using List.reverseRecOn with
  | nil => rfl
  | append_singleton before last ih =>
    obtain ⟨hbefore, -, hlast⟩ := List.pairwise_append.mp hsorted
    have hlt : ∀ entry ∈ before, entry.1.toList < last.1.toList :=
      fun entry hentry => hlast entry hentry last (List.mem_singleton_self last)
    have hall : (before.map fun entry => (entry.1, Json.float entry.2)).filter
        (·.1.toList < last.1.toList) = before.map fun entry => (entry.1, Json.float entry.2) := by
      rw [List.filter_eq_self]
      intro entry hentry
      obtain ⟨source, hsource, rfl⟩ := List.mem_map.mp hentry
      simpa using hlt source hsource
    have hnone : (before.map fun entry => (entry.1, Json.float entry.2)).filter
        (last.1.toList < ·.1.toList) = [] := by
      rw [List.filter_eq_nil_iff]
      intro entry hentry
      obtain ⟨source, hsource, rfl⟩ := List.mem_map.mp hentry
      simpa using (hlt source hsource).le
    have hput := ih hbefore
    unfold amountsJson at hput ⊢
    rw [List.foldl_append, hput, List.foldl_cons, List.foldl_nil, Json.put, hall, hnone, List.map_append]
    rfl

/-- The balances come back sorted by name, as the file holds them. -/
theorem paperTradingConfig_persists :
    paperTradingConfig.Persists (fun _ => True) PaperTradingConfig.Stored where
  default_valid := trivial
  default_stored := List.Pairwise.nil
  fromJson_valid _ _ _ := trivial
  fromJson_toJson config _ hstored := by
    have hmembers : ((paperTradingMembers config).map Prod.fst).Nodup := by simp [paperTradingMembers]
    have hfee : (paperTradingConfig.toJson config).get Json.asDouble "fee" = .ok config.fee :=
      Json.get_ofMembers hmembers 0 rfl _
    have hbalances : (paperTradingConfig.toJson config).get Json.asAmounts "balances" =
        .ok config.balances := by
      refine (Json.get_ofMembers hmembers 1 rfl _).trans ?_
      rw [foldl_put_sorted hstored, Json.asAmounts]
      induction config.balances with
      | nil => rfl
      | cons entry rest ih =>
        rw [List.map_cons, List.mapM_cons, ih]
        rfl
    revert hfee hbalances
    generalize paperTradingConfig.toJson config = document
    intro hfee hbalances
    simp only [paperTradingConfig, hfee, hbalances, bind, Except.bind]
    rfl

/-! ## The exchanges -/

/-- A configuration of two keys, under the names that they have in the file. -/
structure ApiKeys where
  first : String
  second : String
  deriving DecidableEq, Repr

/-- A config of two texts under the names that an exchange has for them. -/
def apiKeysConfig (name first second : String) : ConfigType ApiKeys where
  name := name
  default := { first := "", second := "" }
  fromJson json := do
    let firstKey ← json.get Json.asString first
    let secondKey ← json.get Json.asString second
    return { first := firstKey, second := secondKey }
  toJson config := .ofMembers [(first, .string config.first), (second, .string config.second)]

/-- `validate` only warns of empty keys. -/
def krakenConfig : ConfigType ApiKeys := apiKeysConfig "kraken" "publicKey" "privateKey"

/-- `binance_config`. -/
def binanceConfig : ConfigType ApiKeys := apiKeysConfig "binance" "apiKey" "secretKey"

/-- `digifinex_config`. -/
def digifinexConfig : ConfigType ApiKeys := apiKeysConfig "digifinex" "apiKey" "apiSecret"

/-- Two different names keep the two texts apart. -/
theorem apiKeysConfig_persists (name : String) {first second : String} (hne : first ≠ second) :
    (apiKeysConfig name first second).Persists (fun _ => True) (fun _ => True) where
  default_valid := trivial
  default_stored := trivial
  fromJson_valid _ _ _ := trivial
  fromJson_toJson config _ _ := by
    have hmembers : ([(first, Json.string config.first), (second, .string config.second)].map
        Prod.fst).Nodup := by simp [hne]
    have hfirst := Json.get_ofMembers hmembers 0 rfl Json.asString
    have hsecond := Json.get_ofMembers hmembers 1 rfl Json.asString
    simp only [apiKeysConfig, hfirst, hsecond, bind, Except.bind, Json.asString]
    rfl

/-- `coinbase_config`. -/
structure CoinbaseKeys where
  apiKey : String
  apiSecret : String
  apiPassphrase : String
  deriving DecidableEq, Repr

/-- `coinbase.json`. -/
def coinbaseConfig : ConfigType CoinbaseKeys where
  name := "coinbase"
  default := { apiKey := "", apiSecret := "", apiPassphrase := "" }
  fromJson json := do
    let apiKey ← json.get Json.asString "apiKey"
    let apiSecret ← json.get Json.asString "apiSecret"
    let apiPassphrase ← json.get Json.asString "apiPassphrase"
    return { apiKey, apiSecret, apiPassphrase }
  toJson config := .ofMembers
    [("apiKey", .string config.apiKey), ("apiSecret", .string config.apiSecret),
      ("apiPassphrase", .string config.apiPassphrase)]

/-- All three texts are read back. -/
theorem coinbaseConfig_persists : coinbaseConfig.Persists (fun _ => True) (fun _ => True) where
  default_valid := trivial
  default_stored := trivial
  fromJson_valid _ _ _ := trivial
  fromJson_toJson config _ _ := by
    have hmembers : ([("apiKey", Json.string config.apiKey), ("apiSecret", .string config.apiSecret),
        ("apiPassphrase", .string config.apiPassphrase)].map Prod.fst).Nodup := by simp
    have hkey := Json.get_ofMembers hmembers 0 rfl Json.asString
    have hsecret := Json.get_ofMembers hmembers 1 rfl Json.asString
    have hpassphrase := Json.get_ofMembers hmembers 2 rfl Json.asString
    simp only [coinbaseConfig, hkey, hsecret, hpassphrase, bind, Except.bind, Json.asString]
    rfl

/-- `bybit_config`, which has the fee of the account as well. -/
structure BybitSettings where
  apiKey : String
  apiSecret : String
  fee : ℚ
  deriving DecidableEq, Repr

/-- `bybit.json`. -/
def bybitConfig : ConfigType BybitSettings where
  name := "bybit"
  default := { apiKey := "", apiSecret := "", fee := 1 / 10 }
  fromJson json := do
    let apiKey ← json.get Json.asString "apiKey"
    let apiSecret ← json.get Json.asString "apiSecret"
    let fee ← json.get Json.asDouble "fee"
    return { apiKey, apiSecret, fee }
  toJson config := .ofMembers
    [("apiKey", .string config.apiKey), ("apiSecret", .string config.apiSecret),
      ("fee", .float config.fee)]

/-- The keys and the fee are read back. -/
theorem bybitConfig_persists : bybitConfig.Persists (fun _ => True) (fun _ => True) where
  default_valid := trivial
  default_stored := trivial
  fromJson_valid _ _ _ := trivial
  fromJson_toJson config _ _ := by
    have hmembers : ([("apiKey", Json.string config.apiKey), ("apiSecret", .string config.apiSecret),
        ("fee", .float config.fee)].map Prod.fst).Nodup := by simp
    have hkey := Json.get_ofMembers hmembers 0 rfl Json.asString
    have hsecret := Json.get_ofMembers hmembers 1 rfl Json.asString
    have hfee := Json.get_ofMembers hmembers 2 rfl Json.asDouble
    simp only [bybitConfig, hkey, hsecret, hfee, bind, Except.bind, Json.asString, Json.asDouble]
    rfl

/-! ## All configurations -/

/-- The document of the runner's configuration in one of its modes, otherwise by default. -/
def runnerDocument (runMode : String) : Json :=
  .object [("exchangeIds", .array []), ("httpTimeout", .integer 5000), ("runInterval", .integer 0),
    ("runMode", .string runMode), ("syncTime", .boolean false), ("websocketTimeout", .integer 5000)]

/-- The text that the library writes of the document. -/
def runnerText (runMode : String) : String :=
  "\x7b\"exchangeIds\":[],\"httpTimeout\":5000,\"runInterval\":0,\"runMode\":\"" ++ runMode ++
    "\",\"syncTime\":false,\"websocketTimeout\":5000\x7d"

/-- The library on the documents of two modes. -/
def JsonFormat.ofRunner : JsonFormat where
  parse contents :=
    if contents = runnerText "live_test" then some (runnerDocument "live_test")
    else if contents = runnerText "back_test" then some (runnerDocument "back_test")
    else none
  dump json :=
    match json.get Json.asString "runMode" with
    | .ok runMode => runnerText runMode
    | .error _ => "null"

/-- The text of a document of the runner is told by its mode. -/
theorem dump_runnerDocument (runMode : String) :
    JsonFormat.ofRunner.dump (runnerDocument runMode) = runnerText runMode := by
  simp [JsonFormat.ofRunner, runnerDocument, Json.get, Json.element, Json.member, Json.asString,
    bind, Except.bind]

/-- The document of the default config with another mode. -/
theorem runnerConfig_toJson (runMode : RunMode) :
    runnerConfig.toJson { runnerConfig.default with runMode } = runnerDocument runMode.toString := by
  cases runMode <;> rfl

/-- The format keeps the document of the default and one that differs from it. -/
theorem ofRunner_keeps : JsonFormat.ofRunner.Keeps (runnerDocument "live_test") ∧
    JsonFormat.ofRunner.Keeps (runnerDocument "back_test") := by
  have hother : runnerText "back_test" ≠ runnerText "live_test" := by decide +kernel
  simp only [JsonFormat.Keeps, dump_runnerDocument]
  simp only [JsonFormat.ofRunner, if_true, if_neg hother, and_self]

/-- Every configuration is reliable: whatever the file holds, what is loaded is valid; a file that is there
is never written by a start; the next start loads what this one has loaded, if the library reads back the
document of the default values; and a valid configuration that is saved in a new file, whose values fit
their types and whose document the library reads back, is loaded again. One that is saved over another is
not: the text is appended. -/
theorem configs_reliable :
    runnerConfig.Reliable RunnerConfig.Valid RunnerConfig.Stored ∧
      backTestingConfig.Reliable BackTestingSettings.Valid (fun _ => True) ∧
      paperTradingConfig.Reliable (fun _ => True) PaperTradingConfig.Stored ∧
      krakenConfig.Reliable (fun _ => True) (fun _ => True) ∧
      binanceConfig.Reliable (fun _ => True) (fun _ => True) ∧
      digifinexConfig.Reliable (fun _ => True) (fun _ => True) ∧
      coinbaseConfig.Reliable (fun _ => True) (fun _ => True) ∧
      bybitConfig.Reliable (fun _ => True) (fun _ => True) :=
  ⟨runnerConfig_persists.reliable, backTestingConfig_persists.reliable, paperTradingConfig_persists.reliable,
    (apiKeysConfig_persists "kraken" (by decide)).reliable,
    (apiKeysConfig_persists "binance" (by decide)).reliable,
    (apiKeysConfig_persists "digifinex" (by decide)).reliable, coinbaseConfig_persists.reliable,
    bybitConfig_persists.reliable⟩

/-- The first start writes the file of the runner and the second one reads it; a back test that is
configured in a new file is run, and one that is saved over the default values is not. -/
theorem configs_reliable_runner :
    let backTest : RunnerConfig := { runnerConfig.default with runMode := .backTest }
    let empty : ConfigDirectory := ⟨∅, fun _ => true, fun _ => true⟩
    let started := empty.loadOrCreateConfig runnerConfig .ofRunner
    started.1 = .ok runnerConfig.default ∧
      started.2.files.lookup "runner" = some (runnerText "live_test") ∧
      started.2.loadOrCreateConfig runnerConfig .ofRunner = started ∧
      ((empty.saveConfigFile runnerConfig .ofRunner backTest).loadOrCreateConfig runnerConfig
        .ofRunner).1 = .ok backTest ∧
      ((started.2.saveConfigFile runnerConfig .ofRunner backTest).loadOrCreateConfig runnerConfig
        .ofRunner).1 = .ok runnerConfig.default := by
  intro backTest empty started
  have hdefault : runnerConfig.toJson runnerConfig.default = runnerDocument "live_test" :=
    runnerConfig_toJson .liveTest
  have hbackTest : runnerConfig.toJson backTest = runnerDocument "back_test" := runnerConfig_toJson .backTest
  have hstarted : started.2.files.lookup "runner" = some (runnerText "live_test") := by decide +kernel
  have hreliable := configs_reliable.1
  refine ⟨rfl, hstarted, hreliable.again empty .ofRunner ?_, ?_, ?_⟩
  · rw [hdefault]
    exact ofRunner_keeps.1
  · refine hreliable.saved empty .ofRunner backTest ⟨by decide, by decide⟩
      ⟨by decide, by decide, by decide⟩ ?_ (by decide) rfl rfl
    rw [hbackTest]
    exact ofRunner_keeps.2
  · refine hreliable.appended started.2 .ofRunner _ backTest hstarted rfl ?_
    rw [hbackTest, dump_runnerDocument]
    exact Option.isNone_iff_eq_none.mp (by decide +kernel)

end MarketBlocks
