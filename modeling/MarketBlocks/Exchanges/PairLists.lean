import MarketBlocks.Library.Joining
import MarketBlocks.Library.JsonText
import MarketBlocks.Trading.Orders
import MarketBlocks.Websockets.BybitWebsocket

/-!
# Lists of pairs in requests

Kraken and Bybit are sent the names of pairs with commas between them, Binance is sent them as a JSON
array. The texts are put together by hand: a comma follows each name, and the last character is removed
whether there was a name or not.
-/

namespace MarketBlocks

open Library

/-- `pop_back`, and `erase` of the last position. An empty string has none. -/
def popBack (text : String) : Except Fault String :=
  if text.isEmpty then .error .undefined else .ok (String.ofList text.toList.dropLast)

/-- The loop of Kraken's `create_pair_list` and of Bybit's `create_message`. -/
def appendPairs (pairs : List TradablePair) : String :=
  pairs.foldl (fun pairList pair => pairList ++ pair.toString ++ ",") ""

/-- `create_pair_list`, which takes off the last comma. -/
def Kraken.createPairList (pairs : List TradablePair) : Except Fault String := popBack (appendPairs pairs)

/-- The loop of `create_symbols_list`. -/
def Binance.appendSymbols (pairs : List TradablePair) : String :=
  pairs.foldl (fun symbols pair => symbols ++ ("\"" ++ pair.toString ++ "\"" ++ ",")) "["

/-- `create_symbols_list`. -/
def Binance.createSymbolsList (pairs : List TradablePair) : Except Fault String := do
  let symbols ← popBack (appendSymbols pairs)
  return symbols ++ "]"

/-- The symbols of a message are a list of pairs like Kraken's. -/
theorem BybitWebsocketStream.createMessage_eq (eventName : String) (subscription : WebsocketSubscription) :
    createMessage eventName subscription = do
      let topic ← getTopic subscription
      let symbol ← popBack (appendPairs subscription.pairItem)
      return { symbol, topic, event := eventName } := by
  rw [createMessage]
  cases getTopic subscription with
  | error fault => rfl
  | ok topic =>
    change (if (appendPairs subscription.pairItem).isEmpty then _ else _) = _
    rw [popBack]
    split <;> rfl

/-! ## What is read back -/

/-- The names in a list. -/
def pairNames (pairs : List TradablePair) : List (List Char) := pairs.map fun pair => pair.toString.toList

/-- The list splits on commas into the names of the pairs. -/
def SplitsBack (list : Except Fault String) (pairs : List TradablePair) : Prop :=
  ∃ text, list = .ok text ∧ text.toList.splitOn ',' = pairNames pairs

/-- The character that is removed is a comma. -/
def EndsWithComma (text : String) : Prop := text.toList.getLast? = some ','

/-- The lists of pairs that the exchanges are sent are read back as the pairs, and nothing but commas was
removed. -/
structure ListsSurvive (pairs : List TradablePair) : Prop where
  kraken : SplitsBack (Kraken.createPairList pairs) pairs
  bybit : ∀ eventName subscription topic, subscription.pairItem = pairs →
    BybitWebsocketStream.getTopic subscription = .ok topic →
      SplitsBack ((BybitWebsocketStream.createMessage eventName subscription).map (·.symbol)) pairs
  binance : ∃ text, Binance.createSymbolsList pairs = .ok text ∧
    JsonText.StringArray text.toList (pairNames pairs)
  removed : EndsWithComma (appendPairs pairs) ∧ EndsWithComma (Binance.appendSymbols pairs)

/-! ## Loops -/

variable {pairs : List TradablePair}

/-- What a loop appends for each pair. -/
private theorem toList_foldl_append_pairs (piece : TradablePair → String) (start : String) :
    (pairs.foldl (fun list pair => list ++ piece pair) start).toList =
      start.toList ++ pairs.flatMap fun pair => (piece pair).toList := by
  induction pairs generalizing start with
  | nil => exact (List.append_nil _).symm
  | cons pair rest ih =>
    rw [List.foldl_cons, ih, String.toList_append, List.append_assoc, List.flatMap_cons]

/-- Every name is followed by a comma. -/
theorem toList_appendPairs (pairs : List TradablePair) :
    (appendPairs pairs).toList = (pairNames pairs).flatMap (· ++ [',']) := by
  have happend : (fun (pairList : String) (pair : TradablePair) => pairList ++ pair.toString ++ ",") =
      fun pairList pair => pairList ++ (pair.toString ++ ",") := by
    funext pairList pair
    exact String.append_assoc
  rw [appendPairs, happend, toList_foldl_append_pairs, pairNames, List.flatMap_map]
  simp only [String.toList_append]
  rfl

/-- Every name is quoted and followed by a comma, behind one bracket. -/
theorem toList_appendSymbols (pairs : List TradablePair) :
    (Binance.appendSymbols pairs).toList =
      '[' :: ((pairNames pairs).map fun name => '"' :: (name ++ ['"'])).flatMap (· ++ [',']) := by
  rw [Binance.appendSymbols, toList_foldl_append_pairs, pairNames, List.map_map, List.flatMap_map]
  simp only [String.toList_append]
  rfl

/-- A list of some pairs has some names. -/
theorem pairNames_ne_nil (hne : pairs ≠ []) : pairNames pairs ≠ [] := by
  rw [pairNames, Ne, List.map_eq_nil_iff]
  exact hne

/-- Of a text that is not empty the last character is taken off. -/
private theorem popBack_of_ne_nil {text : String} (h : text.toList ≠ []) :
    popBack text = .ok (String.ofList text.toList.dropLast) := by
  have hempty : ¬text.isEmpty = true := by
    intro hempty
    rw [String.isEmpty_iff] at hempty
    rw [hempty] at h
    exact h rfl
  rw [popBack, if_neg hempty]

/-- The names with commas between them are left. -/
theorem popBack_appendPairs (hne : pairs ≠ []) :
    popBack (appendPairs pairs) = .ok (String.ofList ([','].intercalate (pairNames pairs))) := by
  have hnames := pairNames_ne_nil hne
  have hfull : (appendPairs pairs).toList ≠ [] := by
    obtain ⟨name, rest, hcons⟩ := List.exists_cons_of_ne_nil hnames
    rw [toList_appendPairs, hcons]
    simp
  rw [popBack_of_ne_nil hfull, toList_appendPairs, dropLast_terminated ',' hnames]

/-- The array without blanks and escapes is left. -/
theorem createSymbolsList_eq (hne : pairs ≠ []) :
    Binance.createSymbolsList pairs = .ok (String.ofList (JsonText.compact (pairNames pairs))) := by
  have hquoted : (pairNames pairs).map (fun name => '"' :: (name ++ ['"'])) ≠ [] := by
    rw [Ne, List.map_eq_nil_iff]
    exact pairNames_ne_nil hne
  have hfull : (Binance.appendSymbols pairs).toList ≠ [] := by
    rw [toList_appendSymbols]
    exact List.cons_ne_nil _ _
  have hrest : ((pairNames pairs).map fun name => '"' :: (name ++ ['"'])).flatMap (· ++ [',']) ≠ [] := by
    obtain ⟨quoted, rest, hcons⟩ := List.exists_cons_of_ne_nil hquoted
    rw [hcons]
    simp
  have hlast : (Binance.appendSymbols pairs).toList.dropLast =
      '[' :: JsonText.compactElements (pairNames pairs) := by
    rw [toList_appendSymbols, List.dropLast_cons_of_ne_nil hrest, dropLast_terminated ',' hquoted]
    rfl
  rw [Binance.createSymbolsList, popBack_of_ne_nil hfull, hlast]
  change Except.ok _ = Except.ok _
  rw [Except.ok.injEq, ← String.toList_inj, String.toList_append, String.toList_ofList,
    String.toList_ofList, String.toList_ofList]
  rfl

/-- A text of terminated parts ends with the terminator. -/
theorem getLast_terminated {parts : List (List Char)} (hne : parts ≠ []) (start : List Char) :
    (start ++ parts.flatMap (· ++ [','])).getLast? = some ',' := by
  induction parts using List.reverseRecOn with
  | nil => exact absurd rfl hne
  | append_singleton before part _ =>
    rw [List.flatMap_append, List.flatMap_singleton, ← List.append_assoc, ← List.append_assoc,
      List.getLast?_concat]

/-- What holds of the names holds of the pairs. -/
theorem pairNames_forall {P : List Char → Prop} :
    (∀ name ∈ pairNames pairs, P name) ↔ ∀ pair ∈ pairs, P pair.toString.toList :=
  List.forall_mem_map

/-- Names without a comma are split back out of the list. -/
theorem splitsBack_popBack (hne : pairs ≠ []) (hcomma : ∀ name ∈ pairNames pairs, ',' ∉ name) :
    SplitsBack (popBack (appendPairs pairs)) pairs := by
  refine ⟨_, popBack_appendPairs hne, ?_⟩
  rw [String.toList_ofList, List.splitOn_intercalate _ hcomma (pairNames_ne_nil hne)]

/-- The symbols of every message that has a topic. -/
theorem splitsBack_createMessage {eventName topic : String} {subscription : WebsocketSubscription}
    (htopic : BybitWebsocketStream.getTopic subscription = .ok topic)
    (h : SplitsBack (popBack (appendPairs subscription.pairItem)) subscription.pairItem) :
    SplitsBack ((BybitWebsocketStream.createMessage eventName subscription).map (·.symbol))
      subscription.pairItem := by
  obtain ⟨text, htext, hsplit⟩ := h
  refine ⟨text, ?_, hsplit⟩
  rw [BybitWebsocketStream.createMessage_eq, htopic, htext]
  rfl

/-- Lists of pairs survive their encoding exactly when they are not empty and no name needs an
escape. -/
theorem listsSurvive_iff
    (hplain : ∀ pair ∈ pairs, ',' ∉ pair.toString.toList ∧ '"' ∉ pair.toString.toList) :
    ListsSurvive pairs ↔
      pairs ≠ [] ∧ ∀ pair ∈ pairs, ∀ c ∈ pair.toString.toList, c ≠ '\\' ∧ 0x20 ≤ c.toNat := by
  constructor
  · intro h
    have hne : pairs ≠ [] := by
      rintro rfl
      obtain ⟨text, htext, -⟩ := h.kraken
      cases htext
    obtain ⟨text, htext, harray⟩ := h.binance
    rw [createSymbolsList_eq hne] at htext
    cases htext
    rw [String.toList_ofList, JsonText.stringArray_compact_iff (pairNames_ne_nil hne),
      pairNames_forall] at harray
    exact ⟨hne, fun pair hpair c hc => (harray pair hpair c hc).2⟩
  · rintro ⟨hne, hunescaped⟩
    have hcomma : ∀ name ∈ pairNames pairs, ',' ∉ name :=
      pairNames_forall.mpr fun pair hpair => (hplain pair hpair).1
    have hsplits := splitsBack_popBack hne hcomma
    have hnames := pairNames_ne_nil hne
    constructor
    · exact hsplits
    · intro eventName subscription topic hpairs htopic
      subst hpairs
      exact splitsBack_createMessage htopic hsplits
    · refine ⟨_, createSymbolsList_eq hne, ?_⟩
      rw [String.toList_ofList, JsonText.stringArray_compact_iff hnames, pairNames_forall]
      intro pair hpair c hc
      refine ⟨?_, hunescaped pair hpair c hc⟩
      rintro rfl
      exact (hplain pair hpair).2 hc
    · rw [EndsWithComma, EndsWithComma, toList_appendPairs, toList_appendSymbols]
      have hquoted : (pairNames pairs).map (fun name => '"' :: (name ++ ['"'])) ≠ [] := by
        rw [Ne, List.map_eq_nil_iff]
        exact hnames
      exact ⟨getLast_terminated hnames [], getLast_terminated hquoted ['[']⟩

/-- There is nothing to remove from Kraken's list, and Binance's loses its bracket. -/
theorem empty_not_listsSurvive :
    ¬ListsSurvive [] ∧ Kraken.createPairList [] = .error .undefined ∧
      Binance.createSymbolsList [] = .ok "]" := by
  refine ⟨fun h => ?_, rfl, rfl⟩
  obtain ⟨text, htext, -⟩ := h.kraken
  cases htext

/-- Two pairs with plain names. -/
theorem listsSurvive_two_pairs : ListsSurvive [⟨"BTC", "GBP"⟩, ⟨"ETH", "GBP"⟩] := by
  refine (listsSurvive_iff (by decide)).mpr ⟨by decide, ?_⟩
  have hnames : [(⟨"BTC", "GBP"⟩ : TradablePair), ⟨"ETH", "GBP"⟩].all (fun pair =>
      pair.toString.toList.all fun c => c != '\\' && 0x20 ≤ c.toNat) := by decide
  simpa only [List.all_eq_true, Bool.and_eq_true, bne_iff_ne, decide_eq_true_eq] using hnames

end MarketBlocks
