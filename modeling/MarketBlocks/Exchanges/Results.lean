import MarketBlocks.Common.Json
import MarketBlocks.Common.StringUtils
import MarketBlocks.Library.Demands
import MarketBlocks.Trading.Market
import MarketBlocks.Trading.Orders

/-!
# Answers of the REST APIs

What the readers of all exchanges have in common. A reader turns the text of an answer into a
`result`, a value or the text of an error; exceptions become failures, and what is undefined stays
so. The arguments of a call may be evaluated in any order.
-/

namespace MarketBlocks

open Library

/-- The error of a failed `result`: a text out of the answer, or the one that an exception carries. -/
inductive Failure where
  | message (text : String)
  | exception (fault : Fault)
  deriving DecidableEq, Repr

/-- `result`. -/
abbrev Result (α : Type) := Except Failure α

/-- What `parse_json` makes of the text of an answer. -/
abbrev Answer := Except Fault Json

/-- A `try` block with a handler for every `std::exception`. -/
def catching {α : Type} (block : Except Fault (Result α)) : Except Fault (Result α) :=
  match block with
  | .ok result => .ok result
  | .error .undefined => .error .undefined
  | .error fault => .ok (.error (.exception fault))

/-- A reader whose steps all return succeeds with what they have read, and only with that. -/
theorem catching_return {α : Type} {reading : Except Fault α} {value : α} :
    catching (reading >>= fun value => .ok (.ok value)) = .ok (.ok value) ↔ reading = .ok value := by
  cases reading with
  | ok other =>
    change Except.ok (Except.ok other) = _ ↔ _
    rw [Except.ok.injEq, Except.ok.injEq, Except.ok.injEq]
  | error fault => cases fault <;> simp [catching, bind, Except.bind]

/-- Two arguments of a call. -/
def arguments {α β : Type} (first : Except Fault α) (second : Except Fault β) :
    Except Fault (α × β) :=
  beside .undefined first second

/-- Collect entries in an `unordered_map`; the first one of a key stays. -/
def collect {κ υ : Type} [DecidableEq κ] (entries : List (κ × υ)) : UnorderedMap κ υ :=
  entries.foldl (fun m entry => UnorderedMap.emplace m entry.1 entry.2) ∅

/-- The operator `[]` of a vector. -/
def at? {α : Type} (values : List α) (index : ℕ) : Except Fault α :=
  match values[index]? with
  | some value => .ok value
  | none => .error .undefined

/-- `vector::reserve` with an `int`: a negative one is converted to more than a vector holds. -/
def reserve (count : ℤ) : Except Fault Unit :=
  if count < 0 then .error .lengthError else .ok ()

/-- `exchange_status`. -/
inductive ExchangeStatus where
  | online
  | maintenance
  | cancelOnly
  | limitOnly
  | postOnly
  | offline
  deriving DecidableEq, Repr

/-- `calculate_volume`. -/
def calculateVolume (assetPrice cost : ℚ) : ℚ :=
  if cost = 0 ∨ assetPrice = 0 then 0 else cost / assetPrice

/-- `calculate_asset_price`. -/
def calculateAssetPrice (cost volume : ℚ) : ℚ :=
  if cost = 0 ∨ volume = 0 then 0 else cost / volume

end MarketBlocks
