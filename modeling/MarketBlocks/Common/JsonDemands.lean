import MarketBlocks.Common.Json
import MarketBlocks.Library.Demands

/-!
# What reading a JSON document demands

Every access of `json` throws on a value of the wrong kind. On one of the right kind it demands that
the member or position is there; where it is not, the behaviour is undefined. A conversion demands
nothing, but throws on what it cannot convert.
-/

namespace MarketBlocks.Json

open Library

/-! ## Demands -/

/-- A member is there, unless there are no members at all. -/
def Offers (name : String) (json : Json) : Prop :=
  ∀ members, json = .object members → (json.member name).isSome

/-- A position is there, unless there are no positions at all. -/
def OffersAt (index : ℤ) (json : Json) : Prop :=
  ∀ elements, json = .array elements → 0 ≤ index ∧ index < elements.length

/-- The element of an array. -/
def position (index : ℤ) : Json → Option Json
  | .array elements => if 0 ≤ index then elements[index.toNat]? else none
  | _ => none

/-- A conversion. -/
def converts {α : Type} (convert : Json → Except Fault α) : Demand Json where
  Safe := fun _ => True
  Met := fun json => ∃ result, convert json = .ok result

/-- What is demanded of a member. -/
def under (name : String) (d : Demand Json) : Demand Json := .part (Offers name) (member name) d

/-- What is demanded of an element. -/
def underAt (index : ℤ) (d : Demand Json) : Demand Json := .part (OffersAt index) (position index) d

/-- What is demanded of the first value, which there is not in an empty array or object. -/
def front (d : Demand Json) : Demand Json :=
  .part (fun json => json = .null ∨ json.values ≠ []) (·.values.head?) d

/-- A member. -/
def there (name : String) : Demand Json := under name .nothing

/-- An element. -/
def thereAt (index : ℤ) : Demand Json := underAt index .nothing

/-- A member that is read with a conversion. -/
def has {α : Type} (convert : Json → Except Fault α) (name : String) : Demand Json :=
  under name (converts convert)

/-- An element that is read with a conversion. -/
def hasAt {α : Type} (convert : Json → Except Fault α) (index : ℤ) : Demand Json :=
  underAt index (converts convert)

/-- The key of an entry, which there is in an object only. -/
def keyed : Demand (Except Fault String × Json) where
  Safe := fun entry => entry.1 ≠ .error .undefined
  Met := fun entry => ∃ key, entry.1 = .ok key

/-! ## Access -/

variable {α : Type} {reader : Json → Except Fault α} {d : Demand Json}

/-- `element` finds the member. -/
theorem element_eq_ok_iff {name : String} {json value : Json} :
    json.element name = .ok value ↔ json.member name = some value := by
  cases json with
  | object members =>
    rw [element]
    cases member name (object members) <;> simp
  | _ => exact iff_of_false (fun h => by cases h) (fun h => by cases h)

/-- `element` is undefined for a document that offers no such member. -/
theorem element_ne_undefined_iff {name : String} {json : Json} :
    json.element name ≠ .error .undefined ↔ Offers name json := by
  cases json with
  | object members =>
    have hoffers : Offers name (object members) ↔ (member name (object members)).isSome :=
      ⟨fun h => h members rfl, fun h _ _ => h⟩
    rw [hoffers, element]
    cases member name (object members) <;> simp
  | _ => exact iff_of_true (fun h => by cases h) (fun _ h => by cases h)

/-- `elementAt` finds the position. -/
theorem elementAt_eq_ok_iff {index : ℤ} {json value : Json} :
    json.elementAt index = .ok value ↔ json.position index = some value := by
  cases json with
  | array elements =>
    rw [elementAt, position]
    split
    · cases elements[index.toNat]? <;> simp
    · simp
  | _ => exact iff_of_false (fun h => by cases h) (fun h => by cases h)

/-- `elementAt` is undefined for a document that offers no such position. -/
theorem elementAt_ne_undefined_iff {index : ℤ} {json : Json} :
    json.elementAt index ≠ .error .undefined ↔ OffersAt index json := by
  cases json with
  | array elements =>
    have hoffers : OffersAt index (array elements) ↔ 0 ≤ index ∧ index < elements.length :=
      ⟨fun h => h elements rfl, fun h _ heq => array.inj heq ▸ h⟩
    rw [hoffers, elementAt]
    split
    · cases helement : elements[index.toNat]? with
      | none =>
        have hbeyond := List.getElem?_eq_none_iff.mp helement
        exact iff_of_false (fun h => h rfl) (by omega)
      | some value =>
        have hwithin := (List.getElem?_eq_some_iff.mp helement).1
        exact iff_of_true (fun h => by cases h) (by omega)
    · exact iff_of_false (fun h => h rfl) (by omega)
  | _ => exact iff_of_true (fun h => by cases h) (fun _ h => by cases h)

/-- `beginValue` finds the first value. -/
theorem beginValue_eq_ok_iff {json value : Json} :
    json.beginValue = .ok value ↔ json.values.head? = some value := by
  cases json with
  | null => exact iff_of_false (fun h => by cases h) (fun h => by cases h)
  | array elements => cases elements <;> simp [beginValue, values]
  | object members => cases members <;> simp [beginValue, values]
  | _ => simp [beginValue, values]

/-- `beginValue` is undefined for a document that holds no values, unless that is null, for which it
throws. -/
theorem beginValue_ne_undefined_iff {json : Json} :
    json.beginValue ≠ .error .undefined ↔ json = .null ∨ json.values ≠ [] := by
  cases json with
  | array elements => cases elements <;> simp [beginValue, values]
  | object members => cases members <;> simp [beginValue, values]
  | _ => simp [beginValue, values]

/-- Read a member. -/
theorem makes_element (h : Makes .undefined reader d) (name : String) :
    Makes .undefined (fun json => json.element name >>= reader) (under name d) :=
  h.part (fun _ => element_ne_undefined_iff) (fun _ _ => element_eq_ok_iff)

/-- Looking up a member demands it. -/
theorem makes_there (name : String) : Makes .undefined (element name) (there name) where
  safe := fun _ => element_ne_undefined_iff.trans (and_iff_left fun _ _ => trivial).symm
  met := fun json => by
    change _ ↔ ∃ value, json.member name = some value ∧ True
    simp only [element_eq_ok_iff, and_true]

/-- Read an element, and go on with steps of which only the safety is of interest. -/
theorem guards_elementAt (h : Guards .undefined reader d.Safe) (index : ℤ) :
    Guards .undefined (fun json => json.elementAt index >>= reader) (underAt index d).Safe :=
  h.part (fun _ => elementAt_ne_undefined_iff) (fun _ _ => elementAt_eq_ok_iff)

/-- Read an element. -/
theorem makes_elementAt (h : Makes .undefined reader d) (index : ℤ) :
    Makes .undefined (fun json => json.elementAt index >>= reader) (underAt index d) :=
  h.part (fun _ => elementAt_ne_undefined_iff) (fun _ _ => elementAt_eq_ok_iff)

/-- Looking up a position demands it. -/
theorem makes_thereAt (index : ℤ) : Makes .undefined (elementAt index) (thereAt index) where
  safe := fun _ => elementAt_ne_undefined_iff.trans (and_iff_left fun _ _ => trivial).symm
  met := fun json => by
    change _ ↔ ∃ value, json.position index = some value ∧ True
    simp only [elementAt_eq_ok_iff, and_true]

/-- Read the first value. -/
theorem makes_beginValue (h : Makes .undefined reader d) :
    Makes .undefined (fun json => json.beginValue >>= reader) (front d) :=
  h.part (fun _ => beginValue_ne_undefined_iff) (fun _ _ => beginValue_eq_ok_iff)

/-- Take the first value. -/
theorem makes_front : Makes .undefined beginValue (front .nothing) where
  safe := fun _ => beginValue_ne_undefined_iff.trans (and_iff_left fun _ _ => trivial).symm
  met := fun json => by
    change _ ↔ ∃ value, json.values.head? = some value ∧ True
    simp only [beginValue_eq_ok_iff, and_true]

/-- Reading a key demands that there is one. -/
theorem makes_keyed : Makes .undefined (fun entry : Except Fault String × Json => entry.1) keyed where
  safe := fun _ => Iff.rfl
  met := fun _ => Iff.rfl

/-! ## Conversion -/

/-- A conversion that never goes wrong. -/
theorem makes_converts {convert : Json → Except Fault α}
    (h : ∀ json, convert json ≠ .error .undefined) :
    Makes .undefined convert (converts convert) where
  safe := fun json => iff_of_true (h json) trivial
  met := fun _ => Iff.rfl

/-- Reading a member by a conversion that is always defined. -/
theorem makes_get {convert : Json → Except Fault α} (h : ∀ json, convert json ≠ .error .undefined)
    (name : String) : Makes .undefined (get convert name) (has convert name) :=
  makes_element (makes_converts h) name

/-- Reading a position by a conversion that is always defined. -/
theorem makes_getAt {convert : Json → Except Fault α} (h : ∀ json, convert json ≠ .error .undefined)
    (index : ℤ) : Makes .undefined (getAt convert index) (hasAt convert index) :=
  makes_elementAt (makes_converts h) index

/-- A conversion of the wrong type throws, which is defined. -/
theorem asString_defined (json : Json) : json.asString ≠ .error .undefined := by
  cases json <;> exact fun h => by cases h

/-- Reading a boolean is defined. -/
theorem asBool_defined (json : Json) : json.asBool ≠ .error .undefined := by
  cases json <;> exact fun h => by cases h

/-- Reading a number is defined. -/
theorem asDouble_defined (json : Json) : json.asDouble ≠ .error .undefined := by
  cases json <;> exact fun h => by cases h

/-- Reading a time is defined. -/
theorem asTime_defined (json : Json) : json.asTime ≠ .error .undefined := by
  cases json <;> exact fun h => by cases h

/-- Reading an integer is defined. -/
theorem asInt_defined (json : Json) : json.asInt ≠ .error .undefined := by
  cases json <;> exact fun h => by cases h

/-- Reading a list of texts is defined. -/
theorem asStrings_defined (json : Json) : json.asStrings ≠ .error .undefined := by
  cases json with
  | array elements =>
    have hall : Makes .undefined (fun elements : List Json => elements.mapM asString)
        (.each id (converts asString)) := Makes.each (makes_converts asString_defined)
    exact (hall.safe elements).mpr fun _ _ _ _ _ => trivial
  | _ => exact fun h => by cases h

/-- Reading a number from a text is defined. -/
theorem asNumeral_defined (c : Conversions) (json : Json) :
    json.asNumeral c ≠ .error .undefined := by
  cases json with
  | string text =>
    unfold asNumeral
    cases hvalue : c.stod text <;> simp [asString, bind, Except.bind, hvalue]
  | _ => exact fun h => by cases h

/-- Reading a time from a text is defined. -/
theorem asTimeNumeral_defined (c : Conversions) (json : Json) :
    json.asTimeNumeral c ≠ .error .undefined := by
  cases json with
  | string text =>
    unfold asTimeNumeral
    cases hvalue : c.stoll text <;> simp [asString, bind, Except.bind, hvalue]
  | _ => exact fun h => by cases h

end MarketBlocks.Json
