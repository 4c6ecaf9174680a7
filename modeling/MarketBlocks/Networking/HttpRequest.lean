import Mathlib.Data.List.Induction
import MarketBlocks.Library.FieldText

/-!
# HTTP requests

The query builder, the URL and the request that is handed to the HTTP service. The builder writes names
and values as they are; what it wrote is read back when the names have no sign of their own and the values
no `&`.
-/

namespace MarketBlocks

open Library

/-! ## Queries -/

/-- `url_query_builder`. -/
structure UrlQueryBuilder where
  query : String
  started : Bool

/-- A builder without parameters. -/
def UrlQueryBuilder.empty : UrlQueryBuilder := ⟨"", false⟩

/-- `add_parameter`, for a name and a value that the source asserts not to be empty. -/
def UrlQueryBuilder.addParameter (builder : UrlQueryBuilder) (key value : String) : UrlQueryBuilder where
  query := (if builder.started then builder.query ++ "&" else builder.query) ++ key ++ "=" ++ value
  started := true

/-- The builder after one call of `add_parameter` for each parameter. -/
def urlQuery (parameters : List (String × String)) : UrlQueryBuilder :=
  parameters.foldl (fun builder parameter => builder.addParameter parameter.1 parameter.2) .empty

/-- What a receiver makes of a query: names and values, split at the signs. -/
def readQuery (query : String) : List (String × String) :=
  (FieldText.read '&' '=' query.toList).map fun field => (String.ofList field.1, String.ofList field.2)

/-- The text of a parameter does not break the query. -/
def PlainParameter (parameter : String × String) : Prop :=
  '&' ∉ parameter.1.toList ∧ '=' ∉ parameter.1.toList ∧ '&' ∉ parameter.2.toList

variable {parameters : List (String × String)}

/-- A parameter as a field of text. -/
def fieldOf (parameter : String × String) : List Char × List Char :=
  (parameter.1.toList, parameter.2.toList)

/-- A query is its parameters written one after the other. -/
theorem toList_urlQuery (parameters : List (String × String)) :
    (urlQuery parameters).query.toList = FieldText.write '&' '=' (parameters.map fieldOf) ∧
      (urlQuery parameters).started = !parameters.isEmpty := by
  induction parameters using List.reverseRecOn with
  | nil => exact ⟨rfl, rfl⟩
  | append_singleton parameters parameter ih =>
    obtain ⟨hquery, hstarted⟩ := ih
    rw [urlQuery, List.foldl_append, ← urlQuery, List.map_append, List.map_singleton,
      FieldText.write_concat]
    refine ⟨?_, by simp [UrlQueryBuilder.addParameter]⟩
    rcases eq_or_ne parameters [] with rfl | hne
    · simp [UrlQueryBuilder.addParameter, urlQuery, UrlQueryBuilder.empty, FieldText.writeField, fieldOf]
    · simp [UrlQueryBuilder.addParameter, hstarted, hne, hquery, FieldText.writeField, fieldOf]

/-- A query begins with its first parameter. -/
theorem urlQuery_cons (key value : String) (parameters : List (String × String)) :
    (urlQuery ((key, value) :: parameters)).query =
      if (urlQuery parameters).query ≠ "" then key ++ "=" ++ value ++ "&" ++ (urlQuery parameters).query
      else key ++ "=" ++ value := by
  have hempty : (urlQuery parameters).query = "" ↔ parameters = [] := by
    rw [← String.toList_inj, (toList_urlQuery parameters).1]
    constructor
    · intro h
      by_contra hne
      exact FieldText.write_ne_nil (by simpa using hne) h
    · rintro rfl
      rfl
  rw [← String.toList_inj, (toList_urlQuery _).1]
  by_cases hnil : parameters = []
  · rw [if_neg (not_not_intro (hempty.mpr hnil)), hnil]
    simp [FieldText.write, FieldText.writeField, fieldOf]
  · rw [if_pos (mt hempty.mp hnil), FieldText.write, List.map_cons, List.map_cons,
      List.intercalate_cons_of_ne_nil (by simpa using hnil), String.toList_append,
      (toList_urlQuery parameters).1]
    simp [FieldText.write, FieldText.writeField, fieldOf]

/-- The characters of a parameter give it back. -/
theorem ofList_fieldOf (parameters : List (String × String)) :
    (parameters.map fieldOf).map (fun field => (String.ofList field.1, String.ofList field.2)) =
      parameters := by
  rw [List.map_map]
  refine (List.map_congr_left fun parameter _ => ?_).trans (List.map_id parameters)
  simp [fieldOf]

/-- The texts of a field give it back. -/
theorem fieldOf_ofList (fields : List (List Char × List Char)) :
    (fields.map fun field => (String.ofList field.1, String.ofList field.2)).map fieldOf = fields := by
  rw [List.map_map]
  refine (List.map_congr_left fun field _ => ?_).trans (List.map_id fields)
  simp [fieldOf]

/-- A query is read back exactly when none of its parameters breaks it. -/
theorem readQuery_urlQuery_iff (parameters : List (String × String)) :
    readQuery (urlQuery parameters).query = parameters ↔
      ∀ parameter ∈ parameters, PlainParameter parameter := by
  have hplain : (∀ parameter ∈ parameters, PlainParameter parameter) ↔
      ∀ field ∈ parameters.map fieldOf, FieldText.Plain '&' '=' field := by
    rw [List.forall_mem_map]
    rfl
  rw [hplain, ← FieldText.read_write_iff (by decide), readQuery, (toList_urlQuery parameters).1]
  constructor
  · intro h
    rw [← fieldOf_ofList (FieldText.read '&' '=' _), h]
  · intro h
    rw [h, ofList_fieldOf]

/-! ## URLs -/

/-- `append_query`: an empty query adds nothing. -/
def appendQuery (url query : String) : String := if query = "" then url else url ++ "?" ++ query

/-- What stands in front of the url is left alone. -/
theorem appendQuery_append (front url query : String) :
    appendQuery (front ++ url) query = front ++ appendQuery url query := by
  unfold appendQuery
  split
  · rfl
  · simp only [String.append_assoc]

/-- `back` of an empty URL is undefined; no base URL is empty. -/
def appendPath (url path : String) : String :=
  if path = "" then url
  else if url.toList.getLast? ≠ some '/' ∧ path.toList.head? ≠ some '/' then url ++ "/" ++ path
  else url ++ path

/-- `build_url`. -/
def buildUrl (baseUrl path query : String) : String := appendQuery (appendPath baseUrl path) query

/-- The path as a receiver sees it. -/
def rooted (path : String) : String := if path.toList.head? = some '/' then path else "/" ++ path

/-- What stands behind the front of a text. -/
def behind (front text : String) : Option String :=
  if front.toList <+: text.toList then some (String.ofList (text.toList.drop front.toList.length)) else none

/-- The front that a text was built with is taken off again. -/
private theorem behind_append (front rest : String) : behind front (front ++ rest) = some rest := by
  rw [behind, String.toList_append, if_pos (List.prefix_append _ _), List.drop_left,
    String.ofList_toList]

/-- The path and the query of what stands behind the base URL. -/
def splitTarget (target : String) : String × String :=
  (String.ofList (target.toList.takeWhile (· ≠ '?')),
    String.ofList (target.toList.dropWhile (· ≠ '?')).tail)

variable {baseUrl path : String}

/-- A receiver sees the path, with its slash, and the query. -/
theorem behind_buildUrl (query : String) (hbase : baseUrl.toList.getLast? ≠ some '/') (hpath : path ≠ "") :
    behind baseUrl (buildUrl baseUrl path query) = some (appendQuery (rooted path) query) := by
  have hurl : appendPath baseUrl path = baseUrl ++ rooted path := by
    rw [appendPath, if_neg hpath, rooted]
    by_cases hroot : path.toList.head? = some '/'
    · rw [if_neg fun h => h.2 hroot, if_pos hroot]
    · rw [if_pos ⟨hbase, hroot⟩, if_neg hroot, String.append_assoc]
  rw [buildUrl, hurl, appendQuery_append, behind_append]

/-- A path without a question mark is told from the query behind it. -/
theorem splitTarget_appendQuery (query : String) (hpath : '?' ∉ path.toList) :
    splitTarget (appendQuery path query) = (path, query) := by
  have hne : ∀ c ∈ path.toList, decide (c ≠ '?') = true := by
    intro c hc
    exact decide_eq_true fun heq => hpath (heq ▸ hc)
  rw [splitTarget, appendQuery]
  split
  · next hquery =>
    rw [List.takeWhile_eq_self_iff.mpr hne, List.dropWhile_eq_nil_iff.mpr hne, hquery]
    simp
  · rw [String.append_assoc, String.toList_append, List.takeWhile_append_of_pos hne,
      List.dropWhile_append_of_pos hne, String.toList_append]
    simp

/-! ## Requests -/

/-- `http_verb`. -/
inductive HttpVerb where
  | get
  | post
  | httpDelete
  deriving DecidableEq

/-- The verb in the request line and in signatures. -/
def HttpVerb.toString : HttpVerb → String
  | .get => "GET"
  | .post => "POST"
  | .httpDelete => "DELETE"

/-- `http_request`. -/
structure HttpRequest where
  verb : HttpVerb
  url : String
  content : String
  headers : List (String × String)

/-- A request without content and headers. -/
def HttpRequest.make (verb : HttpVerb) (url : String) : HttpRequest := ⟨verb, url, "", []⟩

/-- `set_content`. -/
def HttpRequest.setContent (request : HttpRequest) (content : String) : HttpRequest :=
  { request with content }

/-- `add_header`. -/
def HttpRequest.addHeader (request : HttpRequest) (key value : String) : HttpRequest :=
  { request with headers := request.headers ++ [(key, value)] }

end MarketBlocks
