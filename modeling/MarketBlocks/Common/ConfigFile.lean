import MarketBlocks.Common.Json
import MarketBlocks.Library.UnorderedMap
import Mathlib.Data.Char
import Mathlib.Data.List.Lex

/-!
# Configuration files

`load_or_create_config` reads the configuration of a type from the file of its name. A file that is not
there is written with the default values, and a file that cannot be read or understood gives the default
values, except for members that are not there, which the reader trusts.

Parsing and printing documents is the library's. The files are known by the names of the configuration
types, which stand for their paths.
-/

namespace MarketBlocks

open Library

namespace Json

/-- `_document[propertyName] = value`, which keeps the members in the order of their names. -/
def put (document : Json) (name : String) (value : Json) : Json :=
  match document with
  | .object members =>
    .object (members.filter (·.1.toList < name.toList) ++
      (name, value) :: members.filter (name.toList < ·.1.toList))
  | _ => .object [(name, value)]

variable {name other : String} {value document : Json}

/-- A member is the first one of its name. -/
theorem member_object (members : List (String × Json)) (name : String) :
    (object members).member name = (members.find? (·.1 = name)).map (·.2) := rfl

/-- Leaving others out does not change what is found. -/
theorem find_filter_of_true {p : String × Json → Bool} (hp : ∀ entry, entry.1 = other → p entry = true)
    (members : List (String × Json)) :
    (members.filter p).find? (·.1 = other) = members.find? (·.1 = other) := by
  rw [List.find?_filter]
  congr 1
  funext entry
  by_cases heq : entry.1 = other
  · simp [heq, hp entry heq]
  · simp [heq]

/-- What is left out is not found. -/
theorem find_filter_of_false {p : String × Json → Bool} (hp : ∀ entry, entry.1 = other → p entry = false)
    (members : List (String × Json)) : (members.filter p).find? (·.1 = other) = none := by
  rw [List.find?_eq_none]
  intro entry hentry heq
  have htrue := (List.mem_filter.mp hentry).2
  rw [hp entry (by simpa using heq)] at htrue
  cases htrue

/-- What is put is there. -/
@[simp] theorem member_put_self : (document.put name value).member name = some value := by
  cases document with
  | object members =>
    have hbefore : (members.filter (·.1.toList < name.toList)).find? (·.1 = name) = none :=
      find_filter_of_false (fun entry heq => by simp [heq]) members
    rw [put, member_object, List.find?_append, hbefore]
    simp
  | null | boolean | integer | float | string | array => simp [put, member]

/-- Putting a member leaves the others alone. -/
theorem member_put_of_ne (hne : other ≠ name) :
    (document.put name value).member other = document.member other := by
  cases document with
  | object members =>
    have hlist : other.toList ≠ name.toList := fun heq => hne (String.toList_injective heq)
    rw [put, member_object, member_object, List.find?_append,
      List.find?_cons_of_neg (by simpa using hne.symm)]
    rcases lt_or_gt_of_ne hlist with hlt | hgt
    · rw [find_filter_of_true fun entry heq => by simpa [heq] using hlt,
        find_filter_of_false fun entry heq => by simpa [heq] using hlt.le, Option.or_none]
    · rw [find_filter_of_false fun entry heq => by simpa [heq] using hgt.le,
        find_filter_of_true fun entry heq => by simpa [heq] using hgt, Option.none_or]
  | null | boolean | integer | float | string | array => simp [put, member, hne.symm]

/-- The document of a `json_writer` after `add` has been called with the members, one after the other. -/
def ofMembers (members : List (String × Json)) : Json :=
  members.foldl (fun document entry => document.put entry.1 entry.2) .null

/-- Members of different names that are put one after the other are all there. -/
theorem member_foldl_put {members : List (String × Json)} (hnodup : (members.map Prod.fst).Nodup)
    (hmem : (name, value) ∈ members) (document : Json) :
    (members.foldl (fun document entry => document.put entry.1 entry.2) document).member name =
      some value := by
  induction members generalizing document with
  | nil => exact absurd hmem List.not_mem_nil
  | cons entry rest ih =>
    obtain ⟨hfirst, hrest⟩ := List.nodup_cons.mp hnodup
    rcases List.mem_cons.mp hmem with rfl | hlater
    · have hkept : ∀ (later : List (String × Json)) (document : Json), name ∉ later.map Prod.fst →
          (later.foldl (fun document entry => document.put entry.1 entry.2) document).member name =
            document.member name := by
        intro later
        induction later with
        | nil => exact fun _ _ => rfl
        | cons next later ih' =>
          intro document hnot
          rw [List.map_cons, List.mem_cons, not_or] at hnot
          rw [List.foldl_cons, ih' _ hnot.2, member_put_of_ne hnot.1]
      rw [List.foldl_cons, hkept rest _ hfirst, member_put_self]
    · exact ih hrest hlater _

/-- A member that was added is read. -/
theorem get_ofMembers {members : List (String × Json)} (hnodup : (members.map Prod.fst).Nodup)
    (i : ℕ) (hentry : members[i]? = some (name, value)) {α : Type} (convert : Json → Except Fault α) :
    (ofMembers members).get convert name = convert value :=
  get_of_member (member_foldl_put hnodup (List.mem_of_getElem? hentry) .null)

end Json

/-- `nlohmann::json::parse` and `dump`. -/
structure JsonFormat where
  parse : String → Option Json
  dump : Json → String

/-- A document that is read back as it was written. -/
def JsonFormat.Keeps (format : JsonFormat) (document : Json) : Prop :=
  format.parse (format.dump document) = some document

/-- The configuration directory: the contents of its files, and which of them can be opened. -/
structure ConfigDirectory where
  files : UnorderedMap String String
  readable : String → Bool
  writable : String → Bool

/-- A type of configuration with its `name`, its default constructor, and its two conversions. -/
structure ConfigType (Config : Type) where
  name : String
  default : Config
  fromJson : Json → Except Fault Config
  toJson : Config → Json

namespace ConfigDirectory

variable {Config : Type}

/-- `read_file`; the message is that of `strerror`. -/
def readFile (fileName : String) (directory : ConfigDirectory) : Except Fault String :=
  match directory.files.lookup fileName with
  | some contents =>
    if directory.readable fileName then .ok contents else .error (.mbException "Permission denied")
  | none => .error (.mbException "No such file or directory")

/-- `write_to_file`, which appends. -/
def writeToFile (fileName content : String) (directory : ConfigDirectory) :
    Except Fault Unit × ConfigDirectory :=
  if directory.writable fileName then
    let contents := (directory.files.lookup fileName).getD "" ++ content
    (.ok (), { directory with files := directory.files.insert fileName contents })
  else (.error (.mbException "Permission denied"), directory)

/-- `load_config_file`: whatever throws, the default is returned. -/
def loadConfigFile (type : ConfigType Config) (format : JsonFormat) (directory : ConfigDirectory) :
    Except Fault Config :=
  let result : Except Fault Config := do
    let jsonString ← directory.readFile type.name
    let some document := format.parse jsonString | .error .otherException
    type.fromJson document
  match result with
  | .ok config => .ok config
  -- no exception of the source is a `validation_exception`
  | .error .undefined => .error .undefined
  | .error _ => .ok type.default

/-- `save_config_file`; an error is logged. -/
def saveConfigFile (type : ConfigType Config) (format : JsonFormat) (config : Config)
    (directory : ConfigDirectory) : ConfigDirectory :=
  (directory.writeToFile type.name (format.dump (type.toJson config))).2

/-- `load_or_create_config`: only a file that is not there is written. -/
def loadOrCreateConfig (type : ConfigType Config) (format : JsonFormat) (directory : ConfigDirectory) :
    Except Fault Config × ConfigDirectory :=
  if type.name ∈ directory.files then (directory.loadConfigFile type format, directory)
  else (.ok type.default, directory.saveConfigFile type format type.default)

end ConfigDirectory

/-- A type of configuration whose stored values are read back, and whose loaded values are valid. -/
structure ConfigType.Persists {Config : Type} (type : ConfigType Config) (Valid Stored : Config → Prop) :
    Prop where
  default_valid : Valid type.default
  default_stored : Stored type.default
  fromJson_valid : ∀ document config, type.fromJson document = .ok config → Valid config
  fromJson_toJson : ∀ config, Valid config → Stored config →
    type.fromJson (type.toJson config) = .ok config

namespace ConfigDirectory

variable {Config : Type} {type : ConfigType Config} {Valid Stored : Config → Prop}
  {format : JsonFormat} {directory : ConfigDirectory}

/-- A file with a document that can be read gives its values. -/
theorem loadConfigFile_of_text (type : ConfigType Config) {document : Json} {text : String}
    (htext : directory.files.lookup type.name = some text) (hparse : format.parse text = some document)
    {config : Config} (hconfig : type.fromJson document = .ok config) :
    directory.loadConfigFile type format =
      .ok (if directory.readable type.name then config else type.default) := by
  unfold loadConfigFile readFile
  rw [htext]
  cases directory.readable type.name <;> simp [bind, Except.bind, hparse, hconfig]

/-- A load returns what the document of the file says or the default values, or it trusts a member that
is not there. -/
theorem loadConfigFile_cases (type : ConfigType Config) (format : JsonFormat)
    (directory : ConfigDirectory) :
    (∃ document config, type.fromJson document = .ok config ∧
        directory.loadConfigFile type format = .ok config) ∨
      directory.loadConfigFile type format = .ok type.default ∨
      directory.loadConfigFile type format = .error .undefined := by
  unfold loadConfigFile
  cases directory.readFile type.name with
  | error fault => cases fault <;> simp [bind, Except.bind]
  | ok text =>
    cases hparse : format.parse text with
    | none => simp [bind, Except.bind, hparse]
    | some document =>
      cases hconfig : type.fromJson document with
      | ok config => exact .inl ⟨document, config, hconfig, by simp [bind, Except.bind, hparse, hconfig]⟩
      | error fault => cases fault <;> simp [bind, Except.bind, hparse, hconfig]

/-- What is loaded is valid, whatever the file holds. -/
theorem loadOrCreateConfig_valid (h : type.Persists Valid Stored) {config : Config}
    (hload : (directory.loadOrCreateConfig type format).1 = .ok config) : Valid config := by
  unfold loadOrCreateConfig at hload
  split at hload
  · rcases loadConfigFile_cases type format directory with ⟨document, loaded, hread, hok⟩ | hok | hok
    · cases hok.symm.trans hload
      exact h.fromJson_valid document _ hread
    · cases hok.symm.trans hload
      exact h.default_valid
    · cases hok.symm.trans hload
  · cases hload
    exact h.default_valid

/-- Loading leaves every other file and every file that is there alone. -/
theorem loadOrCreateConfig_files (type : ConfigType Config) (format : JsonFormat)
    (directory : ConfigDirectory) {fileName : String}
    (h : fileName ≠ type.name ∨ fileName ∈ directory.files) :
    (directory.loadOrCreateConfig type format).2.files.lookup fileName =
      directory.files.lookup fileName := by
  unfold loadOrCreateConfig
  split
  · rfl
  · next hnew =>
    have hne : fileName ≠ type.name := by
      rcases h with hne | hmem
      · exact hne
      · exact fun heq => hnew (heq ▸ hmem)
    unfold saveConfigFile writeToFile
    split
    · rw [UnorderedMap.lookup_insert_eq, if_neg hne]
    · rfl

/-- A file that is there is loaded. -/
theorem loadOrCreateConfig_of_mem (type : ConfigType Config) (format : JsonFormat)
    (h : type.name ∈ directory.files) :
    directory.loadOrCreateConfig type format = (directory.loadConfigFile type format, directory) := if_pos h

/-- A file that is not there is created with the default. -/
theorem loadOrCreateConfig_of_notMem (type : ConfigType Config) (format : JsonFormat)
    (h : type.name ∉ directory.files) : directory.loadOrCreateConfig type format =
      (.ok type.default, directory.saveConfigFile type format type.default) := if_neg h

/-- Where a new file can be written it holds the document of its configuration. -/
theorem lookup_saveConfigFile (type : ConfigType Config) (format : JsonFormat) (config : Config)
    (hnew : type.name ∉ directory.files) (hwritable : directory.writable type.name = true) :
    (directory.saveConfigFile type format config).files.lookup type.name =
      some (format.dump (type.toJson config)) := by
  unfold saveConfigFile writeToFile
  rw [if_pos hwritable, Finmap.lookup_eq_none.mpr hnew]
  simp

/-- The next start loads what this one has loaded, and finds the files as this one left them. -/
theorem loadOrCreateConfig_again (h : type.Persists Valid Stored)
    (hkeeps : format.Keeps (type.toJson type.default)) (directory : ConfigDirectory) :
    (directory.loadOrCreateConfig type format).2.loadOrCreateConfig type format =
      directory.loadOrCreateConfig type format := by
  by_cases hfile : type.name ∈ directory.files
  · rw [loadOrCreateConfig_of_mem type format hfile]
    exact loadOrCreateConfig_of_mem type format hfile
  · rw [loadOrCreateConfig_of_notMem type format hfile]
    cases hwritable : directory.writable type.name with
    | false =>
      have hsame : directory.saveConfigFile type format type.default = directory := by
        simp [saveConfigFile, writeToFile, hwritable]
      rw [hsame, loadOrCreateConfig_of_notMem type format hfile, hsame]
    | true =>
      have htext := lookup_saveConfigFile type format type.default hfile hwritable
      have hread := h.fromJson_toJson type.default h.default_valid h.default_stored
      rw [loadOrCreateConfig_of_mem type format (Finmap.mem_iff.mpr ⟨_, htext⟩),
        loadConfigFile_of_text type htext hkeeps hread, ite_self]

/-- A configuration that is saved where it can be written and read is what the next start loads. -/
theorem loadOrCreateConfig_saved (h : type.Persists Valid Stored) {config : Config} (hvalid : Valid config)
    (hstored : Stored config) (hkeeps : format.Keeps (type.toJson config))
    (hnew : type.name ∉ directory.files) (hwritable : directory.writable type.name = true)
    (hreadable : directory.readable type.name = true) :
    let saved := directory.saveConfigFile type format config
    saved.loadOrCreateConfig type format = (.ok config, saved) := by
  intro saved
  have htext := lookup_saveConfigFile type format config hnew hwritable
  have hsame : saved.readable = directory.readable := by
    simp [saved, saveConfigFile, writeToFile, hwritable]
  rw [loadOrCreateConfig_of_mem type format (Finmap.mem_iff.mpr ⟨_, htext⟩),
    loadConfigFile_of_text type htext hkeeps (h.fromJson_toJson config hvalid hstored), hsame, hreadable,
    if_pos rfl]

/-- A configuration is not saved over another one: the documents stand behind each other then, and if
the library makes nothing of the two, the next start falls back to the default values. -/
theorem loadOrCreateConfig_appended (type : ConfigType Config) {contents : String} {config : Config}
    (hcontents : directory.files.lookup type.name = some contents)
    (hwritable : directory.writable type.name = true)
    (hparse : format.parse (contents ++ format.dump (type.toJson config)) = none) :
    ((directory.saveConfigFile type format config).loadOrCreateConfig type format).1 =
      .ok type.default := by
  have hsaved : (directory.saveConfigFile type format config).files.lookup type.name =
      some (contents ++ format.dump (type.toJson config)) := by
    unfold saveConfigFile writeToFile
    rw [if_pos hwritable, hcontents]
    simp
  rw [loadOrCreateConfig_of_mem type format (Finmap.mem_iff.mpr ⟨_, hsaved⟩)]
  unfold loadConfigFile readFile
  rw [hsaved]
  cases (directory.saveConfigFile type format config).readable type.name <;>
    simp [bind, Except.bind, hparse]

end ConfigDirectory

/-- What the files do for a type of configuration, whatever is in the directory and whatever can be read
and written there. The default document is written and read again if the library keeps it; a valid
configuration that is stored in a new file, where it can be written and read, is loaded if the library
keeps its document; and one that is saved over a file is lost. -/
structure ConfigType.Reliable {Config : Type} (type : ConfigType Config) (Valid Stored : Config → Prop) :
    Prop where
  valid : ∀ (directory : ConfigDirectory) (format : JsonFormat) config,
    (directory.loadOrCreateConfig type format).1 = .ok config → Valid config
  untouched : ∀ (directory : ConfigDirectory) (format : JsonFormat) fileName,
    fileName ≠ type.name ∨ fileName ∈ directory.files →
      (directory.loadOrCreateConfig type format).2.files.lookup fileName = directory.files.lookup fileName
  again : ∀ (directory : ConfigDirectory) (format : JsonFormat),
    format.Keeps (type.toJson type.default) →
      (directory.loadOrCreateConfig type format).2.loadOrCreateConfig type format =
        directory.loadOrCreateConfig type format
  saved : ∀ (directory : ConfigDirectory) (format : JsonFormat) config, Valid config → Stored config →
    format.Keeps (type.toJson config) → type.name ∉ directory.files →
      directory.writable type.name = true → directory.readable type.name = true →
        ((directory.saveConfigFile type format config).loadOrCreateConfig type format).1 = .ok config
  appended : ∀ (directory : ConfigDirectory) (format : JsonFormat) contents config,
    directory.files.lookup type.name = some contents → directory.writable type.name = true →
      format.parse (contents ++ format.dump (type.toJson config)) = none →
        ((directory.saveConfigFile type format config).loadOrCreateConfig type format).1 =
          .ok type.default

/-- A configuration that persists is reliable in its file. -/
theorem ConfigType.Persists.reliable {Config : Type} {type : ConfigType Config}
    {Valid Stored : Config → Prop} (h : type.Persists Valid Stored) : type.Reliable Valid Stored where
  valid _ _ _ hload := ConfigDirectory.loadOrCreateConfig_valid h hload
  untouched directory format _ hname := directory.loadOrCreateConfig_files type format hname
  again directory _ hkeeps := directory.loadOrCreateConfig_again h hkeeps
  saved _ _ _ hvalid hstored hkeeps hnew hwritable hreadable := congrArg Prod.fst
    (ConfigDirectory.loadOrCreateConfig_saved h hvalid hstored hkeeps hnew hwritable hreadable)
  appended _ _ _ _ hcontents hwritable hparse :=
    ConfigDirectory.loadOrCreateConfig_appended type hcontents hwritable hparse

end MarketBlocks
