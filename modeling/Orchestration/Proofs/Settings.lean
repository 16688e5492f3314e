import Orchestration.CommandLine.Commands
import Orchestration.Proofs.Durations
import Orchestration.Proofs.Lines
import Orchestration.Proofs.Tables

/-!
# Settings and their files

A settings file is written and read by different means: the limit of iterations is an integer, which a
file can hold only if it fits a signed word, and the longest wait is a text in which every unit of time has
its own part. Settings whose limit fits are read back from their file as they were.

Settings also come from the surroundings, where a limit may be any word that is not negative. Those are the
only ones that are loaded and cannot be shown.
-/

namespace Orchestration

namespace Duration

variable {character : Char}

/-- Letters stand for themselves in a text of a file. -/
theorem isPlain_of_isLetter (letter : isLetter character = true) : Toml.isPlain character = true := by
  have code := toNat_of_isLetter letter
  apply Toml.isPlain_of_toNat <;> omega

/-- The text of a duration stands for itself between double quotes. -/
theorem isPlain_text (duration : Duration) : duration.text.toList.all Toml.isPlain = true := by
  rw [text]
  split
  · decide
  · obtain ⟨parts, isText, -⟩ := spells_parts duration
    rw [String.toList_intercalate, isText, ← Text.joinWith_eq_intercalate]
    refine List.all_eq_true.mpr fun character within => ?_
    rcases Text.mem_joinWith within with blank | ⟨text, among, within⟩
    · rw [List.mem_singleton.mp blank]
      decide
    · obtain ⟨part, -, rfl⟩ := List.mem_map.mp among
      rcases List.mem_append.mp within with digit | letter
      · exact Toml.isPlain_of_isDigit (Nat.isDigit_of_mem_toDigits (by decide) (by decide) digit)
      · exact isPlain_of_isLetter
          (List.all_eq_true.mp (Unit.letters_of_ofName? part.named).2 character letter)

/-- A written duration is not empty. -/
theorem text_ne_nil {duration : Duration} (fits : Word.isUnsigned duration.seconds = true) :
    duration.text.toList ≠ [] := by
  intro empty
  have read := read_text fits
  rw [String.toList_eq_nil_iff.mp empty] at read
  cases read

end Duration

/-- A duration whose seconds fit a word is the value of its text in a table. -/
theorem TableValue.duration?_text {duration : Duration} (fits : Word.isUnsigned duration.seconds = true) :
    (TableValue.text duration.text).duration? = some duration := by
  change (Duration.read duration.text).toOption = some duration
  rw [Duration.read_text fits]
  rfl

namespace Settings

open Toml

section Files

variable {bound limit : Nat} {wait : Duration} {rest : List Char}

/-- The first line is read as the header of the table. -/
theorem readStatements?_header :
    readStatements? (bound + 1) ("[engine]".toList ++ '\n' :: rest) =
      (readStatements? bound rest).map (.header [tableName] :: ·) :=
  readStatements?_line (List.cons_ne_nil _ _) rfl rfl

/-- The line of the limit is read as the limit. -/
theorem readStatements?_limit (signed : Word.isSigned limit = true) :
    readStatements? (bound + 1) ("max_loop_iterations = ".toList ++ (Nat.toDigits 10 limit ++ '\n' :: rest)) =
      (readStatements? bound rest).map (.assignment ["max_loop_iterations"] (.integer limit) :: ·) := by
  have value : ∀ bound, readValue? (bound + 1) (Nat.toDigits 10 limit ++ '\n' :: rest) =
    some (.integer limit, '\n' :: rest) := fun _ => readValue?_toDigits signed
  have visible := @skipSpaces_toDigits ('\n' :: rest) limit
  generalize Nat.toDigits 10 limit ++ '\n' :: rest = behind at value visible ⊢
  exact readStatements?_line (List.cons_ne_nil _ _) rfl
    (readStatement?_assignment rfl (by decide) rfl visible (value _))

/-- The line of the longest wait is read as the text of it. -/
theorem readStatements?_wait (fits : Word.isUnsigned wait.seconds = true) :
    readStatements? (bound + 1) ("max_wait = ".toList ++ '"' :: (wait.text.toList ++ '"' :: '\n' :: rest)) =
      (readStatements? bound rest).map (.assignment ["max_wait"] (.text wait.text) :: ·) := by
  have value : ∀ bound, readValue? (bound + 1) ('"' :: (wait.text.toList ++ '"' :: '\n' :: rest)) =
      some (.text wait.text, '\n' :: rest) := by
    intro bound
    rw [readValue?_quotation (Duration.text_ne_nil fits) wait.isPlain_text, String.ofList_toList]
  have visible : skipSpaces ('"' :: (wait.text.toList ++ '"' :: '\n' :: rest)) =
    '"' :: (wait.text.toList ++ '"' :: '\n' :: rest) := rfl
  generalize '"' :: (wait.text.toList ++ '"' :: '\n' :: rest) = behind at value visible ⊢
  exact readStatements?_line (List.cons_ne_nil _ _) rfl
    (readStatement?_assignment rfl (by decide) rfl visible (value _))

/-- Settings can be written as a file when their limit fits a signed word. -/
theorem isSome_toToml? (settings : Settings) :
    settings.toToml?.isSome = Word.isSigned settings.maxLoopIterations := by
  unfold toToml?
  split
  · next signed => rw [signed, Option.isSome_some]
  · next large => rw [Bool.eq_false_iff.mpr large, Option.isSome_none]

/-- The lines of a settings file. -/
theorem toList_of_toToml? {settings : Settings} {file : String} (written : settings.toToml? = some file) :
    Word.isSigned settings.maxLoopIterations = true ∧
      file.toList = "[engine]".toList ++ '\n' :: ("max_loop_iterations = ".toList ++
        (Nat.toDigits 10 settings.maxLoopIterations ++ '\n' ::
          (match settings.maxWait with
          | some wait => "max_wait = ".toList ++ '"' :: (wait.text.toList ++ '"' :: '\n' :: [])
          | none => []))) := by
  unfold toToml? at written
  split at written
  · next signed =>
      cases written
      have same : ∀ text : String, toString text = text := fun _ => rfl
      refine ⟨signed, ?_⟩
      cases settings.maxWait with
      | none => simp [tableName, same]
      | some wait => simp [tableName, same]
  · cases written

/-- Settings are read back from their file. -/
theorem ofText?_of_toToml? {settings : Settings} {file : String} (written : settings.toToml? = some file)
    (fits : ∀ wait ∈ settings.maxWait, Word.isUnsigned wait.seconds = true) :
    ofText? file = some settings := by
  obtain ⟨signed, characters⟩ := toList_of_toToml? written
  obtain ⟨bound, size⟩ : ∃ bound, file.toList.length + 1 = bound + 4 := by
    refine ⟨file.toList.length - 3, ?_⟩
    rw [characters, List.length_append, List.length_cons]
    have header : "[engine]".toList.length = 8 := rfl
    omega
  have unmarked : Toml.read? file.toList =
      (readStatements? (bound + 4) file.toList).bind (Table.perform [] []) := by
    rw [← size, characters]
    rfl
  obtain ⟨limit, maxWait⟩ := settings
  cases maxWait with
  | none =>
      have read : Toml.read? file.toList =
          some [(tableName, .table .header [("max_loop_iterations", .integer limit)])] := by
        rw [unmarked, characters, readStatements?_header]
        dsimp only
        rw [readStatements?_limit signed]
        rfl
      rw [ofText?, read]
      rfl
  | some wait =>
      have read : Toml.read? file.toList =
          some [(tableName, .table .header
            [("max_loop_iterations", .integer limit), ("max_wait", .text wait.text)])] := by
        rw [unmarked, characters, readStatements?_header]
        dsimp only
        rw [readStatements?_limit signed, readStatements?_wait (fits wait rfl)]
        rfl
      rw [ofText?, read]
      change ((TableValue.text wait.text).duration?.map some).bind _ = _
      rw [TableValue.duration?_text (fits wait rfl)]
      rfl

/-- The longest wait that is allowed is read back from the text that it is written as, and with it the settings
from their file. -/
theorem wait_read_back (fits : Word.isUnsigned wait.seconds = true) :
    (TableValue.text wait.text).duration? = some wait ∧
      ∀ limit : Nat, Word.isSigned limit = true →
        ∃ file, toToml? ⟨limit, some wait⟩ = some file ∧ ofText? file = some ⟨limit, some wait⟩ := by
  refine ⟨TableValue.duration?_text fits, fun limit signed => ?_⟩
  have writable : (toToml? ⟨limit, some wait⟩).isSome = true :=
    (isSome_toToml? ⟨limit, some wait⟩).trans signed
  obtain ⟨file, written⟩ := Option.isSome_iff_exists.mp writable
  refine ⟨file, written, ofText?_of_toToml? written fun other within => ?_⟩
  obtain rfl : wait = other := Option.some.inj within
  exact fits

/-- The longest duration of all has a part in every unit. -/
theorem wait_read_back_longest :
    (TableValue.text "584542046090years 7months 15days 17h 5m 3s 999ms 999us 999ns").duration? =
        some ⟨18446744073709551615999999999⟩ ∧
      ∃ file, toToml? ⟨1, some ⟨18446744073709551615999999999⟩⟩ = some file ∧
        ofText? file = some ⟨1, some ⟨18446744073709551615999999999⟩⟩ := by
  have written : (⟨18446744073709551615999999999⟩ : Duration).text =
    "584542046090years 7months 15days 17h 5m 3s 999ms 999us 999ns" := by decide +kernel
  have fits : Word.isUnsigned (⟨18446744073709551615999999999⟩ : Duration).seconds = true := by decide
  obtain ⟨read, files⟩ := wait_read_back fits
  rw [written] at read
  exact ⟨read, files 1 (by decide)⟩

end Files

/-! ## Limits -/

section Limits

variable {surroundings : Surroundings} {settings : Settings} {config : Option String}

/-- The limit that the surroundings set over the one of the settings file. -/
def limitSet? (surroundings : Surroundings) : Option Nat :=
  (surroundings.setting limitVariable).bind fun written => Text.readWord? (Text.trim written.toList)

/-- The fields of a signed value are signed. -/
theorem isSigned_fields {names : List String} {value : TableValue} {fields : Table} (signed : value.IsSigned)
    (found : value.fields? names = some fields) : fields.IsSigned := by
  cases signed with
  | table each =>
      cases found
      exact fun entry present => each entry (List.mem_of_mem_filter present)
  | list each =>
      cases found
      exact fun entry present => each entry.2 (List.of_mem_zip present).2
  | tables each =>
      cases found
      intro entry present
      obtain ⟨element, among, isElement⟩ := List.mem_map.mp (List.of_mem_zip present).2
      rw [← isElement]
      exact .table (each element among)
  | moment =>
      cases found
      exact Table.isSigned_nil
  | text => cases found
  | integer => cases found
  | double => cases found
  | boolean => cases found

/-- A signed value that is a count fits a signed word. -/
theorem isSigned_of_count? {value : TableValue} {count : Nat} (signed : value.IsSigned)
    (counted : value.count? = some count) : Word.isSigned count = true := by
  cases signed with
  | @integer number fits =>
      change (if 0 ≤ number then some number.toNat else none) = some count at counted
      split at counted
      · next nonnegative =>
          cases counted
          rw [Int.toNat_of_nonneg nonnegative]
          exact fits
      · cases counted
  | _ => cases counted

/-- The limit by default fits a signed word. -/
theorem isSigned_default : Word.isSigned default.maxLoopIterations = true := by decide

/-- The limit of a settings file fits a signed word. -/
theorem isSigned_of_ofText? {content : String} (read : ofText? content = some settings) :
    Word.isSigned settings.maxLoopIterations = true := by
  obtain ⟨table, isTable, read⟩ := Option.bind_eq_some_iff.mp read
  have signed := isSigned_of_read? isTable
  split at read
  · cases read
    exact isSigned_default
  · next value found =>
      obtain ⟨fields, isFields, read⟩ := Option.bind_eq_some_iff.mp read
      obtain ⟨limit, isLimit, read⟩ := Option.bind_eq_some_iff.mp read
      obtain ⟨wait, -, same⟩ := Option.bind_eq_some_iff.mp read
      cases same
      have fieldsSigned := isSigned_fields (signed.find? found) isFields
      unfold Table.optional at isLimit
      split at isLimit
      · cases isLimit
        exact isSigned_default
      · next field isField =>
          obtain ⟨count, counted, rfl⟩ := Option.map_eq_some_iff.mp isLimit
          exact isSigned_of_count? (fieldsSigned.find? isField) counted

/-- The limit of any file fits a signed word. -/
theorem isSigned_of_ofFile {path : String} (found : ofFile surroundings path = .ok settings) :
    Word.isSigned settings.maxLoopIterations = true := by
  unfold ofFile at found
  split at found
  · cases found
    exact isSigned_default
  · cases found
  · split at found
    · next read =>
        cases found
        exact isSigned_of_ofText? read
    · cases found

/-- The limit of settings that are loaded is the one that the surroundings set, or fits a signed word. -/
theorem limit_of_load (loaded : load surroundings config = .ok settings) :
    ∃ limit : Nat, Word.isSigned limit = true ∧
      settings.maxLoopIterations = (limitSet? surroundings).getD limit := by
  have checked : ∀ found : Settings, (found.override surroundings).check = .ok settings →
      settings.maxLoopIterations = (limitSet? surroundings).getD found.maxLoopIterations := by
    intro found isChecked
    unfold check at isChecked
    split at isChecked
    · cases isChecked
    · cases isChecked
      rfl
  unfold load at loaded
  cases config with
  | none => exact ⟨_, isSigned_default, checked default loaded⟩
  | some path =>
      dsimp only at loaded
      cases read : ofFile surroundings path with
      | error failure =>
          rw [read] at loaded
          cases loaded
      | ok found =>
          rw [read] at loaded
          exact ⟨_, isSigned_of_ofFile read, checked found loaded⟩

end Limits

end Settings

namespace CommandLine

variable {surroundings : Surroundings} {config : Option String} {settings : Settings}

/-- Showing settings succeeds when they could be written. -/
theorem failure_settingsOutput (written : Option String) :
    (settingsOutput config written).failure = none ↔ written.isSome = true := by
  cases written <;> simp [settingsOutput]

/-- Settings are shown when their limit fits a signed word. -/
theorem failure_configOutput (loaded : Settings.load surroundings config = .ok settings) :
    (configOutput surroundings config).failure = none ↔ Word.isSigned settings.maxLoopIterations = true := by
  have output : configOutput surroundings config = settingsOutput config settings.toToml? := by
    rw [configOutput, loaded]
  rw [output, failure_settingsOutput, Settings.isSome_toToml?]

/-- Settings that were loaded are shown exactly if the surroundings set no limit beyond the signed words. -/
theorem shown_iff_limit_signed (loaded : Settings.load surroundings config = .ok settings) :
    (configOutput surroundings config).failure = none ↔
      ∀ limit ∈ Settings.limitSet? surroundings, Word.isSigned limit = true := by
  obtain ⟨found, foundSigned, isLimit⟩ := Settings.limit_of_load loaded
  rw [failure_configOutput loaded, isLimit]
  cases Settings.limitSet? surroundings with
  | none => exact ⟨fun _ _ within => (nomatch within), fun _ => foundSigned⟩
  | some limit =>
      constructor
      · intro signed other within
        cases within
        exact signed
      · intro each
        exact each limit rfl

/-- Surroundings without files, in which nothing but the limit is set. -/
def limitedTo (written : String) : Surroundings where
  file _ := .missing "No such file or directory (os error 2)"
  setting name := if name = Settings.limitVariable then some written else none

/-- The largest signed word is a limit that is shown. -/
theorem shown_largest_signed :
    Settings.load (limitedTo "9223372036854775807") none = .ok ⟨9223372036854775807, none⟩ ∧
      (configOutput (limitedTo "9223372036854775807") none).failure = none := by
  have loaded : Settings.load (limitedTo "9223372036854775807") none = .ok ⟨9223372036854775807, none⟩ := by
    rfl
  have set : Settings.limitSet? (limitedTo "9223372036854775807") = some 9223372036854775807 := by rfl
  refine ⟨loaded, (shown_iff_limit_signed loaded).mpr fun limit within => ?_⟩
  rw [set] at within
  cases within
  decide

/-- The limit behind the largest signed word is accepted, and is not shown. -/
theorem exists_unshown_settings :
    ∃ surroundings config settings, Settings.load surroundings config = .ok settings ∧
      (configOutput surroundings config).failure ≠ none := by
  have loaded : Settings.load (limitedTo "9223372036854775808") none = .ok ⟨9223372036854775808, none⟩ := by
    rfl
  refine ⟨_, none, _, loaded, fun shown => ?_⟩
  have signed := (failure_configOutput loaded).mp shown
  exact absurd signed (by decide)

end CommandLine

end Orchestration
