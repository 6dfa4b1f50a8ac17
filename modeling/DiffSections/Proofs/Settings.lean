import DiffSections.Proofs.Checked
import DiffSections.Proofs.Text.Utf8
import DiffSections.Selection

/-!
# DiffSections.Proofs.Settings -- the settings that are in force, and what they allow for

Settings are had from a file that is named, from the file of the working directory, or without any
file (`Settings.InForce`). A file has to be readable and its octets a text (`Entry.ReadsText`), and
the text has to give settings that are valid (`Settings.Written`); of several patterns that are not
well-formed the first is reported (`PathFilter.Refuses`). A run has the settings that are in force,
and reports what is wrong with them if they are not to be had (`Settings.inForce_iff`).

However they were had, settings allow some input and not more than a word counts, and their patterns
are well-formed (`Settings.InForce.usable`): a run that has its settings cannot fail because of them
later on.
-/

namespace DiffSections

set_option autoImplicit false

/-! ## Patterns -/

namespace PathFilter

/-- One of some patterns is not well-formed; this is what is said about the first. -/
inductive Refuses : List String → String → Prop
  | here {pattern : String} {later : List String} {fault : GlobFault}
      (illFormed : Glob.parse pattern = .error fault) :
      Refuses (pattern :: later)
        ("invalid include glob '" ++ pattern ++ "': error parsing glob '" ++ pattern ++ "': " ++
          fault.message)
  | later {pattern : String} {patterns : List String} {tokens : List GlobToken} {message : String}
      (wellFormed : Glob.parse pattern = .ok tokens) (refuses : Refuses patterns message) :
      Refuses (pattern :: patterns) message

/-- Every one of some patterns is well-formed. -/
def Accepts (patterns : List String) : Prop :=
  ∀ pattern ∈ patterns, ∃ tokens, Glob.parse pattern = .ok tokens

variable {patterns : List String}

theorem read_eq_error_iff {message : String} :
    (∃ error, read patterns = .error error ∧ error.message = message) ↔
      Refuses patterns message := by
  constructor
  · rintro ⟨error, refused, rfl⟩
    induction patterns with
    | nil => cases refused
    | cons pattern patterns ih =>
        rw [read] at refused
        cases parsed : Glob.parse pattern with
        | error fault =>
            rw [parsed] at refused
            cases refused
            exact .here parsed
        | ok tokens =>
            cases reads : read patterns with
            | error other =>
                rw [parsed, reads] at refused
                cases refused
                exact .later parsed (ih reads)
            | ok found =>
                rw [parsed, reads] at refused
                cases refused
  · intro refuses
    induction refuses with
    | here illFormed =>
        rw [read, illFormed]
        exact ⟨_, rfl, rfl⟩
    | later wellFormed _ ih =>
        obtain ⟨error, refused, rfl⟩ := ih
        rw [read, wellFormed, refused]
        exact ⟨error, rfl, rfl⟩

theorem exists_read_iff : (∃ found, read patterns = .ok found) ↔ Accepts patterns := by
  induction patterns with
  | nil => exact ⟨fun _ => nofun, fun _ => ⟨[], rfl⟩⟩
  | cons pattern patterns ih =>
      have split : Accepts (pattern :: patterns) ↔
          (∃ tokens, Glob.parse pattern = .ok tokens) ∧ Accepts patterns := List.forall_mem_cons
      rw [split, ← ih, read]
      cases Glob.parse pattern with
      | error fault => simp
      | ok tokens => cases read patterns <;> simp [Except.map]

theorem ofPatterns_eq_error_iff {message : String} :
    (∃ error, ofPatterns patterns = .error error ∧ error.message = message) ↔
      Refuses patterns message := by
  rw [← read_eq_error_iff]
  cases patterns with
  | nil => constructor <;> rintro ⟨error, refused, -⟩ <;> cases refused
  | cons pattern patterns =>
      rw [ofPatterns]
      cases read (pattern :: patterns) <;> simp [Except.map]

theorem exists_ofPatterns_iff :
    (∃ filter, ofPatterns patterns = .ok filter) ↔ Accepts patterns := by
  rw [← exists_read_iff]
  cases patterns with
  | nil => exact ⟨fun _ => ⟨[], rfl⟩, fun _ => ⟨none, rfl⟩⟩
  | cons pattern patterns =>
      rw [ofPatterns]
      cases read (pattern :: patterns) <;> simp [Except.map]

end PathFilter

/-! ## What a file holds -/

namespace Settings

/-- What a text gives: settings that allow some input and have well-formed patterns, or what is
wrong with it. -/
inductive Written (text : String) : Except Failure Settings → Prop
  /-- It is not the text of any settings. -/
  | malformed (unread : (Yaml.Node.ofText? text).bind ofNode? = none) :
      Written text (.error (.settings "failed to parse config YAML"))
  | noInput {given : Settings} (gives : (Yaml.Node.ofText? text).bind ofNode? = some given)
      (nothing : given.maxInputBytes = 0) :
      Written text (.error (.settings
        "config validation failed: max_input_bytes must be greater than 0"))
  | patterns {given : Settings} {message : String}
      (gives : (Yaml.Node.ofText? text).bind ofNode? = some given)
      (positive : 0 < given.maxInputBytes)
      (refuses : PathFilter.Refuses given.patterns message) :
      Written text (.error (.settings message))
  | valid {given : Settings} (gives : (Yaml.Node.ofText? text).bind ofNode? = some given)
      (positive : 0 < given.maxInputBytes) (accepts : PathFilter.Accepts given.patterns) :
      Written text (.ok given)

variable {text : String} {given : Settings}

theorem ofYaml_of_noInput (gives : (Yaml.Node.ofText? text).bind ofNode? = some given)
    (nothing : given.maxInputBytes = 0) : ofYaml text = .error .noInput := by
  have refused : given.check = .error .noInput := if_pos nothing
  simp only [ofYaml, gives, refused]
  rfl

theorem ofYaml_of_positive (gives : (Yaml.Node.ofText? text).bind ofNode? = some given)
    (positive : 0 < given.maxInputBytes) :
    ofYaml text = ((PathFilter.ofPatterns given.patterns).mapError .glob).map fun _ => given := by
  rw [ofYaml, gives]
  simp only [check, if_neg (Nat.ne_of_gt positive), selection]
  cases PathFilter.ofPatterns given.patterns <;> rfl

theorem written_iff {result : Except Failure Settings} :
    Written text result ↔ (ofYaml text).mapError SettingsFault.failure = result := by
  constructor
  · intro written
    cases written with
    | malformed unread =>
        rw [ofYaml, unread]
        rfl
    | noInput gives nothing =>
        rw [ofYaml_of_noInput gives nothing]
        rfl
    | patterns gives positive refuses =>
        obtain ⟨error, refused, rfl⟩ := PathFilter.ofPatterns_eq_error_iff.2 refuses
        rw [ofYaml_of_positive gives positive, refused]
        rfl
    | valid gives positive accepts =>
        obtain ⟨filter, passes⟩ := PathFilter.exists_ofPatterns_iff.2 accepts
        rw [ofYaml_of_positive gives positive, passes]
        rfl
  · rintro rfl
    cases gives : (Yaml.Node.ofText? text).bind ofNode? with
    | none =>
        rw [ofYaml, gives]
        exact .malformed gives
    | some given =>
        obtain nothing | positive := Nat.eq_zero_or_pos given.maxInputBytes
        · rw [ofYaml_of_noInput gives nothing]
          exact .noInput gives nothing
        · rw [ofYaml_of_positive gives positive]
          cases checked : PathFilter.ofPatterns given.patterns with
          | error error =>
              exact .patterns gives positive
                (PathFilter.ofPatterns_eq_error_iff.1 ⟨error, checked, rfl⟩)
          | ok filter =>
              exact .valid gives positive (PathFilter.exists_ofPatterns_iff.1 ⟨filter, checked⟩)

end Settings

/-- What reading a file as text gives: the text of which it holds the octets, or why it is not read.
A file that is missing is not read either. -/
inductive Entry.ReadsText : Entry → Except ReadFault String → Prop
  | text (text : String) : ReadsText (.file (Bytes.ofString text)) (.ok text)
  | notText {content : Bytes} (noText : ∀ text, content ≠ Bytes.ofString text) :
      ReadsText (.file content) (.error .notText)
  | directory : ReadsText .directory (.error (.system "Is a directory" 21))
  | locked (reason : ReadFault) : ReadsText (.locked reason) (.error reason)
  | broken (reason : ReadFault) : ReadsText (.broken reason) (.error reason)
  | fault (reason : ReadFault) : ReadsText (.fault reason) (.error reason)

/-- A path leads to no file: to a directory or to nothing. -/
def Entry.NoFile (entry : Entry) : Prop := entry = .directory ∨ ∃ reason, entry = .fault reason

namespace Settings

/-- What the file that a path leads to gives. -/
inductive Held (path : String) (entry : Entry) : Except Failure Settings → Prop
  | unreadable {reason : ReadFault} (reads : entry.ReadsText (.error reason)) :
      Held path entry
        (.error (.settings ("failed to read config file '" ++ path ++ "': " ++ reason.message)))
  | written {text : String} {result : Except Failure Settings} (reads : entry.ReadsText (.ok text))
      (writes : Written text result) : Held path entry result

theorem held_iff {path : String} {entry : Entry} {result : Except Failure Settings} :
    Held path entry result ↔ (ofEntry path entry).mapError SettingsFault.failure = result := by
  constructor
  · intro held
    cases held with
    | unreadable reads =>
        cases reads with
        | notText noText =>
            have unread := Option.eq_none_iff_forall_ne_some.2 fun text read =>
              noText text (Text.strict?_eq_some_iff.1 read)
            simp only [ofEntry, unread]
            rfl
        | directory | locked | broken | fault => rfl
    | written reads writes =>
        cases reads with
        | text text =>
            simp only [ofEntry, Text.strict?_eq_some_iff.2 rfl]
            exact written_iff.1 writes
  · rintro rfl
    cases entry with
    | file content =>
        cases read : Text.strict? content with
        | none =>
            simp only [ofEntry, read]
            exact .unreadable (.notText fun text same => by
              rw [Text.strict?_eq_some_iff.2 same] at read
              cases read)
        | some text =>
            obtain rfl := Text.strict?_eq_some_iff.1 read
            simp only [ofEntry, read]
            exact .written (.text text) (written_iff.2 rfl)
    | locked reason => exact .unreadable (.locked reason)
    | broken reason => exact .unreadable (.broken reason)
    | directory => exact .unreadable .directory
    | fault reason => exact .unreadable (.fault reason)

/-- The settings that are in force, or why there are none: those of the file that is named, or of
the file in the working directory, or the standard ones if there is no such file. -/
inductive InForce (around : Surroundings) : Option String → Except Failure Settings → Prop
  | named {path : String} {result : Except Failure Settings}
      (held : Held path (around.find path) result) : InForce around (some path) result
  | home {result : Except Failure Settings} (present : ¬ (around.find ".diffparse.yaml").NoFile)
      (held : Held
        (around.directory ++ (if around.directory.endsWith "/" then "" else "/") ++
          ".diffparse.yaml")
        (around.find ".diffparse.yaml") result) : InForce around none result
  | standard (absent : (around.find ".diffparse.yaml").NoFile) :
      InForce around none
        (.ok { dialect := .git, maxInputBytes := 67108864, patterns := [], output := .text })

theorem pathIn_eq (directory name : String) :
    pathIn directory name = directory ++ (if directory.endsWith "/" then "" else "/") ++ name := by
  rw [pathIn]
  split
  · rw [String.append_empty]
  · rfl

theorem ofSurroundings_none_of_noFile {around : Surroundings}
    (absent : (around.find ".diffparse.yaml").NoFile) : ofSurroundings around none = .ok {} := by
  rw [ofSurroundings, fileName]
  obtain found | ⟨reason, found⟩ := absent <;> rw [found]

theorem ofSurroundings_none_of_file {around : Surroundings}
    (present : ¬ (around.find ".diffparse.yaml").NoFile) :
    ofSurroundings around none =
      ofEntry (around.directory ++ (if around.directory.endsWith "/" then "" else "/") ++
          ".diffparse.yaml")
        (around.find ".diffparse.yaml") := by
  rw [ofSurroundings, pathIn_eq, fileName]
  split
  case h_1 found => exact absurd (.inl found) present
  case h_2 reason found => exact absurd (.inr ⟨reason, found⟩) present
  case h_3 => rfl

/-- A run has the settings that are in force, or reports why there are none. -/
theorem inForce_iff {around : Surroundings} {config : Option String}
    {result : Except Failure Settings} :
    InForce around config result ↔
      (ofSurroundings around config).mapError SettingsFault.failure = result := by
  constructor
  · intro inForce
    cases inForce with
    | named held => exact held_iff.1 held
    | home present held =>
        rw [ofSurroundings_none_of_file present]
        exact held_iff.1 held
    | standard absent =>
        rw [ofSurroundings_none_of_noFile absent]
        rfl
  · rintro rfl
    cases config with
    | some path => exact .named (held_iff.2 rfl)
    | none =>
        by_cases absent : (around.find ".diffparse.yaml").NoFile
        · rw [ofSurroundings_none_of_noFile absent]
          exact .standard absent
        · rw [ofSurroundings_none_of_file absent]
          exact .home absent (held_iff.2 rfl)

theorem inForce_ok_iff {around : Surroundings} {config : Option String} {settings : Settings} :
    InForce around config (.ok settings) ↔ ofSurroundings around config = .ok settings := by
  rw [inForce_iff, mapError_eq_ok_iff]

theorem InForce.unique {around : Surroundings} {config : Option String}
    {result other : Except Failure Settings} (inForce : InForce around config result)
    (inForce' : InForce around config other) : result = other :=
  (inForce_iff.1 inForce).symm.trans (inForce_iff.1 inForce')

/-- Settings that cannot be had are a failure of the settings. -/
theorem InForce.exists_message {around : Surroundings} {config : Option String}
    {failure : Failure} (refused : InForce around config (.error failure)) :
    ∃ message, failure = .settings message := by
  obtain ⟨fault, -, rfl⟩ := mapError_eq_error_iff.1 (inForce_iff.1 refused)
  exact ⟨fault.message, rfl⟩

end Settings

/-! ## The limit is a word -/

theorem Yaml.unsigned?_lt {limit n : Nat} {text : String}
    (reads : Yaml.unsigned? limit text = some n) : n < limit := by
  simp only [Yaml.unsigned?, Yaml.based?, Option.orElse_eq_orElse, Option.orElse_eq_or,
    Option.or_eq_some_iff, Option.filter_eq_some_iff, decide_eq_true_eq] at reads
  obtain ⟨-, small⟩ | ⟨-, reads⟩ := reads
  · exact small
  · split at reads
    · cases reads
    · simpa using (Option.filter_eq_some_iff.1 reads).2

namespace Settings

theorem readNumber?_lt {node : Yaml.Node} {n : Nat} (reads : readNumber? node = some n) :
    n < wordLimit := by
  unfold readNumber? at reads
  split at reads
  · exact Yaml.unsigned?_lt reads
  · split at reads
    · exact Yaml.unsigned?_lt reads
    · cases reads
  · cases reads

/-- The limit is a word, whichever field is read. -/
theorem readField?_word {root value : Yaml.Node} {settings settings' : Settings} {name : String}
    (word : settings.maxInputBytes < wordLimit)
    (reads : readField? root settings name value = some settings') :
    settings'.maxInputBytes < wordLimit := by
  unfold readField? at reads
  split at reads
  · obtain ⟨dialect, -, rfl⟩ := Option.map_eq_some_iff.1 reads
    exact word
  split at reads
  · obtain ⟨limit, readsNumber, rfl⟩ := Option.map_eq_some_iff.1 reads
    exact readNumber?_lt readsNumber
  split at reads
  · obtain ⟨patterns, -, rfl⟩ := Option.map_eq_some_iff.1 reads
    exact word
  split at reads
  · obtain ⟨output, -, rfl⟩ := Option.map_eq_some_iff.1 reads
    exact word
  · cases reads
    exact word

theorem readFields?_word {root : Yaml.Node} {seen : List String} {parts : List Yaml.Node}
    {settings settings' : Settings} (word : settings.maxInputBytes < wordLimit)
    (reads : readFields? root seen parts settings = some settings') :
    settings'.maxInputBytes < wordLimit := by
  fun_induction readFields? root seen parts settings with
  | case1 seen key value rest settings ih =>
      simp only [Option.bind_eq_bind, Option.bind_eq_some_iff] at reads
      obtain ⟨name, -, value', -, reads⟩ := reads
      split at reads
      · cases reads
      · obtain ⟨next, readsField, readsRest⟩ := Option.bind_eq_some_iff.1 reads
        exact ih name next (readField?_word word readsField) readsRest
  | case2 seen parts settings _ =>
      cases reads
      exact word

/-! ## What settings allow for -/

/-- What settings that are in force allow for. -/
structure Usable (settings : Settings) : Prop where
  positive : 0 < settings.maxInputBytes
  word : settings.maxInputBytes < wordLimit
  /-- The patterns are well-formed. -/
  selects : ∃ filter, settings.selection = .ok filter

theorem usable_standard : Usable {} := ⟨by decide, by decide, none, rfl⟩

theorem word_of_ofNode? {root : Yaml.Node} {settings : Settings}
    (reads : ofNode? root = some settings) : settings.maxInputBytes < wordLimit := by
  unfold ofNode? at reads
  split at reads
  · exact readFields?_word (by decide) reads
  · split at reads
    · cases reads
      decide
    · cases reads

theorem Written.usable {text : String} {settings : Settings}
    (writes : Written text (.ok settings)) : settings.Usable := by
  cases writes with
  | valid gives positive accepts =>
      obtain ⟨root, -, reads⟩ := Option.bind_eq_some_iff.1 gives
      obtain ⟨filter, passes⟩ := PathFilter.exists_ofPatterns_iff.2 accepts
      refine ⟨positive, word_of_ofNode? reads, filter, ?_⟩
      rw [selection, passes, mapError_ok]

/-- **Settings that are in force can be used**, however they were had. -/
theorem InForce.usable {around : Surroundings} {config : Option String} {settings : Settings}
    (inForce : InForce around config (.ok settings)) : settings.Usable := by
  cases inForce with
  | named held | home _ held =>
      cases held with
      | written _ writes => exact writes.usable
  | standard => exact usable_standard

end Settings

end DiffSections
