import DiffSections.Proofs.Checked
import DiffSections.Proofs.Input
import DiffSections.Proofs.Reader.Faults
import DiffSections.Proofs.Settings
import DiffSections.Run

/-!
# DiffSections.Proofs.Stages -- the first stage that fails decides how a run ends

Each stage of a run can be wrong by itself, and several can be wrong at once: `Invocation.Fails`
says what is wrong with one of them without a word on the others, but for what it takes from them.
It speaks of what a run is asked for and of what is around it, not of how a run goes about it.
A run by any verb reports the first (`Invocation.FailsFirst`), with the exit status of that stage,
and prints nothing but the verdict of a check that is to be in JSON. If nothing is wrong every verb
succeeds.

* `Invocation.load_eq_error_iff`: loading reports what is wrong with the first stage that fails;
* `Invocation.outcome_of_stages`: the failure, the exit status and the output of a run by any verb.
-/

namespace DiffSections

set_option autoImplicit false

/-- What a run goes through before it prints. -/
inductive Stage where
  | settings
  | dialect
  | patterns
  | input
  | records
  deriving DecidableEq, Repr

namespace Stage

/-- The place of a stage among the others. -/
def rank : Stage → Nat
  | .settings => 0
  | .dialect => 1
  | .patterns => 2
  | .input => 3
  | .records => 4

/-- The status of a run that fails at a stage. -/
def exitCode : Stage → Nat
  | .settings => 3
  | .dialect | .patterns | .input => 1
  | .records => 2

theorem eq_of_rank_eq {stage other : Stage} (same : stage.rank = other.rank) : stage = other := by
  cases stage <;> cases other <;> first | rfl | cases same

end Stage

theorem Outcome.exitCode_eq_zero_iff {outcome : Outcome} :
    outcome.exitCode = 0 ↔ outcome.failure = none := by
  unfold exitCode
  cases outcome.failure with
  | none => simp
  | some failure => simpa using Nat.ne_of_gt failure.exitCode_pos

namespace Dialect

/-- The names by which a dialect is asked for. -/
def names : List (String × Dialect) := [("git", .git), ("unified", .unified), ("diff", .unified)]

theorem ofName?_eq_some_iff {name : String} {dialect : Dialect} :
    ofName? name = some dialect ↔ (name, dialect) ∈ names := by
  simp only [ofName?, names, List.mem_cons, Prod.mk.injEq, List.not_mem_nil, or_false]
  split
  case isTrue isGit => simp [isGit, eq_comm]
  case isFalse notGit =>
    split
    case isTrue isUnified => obtain rfl | rfl := isUnified <;> simp [eq_comm]
    case isFalse others =>
      obtain ⟨notUnified, notDiff⟩ := not_or.1 others
      simp [notGit, notUnified, notDiff]

end Dialect

/-! ## What is wrong with each stage -/

namespace Invocation

variable {invocation : Invocation} {around : Surroundings}

/-- The dialect that is asked for, or else the one of the settings. -/
inductive Chooses (invocation : Invocation) (settings : Settings) : Dialect → Prop
  | asked {name : String} {dialect : Dialect} (asked : invocation.format = some name)
      (named : (name, dialect) ∈ Dialect.names) : Chooses invocation settings dialect
  | settings (noneAsked : invocation.format = none) : Chooses invocation settings settings.dialect

/-- Something is wrong with a stage, whatever is wrong with the others. -/
inductive Fails (invocation : Invocation) (around : Surroundings) : Stage → Failure → Prop
  /-- The settings cannot be had. -/
  | settings {message : String}
      (refused : Settings.InForce around invocation.config (.error (.settings message))) :
      Fails invocation around .settings (.settings message)
  /-- The dialect that is asked for is not one. -/
  | dialect {name : String} (asked : invocation.format = some name)
      (unknown : ∀ dialect, (name, dialect) ∉ Dialect.names) :
      Fails invocation around .dialect
        (.user ("unknown diff format '" ++ name ++ "' (expected git or unified)"))
  /-- One of the patterns that are asked for is not well-formed. -/
  | patterns {message : String} (refuses : PathFilter.Refuses invocation.patterns message) :
      Fails invocation around .patterns (.user message)
  | unopened {path : String} {reason : ReadFault} (asked : invocation.AsksFor path)
      (found : around.find path = .fault reason ∨ around.find path = .locked reason) :
      Fails invocation around .input
        (.user ("failed to open '" ++ path ++ "': " ++ reason.message))
  | unreadable {name : String} {reason : ReadFault}
      (supplies : invocation.Supplies around name (.error reason)) :
      Fails invocation around .input
        (.user ("failed to read " ++ name ++ ": " ++ reason.message))
  /-- The input is longer than the settings allow. -/
  | tooLong {settings : Settings} {name : String} {content : Bytes}
      (inForce : Settings.InForce around invocation.config (.ok settings))
      (supplies : invocation.Supplies around name (.ok content))
      (longer : settings.maxInputBytes < (counted content).length) :
      Fails invocation around .input
        (.user (name ++ " exceeds max_input_bytes (" ++ toString settings.maxInputBytes ++
          " bytes)"))
  /-- The input does not parse in the dialect that is asked for, or that the settings name. -/
  | records {settings : Settings} {dialect : Dialect} {name : String} {content : Bytes}
      {error : ParseError} (inForce : Settings.InForce around invocation.config (.ok settings))
      (chooses : invocation.Chooses settings dialect)
      (supplies : invocation.Supplies around name (.ok content))
      (refused : dialect.parse (counted content) = .error error) :
      Fails invocation around .records
        (.parse { kind := error.fault.kind, line := error.line, message := error.fault.message })

/-- Something is wrong with a stage and nothing with those before it. -/
def FailsFirst (invocation : Invocation) (around : Surroundings) (stage : Stage)
    (failure : Failure) : Prop :=
  invocation.Fails around stage failure ∧
    ∀ earlier other, earlier.rank < stage.rank → ¬ invocation.Fails around earlier other

theorem Fails.exitCode_eq {stage : Stage} {failure : Failure}
    (fails : invocation.Fails around stage failure) : failure.exitCode = stage.exitCode := by
  cases fails <;> rfl

/-- Only records that were not read are a failure to parse. -/
theorem Fails.stage_eq_records {stage : Stage} {diagnostic : Diagnostic}
    (fails : invocation.Fails around stage (.parse diagnostic)) : stage = .records := by
  generalize reported : Failure.parse diagnostic = failure at fails
  cases fails <;> first | rfl | cases reported

/-! ## What a stage returns -/

theorem dialect_eq_ok_iff {settings : Settings} {dialect : Dialect} :
    invocation.dialect settings = .ok dialect ↔ invocation.Chooses settings dialect := by
  constructor
  · intro known
    unfold Invocation.dialect at known
    split at known
    case h_1 noneAsked =>
      cases known
      exact .settings noneAsked
    case h_2 name asked =>
      split at known
      case h_1 found named =>
        cases known
        exact .asked asked (Dialect.ofName?_eq_some_iff.1 named)
      case h_2 => cases known
  · intro chooses
    cases chooses with
    | asked asked named =>
        simp only [Invocation.dialect, asked, Dialect.ofName?_eq_some_iff.2 named]
    | settings noneAsked => simp only [Invocation.dialect, noneAsked]

theorem dialect_eq_error_iff {settings : Settings} {failure : Failure} :
    invocation.dialect settings = .error failure ↔ invocation.Fails around .dialect failure := by
  constructor
  · intro refused
    unfold dialect at refused
    split at refused
    case h_1 => cases refused
    case h_2 name asked =>
      split at refused
      case h_1 => cases refused
      case h_2 unnamed =>
        cases refused
        refine .dialect asked fun dialect named => ?_
        rw [Dialect.ofName?_eq_some_iff.2 named] at unnamed
        cases unnamed
  · intro fails
    cases fails with
    | @dialect name asked unknown =>
        have unnamed : Dialect.ofName? name = none :=
          Option.eq_none_iff_forall_ne_some.2 fun dialect named =>
            unknown dialect (Dialect.ofName?_eq_some_iff.1 named)
        simp only [dialect, asked, unnamed]
        rfl

/-- Settings that were had do not fail for their patterns. -/
theorem restriction_of_usable {settings : Settings} (usable : settings.Usable)
    (noneAsked : invocation.patterns = []) :
    ∃ filter, invocation.restriction settings = .ok filter := by
  obtain ⟨filter, selects⟩ := usable.selects
  refine ⟨filter, ?_⟩
  rw [restriction, noneAsked, selects]
  rfl

theorem restriction_eq_error_iff {settings : Settings} (usable : settings.Usable)
    {failure : Failure} :
    invocation.restriction settings = .error failure ↔
      invocation.Fails around .patterns failure := by
  by_cases noneAsked : invocation.patterns = []
  case pos =>
    obtain ⟨filter, passes⟩ := restriction_of_usable usable noneAsked
    constructor
    · intro refused
      rw [passes] at refused
      cases refused
    · intro fails
      cases fails with
      | patterns refuses =>
          rw [noneAsked] at refuses
          cases refuses
  case neg =>
    rw [restriction, if_neg (by simpa using noneAsked), mapError_eq_error_iff]
    constructor
    · rintro ⟨error, refused, rfl⟩
      exact .patterns (PathFilter.ofPatterns_eq_error_iff.1 ⟨error, refused, rfl⟩)
    · intro fails
      cases fails with
      | patterns refuses =>
          obtain ⟨error, refused, rfl⟩ := PathFilter.ofPatterns_eq_error_iff.2 refuses
          exact ⟨error, refused, rfl⟩

/-- What is wrong with the input shows when it is read, and nothing else does. -/
theorem readDiff_eq_error_iff {settings : Settings} {failure : Failure}
    (inForce : Settings.InForce around invocation.config (.ok settings)) :
    invocation.readDiff around settings.maxInputBytes = .error failure ↔
      invocation.Fails around .input failure := by
  constructor
  · intro refused
    cases opened : invocation.openInput around with
    | error reported =>
        obtain ⟨path, reason, asked, found, rfl⟩ := openInput_eq_error_iff.1 opened
        rw [readDiff, opened] at refused
        cases refused
        exact .unopened asked found
    | ok source =>
        obtain ⟨name, content⟩ := source
        have supplies := openInput_eq_ok_iff.1 opened
        cases content with
        | error reason =>
            rw [readDiff_of_broken supplies] at refused
            cases refused
            exact .unreadable supplies
        | ok content =>
            rw [readDiff_of_supplies _ supplies] at refused
            split at refused
            case isTrue longer =>
              cases refused
              exact .tooLong inForce supplies longer
            case isFalse => cases refused
  · intro fails
    cases fails with
    | unopened asked found =>
        have refused := openInput_eq_error_iff.2 ⟨_, _, asked, found, rfl⟩
        rw [readDiff, refused]
        rfl
    | unreadable supplies => exact readDiff_of_broken supplies
    | tooLong inForce' supplies longer =>
        cases inForce.unique inForce'
        rw [readDiff_of_supplies _ supplies, if_pos longer]

/-- An input that is not recognized is refused at line zero, so a report shows the line. -/
theorem diagnostic_of_parse {dialect : Dialect} {data : Bytes} {error : ParseError}
    (refused : dialect.parse data = .error error) :
    error.diagnostic =
      { kind := error.fault.kind, line := error.line, message := error.fault.message } := by
  rw [ParseError.diagnostic, Diagnostic.of]
  by_cases unrecognized : error.fault.kind = .notRecognized
  · obtain ⟨rfl, -⟩ := Dialect.exists_of_notRecognized refused unrecognized
    rfl
  · rw [if_neg unrecognized]

theorem parse_eq_error_iff {settings : Settings} {dialect : Dialect} {data : Bytes}
    {failure : Failure} (inForce : Settings.InForce around invocation.config (.ok settings))
    (known : invocation.dialect settings = .ok dialect)
    (reads : invocation.readDiff around settings.maxInputBytes = .ok data) :
    ((dialect.parse data).mapError fun error => Failure.parse error.diagnostic) = .error failure ↔
      invocation.Fails around .records failure := by
  obtain ⟨name, content, supplies, rfl⟩ := exists_supplies_of_readDiff reads
  rw [mapError_eq_error_iff]
  constructor
  · rintro ⟨error, refused, rfl⟩
    rw [diagnostic_of_parse refused]
    exact .records inForce (dialect_eq_ok_iff.1 known) supplies refused
  · intro fails
    cases fails with
    | records inForce' chooses supplies' refused =>
        cases inForce.unique inForce'
        cases known.symm.trans (dialect_eq_ok_iff.2 chooses)
        obtain ⟨rfl, same⟩ := supplies.unique supplies'
        cases same
        exact ⟨_, refused, congrArg Failure.parse (diagnostic_of_parse refused)⟩

/-! ## The first stage that fails -/

/-- What is wrong with the first stage that fails from some place on. -/
def FailsFrom (invocation : Invocation) (around : Surroundings) (rank : Nat) (failure : Failure) :
    Prop :=
  ∃ stage : Stage, rank ≤ stage.rank ∧ invocation.Fails around stage failure ∧
    ∀ earlier other, rank ≤ earlier.rank → earlier.rank < stage.rank →
      ¬ invocation.Fails around earlier other

theorem failsFrom_zero {failure : Failure} :
    invocation.FailsFrom around 0 failure ↔
      ∃ stage, invocation.FailsFirst around stage failure := by
  simp only [FailsFrom, FailsFirst, Nat.zero_le, true_and, true_implies]

/-- One stage after another: what is reported is what the stage returns if it fails, and else what
those after it report. -/
theorem bind_eq_error_iff {α β : Type} {checked : Except Failure α} {next : α → Except Failure β}
    {failure : Failure} (stage : Stage)
    (here : ∀ other, checked = .error other ↔ invocation.Fails around stage other)
    (later : ∀ value, checked = .ok value →
      (next value = .error failure ↔ invocation.FailsFrom around (stage.rank + 1) failure)) :
    (checked >>= next) = .error failure ↔ invocation.FailsFrom around stage.rank failure := by
  cases checks : checked with
  | error reported =>
      have failsHere := (here reported).1 checks
      constructor
      · intro same
        cases same
        refine ⟨stage, Nat.le_refl _, failsHere, ?_⟩
        intro earlier other notBefore before
        omega
      · rintro ⟨first, notBefore, failsThere, noneBefore⟩
        obtain same | after := Nat.eq_or_lt_of_le notBefore
        · cases Stage.eq_of_rank_eq same
          rw [← checks, (here failure).2 failsThere]
          rfl
        · exact absurd failsHere (noneBefore stage reported (Nat.le_refl _) after)
  | ok value =>
      have passes : ∀ other, ¬ invocation.Fails around stage other := by
        intro other fails
        rw [← here, checks] at fails
        cases fails
      show next value = .error failure ↔ _
      rw [later value checks]
      constructor
      · rintro ⟨first, notBefore, failsThere, noneBefore⟩
        refine ⟨first, by omega, failsThere, ?_⟩
        intro earlier other notBefore' before fails
        obtain same | after := Nat.eq_or_lt_of_le notBefore'
        · cases Stage.eq_of_rank_eq same
          exact passes other fails
        · exact noneBefore earlier other after before fails
      · rintro ⟨first, notBefore, failsThere, noneBefore⟩
        obtain same | after := Nat.eq_or_lt_of_le notBefore
        · cases Stage.eq_of_rank_eq same
          exact absurd failsThere (passes failure)
        · refine ⟨first, after, failsThere, ?_⟩
          intro earlier other notBefore' before
          exact noneBefore earlier other (by omega) before

/-- With its settings a run loads what it was asked for, or reports the first stage that fails of
those to come. -/
theorem ofInvocation_eq_error_iff {settings : Settings} {failure : Failure}
    (inForce : Settings.InForce around invocation.config (.ok settings)) :
    Selection.ofInvocation around settings invocation = .error failure ↔
      invocation.FailsFrom around 1 failure := by
  have usable := inForce.usable
  apply bind_eq_error_iff .dialect (fun _ => dialect_eq_error_iff)
  intro dialect known
  apply bind_eq_error_iff .patterns (fun _ => restriction_eq_error_iff usable)
  intro filter _
  apply bind_eq_error_iff .input (fun _ => readDiff_eq_error_iff inForce)
  intro data reads
  apply bind_eq_error_iff .records (fun _ => parse_eq_error_iff inForce known reads)
  intro records _
  -- There is no stage behind the last one.
  constructor
  · intro refused
    cases refused
  · rintro ⟨stage, after, -⟩
    cases stage <;> exact absurd after (by decide)

end Invocation

/-! ## Reports on errors -/

namespace Report

/-- How a report names the kinds of errors. -/
def kindNames : List (ParseErrorKind × String) :=
  [(.notRecognized, "not_a_recognized_format"), (.malformedHeader, "malformed_header"),
    (.malformedHunk, "malformed_hunk"), (.truncatedHunk, "truncated_hunk")]

theorem mem_kindNames (kind : ParseErrorKind) : (kind, kind.name) ∈ kindNames := by
  cases kind <;> decide

/-- A report on an error is an object with a field a line. -/
theorem document_refusal (name : String) (line : Nat) (message : String) :
    document (.object [("kind", .string name), ("line", .number line),
        ("message", .string message), ("ok", .bool false)]) =
      "\x7b\n  \"kind\": " ++ JsonValue.quote name ++ ",\n  \"line\": " ++ toString line ++
        ",\n  \"message\": " ++ JsonValue.quote message ++ ",\n  \"ok\": false\n\x7d\n" := by
  have outside : JsonValue.newline 0 = "\n" := rfl
  have inside : JsonValue.newline 1 = "\n  " := by decide
  have names : JsonValue.quote "kind" = "\"kind\"" ∧ JsonValue.quote "line" = "\"line\"" ∧
      JsonValue.quote "message" = "\"message\"" ∧ JsonValue.quote "ok" = "\"ok\"" := by decide
  simp only [document, JsonValue.pretty, JsonValue.render, JsonValue.renderFields, Nat.zero_add,
    outside, inside, names]
  simp [String.ext_iff]

end Report

/-! ## Runs -/

namespace Invocation

variable {invocation : Invocation} {around : Surroundings}

/-- The same request by another verb. -/
def byVerb (invocation : Invocation) (verb : Verb) : Invocation := { invocation with verb }

/-- JSON is asked for, by the arguments or by the settings. -/
def WantsJson (invocation : Invocation) (around : Surroundings) : Prop :=
  invocation.json = true ∨
    ∃ settings, Settings.InForce around invocation.config (.ok settings) ∧ settings.output = .json

/-- What a run reports on, for any verb. -/
def load (invocation : Invocation) (around : Surroundings) : Except Failure Selection :=
  ((Settings.ofSurroundings around invocation.config).mapError SettingsFault.failure) >>=
    fun settings => Selection.ofInvocation around settings invocation

theorem load_eq_error_iff {failure : Failure} :
    invocation.load around = .error failure ↔
      ∃ stage, invocation.FailsFirst around stage failure := by
  rw [← failsFrom_zero]
  apply bind_eq_error_iff .settings
  · intro other
    rw [← Settings.inForce_iff]
    constructor
    · intro refused
      obtain ⟨message, rfl⟩ := refused.exists_message
      exact .settings refused
    · intro fails
      cases fails with
      | settings refused => exact refused
  · intro settings passes
    exact ofInvocation_eq_error_iff (Settings.inForce_iff.2 passes)

theorem run_of_fault {fault : SettingsFault} (verb : Verb)
    (refused : Settings.ofSurroundings around invocation.config = .error fault) :
    (invocation.byVerb verb).run around = { output := "", failure := some fault.failure } := by
  have sameConfig : Settings.ofSurroundings around (invocation.byVerb verb).config = .error fault :=
    refused
  rw [run, sameConfig]

theorem run_of_loaded {settings : Settings} (verb : Verb)
    (loaded : Settings.ofSurroundings around invocation.config = .ok settings) :
    (invocation.byVerb verb).run around =
      match Selection.ofInvocation around settings invocation with
      | .ok selection =>
          { output := Report.text verb (invocation.printsJson settings) selection }
      | .error failure =>
          { output := Report.failureText verb (invocation.printsJson settings) failure
            failure := some failure } := by
  have sameConfig : Settings.ofSurroundings around (invocation.byVerb verb).config = .ok settings :=
    loaded
  rw [run, sameConfig]
  rfl

/-- A run fails as loading does. -/
theorem failure_eq_some_iff (verb : Verb) {failure : Failure} :
    ((invocation.byVerb verb).run around).failure = some failure ↔
      invocation.load around = .error failure := by
  cases loaded : Settings.ofSurroundings around invocation.config with
  | error fault =>
      rw [run_of_fault verb loaded, load, loaded]
      show some fault.failure = some failure ↔ Except.error fault.failure = Except.error failure
      rw [Option.some.injEq, Except.error.injEq]
  | ok settings =>
      rw [run_of_loaded verb loaded, load, loaded]
      show _ ↔ Selection.ofInvocation around settings invocation = .error failure
      cases Selection.ofInvocation around settings invocation <;> simp

theorem wantsJson_iff {settings : Settings}
    (loaded : Settings.ofSurroundings around invocation.config = .ok settings) :
    invocation.WantsJson around ↔ invocation.printsJson settings = true := by
  simp [WantsJson, Settings.inForce_ok_iff, loaded, printsJson]

/-- A run that fails prints nothing, unless it is a check in JSON of a diff that does not parse. -/
theorem output_of_failure (verb : Verb) {failure : Failure}
    (fails : ((invocation.byVerb verb).run around).failure = some failure)
    (silent : ¬ (verb = .check ∧ invocation.WantsJson around ∧
      ∃ diagnostic, failure = .parse diagnostic)) :
    ((invocation.byVerb verb).run around).output = "" := by
  cases loaded : Settings.ofSurroundings around invocation.config with
  | error fault => rw [run_of_fault verb loaded]
  | ok settings =>
      rw [wantsJson_iff loaded] at silent
      rw [run_of_loaded verb loaded] at fails ⊢
      cases selects : Selection.ofInvocation around settings invocation with
      | ok selection => rw [selects] at fails; cases fails
      | error reported =>
          rw [selects] at fails
          cases fails
          show Report.failureText verb (invocation.printsJson settings) failure = ""
          unfold Report.failureText
          split
          case h_1 diagnostic json => exact absurd ⟨rfl, json, diagnostic, rfl⟩ silent
          case h_2 => rfl

/-- A check in JSON of a diff that does not parse prints why it does not. -/
theorem output_of_refusal {kind : ParseErrorKind} {line : Nat} {message : String}
    (json : invocation.WantsJson around)
    (fails : ((invocation.byVerb .check).run around).failure =
      some (.parse { kind, line, message })) :
    ((invocation.byVerb .check).run around).output = Report.document (.object
      [("kind", .string kind.name), ("line", .number line), ("message", .string message),
        ("ok", .bool false)]) := by
  cases loaded : Settings.ofSurroundings around invocation.config with
  | error fault => rw [run_of_fault .check loaded] at fails; cases fails
  | ok settings =>
      rw [wantsJson_iff loaded] at json
      rw [run_of_loaded .check loaded, json] at fails ⊢
      cases selects : Selection.ofInvocation around settings invocation with
      | ok selection => rw [selects] at fails; cases fails
      | error reported =>
          rw [selects] at fails
          cases fails
          rfl

/-- **The first stage that fails decides how a run ends.** Every verb fails with what is wrong with
that stage, and every verb succeeds if there is none. The status of a failure is that of the stage.
A run that fails prints nothing, but for a check in JSON of a diff that does not parse: it prints an
object with the kind, the line and the message of the error. Settings that are in force allow some
input and never fail a run for their patterns, and input is read whole up to the limit. -/
theorem outcome_of_stages (invocation : Invocation) (around : Surroundings) :
    (∀ verb failure,
      ((invocation.byVerb verb).run around).failure = some failure ↔
        ∃ stage, invocation.FailsFirst around stage failure) ∧
    (∀ verb,
      ((invocation.byVerb verb).run around).exitCode = 0 ↔
        ((invocation.byVerb verb).run around).failure = none) ∧
    (∀ verb stage failure, invocation.FailsFirst around stage failure →
      ((invocation.byVerb verb).run around).exitCode = stage.exitCode ∧
      (∀ kind line message, failure = .parse { kind, line, message } → verb = .check →
        invocation.WantsJson around → ∃ name, (kind, name) ∈ Report.kindNames ∧
          ((invocation.byVerb verb).run around).output = Report.document (.object
            [("kind", .string name), ("line", .number line), ("message", .string message),
              ("ok", .bool false)]) ∧
          ((invocation.byVerb verb).run around).output =
            "\x7b\n  \"kind\": " ++ JsonValue.quote name ++
              ",\n  \"line\": " ++ toString line ++
              ",\n  \"message\": " ++ JsonValue.quote message ++
              ",\n  \"ok\": false\n\x7d\n") ∧
      (¬ (stage = .records ∧ verb = .check ∧ invocation.WantsJson around) →
        ((invocation.byVerb verb).run around).output = "")) ∧
    (∀ settings, Settings.InForce around invocation.config (.ok settings) →
      0 < settings.maxInputBytes ∧ settings.maxInputBytes < wordLimit ∧
        (invocation.patterns = [] → ∃ filter, invocation.restriction settings = .ok filter)) ∧
    (∀ name content limit, invocation.Supplies around name (.ok content) →
      content.length < wordLimit →
      invocation.readDiff around limit =
        if content.length ≤ limit then .ok content
        else .error (.user
          (name ++ " exceeds max_input_bytes (" ++ toString limit ++ " bytes)"))) := by
  have reports (verb : Verb) (failure : Failure) :
      ((invocation.byVerb verb).run around).failure = some failure ↔
        ∃ stage, invocation.FailsFirst around stage failure :=
    (failure_eq_some_iff verb).trans load_eq_error_iff
  refine ⟨reports, fun _ => Outcome.exitCode_eq_zero_iff, ?_, ?_, ?_⟩
  · intro verb stage failure first
    have fails := (reports verb failure).2 ⟨stage, first⟩
    refine ⟨?_, ?_, ?_⟩
    · rw [Outcome.exitCode, fails]
      exact first.1.exitCode_eq
    · rintro kind line message rfl rfl json
      have prints := output_of_refusal json fails
      refine ⟨kind.name, Report.mem_kindNames kind, prints, ?_⟩
      rw [prints, Report.document_refusal]
    · intro silent
      apply output_of_failure verb fails
      rintro ⟨isCheck, json, diagnostic, rfl⟩
      exact silent ⟨first.1.stage_eq_records, isCheck, json⟩
  · intro settings inForce
    have usable := inForce.usable
    exact ⟨usable.positive, usable.word, restriction_of_usable usable⟩
  · intro name content limit supplies fits
    rw [readDiff_of_supplies limit supplies, counted_of_length_lt fits]
    by_cases short : content.length ≤ limit
    · rw [if_neg (by omega), if_pos short]
    · rw [if_pos (by omega), if_neg short]

/-- The settings say JSON, and the second line of the input is refused. -/
theorem outcome_of_stages_malformed_mode :
    let asked : Invocation := { verb := .files, config := some "c.yaml" }
    let around : Surroundings :=
      { find := fun path =>
          if path = "c.yaml" then .file (Bytes.ofAscii "output: json\n") else .fault .missing
        stdin := Bytes.ofAscii "diff --git a/x b/x\nold mode 9\n"
        directory := "/" }
    let refused : Failure := .parse
      { kind := .malformedHeader, line := 2, message := "invalid old mode header 'old mode 9'" }
    asked.FailsFirst around .records refused ∧
    (∀ verb, ((asked.byVerb verb).run around).failure = some refused ∧
      ((asked.byVerb verb).run around).exitCode = 2 ∧
      (verb ≠ .check → ((asked.byVerb verb).run around).output = "")) ∧
    ((asked.byVerb .check).run around).output =
      "\x7b\n  \"kind\": \"malformed_header\",\n  \"line\": 2,\n" ++
        "  \"message\": \"invalid old mode header 'old mode 9'\",\n  \"ok\": false\n\x7d\n" ∧
    (∃ filter, asked.restriction { output := .json } = .ok filter) ∧
    asked.readDiff around 30 = .ok around.stdin ∧
    asked.readDiff around 29 = .error (.user "stdin exceeds max_input_bytes (29 bytes)") := by
  intro asked around refused
  obtain ⟨reports, -, ends, allows, whole⟩ := outcome_of_stages asked around
  have inForce : Settings.InForce around asked.config (.ok { output := .json }) := by
    have text : Bytes.ofAscii "output: json\n" = Bytes.ofString "output: json\n" := by
      decide +kernel
    have found : around.find "c.yaml" = .file (Bytes.ofString "output: json\n") :=
      congrArg Entry.file text
    refine .named ?_
    rw [found]
    exact .written (.text _) (.valid (by decide +kernel) (by decide) nofun)
  have json : asked.WantsJson around := .inr ⟨_, inForce, rfl⟩
  have supplies : asked.Supplies around "stdin" (.ok around.stdin) := .stdin nofun rfl
  have fails : ((asked.byVerb .check).run around).failure = some refused := by decide +kernel
  obtain ⟨stage, first⟩ := (reports .check refused).1 fails
  obtain rfl : stage = .records := first.1.stage_eq_records
  refine ⟨first, ?_, ?_, (allows _ inForce).2.2 rfl, ?_, ?_⟩
  · intro verb
    obtain ⟨status, -, silent⟩ := ends verb .records refused first
    exact ⟨(reports verb refused).2 ⟨.records, first⟩, status,
      fun other => silent fun ⟨_, isCheck, _⟩ => other isCheck⟩
  · obtain ⟨-, prints, -⟩ := ends .check .records refused first
    obtain ⟨name, named, -, output⟩ := prints .malformedHeader 2 _ rfl rfl json
    obtain rfl : name = "malformed_header" := by simpa [Report.kindNames] using named
    rw [output]
    decide +kernel
  · rw [whole "stdin" around.stdin 30 supplies (by decide +kernel)]
    decide +kernel
  · rw [whole "stdin" around.stdin 29 supplies (by decide +kernel)]
    decide +kernel

/-- Where several stages are wrong it is the first that counts. -/
example :
    let asked : Invocation :=
      { verb := .stats, format := some "svn", patterns := ["["], path := some "missing" }
    let around : Surroundings :=
      { find := fun _ => .fault .missing, stdin := [], directory := "/" }
    (asked.run around).failure =
      some (.user "unknown diff format 'svn' (expected git or unified)") := by
  decide +kernel

end Invocation

end DiffSections
