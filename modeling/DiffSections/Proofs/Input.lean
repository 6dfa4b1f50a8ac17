import DiffSections.Selection

/-!
# DiffSections.Proofs.Input -- the input that is read, and how much of it

The input is a file that is asked for or the standard input. A file that is locked or missing cannot
be opened; what is open has a name, and holds octets or cannot be read (`Invocation.Supplies`). It
is read whole or refused, by the length of what it holds (`Invocation.readDiff_of_supplies`).
-/

namespace DiffSections

set_option autoImplicit false

namespace Invocation

variable {invocation : Invocation} {around : Surroundings} {name path : String} {content : Bytes}
  {limit : Nat}

/-! ## What is asked for -/

/-- The paths that mean the standard input: `-`, also with slashes and single dots behind it. -/
def MeansStdin (path : String) : Prop :=
  ∃ rest, path.splitOn "/" = "-" :: rest ∧ ∀ segment ∈ rest, segment = "" ∨ segment = "."

/-- A file is asked for. -/
def AsksFor (invocation : Invocation) (path : String) : Prop :=
  invocation.path = some path ∧ ¬ MeansStdin path

/-- The input once it is open: how it is named, and what it holds or why it cannot be read. -/
inductive Supplies (invocation : Invocation) (around : Surroundings) :
    String → Except ReadFault Bytes → Prop
  | stdin (noFile : ∀ path, ¬ invocation.AsksFor path) (sound : around.stdinFault = none) :
      Supplies invocation around "stdin" (.ok around.stdin)
  | stdinFault {reason : ReadFault} (noFile : ∀ path, ¬ invocation.AsksFor path)
      (faulty : around.stdinFault = some reason) :
      Supplies invocation around "stdin" (.error reason)
  | file {path : String} {content : Bytes} (asked : invocation.AsksFor path)
      (found : around.find path = .file content) : Supplies invocation around path (.ok content)
  | broken {path : String} {reason : ReadFault} (asked : invocation.AsksFor path)
      (found : around.find path = .broken reason) : Supplies invocation around path (.error reason)
  | directory {path : String} (asked : invocation.AsksFor path)
      (found : around.find path = .directory) :
      Supplies invocation around path (.error (.system "Is a directory" 21))

theorem input?_eq_some_iff : invocation.input? = some path ↔ invocation.AsksFor path := by
  rw [input?, Option.filter_eq_some_iff, AsksFor]
  apply and_congr_right
  intro _
  split
  case h_1 rest splits => simp [MeansStdin, splits]
  case h_2 other =>
    have notDash : ¬ MeansStdin path := fun ⟨rest, splits, _⟩ => other rest splits
    simp [notDash]

theorem input?_eq_none_iff : invocation.input? = none ↔ ∀ path, ¬ invocation.AsksFor path := by
  simp only [Option.eq_none_iff_forall_ne_some, ne_eq, input?_eq_some_iff]

/-! ## Opening -/

theorem openInput_eq_ok_iff {content : Except ReadFault Bytes} :
    invocation.openInput around = .ok ⟨name, content⟩ ↔
      invocation.Supplies around name content := by
  constructor
  · intro opened
    unfold openInput at opened
    split at opened
    case h_1 noFile =>
      rw [input?_eq_none_iff] at noFile
      cases faulty : around.stdinFault with
      | none =>
          rw [faulty] at opened
          cases opened
          exact .stdin noFile faulty
      | some reason =>
          rw [faulty] at opened
          cases opened
          exact .stdinFault noFile faulty
    case h_2 path asked =>
      rw [input?_eq_some_iff] at asked
      split at opened
      case h_1 found =>
        cases opened
        exact .file asked found
      case h_2 found =>
        cases opened
        exact .directory asked found
      case h_3 found =>
        cases opened
        exact .broken asked found
      all_goals cases opened
  · intro supplies
    cases supplies with
    | stdin noFile faulty | stdinFault noFile faulty =>
        simp only [openInput, input?_eq_none_iff.2 noFile, faulty]
        rfl
    | file asked found | broken asked found =>
        simp only [openInput, input?_eq_some_iff.2 asked, found]
    | directory asked found =>
        simp only [openInput, input?_eq_some_iff.2 asked, found]
        rfl

theorem openInput_eq_error_iff {failure : Failure} :
    invocation.openInput around = .error failure ↔
      ∃ path reason, invocation.AsksFor path ∧
        (around.find path = .fault reason ∨ around.find path = .locked reason) ∧
        failure = .user ("failed to open '" ++ path ++ "': " ++ reason.message) := by
  constructor
  · intro refused
    unfold openInput at refused
    split at refused
    case h_1 => cases refused
    case h_2 path asked =>
      rw [input?_eq_some_iff] at asked
      split at refused
      case h_4 reason found =>
        cases refused
        exact ⟨path, reason, asked, .inr found, rfl⟩
      case h_5 reason found =>
        cases refused
        exact ⟨path, reason, asked, .inl found, rfl⟩
      all_goals cases refused
  · rintro ⟨path, reason, asked, found, rfl⟩
    rw [← input?_eq_some_iff] at asked
    obtain found | found := found <;> simp only [openInput, asked, found] <;> rfl

/-- There is one input. -/
theorem Supplies.unique {other : String} {held held' : Except ReadFault Bytes}
    (supplies : invocation.Supplies around name held)
    (supplies' : invocation.Supplies around other held') : name = other ∧ held = held' := by
  rw [← openInput_eq_ok_iff] at supplies supplies'
  cases supplies.symm.trans supplies'
  exact ⟨rfl, rfl⟩

/-! ## Reading -/

/-- What of some content a word can count: all of it, where lengths are words. -/
def counted (content : Bytes) : Bytes := content.take (wordLimit - 1)

theorem counted_of_length_lt (fits : content.length < wordLimit) : counted content = content :=
  List.take_of_length_le (by omega)

/-- **An input is read whole or refused**, by its length. One octet more than the limit is asked
for, which is enough: what is read is longer than the limit if what is there is, and else it is all
of that. -/
theorem readDiff_of_supplies (limit : Nat)
    (supplies : invocation.Supplies around name (.ok content)) :
    invocation.readDiff around limit =
      if limit < (counted content).length then
        .error (.user (name ++ " exceeds max_input_bytes (" ++ toString limit ++ " bytes)"))
      else .ok (counted content) := by
  have longer : limit < (content.take (Source.window limit)).length ↔
      limit < (counted content).length := by
    simp only [counted, Source.window, List.length_take]
    omega
  rw [readDiff, openInput_eq_ok_iff.2 supplies]
  show Source.read ⟨name, .ok content⟩ limit = _
  simp only [Source.read, longer]
  by_cases exceeds : limit < (counted content).length
  case pos =>
    rw [if_pos exceeds, if_pos exceeds]
    rfl
  case neg =>
    rw [if_neg exceeds, if_neg exceeds]
    congr 1
    apply List.take_eq_take_iff.2
    simp only [counted, Source.window, List.length_take] at exceeds ⊢
    omega

theorem readDiff_of_broken {reason : ReadFault}
    (supplies : invocation.Supplies around name (.error reason)) :
    invocation.readDiff around limit =
      .error (.user ("failed to read " ++ name ++ ": " ++ reason.message)) := by
  rw [readDiff, openInput_eq_ok_iff.2 supplies]
  rfl

/-- Input that was read is all there is of it. -/
theorem exists_supplies_of_readDiff {data : Bytes}
    (reads : invocation.readDiff around limit = .ok data) :
    ∃ name content, invocation.Supplies around name (.ok content) ∧ data = counted content := by
  cases opened : invocation.openInput around with
  | error reported =>
      rw [readDiff, opened] at reads
      cases reads
  | ok source =>
      obtain ⟨name, content⟩ := source
      rw [openInput_eq_ok_iff] at opened
      cases content with
      | error reason =>
          rw [readDiff_of_broken opened] at reads
          cases reads
      | ok content =>
          rw [readDiff_of_supplies limit opened] at reads
          split at reads
          · cases reads
          · cases reads
            exact ⟨name, content, opened, rfl⟩

end Invocation

end DiffSections
