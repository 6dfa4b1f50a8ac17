import DiffSections.Proofs.Header.Effect
import DiffSections.Proofs.Loop.Builder
import DiffSections.Proofs.Reader.Faults

/-!
# DiffSections.Proofs.Header.Edit -- headers are applied whole or not at all

`Header.addTo` takes facts to facts, so a header that is refused has changed nothing. Here a header
is applied to the section in hand instead, check by check and change by change (`Header.apply`): a
refusal ends this where it stands, and what was changed up to there stays changed. Still a refused
header has changed nothing (`result_apply`), for its checks come first.

Headers are applied in their order, each with the number of its line, up to the first that is
refused (`applyAll`). To a new section all of them are applied unless one deletes the file and
another one creates, renames or copies it, and then the section says what they say together
(`SaidBy`). Otherwise it is left as the headers before the refused one made it
(`result_applyAll_fresh`).
-/

namespace DiffSections

set_option autoImplicit false

namespace FileFacts

def info (facts : FileFacts) : Side → Option String
  | .orig => facts.origInfo
  | .new => facts.newInfo

/-- Set the info of a side, unless it is known. -/
def offerInfo (facts : FileFacts) (info : String) : Side → FileFacts
  | .orig => { facts with origInfo := facts.origInfo <|> some info }
  | .new => { facts with newInfo := facts.newInfo <|> some info }

end FileFacts

/-! ## Edits -/

/-- Changes to the section in hand, up to the first refusal. -/
abbrev Edit := ExceptT ParseError (StateM Builder)

namespace Edit

/-- Whether an edit goes through, and the section that it leaves behind. -/
def result {α : Type} (edit : Edit α) (builder : Builder) : Except ParseError α × Builder :=
  Id.run ((ExceptT.run edit).run builder)

def facts : Edit FileFacts := return (← get).toFileFacts

/-- Refuse what the facts contradict. -/
def refuseIf (contradict : FileFacts → Bool) (fault : FileFacts → Fault) (number : Nat) :
    Edit Unit := do
  let facts ← facts
  if contradict facts then throw ⟨fault facts, number⟩

def change (step : FileFacts → FileFacts) : Edit Unit :=
  modify fun builder => builder.withFacts (step builder.toFileFacts)

/-- Set the info of a side, unless it is known. -/
def offerInfo (info : String) (side : Side) : Edit Unit := do
  if ((← facts).info side).isNone then change (·.setInfo info side)

variable {α β : Type} (builder : Builder)

@[simp] theorem result_pure (value : α) :
    (pure value : Edit α).result builder = (.ok value, builder) := rfl

/-- An edit goes on with what the one before it left behind, unless that one was refused. -/
theorem result_bind (edit : Edit α) (next : α → Edit β) :
    (edit >>= next).result builder = match edit.result builder with
      | (.ok value, left) => (next value).result left
      | (.error error, left) => (.error error, left) := by
  unfold result ExceptT.run StateT.run Id.run
  simp only [bind, ExceptT.bind, ExceptT.mk, StateT.bind, ExceptT.bindCont]
  cases edit builder with
  | mk outcome left => cases outcome <;> rfl

@[simp] theorem result_facts : facts.result builder = (.ok builder.toFileFacts, builder) := rfl

@[simp] theorem result_change (step : FileFacts → FileFacts) :
    (change step).result builder = (.ok (), builder.withFacts (step builder.toFileFacts)) := rfl

theorem result_refuseIf (contradict : FileFacts → Bool) (fault : FileFacts → Fault)
    (number : Nat) :
    (refuseIf contradict fault number).result builder =
      (if contradict builder.toFileFacts then .error ⟨fault builder.toFileFacts, number⟩
        else .ok (), builder) := by
  rw [refuseIf, result_bind, result_facts]
  cases bad : contradict builder.toFileFacts
  · simp [bad]
  · simp only [bad, if_true]
    rfl

theorem result_offerInfo (info : String) (side : Side) :
    (offerInfo info side).result builder =
      (.ok (), builder.withFacts (builder.toFileFacts.offerInfo info side)) := by
  rw [offerInfo, result_bind, result_facts]
  obtain ⟨⟨_, _, origInfo, newInfo, _⟩, _⟩ := builder
  cases side with
  | orig => cases origInfo <;> rfl
  | new => cases newInfo <;> rfl

end Edit

namespace Header

/-- Apply a header to the section in hand. -/
def apply (header : Header) (number : Nat) : Edit Unit := do
  match header with
  | .newFileMode mode =>
      Edit.refuseIf (·.deleted) (fun facts => .createdAndDeleted facts.newPath) number
      Edit.change fun facts => { facts with created := true }
      Edit.change (·.setMode mode .new)
      Edit.change (·.setInfo FileFacts.createdInfo .orig)
  | .deletedFileMode mode =>
      Edit.refuseIf (·.created) (fun facts => .createdAndDeleted facts.origPath) number
      Edit.refuseIf (·.movedOrCopied) (fun facts => .deletedAndMoved facts.origPath) number
      Edit.change fun facts => { facts with deleted := true }
      Edit.change (·.setMode mode .orig)
  | .oldMode mode => Edit.change (·.setMode mode .orig)
  | .newMode mode => Edit.change (·.setMode mode .new)
  | .similarityIndex percent =>
      Edit.change fun facts => { facts with similarity := some percent }
  | .dissimilarityIndex percent =>
      Edit.change fun facts => { facts with dissimilarity := some percent }
  | .renameFrom path => relocateBy (·.noteRename path .orig)
  | .renameTo path => relocateBy (·.noteRename path .new)
  | .copyFrom path => relocateBy (·.noteCopy path .orig)
  | .copyTo path => relocateBy (·.noteCopy path .new)
  | .index orig new mode =>
      Edit.offerInfo orig .orig
      Edit.offerInfo new .new
      Edit.change fun facts => { facts with origBlob := some orig, newBlob := some new }
      if let some mode := mode then Edit.change (·.offerMode mode)
where
  /-- What rename and copy lines do, unless the file is deleted. -/
  relocateBy (step : FileFacts → FileFacts) : Edit Unit := do
    Edit.refuseIf (·.deleted) (fun facts => .deletedAndMoved facts.origPath) number
    Edit.change step

theorem result_relocateBy (number : Nat) (step : FileFacts → FileFacts) (builder : Builder) :
    (apply.relocateBy number step).result builder =
      match relocate builder.toFileFacts (step builder.toFileFacts) with
      | .ok facts => (.ok (), builder.withFacts facts)
      | .error fault => (.error ⟨fault, number⟩, builder) := by
  rw [apply.relocateBy, Edit.result_bind, Edit.result_refuseIf, relocate]
  cases builder.deleted <;> simp

/-- **A header is applied whole, or refused and nothing is changed.** -/
theorem result_apply (header : Header) (number : Nat) (builder : Builder) :
    (header.apply number).result builder =
      match header.addTo builder.toFileFacts with
      | .ok facts => (.ok (), builder.withFacts facts)
      | .error fault => (.error ⟨fault, number⟩, builder) := by
  cases header with
  | renameFrom | renameTo | copyFrom | copyTo => exact result_relocateBy number _ builder
  | oldMode | newMode | similarityIndex | dissimilarityIndex => rfl
  | newFileMode mode =>
      simp only [apply, Edit.result_bind, Edit.result_refuseIf, addTo]
      by_cases deleted : builder.deleted = true
      · simp only [if_pos deleted]
      · simp only [if_neg deleted]
        rfl
  | deletedFileMode mode =>
      simp only [apply, Edit.result_bind, Edit.result_refuseIf, addTo]
      by_cases created : builder.created = true
      · simp only [if_pos created]
      · by_cases moved : builder.movedOrCopied = true
        · simp only [if_neg created, if_pos moved]
        · simp only [if_neg created, if_neg moved]
          rfl
  | index orig new mode =>
      simp only [apply, Edit.result_bind, Edit.result_offerInfo, Edit.result_change, addTo]
      cases mode <;> rfl

/-! ## Headers one after the other -/

/-- Apply headers in their order, each with the number of its line, up to the first refusal. -/
def applyAll : List (Header × Nat) → Edit Unit
  | [] => pure ()
  | (header, number) :: lines => do
      header.apply number
      applyAll lines

theorem result_applyAll_cons {header : Header} {number : Nat} {builder : Builder}
    {next : FileFacts} (adds : header.addTo builder.toFileFacts = .ok next)
    (lines : List (Header × Nat)) :
    (applyAll ((header, number) :: lines)).result builder =
      (applyAll lines).result (builder.withFacts next) := by
  rw [applyAll, Edit.result_bind, result_apply, adds]

theorem result_applyAll_cons_of_refused {header : Header} {number : Nat} {builder : Builder}
    {fault : Fault} (refused : header.addTo builder.toFileFacts = .error fault)
    (lines : List (Header × Nat)) :
    (applyAll ((header, number) :: lines)).result builder = (.error ⟨fault, number⟩, builder) := by
  rw [applyAll, Edit.result_bind, result_apply, refused]

theorem addAll_cons_of_ok {header : Header} {headers : List Header} {facts next : FileFacts}
    (adds : header.addTo facts = .ok next) :
    addAll (header :: headers) facts = addAll headers next := by
  rw [addAll, List.foldlM_cons, adds]
  rfl

theorem addAll_cons_of_error {header : Header} {headers : List Header} {facts : FileFacts}
    {fault : Fault} (refused : header.addTo facts = .error fault) :
    addAll (header :: headers) facts = .error fault := by
  rw [addAll, List.foldlM_cons, refused]
  rfl

/-- All headers are applied if all of them can be added to the facts. -/
theorem result_applyAll_of_ok {lines : List (Header × Nat)} {builder : Builder}
    {added : FileFacts} (adds : addAll (lines.map (·.1)) builder.toFileFacts = .ok added) :
    (applyAll lines).result builder = (.ok (), builder.withFacts added) := by
  induction lines generalizing builder with
  | nil =>
      cases adds
      rfl
  | cons line lines ih =>
      obtain ⟨next, first, later⟩ := addAll_cons_eq_ok adds
      rw [result_applyAll_cons first]
      exact ih (show addAll _ (builder.withFacts next).toFileFacts = _ from later)

/-- If not all headers can be added, then there is a first one that cannot: those before it are
applied, and it is not. -/
theorem exists_refused_of_error {lines : List (Header × Nat)} {builder : Builder} {fault : Fault}
    (refused : addAll (lines.map (·.1)) builder.toFileFacts = .error fault) :
    ∃ before header number after added,
      lines = before ++ (header, number) :: after ∧
      addAll (before.map (·.1)) builder.toFileFacts = .ok added ∧
      header.addTo added = .error fault ∧
      (applyAll lines).result builder = (.error ⟨fault, number⟩, builder.withFacts added) := by
  induction lines generalizing builder with
  | nil => cases refused
  | cons line lines ih =>
      obtain ⟨header, number⟩ := line
      cases first : header.addTo builder.toFileFacts with
      | error firstFault =>
          rw [List.map_cons, addAll_cons_of_error first] at refused
          cases refused
          exact ⟨[], header, number, lines, builder.toFileFacts, rfl, rfl, first,
            result_applyAll_cons_of_refused first lines⟩
      | ok next =>
          rw [List.map_cons, addAll_cons_of_ok first] at refused
          obtain ⟨before, refusedHeader, line, after, added, rfl, adds, isRefused, leaves⟩ :=
            ih (show addAll _ (builder.withFacts next).toFileFacts = _ from refused)
          refine ⟨(header, number) :: before, refusedHeader, line, after, added, rfl, ?_,
            isRefused, ?_⟩
          · exact addAll_cons_eq_ok_iff.2 ⟨next, first, adds⟩
          · rw [result_applyAll_cons first]
            exact leaves

/-! ## What headers say together -/

/-- The mode that a header gives, whatever the sides it is for. -/
def mode? : Header → Option String
  | .newFileMode mode | .deletedFileMode mode | .oldMode mode | .newMode mode => some mode
  | .index _ _ mode => mode
  | _ => none

/-- The headers say both that the file is deleted, and that it is new or comes from elsewhere. -/
def Contradictory (headers : List Header) : Prop :=
  let kinds := headers.map kind
  .deletedFileMode ∈ kinds ∧
    (.newFileMode ∈ kinds ∨ .renameFrom ∈ kinds ∨ .renameTo ∈ kinds ∨ .copyFrom ∈ kinds ∨
      .copyTo ∈ kinds)

/-- What headers say of a file with these paths. -/
structure SaidBy (headers : List Header) (orig new : String) (facts : FileFacts) : Prop where
  created : facts.created = true ↔ .newFileMode ∈ headers.map kind
  deleted : facts.deleted = true ↔ .deletedFileMode ∈ headers.map kind
  moved : facts.moved = true ↔ .renameFrom ∈ headers.map kind ∧ .renameTo ∈ headers.map kind
  copied : facts.copied = true ↔ .copyFrom ∈ headers.map kind ∧ .copyTo ∈ headers.map kind
  origPath : facts.origPath = (headers.filterMap origPath?).getLast?.getD orig
  newPath : facts.newPath = (headers.filterMap newPath?).getLast?.getD new
  /-- A new file has no old id. -/
  origInfo : facts.origInfo =
    if .newFileMode ∈ headers.map kind then some FileFacts.createdInfo
    else (headers.filterMap origId?).head?
  newInfo : facts.newInfo = (headers.filterMap newId?).head?
  origBlob : facts.origBlob = (headers.filterMap origId?).getLast?
  newBlob : facts.newBlob = (headers.filterMap newId?).getLast?
  similarity : facts.similarity = (headers.filterMap similarity?).getLast?
  dissimilarity : facts.dissimilarity = (headers.filterMap dissimilarity?).getLast?
  symlink : facts.symlink = true ↔ ∃ header ∈ headers, header.mode? = some FileFacts.linkMode
  binary : facts.binary = false

section SaidTogether

variable (headers : List Header)

/-- A flag that all headers of one kind raise, and no other header. -/
theorem any_eq_true_iff {raises : Header → Bool} {kind : HeaderKind}
    (each : ∀ header : Header, raises header = (header.kind == kind)) :
    headers.any raises = true ↔ kind ∈ headers.map Header.kind := by
  rw [List.any_eq_true, List.mem_map]
  simp only [each, beq_iff_eq]

theorem any_kind_iff (kind : HeaderKind) :
    (headers.any fun header => header.kind == kind) = true ↔ kind ∈ headers.map Header.kind :=
  any_eq_true_iff headers fun _ => rfl

theorem any_deletes_iff : headers.any deletes = true ↔ .deletedFileMode ∈ headers.map kind :=
  any_eq_true_iff headers fun header => by cases header <;> rfl

theorem any_creates_iff : headers.any creates = true ↔ .newFileMode ∈ headers.map kind :=
  any_eq_true_iff headers fun header => by cases header <;> rfl

theorem any_places_iff : headers.any places = true ↔
    .newFileMode ∈ headers.map kind ∨ .renameFrom ∈ headers.map kind ∨
      .renameTo ∈ headers.map kind ∨ .copyFrom ∈ headers.map kind ∨
      .copyTo ∈ headers.map kind := by
  have each (header : Header) : header.places =
      (header.kind == .newFileMode || (header.kind == .renameFrom || (header.kind == .renameTo ||
        (header.kind == .copyFrom || header.kind == .copyTo)))) := by
    cases header <;> rfl
  simp only [List.any_eq_true, each, Bool.or_eq_true, beq_iff_eq, and_or_left, exists_or,
    List.mem_map]

theorem contradictory_iff :
    Contradictory headers ↔ (headers.any deletes && headers.any places) = true := by
  rw [Bool.and_eq_true, any_deletes_iff, any_places_iff]
  rfl

theorem links_iff (header : Header) :
    header.links = true ↔ header.mode? = some FileFacts.linkMode := by
  cases header with
  | index orig new mode => cases mode <;> simp [links, mode?, oldMode?, newMode?, sharedMode?]
  | _ => simp [links, mode?, oldMode?, newMode?, sharedMode?]

/-- Headers that are added one after the other say this together. -/
theorem saidBy_effects (orig new : String) :
    SaidBy headers orig new (effects headers (Dialect.factsOfPaths orig new)) where
  created := by rw [created_effects, ← any_creates_iff]; rfl
  deleted := by rw [deleted_effects, ← any_deletes_iff]; rfl
  moved := by
    obtain ⟨raisedFrom, raisedTo, -, -⟩ :=
      relocation_effects headers (Dialect.factsOfPaths orig new)
    rw [FileFacts.moved, raisedFrom, raisedTo, Bool.and_eq_true, ← any_kind_iff, ← any_kind_iff]
    rfl
  copied := by
    obtain ⟨-, -, raisedFrom, raisedTo⟩ :=
      relocation_effects headers (Dialect.factsOfPaths orig new)
    rw [FileFacts.copied, raisedFrom, raisedTo, Bool.and_eq_true, ← any_kind_iff, ← any_kind_iff]
    rfl
  origPath := origPath_effects headers _
  newPath := newPath_effects headers _
  origInfo := by
    simp only [origInfo_effects, any_creates_iff]
    rfl
  newInfo := newInfo_effects headers _
  origBlob := (origBlob_effects headers _).trans (Option.or_none)
  newBlob := (newBlob_effects headers _).trans (Option.or_none)
  similarity := (similarity_effects headers _).trans (Option.or_none)
  dissimilarity := (dissimilarity_effects headers _).trans (Option.or_none)
  symlink := by
    rw [symlink_effects]
    simp only [Dialect.factsOfPaths, Bool.false_or, List.any_eq_true, links_iff]
  binary := binary_effects headers _

end SaidTogether

/-- Headers can be added to the facts of a new section unless they contradict each other. -/
theorem addAll_factsOfPaths_iff {headers : List Header} {orig new : String} {added : FileFacts} :
    addAll headers (Dialect.factsOfPaths orig new) = .ok added ↔
      ¬ Contradictory headers ∧ effects headers (Dialect.factsOfPaths orig new) = added := by
  have clear : ((Dialect.factsOfPaths orig new).deleted &&
      (Dialect.factsOfPaths orig new).placed) = false := rfl
  rw [addAll_eq_ok_iff clear, contradictory_iff, Bool.not_eq_true, deleted_effects,
    placed_effects]
  rfl

/-- **Headers are applied to a new section up to the first that is refused, in any order and with
any repetition.** If none is refused, then they do not contradict each other and the section says
what they say together. If one is, then they do; it is reported as malformed with the number of its
own line, and the section is left as the headers before it made it. -/
theorem result_applyAll_fresh (lines : List (Header × Nat)) (orig new : String) :
    let headers := lines.map (·.1)
    let fresh := Builder.ofFacts (Dialect.factsOfPaths orig new)
    match (applyAll lines).result fresh with
    | (.ok (), builder) =>
        ¬ Contradictory headers ∧ addAll headers fresh.toFileFacts = .ok builder.toFileFacts ∧
          SaidBy headers orig new builder.toFileFacts ∧
          builder = fresh.withFacts builder.toFileFacts
    | (.error error, builder) =>
        Contradictory headers ∧ addAll headers fresh.toFileFacts = .error error.fault ∧
          error.fault.kind = .malformedHeader ∧
          ∃ before header after, lines = before ++ (header, error.line) :: after ∧
            (applyAll before).result fresh = (.ok (), builder) ∧
            (header.apply error.line).result builder = (.error error, builder) := by
  intro headers fresh
  cases adds : addAll headers fresh.toFileFacts with
  | ok added =>
      obtain ⟨fits, rfl⟩ := addAll_factsOfPaths_iff.1 adds
      rw [result_applyAll_of_ok adds]
      exact ⟨fits, rfl, saidBy_effects headers orig new, rfl⟩
  | error fault =>
      have contradict : Contradictory headers := by
        by_contra fits
        have accepted : addAll headers fresh.toFileFacts = .ok _ :=
          addAll_factsOfPaths_iff.2 ⟨fits, rfl⟩
        rw [adds] at accepted
        cases accepted
      obtain ⟨before, header, number, after, added, split, earlier, refused, leaves⟩ :=
        exists_refused_of_error adds
      rw [leaves]
      refine ⟨contradict, rfl, kind_of_addTo refused, before, header, after, split,
        result_applyAll_of_ok earlier, ?_⟩
      have alone := result_apply header number (fresh.withFacts added)
      rw [show header.addTo (fresh.withFacts added).toFileFacts = .error fault from refused]
        at alone
      exact alone

end Header

end DiffSections
