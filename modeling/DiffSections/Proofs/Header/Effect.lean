import DiffSections.Proofs.Header

/-!
# DiffSections.Proofs.Header.Effect -- what a list of headers says about a file

A header is refused by the facts it contradicts: a deleted file is not new and comes from nowhere
else. All other headers have an effect (`Header.effect`), so a list of headers is accepted unless it
says both, and then adds the effects one after the other (`addAll_eq_ok_iff`).

Each effect sets some facts and leaves the others alone. What a whole list says is therefore found
fact by fact: a path is the last one that is given (`last_effects`), an info the first one
(`first_effects`), a flag is raised by any header that raises it (`any_effects`).
-/

namespace DiffSections

set_option autoImplicit false

/-- Whether the file is said to be new, or to come from another place. -/
def FileFacts.placed (facts : FileFacts) : Bool := facts.created || facts.movedOrCopied

namespace Header

/-! ## One header -/

/-- What a header makes of the facts of its file, if they do not contradict it. -/
def effect (header : Header) (facts : FileFacts) : FileFacts :=
  match header with
  | .newFileMode mode =>
      ({ facts with created := true }.setMode mode .new).setInfo FileFacts.createdInfo .orig
  | .deletedFileMode mode => { facts with deleted := true }.setMode mode .orig
  | .oldMode mode => facts.setMode mode .orig
  | .newMode mode => facts.setMode mode .new
  | .similarityIndex percent => { facts with similarity := some percent }
  | .dissimilarityIndex percent => { facts with dissimilarity := some percent }
  | .renameFrom path => facts.noteRename path .orig
  | .renameTo path => facts.noteRename path .new
  | .copyFrom path => facts.noteCopy path .orig
  | .copyTo path => facts.noteCopy path .new
  | .index orig new mode =>
      { facts with
        origInfo := facts.origInfo.or (some orig)
        newInfo := facts.newInfo.or (some new)
        origBlob := some orig
        newBlob := some new
        symlink := facts.symlink || mode.any (· == FileFacts.linkMode)
        modes := facts.modes.or (mode.map fun mode => ⟨some mode, some mode⟩) }

/-- Whether a header says that the file is deleted. -/
def deletes : Header → Bool
  | .deletedFileMode _ => true
  | _ => false

/-- Whether a header says that the file is new, or comes from another place. -/
def places : Header → Bool
  | .newFileMode _ => true
  | header => header.relocates

/-- **A header is refused exactly by the facts it contradicts.** -/
theorem addTo_eq_ok_iff {header : Header} {facts added : FileFacts} :
    header.addTo facts = .ok added ↔
      (header.deletes = true → facts.placed = false) ∧
      (header.places = true → facts.deleted = false) ∧ header.effect facts = added := by
  cases header with
  | newFileMode mode =>
      cases deleted : facts.deleted <;> simp [addTo, deletes, places, deleted, effect]
  | deletedFileMode mode =>
      cases created : facts.created <;> cases moved : facts.movedOrCopied <;>
        simp [addTo, deletes, places, relocates, FileFacts.placed, created, moved, effect]
  | renameFrom | renameTo | copyFrom | copyTo =>
      cases deleted : facts.deleted <;>
        simp [addTo, relocate, deletes, places, relocates, deleted, effect]
  | oldMode | newMode | similarityIndex | dissimilarityIndex =>
      simp [addTo, deletes, places, relocates, effect]
  | index orig new mode =>
      cases mode <;>
        simp [addTo, deletes, places, relocates, effect, FileFacts.offerMode, FileFacts.noteLink]

theorem deleted_effect (header : Header) (facts : FileFacts) :
    (header.effect facts).deleted = (facts.deleted || header.deletes) := by
  cases header with
  | deletedFileMode => exact (Bool.or_true _).symm
  | _ => exact (Bool.or_false _).symm

theorem placed_effect (header : Header) (facts : FileFacts) :
    (header.effect facts).placed = (facts.placed || header.places) := by
  cases header with
  | newFileMode => exact (Bool.or_true _).symm
  | renameFrom | renameTo | copyFrom | copyTo =>
      simp [effect, FileFacts.placed, FileFacts.movedOrCopied, FileFacts.noteRename,
        FileFacts.noteCopy, places, relocates]
  | _ => exact (Bool.or_false _).symm

/-! ## A list of headers -/

/-- What headers make of the facts of their file, one after the other. -/
def effects (headers : List Header) (facts : FileFacts) : FileFacts :=
  headers.foldl (fun facts header => header.effect facts) facts

@[simp] theorem effects_nil (facts : FileFacts) : effects [] facts = facts := rfl

@[simp] theorem effects_cons (header : Header) (headers : List Header) (facts : FileFacts) :
    effects (header :: headers) facts = effects headers (header.effect facts) := rfl

theorem addAll_nil (facts : FileFacts) : addAll [] facts = .ok facts := rfl

theorem addAll_cons_eq_ok_iff {header : Header} {headers : List Header} {facts added : FileFacts} :
    addAll (header :: headers) facts = .ok added ↔
      ∃ next, header.addTo facts = .ok next ∧ addAll headers next = .ok added := by
  refine ⟨addAll_cons_eq_ok, ?_⟩
  rintro ⟨next, first, later⟩
  rw [addAll, List.foldlM_cons, first]
  exact later

section Folds

variable {α : Type} (headers : List Header) (facts : FileFacts)

theorem getLast?_filterMap_cons (gives : Header → Option α) (header : Header) :
    ((header :: headers).filterMap gives).getLast? =
      (headers.filterMap gives).getLast?.or (gives header) := by
  cases given : gives header with
  | none =>
      rw [List.filterMap_cons_none given, Option.or_none]
  | some value =>
      rw [List.filterMap_cons_some given, List.getLast?_cons]
      cases (headers.filterMap gives).getLast? <;> rfl

/-- Where each header that says something has the last word, the last one has it. -/
theorem last_effects (get : FileFacts → Option α) (gives : Header → Option α)
    (each : ∀ header facts, get (header.effect facts) = (gives header).or (get facts)) :
    get (effects headers facts) = (headers.filterMap gives).getLast?.or (get facts) := by
  induction headers generalizing facts with
  | nil => rfl
  | cons header headers ih => rw [effects_cons, ih, each, getLast?_filterMap_cons, Option.or_assoc]

/-- Where what is known stays, the first header that says something is heard. -/
theorem first_effects (get : FileFacts → Option α) (gives : Header → Option α)
    (each : ∀ header facts, get (header.effect facts) = (get facts).or (gives header)) :
    get (effects headers facts) = (get facts).or (headers.filterMap gives).head? := by
  induction headers generalizing facts with
  | nil => cases known : get facts <;> simp [known]
  | cons header headers ih =>
      rw [effects_cons, ih, each]
      cases known : get facts <;> cases given : gives header <;> simp [given]

/-- A flag that is never lowered is up if some header raises it. -/
theorem any_effects (get : FileFacts → Bool) (raises : Header → Bool)
    (each : ∀ header facts, get (header.effect facts) = (get facts || raises header)) :
    get (effects headers facts) = (get facts || headers.any raises) := by
  induction headers generalizing facts with
  | nil => simp
  | cons header headers ih => rw [effects_cons, ih, each, List.any_cons, Bool.or_assoc]

end Folds

theorem deleted_effects (headers : List Header) (facts : FileFacts) :
    (effects headers facts).deleted = (facts.deleted || headers.any deletes) :=
  any_effects headers facts _ _ deleted_effect

theorem placed_effects (headers : List Header) (facts : FileFacts) :
    (effects headers facts).placed = (facts.placed || headers.any places) :=
  any_effects headers facts _ _ placed_effect

/-- No header says both. -/
theorem places_of_deletes {header : Header} (deletes : header.deletes = true) :
    header.places = false := by
  cases header with
  | deletedFileMode => rfl
  | _ => cases deletes

/-- A header is accepted unless the file is then both deleted and new or from another place. -/
theorem addTo_eq_ok_iff_of_clear {header : Header} {facts added : FileFacts}
    (clear : (facts.deleted && facts.placed) = false) :
    header.addTo facts = .ok added ↔
      ((header.effect facts).deleted && (header.effect facts).placed) = false ∧
        header.effect facts = added := by
  have one : header.deletes = true → header.places = false := places_of_deletes
  rw [addTo_eq_ok_iff, ← and_assoc, deleted_effect, placed_effect]
  refine and_congr_left fun _ => ?_
  cases deleted : facts.deleted <;> cases placed : facts.placed <;>
    cases deletes : header.deletes <;> cases places : header.places <;> simp_all

/-- **Headers are accepted unless they say both that the file is deleted and that it is new or comes
from another place**; then each has its effect. -/
theorem addAll_eq_ok_iff {headers : List Header} {facts added : FileFacts}
    (clear : (facts.deleted && facts.placed) = false) :
    addAll headers facts = .ok added ↔
      ((effects headers facts).deleted && (effects headers facts).placed) = false ∧
        effects headers facts = added := by
  induction headers generalizing facts with
  | nil => simp [addAll_nil, clear]
  | cons header headers ih =>
      simp only [addAll_cons_eq_ok_iff, addTo_eq_ok_iff_of_clear clear, effects_cons]
      cases fits : (header.effect facts).deleted && (header.effect facts).placed with
      | false => simp [ih fits]
      | true =>
          -- What one header contradicts stays contradicted.
          have stays : ((effects headers (header.effect facts)).deleted &&
              (effects headers (header.effect facts)).placed) = true := by
            rw [Bool.and_eq_true] at fits ⊢
            simp [deleted_effects, placed_effects, fits.1, fits.2]
          simp [stays]

/-! ## What a list of headers says -/

/-- The old path that a header gives. -/
def origPath? : Header → Option String
  | .renameFrom path | .copyFrom path => some path
  | _ => none

def newPath? : Header → Option String
  | .renameTo path | .copyTo path => some path
  | _ => none

def origId? : Header → Option String
  | .index orig _ _ => some orig
  | _ => none

def newId? : Header → Option String
  | .index _ new _ => some new
  | _ => none

def similarity? : Header → Option Nat
  | .similarityIndex percent => some percent
  | _ => none

def dissimilarity? : Header → Option Nat
  | .dissimilarityIndex percent => some percent
  | _ => none

/-- The mode that a header gives to the old side alone. -/
def oldMode? : Header → Option String
  | .oldMode mode | .deletedFileMode mode => some mode
  | _ => none

def newMode? : Header → Option String
  | .newMode mode | .newFileMode mode => some mode
  | _ => none

/-- The mode that a header gives to both sides. -/
def sharedMode? : Header → Option String
  | .index _ _ mode => mode
  | _ => none

def creates : Header → Bool
  | .newFileMode _ => true
  | _ => false

/-- Whether a header gives the mode of a link. -/
def links (header : Header) : Bool :=
  ((header.oldMode?.or header.newMode?).or header.sharedMode?).any (· == FileFacts.linkMode)

section Facts

variable (headers : List Header) (facts : FileFacts)

theorem origPath_effects : (effects headers facts).origPath =
    (headers.filterMap origPath?).getLast?.getD facts.origPath := by
  have last := last_effects headers facts (fun facts => some facts.origPath) origPath?
    fun header facts => by cases header <;> rfl
  cases given : (headers.filterMap origPath?).getLast? <;> simpa [given] using last

theorem newPath_effects : (effects headers facts).newPath =
    (headers.filterMap newPath?).getLast?.getD facts.newPath := by
  have last := last_effects headers facts (fun facts => some facts.newPath) newPath?
    fun header facts => by cases header <;> rfl
  cases given : (headers.filterMap newPath?).getLast? <;> simpa [given] using last

/-- The old side's info of a new file is not an id, wherever its index line stands. -/
theorem origInfo_effects : (effects headers facts).origInfo =
    if headers.any creates then some FileFacts.createdInfo
    else facts.origInfo.or (headers.filterMap origId?).head? := by
  induction headers generalizing facts with
  | nil => cases known : facts.origInfo <;> simp [known]
  | cons header headers ih =>
      rw [effects_cons, ih]
      cases header with
      | newFileMode mode => cases headers.any creates <;> rfl
      | index orig new mode =>
          cases known : facts.origInfo <;> simp [effect, known, creates, origId?]
      | _ => rfl

theorem newInfo_effects : (effects headers facts).newInfo =
    facts.newInfo.or (headers.filterMap newId?).head? := by
  refine first_effects headers facts _ newId? fun header facts => ?_
  cases header with
  | index => rfl
  | _ => exact Option.or_none.symm

theorem origBlob_effects : (effects headers facts).origBlob =
    (headers.filterMap origId?).getLast?.or facts.origBlob :=
  last_effects headers facts _ _ fun header facts => by cases header <;> rfl

theorem newBlob_effects : (effects headers facts).newBlob =
    (headers.filterMap newId?).getLast?.or facts.newBlob :=
  last_effects headers facts _ _ fun header facts => by cases header <;> rfl

theorem similarity_effects : (effects headers facts).similarity =
    (headers.filterMap similarity?).getLast?.or facts.similarity :=
  last_effects headers facts _ _ fun header facts => by cases header <;> rfl

theorem dissimilarity_effects : (effects headers facts).dissimilarity =
    (headers.filterMap dissimilarity?).getLast?.or facts.dissimilarity :=
  last_effects headers facts _ _ fun header facts => by cases header <;> rfl

theorem created_effects : (effects headers facts).created =
    (facts.created || headers.any creates) := by
  refine any_effects headers facts _ _ fun header facts => ?_
  cases header with
  | newFileMode => exact (Bool.or_true _).symm
  | _ => exact (Bool.or_false _).symm

theorem symlink_effects : (effects headers facts).symlink =
    (facts.symlink || headers.any links) := by
  refine any_effects headers facts _ _ fun header facts => ?_
  cases header with
  | newFileMode | deletedFileMode | oldMode | newMode | index => rfl
  | _ => exact (Bool.or_false _).symm

theorem binary_effects : (effects headers facts).binary = facts.binary := by
  induction headers generalizing facts with
  | nil => rfl
  | cons header headers ih => rw [effects_cons, ih]; cases header <;> rfl

/-- The four flags of a rename or a copy; the file is renamed or copied once both of two are up. -/
theorem relocation_effects :
    (effects headers facts).renameFrom =
        (facts.renameFrom || headers.any (·.kind == .renameFrom)) ∧
      (effects headers facts).renameTo =
        (facts.renameTo || headers.any (·.kind == .renameTo)) ∧
      (effects headers facts).copyFrom =
        (facts.copyFrom || headers.any (·.kind == .copyFrom)) ∧
      (effects headers facts).copyTo =
        (facts.copyTo || headers.any (·.kind == .copyTo)) := by
  refine ⟨any_effects headers facts (·.renameFrom) _ fun header facts => ?_,
    any_effects headers facts (·.renameTo) _ fun header facts => ?_,
    any_effects headers facts (·.copyFrom) _ fun header facts => ?_,
    any_effects headers facts (·.copyTo) _ fun header facts => ?_⟩ <;>
  cases header <;> first | exact (Bool.or_false _).symm | exact (Bool.or_true _).symm

end Facts

/-! ### Modes

A side's own mode replaces what was known of that side, and an index line's mode is for both sides,
but only where nothing is known of either. So modes are the one fact for which it matters where an
index line stands. -/

/-- The last mode given to the old side alone. -/
def oldModeOf (headers : List Header) : Option String := (headers.filterMap oldMode?).getLast?

def newModeOf (headers : List Header) : Option String := (headers.filterMap newMode?).getLast?

/-- The first mode given to both sides. -/
def sharedModeOf (headers : List Header) : Option String := (headers.filterMap sharedMode?).head?

section Modes

theorem oldModeOf_cons (header : Header) (headers : List Header) :
    oldModeOf (header :: headers) = (oldModeOf headers).or header.oldMode? :=
  getLast?_filterMap_cons headers oldMode? header

theorem newModeOf_cons (header : Header) (headers : List Header) :
    newModeOf (header :: headers) = (newModeOf headers).or header.newMode? :=
  getLast?_filterMap_cons headers newMode? header

theorem sharedModeOf_cons (header : Header) (headers : List Header) :
    sharedModeOf (header :: headers) = header.sharedMode?.or (sharedModeOf headers) := by
  cases given : header.sharedMode? <;> simp [sharedModeOf, given]

variable {headers : List Header} {facts : FileFacts} {known : Modes}

theorem modes_effect_of_known (header : Header) (isKnown : facts.modes = some known) :
    (header.effect facts).modes =
      some ⟨header.oldMode?.or known.old, header.newMode?.or known.new⟩ := by
  cases header <;> simp [effect, FileFacts.setMode, FileFacts.setInfo, FileFacts.noteRename,
    FileFacts.noteCopy, FileFacts.noteLink, isKnown, oldMode?, newMode?]

theorem modes_effect_of_unknown (header : Header) (unknown : facts.modes = none) :
    (header.effect facts).modes =
      if header.oldMode? = none ∧ header.newMode? = none then
        header.sharedMode?.map fun mode => ⟨some mode, some mode⟩
      else some ⟨header.oldMode?, header.newMode?⟩ := by
  cases header <;> simp [effect, FileFacts.setMode, FileFacts.setInfo, FileFacts.noteRename,
    FileFacts.noteCopy, FileFacts.noteLink, unknown, oldMode?, newMode?, sharedMode?]

/-- Once a mode is known, only the modes of single sides count. -/
theorem modes_effects_of_known (isKnown : facts.modes = some known) :
    (effects headers facts).modes =
      some ⟨(oldModeOf headers).or known.old, (newModeOf headers).or known.new⟩ := by
  induction headers generalizing facts known with
  | nil => exact isKnown
  | cons header headers ih =>
      rw [effects_cons, ih (modes_effect_of_known header isKnown), oldModeOf_cons, newModeOf_cons,
        Option.or_assoc, Option.or_assoc]

/-- What is known of modes after all headers: nothing, or the modes of the sides, if one of these
came first, or else a mode of both sides under them. -/
theorem modes_effects_of_unknown (headers : List Header) (unknown : facts.modes = none) :
    ((effects headers facts).modes = none ∧ oldModeOf headers = none ∧ newModeOf headers = none ∧
      sharedModeOf headers = none) ∨
    ((effects headers facts).modes = some ⟨oldModeOf headers, newModeOf headers⟩ ∧
      ¬ (oldModeOf headers = none ∧ newModeOf headers = none)) ∨
    ∃ mode, sharedModeOf headers = some mode ∧ (effects headers facts).modes =
      some ⟨(oldModeOf headers).or (some mode), (newModeOf headers).or (some mode)⟩ := by
  induction headers generalizing facts with
  | nil => exact .inl ⟨unknown, rfl, rfl, rfl⟩
  | cons header headers ih =>
      have first := modes_effect_of_unknown header unknown
      rw [effects_cons, oldModeOf_cons, newModeOf_cons, sharedModeOf_cons]
      by_cases silent : header.oldMode? = none ∧ header.newMode? = none
      · rw [if_pos silent] at first
        cases shared : header.sharedMode? with
        | none => simpa [silent] using ih (by rw [first, shared]; rfl)
        | some mode =>
            rw [shared] at first
            refine .inr (.inr ⟨mode, rfl, ?_⟩)
            rw [modes_effects_of_known first, silent.1, silent.2, Option.or_none, Option.or_none]
      · rw [if_neg silent] at first
        refine .inr (.inl ⟨modes_effects_of_known first, ?_⟩)
        rw [Option.or_eq_none_iff, Option.or_eq_none_iff]
        exact fun unsaid => silent ⟨unsaid.1.2, unsaid.2.2⟩

end Modes

end Header

end DiffSections
