import DiffSections.Proofs.Loop.Builder
import Mathlib.Algebra.BigOperators.Group.List.Basic

/-!
# DiffSections.Proofs.Loop.Calls -- a section under any sequence of operations

The reader uses the operations on a section in an order of its own. Here they are taken as they
come (`Call`), on the section in one buffer and on the draft, which go together at every call
(`callAll_builder`). Only one thing can go wrong, a second preamble, and it goes wrong at once
(`callAll_eq_none`).

What a section looks like then can be said of the calls alone (`FileRecord.MadeBy`). Each call adds
to a view of the section what it says itself, whatever came before it, so the view is known from the
calls (`view_callAll`). A body line is counted for the file and for the newest hunk; those counted
before the first hunk are counted for the file only (`Call.count_eq`).
-/

namespace DiffSections

set_option autoImplicit false

/-! ## Calls -/

/-- Something to be noted of the file. -/
inductive Note where
  | path (path : String) (side : Side)
  | info (info : String) (side : Side)
  | blobs (orig new : String)
  | binary
  | created
  | deleted
  | mode (mode : String) (side : Side)
  /-- The mode of both sides, unless one is known. -/
  | unchangedMode (mode : String)
  | similarity (percent : Nat)
  | dissimilarity (percent : Nat)
  | rename (path : String) (side : Side)
  | copy (path : String) (side : Side)
  deriving DecidableEq

/-- A mark on a file that is never taken back. -/
inductive Flag where
  | renamed (side : Side)
  | copied (side : Side)
  | link
  deriving DecidableEq

def FileFacts.raised (facts : FileFacts) : Flag → Bool
  | .renamed .orig => facts.renameFrom
  | .renamed .new => facts.renameTo
  | .copied .orig => facts.copyFrom
  | .copied .new => facts.copyTo
  | .link => facts.symlink

namespace Note

/-- Note it. -/
def on (note : Note) (facts : FileFacts) : FileFacts :=
  match note with
  | .path name side => facts.setPath name side
  | .info text side => facts.setInfo text side
  | .blobs orig new => { facts with origBlob := some orig, newBlob := some new }
  | .binary => { facts with binary := true }
  | .created => { facts with created := true }
  | .deleted => { facts with deleted := true }
  | .mode given side => facts.setMode given side
  | .unchangedMode given => facts.offerMode given
  | .similarity percent => { facts with similarity := some percent }
  | .dissimilarity percent => { facts with dissimilarity := some percent }
  | .rename name side => facts.noteRename name side
  | .copy name side => facts.noteCopy name side

/-- Whether a note raises a flag; one mode of a link makes the file a link. -/
def raises (flag : Flag) : Note → Bool
  | .rename _ side => flag = .renamed side
  | .copy _ side => flag = .copied side
  | .mode given _ | .unchangedMode given => flag = .link && given == FileFacts.linkMode
  | _ => false

theorem raised_on (flag : Flag) (note : Note) (facts : FileFacts) :
    (note.on facts).raised flag = (facts.raised flag || note.raises flag) := by
  cases note with
  | path _ side | info _ side =>
      cases side <;> rcases flag with (_ | _) | (_ | _) | _ <;>
        simp [on, raises, FileFacts.raised, FileFacts.setPath, FileFacts.setInfo]
  | rename _ side | copy _ side =>
      cases side <;> rcases flag with (_ | _) | (_ | _) | _ <;>
        simp [on, raises, FileFacts.raised, FileFacts.noteRename, FileFacts.noteCopy]
  | mode | unchangedMode =>
      rcases flag with (_ | _) | (_ | _) | _ <;>
        simp [on, raises, FileFacts.raised, FileFacts.setMode, FileFacts.offerMode,
          FileFacts.noteLink]
  | _ => rcases flag with (_ | _) | (_ | _) | _ <;> simp [on, raises, FileFacts.raised]

end Note

/-- One operation on a section in hand. -/
inductive Call where
  | append (piece : Bytes)
  | prepend (preamble : Bytes)
  | note (said : Note)
  | pushHunk (hunk : Hunk)
  | count (kind : BodyKind)
  | markUnended (kind : BodyKind)
  deriving DecidableEq

namespace Call

/-- The section text of a call. -/
def piece? : Call → Option Bytes
  | .append piece => some piece
  | _ => none

/-- The preamble that a call gives. -/
def preamble? : Call → Option Bytes
  | .prepend preamble => some preamble
  | _ => none

def note? : Call → Option Note
  | .note said => some said
  | _ => none

/-- What a call does to the newest hunk. -/
def onHunk (call : Call) (hunk : Hunk) : Hunk :=
  match call with
  | .count kind => hunk.count kind
  | .markUnended kind => hunk.markUnended kind
  | .append _ | .prepend _ | .note _ | .pushHunk _ => hunk

/-- Whether a call says that a side of the newest hunk has no line end. -/
def marks (side : Side) : Call → Bool
  | .markUnended kind => kind.standsOn side
  | _ => false

/-- Whether one of these calls raises a flag. -/
def raised (flag : Flag) (calls : List Call) : Bool :=
  (calls.filterMap note?).any (·.raises flag)

/-- The calls before the first hunk. -/
def beforeHunks : List Call → List Call
  | [] => []
  | .pushHunk _ :: _ => []
  | call :: calls => call :: beforeHunks calls

/-- The hunks that are opened, each with the calls from there on up to the next one. -/
def openings : List Call → List (Hunk × List Call)
  | [] => []
  | .pushHunk hunk :: calls => (hunk, beforeHunks calls) :: openings calls
  | _ :: calls => openings calls

theorem pushHunk_mem_of_mem_openings {calls : List Call} {opening : Hunk × List Call}
    (member : opening ∈ openings calls) : .pushHunk opening.1 ∈ calls := by
  fun_induction openings calls with
  | case1 => cases member
  | case2 hunk calls ih =>
      rcases List.mem_cons.1 member with rfl | later
      · exact List.mem_cons_self
      · exact List.mem_cons_of_mem _ (ih later)
  | case3 call calls _ ih => exact List.mem_cons_of_mem _ (ih member)

/-- Every body line is counted before the first hunk, or while some hunk is the newest one. -/
theorem count_eq (kind : BodyKind) (calls : List Call) :
    calls.count (.count kind) = ((openings calls).map (·.2.count (.count kind))).sum +
      (beforeHunks calls).count (.count kind) := by
  fun_induction openings calls with
  | case1 => rfl
  | case2 hunk calls ih =>
      rw [List.count_cons_of_ne (by simp), ih, beforeHunks, List.count_nil]
      simp only [List.map_cons, List.sum_cons]
      omega
  | case3 call calls other ih =>
      rw [beforeHunks.eq_3 _ _ other, List.count_cons, List.count_cons, ih]
      omega

/-- With more preambles than this there is one that so many come before. -/
theorem exists_prepend_of_lt {calls : List Call} {earlier : Nat}
    (more : earlier < (calls.filterMap preamble?).length) :
    ∃ before preamble later, calls = before ++ .prepend preamble :: later ∧
      (before.filterMap preamble?).length = earlier := by
  induction calls generalizing earlier with
  | nil => cases more
  | cons call calls ih =>
      cases given : call.preamble? with
      | none =>
          rw [List.filterMap_cons_none given] at more
          obtain ⟨before, preamble, later, rfl, many⟩ := ih more
          exact ⟨call :: before, preamble, later, rfl, by rw [List.filterMap_cons_none given, many]⟩
      | some first =>
          have here : call = .prepend first := by
            cases call <;> simp_all [preamble?]
          cases earlier with
          | zero => exact ⟨[], first, calls, by rw [here]; rfl, rfl⟩
          | succ earlier =>
              rw [List.filterMap_cons_some given, List.length_cons] at more
              obtain ⟨before, preamble, later, rfl, many⟩ := ih (Nat.lt_of_succ_lt_succ more)
              refine ⟨call :: before, preamble, later, rfl, ?_⟩
              rw [List.filterMap_cons_some given, List.length_cons, many]

end Call

/-- The hunk that was opened as `hunk` after the calls made while it was the newest one. -/
def Hunk.after (hunk : Hunk) (own : List Call) : Hunk :=
  { hunk with
    insertions := hunk.insertions + own.count (.count .added)
    deletions := hunk.deletions + own.count (.count .removed)
    origUnended := hunk.origUnended || own.any (·.marks .orig)
    newUnended := hunk.newUnended || own.any (·.marks .new) }

@[simp] theorem Hunk.after_nil (hunk : Hunk) : hunk.after [] = hunk := by
  simp [after]

theorem Hunk.after_cons (hunk : Hunk) (call : Call) (own : List Call) :
    hunk.after (call :: own) = (call.onHunk hunk).after own := by
  cases call with
  | count kind => cases kind <;> simp [after, Call.onHunk, Call.marks, count] <;> omega
  | markUnended kind =>
      cases kind <;> simp [after, Call.onHunk, Call.marks, markUnended, BodyKind.standsOn]
  | _ => simp [after, Call.onHunk, Call.marks]

namespace Draft

/-- Make a call; only a second preamble is refused. -/
def call (draft : Draft) (call : Call) : Option Draft :=
  match call with
  | .append piece => some (draft.append piece)
  | .prepend preamble => draft.prepend? preamble
  | .note note => some (draft.withFacts (note.on draft.toFileFacts))
  | .pushHunk hunk => some (draft.pushHunk hunk)
  | .count kind => some (draft.count kind)
  | .markUnended kind => some (draft.markUnended kind)

def callAll (draft : Draft) (calls : List Call) : Option Draft :=
  calls.foldlM call draft

end Draft

namespace Builder

/-- Make a call; a second preamble panics. -/
def call (builder : Builder) (call : Call) : Except Panic Builder :=
  match call with
  | .append piece => .ok (builder.append piece)
  | .prepend preamble => builder.prepend preamble
  | .note note => .ok (builder.withFacts (note.on builder.toFileFacts))
  | .pushHunk hunk => .ok (builder.pushHunk hunk)
  | .count kind => .ok (builder.count kind)
  | .markUnended kind => .ok (builder.markUnended kind)

def callAll (builder : Builder) (calls : List Call) : Except Panic Builder :=
  calls.foldlM call builder

end Builder

namespace Draft

variable {draft after next : Draft} {call : Call} {calls : List Call} {preamble : Bytes}

/-! ## The draft and the buffer go together -/

/-- What becomes of the buffer where the draft becomes this. -/
def outcome : Option Draft → Except Panic Builder
  | some draft => .ok draft.builder
  | none => .error .secondPreamble

theorem call_builder (draft : Draft) (call : Call) :
    draft.builder.call call = outcome (draft.call call) := by
  cases call with
  | prepend preamble =>
      cases bare : draft.preamble with
      | none =>
          simp only [Builder.call, Draft.call, prepend?, bare, prepend_builder bare, outcome]
          rfl
      | some preamble => simp [Builder.call, Draft.call, prepend?, Builder.prepend, builder, bare,
          outcome]
  | note note => rfl
  | append | pushHunk | count | markUnended => simp [Builder.call, Draft.call, outcome]

theorem callAll_builder (draft : Draft) (calls : List Call) :
    draft.builder.callAll calls = outcome (draft.callAll calls) := by
  induction calls generalizing draft with
  | nil => rfl
  | cons call calls ih =>
      rw [Builder.callAll, callAll, List.foldlM_cons, List.foldlM_cons, call_builder]
      cases made : draft.call call with
      | none => rfl
      | some next => exact ih next

/-! ## What one call does -/

theorem call_prepend_eq_some_iff :
    draft.call (.prepend preamble) = some next ↔
      draft.preamble = none ∧ next = { draft with preamble := some preamble } := by
  cases bare : draft.preamble <;> simp [Draft.call, prepend?, bare, eq_comm]

theorem toFileFacts_call (made : draft.call call = some next) :
    next.toFileFacts = (call.note?.elim id Note.on) draft.toFileFacts := by
  cases call with
  | prepend preamble =>
      obtain ⟨-, rfl⟩ := call_prepend_eq_some_iff.1 made
      rfl
  | count | markUnended => cases made; simp [Call.note?]
  | append | note | pushHunk => cases made; rfl

theorem text_call (made : draft.call call = some next) :
    next.text = draft.text ++ call.piece?.getD [] := by
  cases call with
  | prepend preamble =>
      obtain ⟨-, rfl⟩ := call_prepend_eq_some_iff.1 made
      simp [Call.piece?, text]
  | note => cases made; simp [Call.piece?, text]
  | append | pushHunk | count | markUnended => cases made; simp [Call.piece?]

theorem preamble_call (made : draft.call call = some next) :
    next.preamble = draft.preamble.or call.preamble? := by
  cases call with
  | prepend preamble =>
      obtain ⟨bare, rfl⟩ := call_prepend_eq_some_iff.1 made
      rw [bare]
      rfl
  | append | note | pushHunk | count | markUnended => cases made; simp [Call.preamble?]

theorem counts_call (made : draft.call call = some next) :
    next.insertions = draft.insertions + [call].count (.count .added) ∧
      next.deletions = draft.deletions + [call].count (.count .removed) := by
  cases call with
  | prepend preamble =>
      obtain ⟨-, rfl⟩ := call_prepend_eq_some_iff.1 made
      simp
  | count kind => cases made; cases kind <;> simp [insertions_count, deletions_count]
  | markUnended kind => cases made; simp [counts_markUnended]
  | append | note | pushHunk => cases made; simp; exact ⟨rfl, rfl⟩

theorem hunks_mapOpenHunk (draft : Draft) (change : Hunk → Hunk) :
    (draft.mapOpenHunk change).hunks = draft.hunks.modifyHead change := by
  unfold mapOpenHunk; split <;> simp [*]

/-- The hunks after the calls: those opened, on top of those that were there. -/
def hunksAfter (calls : List Call) (hunks : List Hunk) : List Hunk :=
  ((Call.openings calls).map fun opening => opening.1.after opening.2).reverse ++
    hunks.modifyHead (·.after (Call.beforeHunks calls))

theorem hunksAfter_call (made : draft.call call = some next) (calls : List Call) :
    hunksAfter calls next.hunks = hunksAfter (call :: calls) draft.hunks := by
  cases call with
  | pushHunk hunk =>
      cases made
      cases hunks : draft.hunks <;>
        simp [hunksAfter, pushHunk, Call.openings, Call.beforeHunks, hunks]
  | prepend preamble =>
      obtain ⟨-, rfl⟩ := call_prepend_eq_some_iff.1 made
      simp [hunksAfter, Call.openings, Call.beforeHunks, Hunk.after_cons, Call.onHunk]
  | count kind =>
      cases made
      have counted : (draft.count kind).hunks = draft.hunks.modifyHead (·.count kind) := by
        rw [← hunks_mapOpenHunk]
        cases kind <;> rfl
      rw [counted]
      simp [hunksAfter, Call.openings, Call.beforeHunks, Hunk.after_cons, Call.onHunk,
        Function.comp_def]
  | markUnended kind =>
      cases made
      rw [markUnended, hunks_mapOpenHunk]
      simp [hunksAfter, Call.openings, Call.beforeHunks, Hunk.after_cons, Call.onHunk,
        Function.comp_def]
  | append | note =>
      cases made
      simp [hunksAfter, Call.openings, Call.beforeHunks, Hunk.after_cons, Call.onHunk]

/-! ## What all the calls tell -/

/-- **A view of the section is what the calls tell of it.** If what a list of calls tells, from a
view of the section on, is told by its first call and then by the others, then it is the view of
the section after them. -/
theorem view_callAll {α : Type} (view : Draft → α) (told : List Call → α → α)
    (silent : ∀ seen, told [] seen = seen)
    (each : ∀ {draft next : Draft} {call : Call}, draft.call call = some next →
      ∀ calls, told calls (view next) = told (call :: calls) (view draft))
    (made : draft.callAll calls = some after) : view after = told calls (view draft) := by
  induction calls generalizing draft with
  | nil =>
      cases made
      exact (silent _).symm
  | cons call calls ih =>
      rw [callAll, List.foldlM_cons, Option.bind_eq_bind, Option.bind_eq_some_iff] at made
      obtain ⟨next, first, rest⟩ := made
      rw [ih rest, each first]

theorem text_callAll (made : draft.callAll calls = some after) :
    after.text = draft.text ++ (calls.filterMap Call.piece?).flatten := by
  refine view_callAll Draft.text
    (fun calls text => text ++ (calls.filterMap Call.piece?).flatten) (by simp) ?_ made
  intro draft next call made calls
  rw [text_call made]
  cases call <;> simp [Call.piece?, List.filterMap_cons]

theorem preamble_callAll (made : draft.callAll calls = some after) :
    after.preamble = draft.preamble.or (calls.filterMap Call.preamble?).head? := by
  refine view_callAll Draft.preamble
    (fun calls given => given.or (calls.filterMap Call.preamble?).head?) (by simp) ?_ made
  intro draft next call made calls
  rw [preamble_call made, Option.or_assoc]
  cases call <;> simp [Call.preamble?, List.filterMap_cons]

theorem counts_callAll (made : draft.callAll calls = some after) :
    after.insertions = draft.insertions + calls.count (.count .added) ∧
      after.deletions = draft.deletions + calls.count (.count .removed) := by
  rw [← Prod.mk.injEq]
  refine view_callAll (fun draft => (draft.insertions, draft.deletions))
    (fun calls seen =>
      (seen.1 + calls.count (.count .added), seen.2 + calls.count (.count .removed)))
    (by simp) ?_ made
  intro draft next call made calls
  obtain ⟨insertions, deletions⟩ := counts_call made
  rw [insertions, deletions, Nat.add_assoc, Nat.add_assoc, ← List.count_append, ← List.count_append,
    List.singleton_append]

theorem hunks_callAll (made : draft.callAll calls = some after) :
    after.hunks = hunksAfter calls draft.hunks := by
  refine view_callAll Draft.hunks hunksAfter ?_ hunksAfter_call made
  intro hunks
  cases hunks <;> simp [hunksAfter, Call.openings, Call.beforeHunks]

theorem raised_callAll (flag : Flag) (made : draft.callAll calls = some after) :
    after.raised flag = (draft.raised flag || Call.raised flag calls) := by
  refine view_callAll (fun draft => draft.raised flag)
    (fun calls up => up || Call.raised flag calls) (by simp [Call.raised]) ?_ made
  intro draft next call made calls
  rw [toFileFacts_call made]
  cases call <;> simp [Call.note?, Call.raised, Note.raised_on, List.filterMap_cons, Bool.or_assoc]

/-! ## The second preamble -/

theorem exists_callAll_eq_some (draft : Draft) (calls : List Call)
    (room : draft.preamble.toList.length + (calls.filterMap Call.preamble?).length ≤ 1) :
    ∃ after, draft.callAll calls = some after := by
  induction calls generalizing draft with
  | nil => exact ⟨draft, rfl⟩
  | cons call calls ih =>
      have step : ∃ next, draft.call call = some next := by
        cases call with
        | prepend preamble =>
            cases bare : draft.preamble with
            | none => exact ⟨_, call_prepend_eq_some_iff.2 ⟨bare, rfl⟩⟩
            | some earlier => simp [bare, Call.preamble?] at room
        | _ => exact ⟨_, rfl⟩
      obtain ⟨next, made⟩ := step
      have left : next.preamble.toList.length + (calls.filterMap Call.preamble?).length ≤ 1 := by
        rw [preamble_call made]
        cases call <;> cases bare : draft.preamble <;>
          simp_all [Call.preamble?, List.filterMap_cons]
      obtain ⟨after, rest⟩ := ih next left
      refine ⟨after, ?_⟩
      rw [callAll, List.foldlM_cons, made]
      exact rest

theorem callAll_append (before later : List Call) :
    draft.callAll (before ++ later) = (draft.callAll before).bind (·.callAll later) :=
  List.foldlM_append

/-- The second preamble is refused where it comes. -/
theorem callAll_eq_none {before : List Call} (bare : draft.preamble = none)
    (second : (before.filterMap Call.preamble?).length = 1) (preamble : Bytes)
    (later : List Call) :
    ∃ reached, draft.callAll before = some reached ∧ reached.call (.prepend preamble) = none ∧
      draft.callAll (before ++ .prepend preamble :: later) = none := by
  obtain ⟨reached, made⟩ := exists_callAll_eq_some draft before (by simp [bare, second])
  have given : reached.preamble ≠ none := by
    rw [preamble_callAll made, bare]
    obtain ⟨first, only⟩ := List.length_eq_one_iff.1 second
    simp [only]
  have refused : reached.call (.prepend preamble) = none := by
    rw [Option.eq_none_iff_forall_ne_some]
    intro next made
    exact given (call_prepend_eq_some_iff.1 made).1
  refine ⟨reached, made, refused, ?_⟩
  rw [callAll_append, made, Option.bind_some, callAll, List.foldlM_cons, refused]
  rfl

end Draft

/-! ## The record -/

/-- A record that says what these calls say. -/
structure FileRecord.MadeBy (record : FileRecord) (calls : List Call) : Prop where
  preamble : record.preamble = (calls.filterMap Call.preamble?).head?.getD []
  body : record.body = (calls.filterMap Call.piece?).flatten
  insertions : record.insertions = calls.count (.count .added)
  deletions : record.deletions = calls.count (.count .removed)
  hunks : record.hunks = (Call.openings calls).map fun opening => opening.1.after opening.2
  hunkInsertions : record.hunks.map (·.insertions) =
    (Call.openings calls).map (·.2.count (.count .added))
  hunkDeletions : record.hunks.map (·.deletions) =
    (Call.openings calls).map (·.2.count (.count .removed))
  excessInsertions : record.insertions =
    (record.hunks.map (·.insertions)).sum + (Call.beforeHunks calls).count (.count .added)
  excessDeletions : record.deletions =
    (record.hunks.map (·.deletions)).sum + (Call.beforeHunks calls).count (.count .removed)
  moved : record.moved = (Call.raised (.renamed .orig) calls && Call.raised (.renamed .new) calls)
  copied : record.copied = (Call.raised (.copied .orig) calls && Call.raised (.copied .new) calls)
  symlink : record.symlink = Call.raised .link calls

theorem Draft.madeBy_close {orig new : String} {calls : List Call} {after : Draft}
    (made : (ofFacts (Dialect.factsOfPaths orig new)).callAll calls = some after)
    (zeroed : ∀ hunk, .pushHunk hunk ∈ calls → hunk.insertions = 0 ∧ hunk.deletions = 0) :
    after.close.MadeBy calls := by
  have hunks : after.close.hunks =
      (Call.openings calls).map fun opening => opening.1.after opening.2 := by
    show after.hunks.reverse = _
    rw [hunks_callAll made]
    simp [hunksAfter, ofFacts]
  have counts : after.close.insertions = calls.count (.count .added) ∧
      after.close.deletions = calls.count (.count .removed) := by
    simpa [ofFacts, close] using counts_callAll made
  obtain ⟨insertions, deletions⟩ := counts
  have hunkInsertions : after.close.hunks.map (·.insertions) =
      (Call.openings calls).map (·.2.count (.count .added)) := by
    rw [hunks, List.map_map]
    refine List.map_congr_left fun opening member => ?_
    have zero := (zeroed _ (Call.pushHunk_mem_of_mem_openings member)).1
    simp [Hunk.after, zero]
  have hunkDeletions : after.close.hunks.map (·.deletions) =
      (Call.openings calls).map (·.2.count (.count .removed)) := by
    rw [hunks, List.map_map]
    refine List.map_congr_left fun opening member => ?_
    have zero := (zeroed _ (Call.pushHunk_mem_of_mem_openings member)).2
    simp [Hunk.after, zero]
  have raised (flag : Flag) : after.raised flag = Call.raised flag calls := by
    rw [raised_callAll flag made]
    rcases flag with (_ | _) | (_ | _) | _ <;> rfl
  exact {
    preamble := by
      show after.preamble.getD [] = _
      rw [preamble_callAll made]
      rfl
    body := by
      show after.text = _
      rw [text_callAll made]
      rfl
    insertions
    deletions
    hunks
    hunkInsertions
    hunkDeletions
    excessInsertions := by rw [insertions, hunkInsertions, Call.count_eq]
    excessDeletions := by rw [deletions, hunkDeletions, Call.count_eq]
    moved := congrArg₂ (· && ·) (raised (.renamed .orig)) (raised (.renamed .new))
    copied := congrArg₂ (· && ·) (raised (.copied .orig)) (raised (.copied .new))
    symlink := raised .link }

/-- **A section under any sequence of operations.** They panic exactly at the second preamble.
Otherwise the record says what the calls say, in whatever order they came; closing with the check
of the text panics only if there is none. -/
theorem Builder.callAll_ofFacts (orig new : String) (calls : List Call)
    (zeroed : ∀ hunk, .pushHunk hunk ∈ calls → hunk.insertions = 0 ∧ hunk.deletions = 0) :
    ((calls.filterMap Call.preamble?).length ≤ 1 ∧
      ∃ built record, (ofFacts (Dialect.factsOfPaths orig new)).callAll calls = .ok built ∧
        built.record = .ok record ∧ record.MadeBy calls ∧
        built.finalize = if record.data = [] then .error .emptySection else .ok record) ∨
    ∃ before preamble later reached, calls = before ++ .prepend preamble :: later ∧
      (before.filterMap Call.preamble?).length = 1 ∧
      (ofFacts (Dialect.factsOfPaths orig new)).callAll before = .ok reached ∧
      reached.call (.prepend preamble) = .error .secondPreamble ∧
      (ofFacts (Dialect.factsOfPaths orig new)).callAll calls = .error .secondPreamble := by
  simp only [← Draft.builder_ofFacts, Draft.callAll_builder]
  rcases Nat.lt_or_ge 1 (calls.filterMap Call.preamble?).length with more | room
  · obtain ⟨before, preamble, later, rfl, second⟩ := Call.exists_prepend_of_lt more
    have bare : (Draft.ofFacts (Dialect.factsOfPaths orig new)).preamble = none := rfl
    obtain ⟨reached, made, refused, none⟩ := Draft.callAll_eq_none bare second preamble later
    refine .inr ⟨before, preamble, later, reached.builder, rfl, second, ?_, ?_, ?_⟩
    · rw [made]
      rfl
    · rw [Draft.call_builder, refused]
      rfl
    · rw [none]
      rfl
  · obtain ⟨after, made⟩ := Draft.exists_callAll_eq_some
      (.ofFacts (Dialect.factsOfPaths orig new)) calls (by simpa [Draft.ofFacts] using room)
    refine .inl ⟨room, after.builder, after.close, ?_, after.record_builder,
      Draft.madeBy_close made zeroed, ?_⟩
    · rw [made]
      rfl
    · rw [finalize_eq, after.record_builder]
      rfl

/-- A line counted before the first hunk, a preamble behind text, and half flags set apart. -/
theorem Builder.callAll_ofFacts_mixed :
    ∃ built record,
      (ofFacts (Dialect.factsOfPaths "a" "a")).callAll
        [.count .added, .append [1, 2], .note (.rename "a" .orig), .prepend [0],
          .note (.mode "120000" .orig), .pushHunk ⟨1, 1, 1, 2, none, 0, 0, false, false⟩,
          .count .added, .append [3], .pushHunk ⟨5, 1, 6, 0, none, 0, 0, false, false⟩,
          .note (.rename "b" .new), .count .removed, .note (.copy "a" .orig),
          .note (.mode "100644" .orig)] = .ok built ∧
      built.record = .ok record ∧ built.finalize = .ok record ∧
      record.preamble = [0] ∧ record.body = [1, 2, 3] ∧
      record.insertions = 2 ∧ record.deletions = 1 ∧
      record.hunks.map (·.insertions) = [1, 0] ∧ record.hunks.map (·.deletions) = [0, 1] ∧
      record.moved = true ∧ record.copied = false ∧ record.symlink = true := by
  rcases callAll_ofFacts "a" "a"
      [.count .added, .append [1, 2], .note (.rename "a" .orig), .prepend [0],
        .note (.mode "120000" .orig), .pushHunk ⟨1, 1, 1, 2, none, 0, 0, false, false⟩,
        .count .added, .append [3], .pushHunk ⟨5, 1, 6, 0, none, 0, 0, false, false⟩,
        .note (.rename "b" .new), .count .removed, .note (.copy "a" .orig),
        .note (.mode "100644" .orig)] (by simp) with
    ⟨_, built, record, made, recorded, madeBy, closes⟩ | ⟨_, _, _, _, _, _, _, _, panics⟩
  · have filled : record.data ≠ [] := by
      rw [FileRecord.data, madeBy.preamble, madeBy.body]
      decide
    refine ⟨built, record, made, recorded, by rw [closes, if_neg filled], madeBy.preamble,
      madeBy.body, madeBy.insertions, madeBy.deletions, ?_, ?_, ?_, ?_, ?_⟩
    · rw [madeBy.hunkInsertions]; decide
    · rw [madeBy.hunkDeletions]; decide
    · rw [madeBy.moved]; decide
    · rw [madeBy.copied]; decide
    · rw [madeBy.symlink]; decide
  · cases panics

end DiffSections
