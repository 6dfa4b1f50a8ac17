import DiffSections.Proofs.Header.Effect
import DiffSections.File.Record
import Mathlib.Data.List.Perm.Basic

/-!
# DiffSections.Proofs.HeaderOrder -- the order of header lines shows in modes only

Header lines that write different pieces of metadata can stand in any order: they are all accepted
or not, and say the same about the file, but for its modes. These differ when an index line gives a
mode for both sides and just one side is given a mode of its own. If the index line comes first its
mode stays on the other side, and after the other line it says nothing. In all other cases the
modes are the same too (`Header.addAll_reordered`).
-/

namespace DiffSections

set_option autoImplicit false

/-- A piece of metadata that one header line writes. -/
inductive HeaderPiece where
  | oldMode
  | newMode
  | similarity
  | dissimilarity
  | origPath
  | newPath
  | ids
  deriving DecidableEq, Repr

attribute [ext] FileFacts

namespace Header

def piece : Header → HeaderPiece
  | .newFileMode _ | .newMode _ => .newMode
  | .deletedFileMode _ | .oldMode _ => .oldMode
  | .similarityIndex _ => .similarity
  | .dissimilarityIndex _ => .dissimilarity
  | .renameFrom _ | .copyFrom _ => .origPath
  | .renameTo _ | .copyTo _ => .newPath
  | .index _ _ _ => .ids

/-- An index line gives a mode for both sides, and just one side is given its own. -/
def oneSided (headers : List Header) : Bool :=
  (sharedModeOf headers).isSome && (oldModeOf headers).isSome != (newModeOf headers).isSome

/-! ## What does not depend on the order -/

section Reordered

variable {headers headers' : List Header}

/-- What headers give of one piece they give in any order: it is given once. -/
theorem filterMap_reordered {α : Type} (gives : Header → Option α) (piece : HeaderPiece)
    (onePiece : ∀ header, gives header ≠ none → header.piece = piece)
    (perm : headers.Perm headers') (distinct : (headers.map Header.piece).Nodup) :
    headers.filterMap gives = headers'.filterMap gives := by
  induction perm with
  | nil => rfl
  | cons header _ ih =>
      rw [List.filterMap_cons, List.filterMap_cons, ih (List.nodup_cons.1 distinct).2]
  | swap first second headers =>
      have different : second.piece ≠ first.piece := fun same => by simp [same] at distinct
      have silent : gives first = none ∨ gives second = none := by
        by_contra both
        obtain ⟨gaveFirst, gaveSecond⟩ := not_or.1 both
        exact different ((onePiece second gaveSecond).trans (onePiece first gaveFirst).symm)
      rcases silent with none | none <;> simp [List.filterMap_cons, none]
  | trans first _ ihFirst ihLater =>
      rw [ihFirst distinct, ihLater ((first.map Header.piece).nodup_iff.1 distinct)]

variable (perm : headers.Perm headers') (distinct : (headers.map Header.piece).Nodup)

include perm distinct in
/-- **Reordered headers say the same, but for modes.** -/
theorem effects_reordered (facts : FileFacts) : effects headers' facts =
    { effects headers facts with modes := (effects headers' facts).modes } := by
  have flags (raises : Header → Bool) : headers'.any raises = headers.any raises :=
    perm.any_eq.symm
  have origPaths := filterMap_reordered origPath? .origPath
    (by rintro ⟨⟩ <;> simp [origPath?, piece]) perm distinct
  have newPaths := filterMap_reordered newPath? .newPath
    (by rintro ⟨⟩ <;> simp [newPath?, piece]) perm distinct
  have origIds := filterMap_reordered origId? .ids
    (by rintro ⟨⟩ <;> simp [origId?, piece]) perm distinct
  have newIds := filterMap_reordered newId? .ids
    (by rintro ⟨⟩ <;> simp [newId?, piece]) perm distinct
  have similarities := filterMap_reordered similarity? .similarity
    (by rintro ⟨⟩ <;> simp [similarity?, piece]) perm distinct
  have dissimilarities := filterMap_reordered dissimilarity? .dissimilarity
    (by rintro ⟨⟩ <;> simp [dissimilarity?, piece]) perm distinct
  apply FileFacts.ext <;>
    simp only [origPath_effects, newPath_effects, origInfo_effects, newInfo_effects,
      origBlob_effects, newBlob_effects, binary_effects, created_effects, deleted_effects,
      symlink_effects, relocation_effects, similarity_effects, dissimilarity_effects, flags,
      origPaths, newPaths, origIds, newIds, similarities, dissimilarities]

include perm distinct in
theorem modesOf_reordered : oldModeOf headers' = oldModeOf headers ∧
    newModeOf headers' = newModeOf headers ∧ sharedModeOf headers' = sharedModeOf headers := by
  have olds := filterMap_reordered oldMode? .oldMode
    (by rintro ⟨⟩ <;> simp [oldMode?, piece]) perm distinct
  have news := filterMap_reordered newMode? .newMode
    (by rintro ⟨⟩ <;> simp [newMode?, piece]) perm distinct
  have shared := filterMap_reordered sharedMode? .ids
    (by rintro ⟨⟩ <;> simp [sharedMode?, piece]) perm distinct
  simp only [oldModeOf, newModeOf, sharedModeOf, olds, news, shared, and_self]

end Reordered

/-! ## Where the order shows -/

section Modes

variable {headers : List Header} {facts : FileFacts}

/-- If both sides have modes of their own, or none has, it does not matter which came first. -/
theorem modes_effects_of_not_oneSided (unknown : facts.modes = none)
    (balanced : oneSided headers = false) : (effects headers facts).modes =
      if oldModeOf headers = none ∧ newModeOf headers = none then
        (sharedModeOf headers).map fun mode => ⟨some mode, some mode⟩
      else some ⟨oldModeOf headers, newModeOf headers⟩ := by
  rcases modes_effects_of_unknown headers unknown with
    ⟨modes, noOld, noNew, noShared⟩ | ⟨modes, some_side⟩ | ⟨mode, shared, modes⟩
  · simp [modes, noOld, noNew, noShared]
  · rw [modes, if_neg some_side]
  · rw [modes, shared]
    simp only [oneSided, shared] at balanced
    cases old : oldModeOf headers <;> cases new : newModeOf headers <;>
      simp [old, new] at balanced ⊢

theorem modes_reordered {headers' : List Header} (perm : headers.Perm headers')
    (distinct : (headers.map piece).Nodup) (unknown : facts.modes = none)
    (balanced : oneSided headers = false) :
    (effects headers' facts).modes = (effects headers facts).modes := by
  obtain ⟨olds, news, shared⟩ := modesOf_reordered perm distinct
  have balanced' : oneSided headers' = false := by
    rw [← balanced, oneSided, oneSided, olds, news, shared]
  rw [modes_effects_of_not_oneSided unknown balanced,
    modes_effects_of_not_oneSided unknown balanced', olds, news, shared]

/-- Some header gave a mode for both sides, and another one a mode for one side. -/
theorem exists_perm_of_oneSided (sided : oneSided headers = true) :
    ∃ shared side rest, headers.Perm (shared :: side :: rest) ∧
      (∃ mode, shared.sharedMode? = some mode) ∧ (side.oldMode? ≠ none ∨ side.newMode? ≠ none) := by
  rw [oneSided, Bool.and_eq_true, Option.isSome_iff_exists] at sided
  obtain ⟨⟨mode, isShared⟩, apart⟩ := sided
  obtain ⟨shared, isHeader, gives⟩ := List.mem_filterMap.1 (List.mem_of_head? isShared)
  obtain ⟨side, isSide, givesSide⟩ :
      ∃ side ∈ headers, side.oldMode? ≠ none ∨ side.newMode? ≠ none := by
    rcases old : oldModeOf headers with _ | text
    · obtain ⟨text, new⟩ : ∃ text, newModeOf headers = some text := by
        rw [← Option.isSome_iff_exists]
        simpa [old] using apart
      obtain ⟨side, isSide, given⟩ := List.mem_filterMap.1 (List.mem_of_getLast? new)
      exact ⟨side, isSide, .inr (by simp [given])⟩
    · obtain ⟨side, isSide, given⟩ := List.mem_filterMap.1 (List.mem_of_getLast? old)
      exact ⟨side, isSide, .inl (by simp [given])⟩
  have different : side ≠ shared := by
    rintro rfl
    cases side <;> simp [sharedMode?, oldMode?, newMode?] at gives givesSide
  have isOther : side ∈ headers.erase shared := (List.mem_erase_of_ne different).2 isSide
  exact ⟨shared, side, (headers.erase shared).erase side,
    (List.perm_cons_erase isHeader).trans ((List.perm_cons_erase isOther).cons _),
    ⟨mode, gives⟩, givesSide⟩

/-- **A mode of both sides shows which came first if one side has its own.** -/
theorem exists_reordered_of_oneSided (unknown : facts.modes = none)
    (distinct : (headers.map piece).Nodup) (sided : oneSided headers = true) :
    ∃ headers', headers.Perm headers' ∧
      (effects headers' facts).modes ≠ (effects headers facts).modes := by
  obtain ⟨shared, side, rest, perm, ⟨mode, gives⟩, givesSide⟩ := exists_perm_of_oneSided sided
  have swapped : headers.Perm (side :: shared :: rest) := perm.trans (.swap _ _ _)
  have silent : shared.oldMode? = none ∧ shared.newMode? = none := by
    cases shared <;> simp [sharedMode?, oldMode?, newMode?] at gives ⊢
  -- Behind the index line both sides have a mode, and behind the other line only one has.
  have before : (effects (shared :: side :: rest) facts).modes =
      some ⟨(oldModeOf (side :: rest)).or (some mode),
        (newModeOf (side :: rest)).or (some mode)⟩ := by
    have first : (shared.effect facts).modes = some ⟨some mode, some mode⟩ := by
      rw [modes_effect_of_unknown shared unknown, if_pos silent, gives]
      rfl
    exact modes_effects_of_known first
  have after : (effects (side :: shared :: rest) facts).modes =
      some ⟨oldModeOf headers, newModeOf headers⟩ := by
    obtain ⟨olds, news, -⟩ := modesOf_reordered swapped distinct
    have given : ¬ (side.oldMode? = none ∧ side.newMode? = none) := by
      rintro ⟨noOld, noNew⟩
      exact givesSide.elim (· noOld) (· noNew)
    have first : (side.effect facts).modes = some ⟨side.oldMode?, side.newMode?⟩ := by
      rw [modes_effect_of_unknown side unknown, if_neg given]
    rw [← olds, ← news, oldModeOf_cons side, newModeOf_cons side]
    exact modes_effects_of_known first
  have differ : (effects (shared :: side :: rest) facts).modes ≠
      (effects (side :: shared :: rest) facts).modes := by
    rw [before, after]
    intro same
    obtain ⟨old, new⟩ := Modes.mk.inj (Option.some.inj same)
    simp [oneSided, ← old, ← new] at sided
  by_cases same : (effects (shared :: side :: rest) facts).modes = (effects headers facts).modes
  · exact ⟨_, swapped, fun also => differ (same.trans also.symm)⟩
  · exact ⟨_, perm, same⟩

end Modes

/-- **Header lines that write different pieces of metadata can stand in any order.** Reordered lines
are accepted when these are, and the record is the same but for its modes. The modes show the order
exactly if an index line gives a mode for both sides, and one of them alone has its own. -/
theorem addAll_reordered {orig new : String} {headers : List Header}
    (distinct : (headers.map piece).Nodup) :
    let fresh := Dialect.factsOfPaths orig new
    (∀ headers', headers.Perm headers' →
      ((∃ added, addAll headers fresh = .ok added) ↔ ∃ added, addAll headers' fresh = .ok added) ∧
      ∀ added added', addAll headers fresh = .ok added → addAll headers' fresh = .ok added' →
        (Draft.ofFacts added').close =
          { (Draft.ofFacts added).close with modes := added'.modes }) ∧
    ∀ added, addAll headers fresh = .ok added →
      ((∀ headers', headers.Perm headers' → ∃ added', addAll headers' fresh = .ok added' ∧
          (Draft.ofFacts added').close = (Draft.ofFacts added).close) ↔
        oneSided headers = false) := by
  intro fresh
  have accepted {headers added} : addAll headers fresh = .ok added ↔ _ :=
    addAll_eq_ok_iff (show (fresh.deleted && fresh.placed) = false from rfl)
  have flags {headers'} (perm : headers.Perm headers') :
      ((effects headers' fresh).deleted && (effects headers' fresh).placed) =
        ((effects headers fresh).deleted && (effects headers fresh).placed) := by
    simp only [deleted_effects, placed_effects, perm.any_eq]
  refine ⟨fun headers' perm => ⟨?_, fun added added' adds adds' => ?_⟩, fun added adds => ?_⟩
  · simp only [accepted, flags perm, exists_and_left, exists_eq', and_true]
  · rw [← (accepted.1 adds).2, ← (accepted.1 adds').2]
    exact congrArg (fun facts => (Draft.ofFacts facts).close)
      (effects_reordered perm distinct fresh)
  · obtain ⟨fits, rfl⟩ := accepted.1 adds
    constructor
    · intro same
      by_contra sided
      rw [Bool.not_eq_false] at sided
      have unknown : fresh.modes = none := rfl
      obtain ⟨headers', perm, differ⟩ := exists_reordered_of_oneSided unknown distinct sided
      obtain ⟨added', adds', record⟩ := same headers' perm
      rw [← (accepted.1 adds').2] at record
      exact differ (congrArg (·.modes) record)
    · intro balanced headers' perm
      refine ⟨_, accepted.2 ⟨(flags perm).trans fits, rfl⟩, ?_⟩
      rw [effects_reordered perm distinct, modes_reordered perm distinct rfl balanced]

/-- A rename with its index line first, in any order. -/
theorem addAll_reordered_rename :
    let headers : List Header := [.index "abc1234" "def5678" (some "100644"), .renameTo "y.txt",
      .similarityIndex 80, .renameFrom "x.txt"]
    let fresh := Dialect.factsOfPaths "x.txt" "y.txt"
    (headers.map piece).Nodup ∧ ∃ added, addAll headers fresh = .ok added ∧
      ∀ headers', headers.Perm headers' → ∃ added', addAll headers' fresh = .ok added' ∧
        (Draft.ofFacts added').close = (Draft.ofFacts added).close := by
  intro headers fresh
  obtain ⟨added, adds⟩ : ∃ added, addAll headers fresh = .ok added := ⟨_, rfl⟩
  exact ⟨by decide, added, adds, ((addAll_reordered (by decide)).2 added adds).2 (by decide)⟩

/-- A new file has an old mode if its index line comes before its mode line, and none else. -/
theorem addAll_index_before_mode :
    let headers : List Header :=
      [.index "0000000" "1111111" (some "100644"), .newFileMode "100644"]
    let fresh := Dialect.factsOfPaths "x" "x"
    (headers.map piece).Nodup ∧ headers.Perm headers.reverse ∧
      (addAll headers fresh).map (·.modes) = .ok (some ⟨some "100644", some "100644"⟩) ∧
      (addAll headers.reverse fresh).map (·.modes) = .ok (some ⟨none, some "100644"⟩) := by
  intro headers fresh
  exact ⟨by decide, (List.reverse_perm headers).symm, rfl, rfl⟩

end Header

end DiffSections
