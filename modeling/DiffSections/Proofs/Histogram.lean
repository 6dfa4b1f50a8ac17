import DiffSections.Report.Histogram
import Mathlib.Data.UInt

/-!
# DiffSections.Proofs.Histogram -- how long bars are

The two sides of a bar are rounded down one by one, and a side that has lines and would vanish is
raised to one. That their sum is no longer than the longest bar rests on both: sides that are
rounded down only add up to no more than a whole bar (`quotient_add_le`), and where one of them is
raised the other one has fewer lines than the widest file, so that it falls short of a whole bar by
one at least (`shrink_lt`).

The lengths are reckoned in words too (`barWords?`). There the product may wrap around, and there is
no quotient by zero. Where no product of the longest bar and the widest file leaves a word, neither
happens, and the lengths are the same (`barWords?_eq`).
-/

namespace DiffSections.Histogram

set_option autoImplicit false

/-! ## One side -/

@[simp] theorem shrink_zero (widest : Nat) : shrink widest 0 = 0 := rfl

theorem shrink_of_pos (widest : Nat) {lines : Nat} (some_lines : 1 ≤ lines) :
    shrink widest lines = max (lines * longestBar / widest) 1 :=
  if_neg (Nat.ne_of_gt some_lines)

/-- **A side vanishes only if it has no lines.** -/
theorem one_le_shrink_iff {widest lines : Nat} : 1 ≤ shrink widest lines ↔ 1 ≤ lines := by
  constructor
  · intro shown
    by_contra none
    obtain rfl : lines = 0 := by omega
    rw [shrink_zero] at shown
    exact none shown
  · intro some_lines
    rw [shrink_of_pos widest some_lines]
    exact Nat.le_max_right _ _

/-- A side with more lines is not shorter. -/
theorem shrink_mono (widest : Nat) {lines more : Nat} (fewer : lines ≤ more) :
    shrink widest lines ≤ shrink widest more := by
  by_cases some_lines : 1 ≤ lines
  case pos =>
    rw [shrink_of_pos widest some_lines, shrink_of_pos widest (Nat.le_trans some_lines fewer)]
    have quotient : lines * longestBar / widest ≤ more * longestBar / widest :=
      Nat.div_le_div_right (Nat.mul_le_mul_right longestBar fewer)
    omega
  case neg =>
    obtain rfl : lines = 0 := by omega
    exact Nat.zero_le _

/-- A side that has all lines of the widest file is a whole bar. -/
theorem shrink_self {widest : Nat} (some_lines : 1 ≤ widest) :
    shrink widest widest = longestBar := by
  rw [shrink_of_pos widest some_lines, Nat.mul_div_cancel_left longestBar some_lines]
  rfl

theorem shrink_le {widest lines : Nat} (fits : lines ≤ widest) :
    shrink widest lines ≤ longestBar := by
  by_cases some_lines : 1 ≤ widest
  · exact shrink_self some_lines ▸ shrink_mono widest fits
  · obtain rfl : lines = 0 := by omega
    exact Nat.zero_le _

/-- A side with fewer lines than the widest file falls short of a whole bar. -/
theorem shrink_lt {widest lines : Nat} (fewer : lines < widest) :
    shrink widest lines < longestBar := by
  by_cases some_lines : 1 ≤ lines
  case pos =>
    have quotient : lines * longestBar / widest < longestBar := by
      rw [Nat.div_lt_iff_lt_mul (by omega), Nat.mul_comm longestBar]
      exact Nat.mul_lt_mul_of_pos_right fewer (by decide)
    rw [shrink_of_pos widest some_lines]
    exact Nat.max_lt.2 ⟨quotient, by decide⟩
  case neg =>
    obtain rfl : lines = 0 := by omega
    rw [shrink_zero]
    decide

/-! ## Both sides -/

/-- Two sides that are rounded down do not add up to more than a whole bar. -/
theorem quotient_add_le {widest insertions deletions : Nat}
    (fits : insertions + deletions ≤ widest) :
    insertions * longestBar / widest + deletions * longestBar / widest ≤ longestBar :=
  calc
    _ ≤ (insertions * longestBar + deletions * longestBar) / widest :=
        Nat.div_add_div_le_add_div ..
    _ = (insertions + deletions) * longestBar / widest := by rw [Nat.add_mul]
    _ ≤ widest * longestBar / widest :=
        Nat.div_le_div_right (Nat.mul_le_mul_right longestBar fits)
    _ ≤ longestBar := Nat.div_le_of_le_mul (Nat.le_refl _)

/-- **Two sides together are no longer than the longest bar.** -/
theorem shrink_add_le {widest insertions deletions : Nat} (fits : insertions + deletions ≤ widest) :
    shrink widest insertions + shrink widest deletions ≤ longestBar := by
  by_cases gains : 1 ≤ insertions
  case neg =>
    obtain rfl : insertions = 0 := by omega
    rw [shrink_zero, Nat.zero_add]
    exact shrink_le (by omega)
  by_cases loses : 1 ≤ deletions
  case neg =>
    obtain rfl : deletions = 0 := by omega
    rw [shrink_zero, Nat.add_zero]
    exact shrink_le (by omega)
  have plus := shrink_of_pos widest gains
  have minus := shrink_of_pos widest loses
  have rounded := quotient_add_le fits
  have shortPlus : shrink widest insertions < longestBar := shrink_lt (by omega)
  have shortMinus : shrink widest deletions < longestBar := shrink_lt (by omega)
  -- Only a side of length zero is raised, to one; the other one then leaves room for it.
  omega

theorem barLengths_of_wide {widest : Nat} (wide : longestBar < widest)
    (insertions deletions : Nat) :
    barLengths insertions deletions widest = (shrink widest insertions, shrink widest deletions) :=
  if_neg (Nat.not_le.2 wide)

theorem barLengths_of_narrow {widest : Nat} (narrow : widest ≤ longestBar)
    (insertions deletions : Nat) :
    barLengths insertions deletions widest = (insertions, deletions) :=
  if_pos narrow

/-- What a bar shows: it is not too long, and a side is left out only if it has no lines. -/
structure Fits (lengths : Nat × Nat) (insertions deletions : Nat) : Prop where
  sum_le : lengths.1 + lengths.2 ≤ longestBar
  plus : 1 ≤ lengths.1 ↔ 1 ≤ insertions
  minus : 1 ≤ lengths.2 ↔ 1 ≤ deletions

theorem fits_barLengths {widest insertions deletions : Nat}
    (fits : insertions + deletions ≤ widest) :
    Fits (barLengths insertions deletions widest) insertions deletions := by
  by_cases narrow : widest ≤ longestBar
  · rw [barLengths_of_narrow narrow]
    exact ⟨Nat.le_trans fits narrow, Iff.rfl, Iff.rfl⟩
  · rw [barLengths_of_wide (Nat.lt_of_not_le narrow)]
    exact ⟨shrink_add_le fits, one_le_shrink_iff, one_le_shrink_iff⟩

/-- Each side grows with its own lines, whatever the other one has. -/
theorem barLengths_mono (widest : Nat) {insertions insertions' deletions deletions' : Nat} :
    (insertions ≤ insertions' →
      (barLengths insertions deletions widest).1 ≤ (barLengths insertions' deletions' widest).1) ∧
    (deletions ≤ deletions' →
      (barLengths insertions deletions widest).2 ≤
        (barLengths insertions' deletions' widest).2) := by
  by_cases narrow : widest ≤ longestBar
  · simp only [barLengths_of_narrow narrow]
    exact ⟨id, id⟩
  · simp only [barLengths_of_wide (Nat.lt_of_not_le narrow)]
    exact ⟨shrink_mono widest, shrink_mono widest⟩

/-! ## In words -/

/-- The length of one side, reckoned in words. There is no quotient by zero. -/
def shrinkWord? (widest lines : UInt64) : Option UInt64 :=
  if lines = 0 then some 0
  else if widest = 0 then none
  else some (max (lines * UInt64.ofNat longestBar / widest) 1)

/-- The lengths of both sides, reckoned in words. -/
def barWords? (insertions deletions widest : UInt64) : Option (UInt64 × UInt64) :=
  if widest ≤ UInt64.ofNat longestBar then some (insertions, deletions)
  else do
    let plus ← shrinkWord? widest insertions
    let minus ← shrinkWord? widest deletions
    return (plus, minus)

theorem toNat_longestBar : (UInt64.ofNat longestBar).toNat = longestBar := rfl

/-- A side that is not longer than the widest file is reckoned without wrapping around. -/
theorem shrinkWord?_eq {widest lines : UInt64} (wide : longestBar < widest.toNat)
    (fits : lines.toNat ≤ widest.toNat) (inWord : longestBar * widest.toNat < wordLimit) :
    ∃ side, shrinkWord? widest lines = some side ∧
      side.toNat = shrink widest.toNat lines.toNat := by
  have divisor : widest ≠ 0 := by
    rintro rfl
    exact Nat.not_lt_zero longestBar wide
  by_cases none : lines = 0
  case pos =>
    subst none
    exact ⟨0, rfl, rfl⟩
  case neg =>
    have some_lines : 1 ≤ lines.toNat := by
      have nonzero : lines.toNat ≠ 0 := fun zero => none (UInt64.toNat_inj.1 zero)
      omega
    have product : lines.toNat * longestBar < 2 ^ 64 := by
      rw [Nat.mul_comm]
      exact Nat.lt_of_le_of_lt (Nat.mul_le_mul_left longestBar fits) inWord
    refine ⟨max (lines * UInt64.ofNat longestBar / widest) 1, ?_, ?_⟩
    · rw [shrinkWord?, if_neg none, if_neg divisor]
    · rw [shrink_of_pos _ some_lines, UInt64.toNat_max, UInt64.toNat_div, UInt64.toNat_mul,
        toNat_longestBar, Nat.mod_eq_of_lt product]
      rfl

/-- **Reckoning in words gives the same lengths**, and divides by no zero. -/
theorem barWords?_eq {insertions deletions widest : UInt64}
    (fits : insertions.toNat + deletions.toNat ≤ widest.toNat)
    (inWord : longestBar * widest.toNat < wordLimit) :
    (barWords? insertions deletions widest).map (fun side => (side.1.toNat, side.2.toNat)) =
      some (barLengths insertions.toNat deletions.toNat widest.toNat) := by
  by_cases narrow : widest.toNat ≤ longestBar
  case pos =>
    have narrowWord : widest ≤ UInt64.ofNat longestBar := UInt64.le_iff_toNat_le.2 narrow
    rw [barWords?, if_pos narrowWord, barLengths_of_narrow narrow]
    rfl
  case neg =>
    have wide := Nat.lt_of_not_le narrow
    have wideWord : ¬ widest ≤ UInt64.ofNat longestBar :=
      fun below => narrow (UInt64.le_iff_toNat_le.1 below)
    have fitsPlus : insertions.toNat ≤ widest.toNat := by omega
    have fitsMinus : deletions.toNat ≤ widest.toNat := by omega
    obtain ⟨plus, gains, plusLength⟩ := shrinkWord?_eq wide fitsPlus inWord
    obtain ⟨minus, loses, minusLength⟩ := shrinkWord?_eq wide fitsMinus inWord
    rw [barWords?, if_neg wideWord, gains, loses, barLengths_of_wide wide, ← plusLength,
      ← minusLength]
    rfl

/-! ## What is printed -/

theorem le_foldl_max (counts : List Nat) (init : Nat) :
    init ≤ counts.foldl max init ∧ ∀ count ∈ counts, count ≤ counts.foldl max init := by
  induction counts generalizing init with
  | nil => exact ⟨Nat.le_refl init, nofun⟩
  | cons first counts ih =>
      obtain ⟨above, members⟩ := ih (max init first)
      rw [List.foldl_cons, List.forall_mem_cons]
      exact ⟨Nat.le_trans (Nat.le_max_left ..) above, Nat.le_trans (Nat.le_max_right ..) above,
        members⟩

theorem changed_le_widest {rows : List FileRow} {row : FileRow} (member : row ∈ rows) :
    row.changed ≤ widest rows :=
  (le_foldl_max (rows.map FileRow.changed) 0).2 _ (List.mem_map_of_mem member)

/-- A line ends in its bar, or in a word for what has none. -/
theorem exists_lead_lines (rows : List FileRow) :
    ∃ lead : FileRow → String, lines rows = rows.map fun row =>
      lead row ++ (if row.binary then "Bin" else bar (widest rows) row) ++ "\n" := by
  let path (row : FileRow) : String :=
    " " ++ padRight ((rows.map fun row => row.newPath.length).foldl max 0) row.newPath ++ " | "
  let count (row : FileRow) : String :=
    if row.binary then "" else padLeft (toString (widest rows)).length (toString row.changed)
  refine ⟨fun row => path row ++ count row, List.map_congr_left fun row _ => ?_⟩
  cases binary : row.binary <;> simp [line, detail, path, count, binary, String.append_assoc]

/-- **Bars fit.** No bar of a file that changes no more lines than the widest one is longer than the
longest bar, and no side of it that has lines is left out. Each side grows with its own lines; one
that has all lines of a file that is wider than the longest bar is just as long as that. In words
the same lengths are reckoned, and no quotient is by zero, as long as the product of the longest bar
and the widest file is a word. The bars in the statistics are such bars. -/
theorem bars_fit :
    (∀ insertions deletions widest, insertions + deletions ≤ widest →
      Fits (barLengths insertions deletions widest) insertions deletions) ∧
    (∀ widest insertions insertions' deletions deletions',
      (insertions ≤ insertions' →
        (barLengths insertions deletions widest).1 ≤
          (barLengths insertions' deletions' widest).1) ∧
      (deletions ≤ deletions' →
        (barLengths insertions deletions widest).2 ≤
          (barLengths insertions' deletions' widest).2)) ∧
    (∀ widest, longestBar < widest →
      barLengths widest 0 widest = (longestBar, 0) ∧
        barLengths 0 widest widest = (0, longestBar)) ∧
    (∀ insertions deletions widest : UInt64,
      insertions.toNat + deletions.toNat ≤ widest.toNat →
      longestBar * widest.toNat < wordLimit →
      (barWords? insertions deletions widest).map (fun side => (side.1.toNat, side.2.toNat)) =
        some (barLengths insertions.toNat deletions.toNat widest.toNat)) ∧
    (∀ rows : List FileRow,
      (∃ lead : FileRow → String, lines rows = rows.map fun row =>
        lead row ++ (if row.binary then "Bin" else bar (widest rows) row) ++ "\n") ∧
      ∀ row ∈ rows, ∃ plus minus,
        bar (widest rows) row =
          (if plus + minus = 0 then "" else " " ++ repeated '+' plus ++ repeated '-' minus) ∧
        Fits (plus, minus) row.insertions row.deletions) := by
  refine ⟨fun _ _ _ => fits_barLengths, fun widest _ _ _ _ => barLengths_mono widest, ?_,
    fun _ _ _ => barWords?_eq, fun rows => ⟨exists_lead_lines rows, ?_⟩⟩
  · intro widest wide
    have whole : shrink widest widest = longestBar := shrink_self (by omega)
    rw [barLengths_of_wide wide, barLengths_of_wide wide, whole, shrink_zero]
    exact ⟨rfl, rfl⟩
  · intro row member
    let lengths := barLengths row.insertions row.deletions (widest rows)
    exact ⟨lengths.1, lengths.2, rfl, fits_barLengths (changed_le_widest member)⟩

/-- One line against seventy-nine: the short side is raised, and the long one leaves room for it. -/
theorem bars_fit_one_against_many :
    let few : FileRow :=
      { origPath := "a", newPath := "a", change := .modified, binary := false, insertions := 1,
        deletions := 79, hunks := 1, similarity := none, modes := none }
    let more : FileRow := { few with insertions := 3, deletions := 0 }
    barLengths 1 79 80 = (1, 39) ∧ Fits (barLengths 1 79 80) 1 79 ∧
    (barLengths 1 79 80).1 ≤ (barLengths 3 0 80).1 ∧
    (barLengths 3 0 80).2 ≤ (barLengths 1 79 80).2 ∧
    barLengths 80 0 80 = (longestBar, 0) ∧
    (barWords? 1 79 80).map (fun side => (side.1.toNat, side.2.toNat)) = some (1, 39) ∧
    bar (widest [few, more]) more = " +" ∧
    ∃ plus minus, bar (widest [few, more]) more =
        (if plus + minus = 0 then "" else " " ++ repeated '+' plus ++ repeated '-' minus) ∧
      Fits (plus, minus) 3 0 := by
  intro few more
  obtain ⟨fits, grows, whole, words, printed⟩ := bars_fit
  exact ⟨by decide, fits 1 79 80 (by decide), (grows 80 1 3 79 0).1 (by decide),
    (grows 80 3 1 0 79).2 (by decide), (whole 80 (by decide)).1,
    words 1 79 80 (by decide) (by decide), by decide +kernel,
    (printed [few, more]).2 more (by simp)⟩

end DiffSections.Histogram
