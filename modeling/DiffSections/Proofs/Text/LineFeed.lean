import DiffSections.Proofs.Line
import DiffSections.Proofs.Text.Utf8

/-!
# DiffSections.Proofs.Text.LineFeed -- where the line feeds of a text come from

Reading octets as text makes no line feeds: one in the text is one in the octets
(`lf_mem_of_mem_lossy`), for an octet that starts a longer sequence stands for no ASCII character
(`toNat_eq_of_nextPoint`). Writing a text makes none either: there are as many in the octets as in
the text (`count_lf_ofString`). So a text that ends in a line feed has as many lines as line feeds
(`Line.length_split_of_ended`).
-/

namespace DiffSections

set_option autoImplicit false

open Bytes

namespace Text

/-! ## Reading -/

/-- Continuation octets shift what is known of the code point, and add to it. -/
theorem le_of_takeTails {low high : UInt8} {owed point found : Nat} {rest later : Bytes}
    (reads : takeTails low high owed point rest = (some found, later)) :
    point * 64 ^ owed ≤ found := by
  fun_induction takeTails low high owed point rest with
  | case1 =>
      cases reads
      simp
  | case2 | case4 => cases reads
  | case3 low high owed point b rest _ ih =>
      calc point * 64 ^ (owed + 1) = point * 64 * 64 ^ owed := by rw [Nat.pow_succ']; ac_rfl
        _ ≤ (point * 64 + (b.toNat - 0x80)) * 64 ^ owed :=
            Nat.mul_le_mul_right _ (Nat.le_add_right _ _)
        _ ≤ found := ih reads

/-- The bound on the first continuation octet counts too. -/
theorem le_of_takeTails_succ {low high : UInt8} {owed point found : Nat} {rest later : Bytes}
    (reads : takeTails low high (owed + 1) point rest = (some found, later)) :
    (point * 64 + (low.toNat - 0x80)) * 64 ^ owed ≤ found := by
  cases rest with
  | nil => cases reads
  | cons b rest =>
      rw [takeTails] at reads
      split at reads
      · rename_i within
        have above : low.toNat ≤ b.toNat := within.1
        refine Nat.le_trans (Nat.mul_le_mul_right _ ?_) (le_of_takeTails reads)
        omega
      · cases reads

/-- A lead octet stands for itself, or for code points above ASCII. -/
theorem Lead.cases_of_ofByte? {b : UInt8} {lead : Lead} (starts : Lead.ofByte? b = some lead) :
    lead.tails = 0 ∧ lead.bits = b.toNat ∨
      lead.tails = lead.tails - 1 + 1 ∧
        0x80 ≤ (lead.bits * 64 + (lead.low.toNat - 0x80)) * 64 ^ (lead.tails - 1) := by
  have each : ∀ n : Fin 256, ∀ lead ∈ Lead.ofByte? (UInt8.ofNat n),
      lead.tails = 0 ∧ lead.bits = n ∨
        lead.tails = lead.tails - 1 + 1 ∧
          0x80 ≤ (lead.bits * 64 + (lead.low.toNat - 0x80)) * 64 ^ (lead.tails - 1) := by
    decide +kernel
  exact each ⟨b.toNat, b.toNat_lt⟩ lead (by rw [UInt8.ofNat_toNat]; exact starts)

/-- Only an ASCII octet is read as an ASCII character. -/
theorem toNat_eq_of_nextPoint {b : UInt8} {rest later : Bytes} {point : Nat}
    (reads : nextPoint b rest = (some point, later)) (ascii : point < 0x80) :
    b.toNat = point := by
  unfold nextPoint at reads
  split at reads
  · cases reads
  · rename_i lead starts
    rcases Lead.cases_of_ofByte? starts with ⟨alone, bits⟩ | ⟨more, above⟩
    · rw [alone, takeTails, bits] at reads
      cases reads
      rfl
    · rw [more] at reads
      have := le_of_takeTails_succ reads
      omega

theorem takeTails_isSuffix (low high : UInt8) (owed point : Nat) (rest : Bytes) :
    (takeTails low high owed point rest).2 <:+ rest := by
  fun_induction takeTails low high owed point rest with
  | case1 | case2 | case4 => exact List.suffix_refl _
  | case3 low high owed point b rest _ ih => exact ih.trans (List.suffix_cons b rest)

theorem nextPoint_isSuffix (b : UInt8) (rest : Bytes) : (nextPoint b rest).2 <:+ rest := by
  unfold nextPoint
  split
  · exact List.suffix_refl _
  · exact takeTails_isSuffix _ _ _ _ _

theorem eq_of_ofNat_eq_lineFeed {point : Nat} (same : Char.ofNat point = '\n') : point = 10 := by
  have value := congrArg Char.toNat same
  by_cases valid : point.isValidChar
  · rw [Char.ofNat, dif_pos valid] at value
    exact value
  · rw [Char.ofNat, dif_neg valid] at value
    cases value

theorem lf_mem_of_mem_chars {bytes : Bytes} (member : '\n' ∈ chars bytes) : lf ∈ bytes := by
  fun_induction chars bytes with
  | case1 => cases member
  | case2 b rest point later next ih =>
      have within : later <:+ rest := by
        have suffix := nextPoint_isSuffix b rest
        rwa [next] at suffix
      rcases List.mem_cons.1 member with here | there
      · have isTen := eq_of_ofNat_eq_lineFeed here.symm
        have octet := toNat_eq_of_nextPoint next (by omega)
        have isLf : b = lf := UInt8.toNat_inj.1 (octet.trans isTen)
        simp [isLf]
      · exact List.mem_cons_of_mem b (within.subset (ih there))
  | case3 b rest later next ih =>
      have within : later <:+ rest := by
        have suffix := nextPoint_isSuffix b rest
        rwa [next] at suffix
      have there : '\n' ∈ chars later := by
        rcases List.mem_cons.1 member with here | there
        · exact absurd here (by decide)
        · exact there
      exact List.mem_cons_of_mem b (within.subset (ih there))

/-- **Reading octets makes no line feeds.** -/
theorem lf_mem_of_mem_lossy {bytes : Bytes} (member : '\n' ∈ (lossy bytes).toList) :
    lf ∈ bytes := by
  rw [lossy, String.toList_ofList] at member
  exact lf_mem_of_mem_chars member

/-! ## Writing -/

theorem eq_of_lf_eq_ofNat {n : Nat} (isLf : lf = UInt8.ofNat n) (small : n < 256) : n = 10 := by
  have value := congrArg UInt8.toNat isLf
  rw [toNat_ofNat_of_lt small] at value
  exact value.symm

/-- Only the line feed is written with the octet LF; longer sequences have no ASCII octets. -/
theorem eq_of_lf_mem_utf8EncodeChar {c : Char} (member : lf ∈ String.utf8EncodeChar c) :
    c = '\n' := by
  have same : c.val.toNat = c.toNat := rfl
  have isTen : c.toNat = 10 := by
    unfold String.utf8EncodeChar at member
    rw [same] at member
    dsimp only at member
    split at member
    · exact eq_of_lf_eq_ofNat (List.mem_singleton.1 member) (by omega)
    · split at member
      · rcases List.mem_pair.1 member with isLf | isLf <;>
          have := eq_of_lf_eq_ofNat isLf (by omega) <;> omega
      · split at member <;> simp only [List.mem_cons, List.not_mem_nil, or_false] at member
        · rcases member with isLf | isLf | isLf <;>
            have := eq_of_lf_eq_ofNat isLf (by omega) <;> omega
        · rcases member with isLf | isLf | isLf | isLf <;>
            have := eq_of_lf_eq_ofNat isLf (by omega) <;> omega
  rw [← Char.ofNat_toNat c, isTen]

theorem count_lf_utf8EncodeChar (c : Char) :
    (String.utf8EncodeChar c).count lf = if c = '\n' then 1 else 0 := by
  by_cases feed : c = '\n'
  · subst feed
    rfl
  · rw [if_neg feed, List.count_eq_zero]
    exact fun member => feed (eq_of_lf_mem_utf8EncodeChar member)

/-- How many line feeds a text holds. -/
def lineFeeds (text : String) : Nat := text.toList.count '\n'

theorem lineFeeds_eq_zero_iff {text : String} : lineFeeds text = 0 ↔ '\n' ∉ text.toList :=
  List.count_eq_zero

@[simp] theorem lineFeeds_append (first later : String) :
    lineFeeds (first ++ later) = lineFeeds first + lineFeeds later := by
  simp [lineFeeds]

theorem lineFeeds_join (texts : List String) :
    lineFeeds (String.join texts) = (texts.map lineFeeds).sum := by
  rw [lineFeeds, String.toList_join, List.count_flatMap]
  rfl

@[simp] theorem count_lineFeed_toDigits (n : Nat) : (Nat.toDigits 10 n).count '\n' = 0 := by
  rw [List.count_eq_zero]
  intro member
  exact absurd (Nat.isDigit_of_mem_toDigits (by decide) (by decide) member) (by decide)

/-- **Writing a text makes no line feeds.** -/
theorem count_lf_ofString (text : String) : (ofString text).count lf = lineFeeds text := by
  rw [ofString_eq_flatMap, lineFeeds]
  induction text.toList with
  | nil => rfl
  | cons c cs ih =>
      rw [List.flatMap_cons, List.count_append, ih, count_lf_utf8EncodeChar, List.count_cons,
        Nat.add_comm]
      simp only [beq_iff_eq]

theorem ofString_append (first later : String) :
    ofString (first ++ later) = ofString first ++ ofString later := by
  simp only [ofString_eq_flatMap, String.toList_append, List.flatMap_append]

theorem ofString_join (texts : List String) :
    ofString (String.join texts) = (texts.map ofString).flatten := by
  induction texts with
  | nil => rfl
  | cons text texts ih =>
      rw [String.join_cons, ofString_append, ih, List.map_cons, List.flatten_cons]

end Text

/-! ## Lines -/

namespace Line

theorem length_consByte (b : UInt8) {lines : List Bytes} (nonempty : lines ≠ []) :
    (consByte b lines).length = lines.length + if b = lf then 1 else 0 := by
  cases lines with
  | nil => exact absurd rfl nonempty
  | cons line lines => by_cases isLf : b = lf <;> simp [consByte, isLf]

/-- A text that ends in a line feed has as many lines as line feeds. -/
theorem length_split_of_ended {data : Bytes} (ended : data.getLast? = some lf) :
    (split data).length = data.count lf := by
  induction data with
  | nil => cases ended
  | cons b data ih =>
      cases data with
      | nil =>
          obtain rfl : b = lf := by simpa using ended
          rfl
      | cons c data =>
          rw [List.getLast?_cons_cons] at ended
          rw [split_cons, length_consByte b (split_ne_nil (by simp)), ih ended,
            List.count_cons (b := b)]
          simp only [beq_iff_eq]

end Line

end DiffSections
