import DiffSections.Dialect.Lines
import DiffSections.Proofs.Header.Effect
import DiffSections.Proofs.Header.Grammar
import DiffSections.Proofs.Path.BoundaryForms
import DiffSections.Proofs.Path.Decoding
import DiffSections.Proofs.Text.LineFeed
import Mathlib.Data.List.Infix

/-!
# DiffSections.Proofs.Path.Source -- where on its line a path stands

Boundaries, rename and copy lines and the lines of a pair give paths. Each path is a stretch of its
line or, in a dialect with quotes, the end of what a quoted stretch is decoded to (`PathIn`). So a
path holds a line feed, which no line does, only if it is quoted and the line feed is escaped: as
the letter n or as the digits 012 behind a backslash (`PathIn.escape_of_lineFeed`).
-/

namespace DiffSections

set_option autoImplicit false

open Bytes

/-! ## Escaped line feeds -/

namespace Quoted

/-- The escapes of a line feed. -/
def lineFeedEscapes : List Bytes := [ofAscii "\\n", ofAscii "\\012"]

/-- Whether a line feed can be read of a text: one that stands there, or an escaped one. -/
def HoldsLineFeed (text : Bytes) : Prop :=
  lf ∈ text ∨ ∃ escape ∈ lineFeedEscapes, escape <:+: text

theorem HoldsLineFeed.mono {text longer : Bytes} (holds : HoldsLineFeed text)
    (within : text <:+: longer) : HoldsLineFeed longer := by
  rcases holds with plain | ⟨escape, isEscape, inText⟩
  · exact .inl (within.subset plain)
  · exact .inr ⟨escape, isEscape, inText.trans within⟩

/-- A token that stands for a line feed is one, or an escape of one. -/
theorem Token.holdsLineFeed {token : Bytes} (spells : Token token lf) : HoldsLineFeed token := by
  cases spells with
  | plain => exact .inl (by simp)
  | named names =>
      cases names
      exact .inr ⟨ofAscii "\\n", by decide, List.infix_rfl⟩
  | octal => exact .inr ⟨ofAscii "\\012", by decide, List.infix_rfl⟩

/-- A line feed is decoded of one that stands there, or of an escape. -/
theorem Loose.holdsLineFeed {text path : Bytes} (loose : Loose text path) (member : lf ∈ path) :
    HoldsLineFeed text := by
  induction loose with
  | nil => cases member
  | @token token text path octet first _ ih =>
      rcases List.mem_cons.1 member with rfl | there
      · exact first.holdsLineFeed.mono (List.prefix_append token text).isInfix
      · exact (ih there).mono (List.suffix_append token text).isInfix
  | @bareQuote text path _ ih =>
      rcases List.mem_cons.1 member with isQuote | there
      · cases isQuote
      · exact (ih there).mono (List.suffix_cons quote text).isInfix

theorem holdsLineFeed_of_decode? {raw octets : Bytes} (decodes : decode? raw = some octets)
    (member : lf ∈ octets) : HoldsLineFeed raw := by
  obtain ⟨text, rfl, loose⟩ := decode?_eq_some_iff.1 decodes
  exact (loose.holdsLineFeed member).mono
    ((List.prefix_append text [quote]).isInfix.trans (List.suffix_cons quote _).isInfix)

end Quoted

/-! ## Paths on a line -/

/-- The paths that can stand on a line with this content. -/
inductive PathIn (dialect : Dialect) (content : Bytes) : String → Prop where
  | plain {octets : Bytes} (within : octets <:+: content) :
      PathIn dialect content (Text.lossy octets)
  | quoted {raw decoded octets : Bytes} (quotes : dialect = .git) (within : raw <:+: content)
      (decodes : Quoted.decode? raw = some decoded) (stripped : octets <:+ decoded) :
      PathIn dialect content (Text.lossy octets)

namespace PathIn

variable {dialect : Dialect} {content longer raw octets : Bytes} {path : String}

theorem mono (isIn : PathIn dialect content path) (within : content <:+: longer) :
    PathIn dialect longer path := by
  cases isIn with
  | plain inContent => exact .plain (inContent.trans within)
  | quoted quotes inContent decodes stripped =>
      exact .quoted quotes (inContent.trans within) decodes stripped

/-- **A path with a line feed is quoted, and the line feed is escaped.** -/
theorem escape_of_lineFeed (isIn : PathIn dialect content path) (unbroken : lf ∉ content)
    (member : '\n' ∈ path.toList) :
    dialect = .git ∧ ∃ escape ∈ Quoted.lineFeedEscapes, escape <:+: content := by
  cases isIn with
  | plain within => exact absurd (within.subset (Text.lf_mem_of_mem_lossy member)) unbroken
  | quoted quotes within decodes stripped =>
      have decoded := stripped.subset (Text.lf_mem_of_mem_lossy member)
      have holds := (Quoted.holdsLineFeed_of_decode? decodes decoded).mono within
      exact ⟨quotes, holds.resolve_left unbroken⟩

theorem pathText (side : Side) (within : octets <:+: content) :
    PathIn dialect content (Boundary.pathText side octets) :=
  .plain ((Boundary.stripSide_isSuffix side octets).isInfix.trans within)

theorem pathText_of_decode? (side : Side) (within : raw <:+: content)
    (decodes : Quoted.decode? raw = some octets) :
    PathIn .git content (Boundary.pathText side octets) :=
  .quoted rfl within decodes (Boundary.stripSide_isSuffix side octets)

theorem pathText_of_pathOf? (side : Side) (within : raw <:+: content)
    (reads : Quoted.pathOf? raw = some octets) :
    PathIn .git content (Boundary.pathText side octets) := by
  rw [Quoted.pathOf?] at reads
  split at reads
  · exact pathText_of_decode? side within reads
  · cases reads
    exact pathText side within

end PathIn

/-! ### Boundaries -/

namespace Boundary

theorem infix_of_mem_spaceCuts {line : Bytes} {cut : Bytes × Bytes}
    (member : cut ∈ spaceCuts [] line) : cut.1.reverse <:+: line ∧ cut.2 <:+: line := by
  obtain ⟨left, rfl, front⟩ := mem_spaceCuts.1 member
  rw [front, List.append_nil, List.reverse_reverse]
  exact ⟨(List.prefix_append left _).isInfix,
    ((List.suffix_cons space cut.2).trans (List.suffix_append left _)).isInfix⟩

theorem infix_of_splitPlain? {line orig new : Bytes}
    (splits : splitPlain? line = some (orig, new)) : orig <:+: line ∧ new <:+: line := by
  obtain ⟨cut, chosen, same⟩ := Option.map_eq_some_iff.1 splits
  cases same
  apply infix_of_mem_spaceCuts
  cases symmetric : (spaceCuts [] line).find? isSymmetric with
  | some found =>
      rw [symmetric] at chosen
      cases chosen
      exact List.mem_of_find?_eq_some symmetric
  | none =>
      rw [symmetric] at chosen
      cases headed : ((spaceCuts [] line).filter fun cut =>
          startsWith cut.2 (sideHead .new)).getLast? with
      | some found =>
          rw [headed] at chosen
          cases chosen
          exact List.mem_of_mem_filter (List.mem_of_getLast? headed)
      | none =>
          rw [headed] at chosen
          exact List.mem_of_head? chosen

theorem pathIn_of_paths? {line : Bytes} {orig new : String}
    (splits : paths? line = some (orig, new)) : PathIn .git line orig ∧ PathIn .git line new := by
  obtain ⟨both, cuts, same⟩ := Option.map_eq_some_iff.1 splits
  cases same
  unfold split? at cuts
  split at cuts
  · simp only [Option.bind_eq_bind, Option.bind_eq_some_iff] at cuts
    obtain ⟨last, -, orig, decodes, rest, after, new, reads, same⟩ := cuts
    cases same
    have behind : rest <:+: line :=
      ((after?_eq_some_iff.1 after) ▸ List.suffix_append [space] rest).isInfix.trans
        (List.drop_suffix _ line).isInfix
    exact ⟨.pathText_of_decode? .orig (List.take_prefix _ line).isInfix decodes,
      .pathText_of_pathOf? .new behind reads⟩
  · split at cuts
    · rename_i before after found
      obtain ⟨new, decodes, same⟩ := Option.map_eq_some_iff.1 cuts
      cases same
      rw [quotedCut?] at found
      split at found
      · obtain ⟨inFront, behind⟩ := infix_of_mem_spaceCuts (List.mem_of_find?_eq_some found)
        exact ⟨.pathText .orig inFront, .pathText_of_decode? .new behind decodes⟩
      · cases found
    · obtain ⟨inFront, behind⟩ := infix_of_splitPlain? cuts
      exact ⟨.pathText .orig inFront, .pathText .new behind⟩

end Boundary

/-! ### Header lines -/

namespace Header

theorem pathIn_of_isPath {value : Bytes} {path : String} (isPath : HeaderValue.IsPath value path)
    {content : Bytes} (within : value <:+: content) : PathIn .git content path := by
  cases isPath with
  | quoted decodes => exact .quoted rfl within decodes (List.suffix_refl _)
  | raw => exact .plain within

theorem pathIn_of_read {line : Bytes} {header : Header} {path : String}
    (reads : read line = .ok (some header))
    (gives : header.origPath? = some path ∨ header.newPath? = some path) :
    PathIn .git line path := by
  obtain ⟨value, rfl, hasValue⟩ := read_eq_some_iff.1 reads
  have within : value <:+: header.kind.head ++ value := (List.suffix_append _ value).isInfix
  cases header with
  | renameFrom | renameTo | copyFrom | copyTo =>
      rcases gives with given | given <;> cases given
      exact pathIn_of_isPath hasValue within
  | _ => rcases gives with given | given <;> cases given

/-- A header gives a path of a file, or leaves it. -/
theorem path_of_addTo {header : Header} {facts added : FileFacts}
    (adds : header.addTo facts = .ok added) :
    (header.origPath? = some added.origPath ∨ added.origPath = facts.origPath) ∧
      (header.newPath? = some added.newPath ∨ added.newPath = facts.newPath) := by
  obtain ⟨-, -, rfl⟩ := addTo_eq_ok_iff.1 adds
  cases header <;> simp [effect, origPath?, newPath?, FileFacts.setMode, FileFacts.setInfo,
    FileFacts.noteLink, FileFacts.noteRename, FileFacts.noteCopy]

end Header

/-! ### Pairs -/

namespace Dialect

variable {dialect : Dialect} {side : Side} {rest content : Bytes}

theorem pathIn_of_pairPath? {name : Bytes} {path : String} (within : name <:+: content)
    (names : dialect.pairPath? side name = some path) : PathIn dialect content path := by
  cases dialect with
  | unified =>
      cases names
      exact .plain within
  | git =>
      rw [pairPath?] at names
      split at names
      · cases names
      · obtain ⟨octets, reads, rfl⟩ := Option.map_eq_some_iff.1 names
        exact .pathText_of_pathOf? side within reads

/-- The name on a line of a pair stands on the line. -/
theorem infix_revisionName (within : rest <:+: content) : revisionName rest <:+: content :=
  (List.takeWhile_prefix _).isInfix.trans within

/-- A line of a pair gives the path of its side, or leaves it. -/
theorem path_addRevision (dialect : Dialect) (side : Side) (within : rest <:+: content)
    (facts : FileFacts) :
    let added := dialect.addRevision side rest facts
    (PathIn dialect content added.origPath ∨ added.origPath = facts.origPath) ∧
      (PathIn dialect content added.newPath ∨ added.newPath = facts.newPath) := by
  unfold addRevision
  cases named : dialect.pairPath? side (revisionName rest) with
  | none => cases revisionInfo rest <;> cases side <;> exact ⟨.inr rfl, .inr rfl⟩
  | some path =>
      have isIn := pathIn_of_pairPath? (infix_revisionName within) named
      cases side with
      | orig => cases revisionInfo rest <;> exact ⟨.inl isIn, .inr rfl⟩
      | new => cases revisionInfo rest <;> exact ⟨.inr rfl, .inl isIn⟩

end Dialect

end DiffSections
