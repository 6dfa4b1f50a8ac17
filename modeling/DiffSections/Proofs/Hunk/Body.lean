import DiffSections.File.Facts
import DiffSections.Hunk.Header
import DiffSections.Line

/-!
# DiffSections.Proofs.Hunk.Body -- what a hunk is after some of its body lines

`Hunk.Body` relates the hunk that a header declares to the hunk that it has become after some lines
of its body, together with the lines still owed and the kind of the last body line. It grows by one
line at the end, as the reader does. What the lines say about the hunk is read off by induction on
it: the counts of the hunk are the numbers of lines of each kind, and the declared ranges are the
lines taken and the lines owed (`Body.accounts`).
-/

namespace DiffSections

set_option autoImplicit false

/-- Whether a body line of this kind stands on a side. -/
def BodyKind.standsOn : BodyKind → Side → Bool
  | .context, _ => true
  | .removed, side => side = .orig
  | .added, side => side = .new

theorem BodyLine.ofContent?_of_backslash {content : Bytes}
    (marks : content.head? = some Bytes.backslash) : ofContent? content = some .marker := by
  cases content with
  | nil => cases marks
  | cons b rest =>
      cases marks
      rfl

namespace Hunk

/-- A hunk as its header declares it, before any line of its body. -/
def declared (hunk : Hunk) : Hunk :=
  { hunk with insertions := 0, deletions := 0, origUnended := false, newUnended := false }

/-- Whether the hunk says of a side that its last line has no line end. -/
def unended (hunk : Hunk) : Side → Bool
  | .orig => hunk.origUnended
  | .new => hunk.newUnended

@[simp] theorem unended_count (hunk : Hunk) (kind : BodyKind) (side : Side) :
    (hunk.count kind).unended side = hunk.unended side := by
  cases kind <;> rfl

@[simp] theorem unended_markUnended (hunk : Hunk) (kind : BodyKind) (side : Side) :
    (hunk.markUnended kind).unended side = (hunk.unended side || kind.standsOn side) := by
  cases kind <;> cases side <;> simp [unended, markUnended, BodyKind.standsOn]

@[simp] theorem declared_count (hunk : Hunk) (kind : BodyKind) :
    (hunk.count kind).declared = hunk.declared := by
  cases kind <;> rfl

@[simp] theorem declared_markUnended (hunk : Hunk) (kind : BodyKind) :
    (hunk.markUnended kind).declared = hunk.declared := by
  cases kind <;> rfl

/-- A header declares ranges and a heading only. -/
theorem declared_of_ofHeader? {line : Bytes} {hunk : Hunk} (opens : ofHeader? line = some hunk) :
    hunk.declared = hunk := by
  simp only [ofHeader?, Option.bind_eq_bind, Option.bind_eq_some_iff, Option.pure_def,
    Option.some.injEq, Prod.exists] at opens
  obtain ⟨_, -, _, _, _, -, _, -, _, _, _, -, _, -, rfl⟩ := opens
  rfl

/-- The hunk that `opened` has become after the lines `body`: what it owes then, and the kind of
its last body line. -/
inductive Body (opened : Hunk) : List Bytes → Hunk → Remaining → Option BodyKind → Prop where
  | empty : Body opened [] opened (Remaining.ofHunk opened) none
  | change {lines : List Bytes} {hunk : Hunk} {left after : Remaining} {last : Option BodyKind}
      {line : Bytes} {kind : BodyKind}
      (before : Body opened lines hunk left last)
      (body : BodyLine.ofContent? (Line.content line) = some (.change kind))
      (fits : left.take? kind = some after) :
      Body opened (lines ++ [line]) (hunk.count kind) after (some kind)
  | marker {lines : List Bytes} {hunk : Hunk} {left : Remaining} {line : Bytes} {kind : BodyKind}
      (before : Body opened lines hunk left (some kind))
      (body : BodyLine.ofContent? (Line.content line) = some .marker) :
      Body opened (lines ++ [line]) (hunk.markUnended kind) left (some kind)

/-- How many of these lines are body lines of a kind. -/
def countKind (kind : BodyKind) (lines : List Bytes) : Nat :=
  lines.countP fun line => BodyLine.ofContent? (Line.content line) = some (.change kind)

/-- The lines of `body` are what the hunk counts and, but for the lines owed, what it declares. -/
structure Accounts (hunk : Hunk) (body : List Bytes) (left : Remaining) : Prop where
  bodyLines : ∀ line ∈ body, BodyLine.ofContent? (Line.content line) ≠ none
  insertions : hunk.insertions = countKind .added body
  deletions : hunk.deletions = countKind .removed body
  origLen : hunk.origLen = hunk.deletions + countKind .context body + left.orig
  newLen : hunk.newLen = hunk.insertions + countKind .context body + left.new

variable {opened hunk : Hunk} {lines : List Bytes} {line : Bytes} {left after : Remaining}
  {last : Option BodyKind} {kind : BodyKind}

theorem insertions_count (hunk : Hunk) (kind : BodyKind) :
    (hunk.count kind).insertions = hunk.insertions + if kind = .added then 1 else 0 := by
  cases kind <;> rfl

theorem deletions_count (hunk : Hunk) (kind : BodyKind) :
    (hunk.count kind).deletions = hunk.deletions + if kind = .removed then 1 else 0 := by
  cases kind <;> rfl

theorem insertions_markUnended (hunk : Hunk) (kind : BodyKind) :
    (hunk.markUnended kind).insertions = hunk.insertions := by
  cases kind <;> rfl

theorem deletions_markUnended (hunk : Hunk) (kind : BodyKind) :
    (hunk.markUnended kind).deletions = hunk.deletions := by
  cases kind <;> rfl

theorem countKind_append_change (counted : BodyKind)
    (body : BodyLine.ofContent? (Line.content line) = some (.change kind)) :
    countKind counted (lines ++ [line]) =
      countKind counted lines + if kind = counted then 1 else 0 := by
  simp [countKind, List.countP_append, List.countP_cons, body]

theorem countKind_append_marker (counted : BodyKind)
    (body : BodyLine.ofContent? (Line.content line) = some .marker) :
    countKind counted (lines ++ [line]) = countKind counted lines := by
  simp [countKind, List.countP_append, body]

theorem bodyLines_append (early : ∀ line ∈ lines, BodyLine.ofContent? (Line.content line) ≠ none)
    (body : BodyLine.ofContent? (Line.content line) ≠ none) :
    ∀ other ∈ lines ++ [line], BodyLine.ofContent? (Line.content other) ≠ none := by
  intro other member
  rcases List.mem_append.1 member with before | here
  · exact early other before
  · rw [List.mem_singleton.1 here]
    exact body

theorem Accounts.change (accounts : hunk.Accounts lines left)
    (body : BodyLine.ofContent? (Line.content line) = some (.change kind))
    (fits : left.take? kind = some after) :
    (hunk.count kind).Accounts (lines ++ [line]) after := by
  obtain ⟨orig, new⟩ := Remaining.take?_eq_some_iff.1 fits
  have origLen := accounts.origLen
  have newLen := accounts.newLen
  have sameOrig : (hunk.count kind).origLen = hunk.origLen := by cases kind <;> rfl
  have sameNew : (hunk.count kind).newLen = hunk.newLen := by cases kind <;> rfl
  refine ⟨bodyLines_append accounts.bodyLines (by simp [body]), ?_, ?_, ?_, ?_⟩
  · rw [insertions_count, countKind_append_change _ body, accounts.insertions]
  · rw [deletions_count, countKind_append_change _ body, accounts.deletions]
  · rw [sameOrig, deletions_count, countKind_append_change _ body, origLen, orig]
    cases kind <;> simp <;> omega
  · rw [sameNew, insertions_count, countKind_append_change _ body, newLen, new]
    cases kind <;> simp <;> omega

theorem Accounts.marker (accounts : hunk.Accounts lines left)
    (body : BodyLine.ofContent? (Line.content line) = some .marker) :
    (hunk.markUnended kind).Accounts (lines ++ [line]) left := by
  have sameOrig : (hunk.markUnended kind).origLen = hunk.origLen := by cases kind <;> rfl
  have sameNew : (hunk.markUnended kind).newLen = hunk.newLen := by cases kind <;> rfl
  refine ⟨bodyLines_append accounts.bodyLines (by simp [body]), ?_, ?_, ?_, ?_⟩
  · rw [insertions_markUnended, countKind_append_marker _ body, accounts.insertions]
  · rw [deletions_markUnended, countKind_append_marker _ body, accounts.deletions]
  · rw [sameOrig, deletions_markUnended, countKind_append_marker _ body, accounts.origLen]
  · rw [sameNew, insertions_markUnended, countKind_append_marker _ body, accounts.newLen]

/-- A hunk accounts for its body, whatever lines it still owes. -/
theorem Body.accounts (unread : opened.declared = opened)
    (body : Body opened lines hunk left last) :
    hunk.declared = opened ∧ hunk.Accounts lines left := by
  induction body with
  | empty =>
      have insertions : opened.insertions = 0 := by rw [← unread]; rfl
      have deletions : opened.deletions = 0 := by rw [← unread]; rfl
      exact ⟨unread, by simp, by simp [countKind, insertions], by simp [countKind, deletions],
        by simp [countKind, deletions, Remaining.ofHunk],
        by simp [countKind, insertions, Remaining.ofHunk]⟩
  | change _ body fits ih =>
      obtain ⟨same, accounts⟩ := ih
      exact ⟨by rw [declared_count, same], accounts.change body fits⟩
  | marker _ body ih =>
      obtain ⟨same, accounts⟩ := ih
      exact ⟨by rw [declared_markUnended, same], accounts.marker body⟩

end Hunk

end DiffSections
