import DiffSections.Proofs.Path.Spelling
import Mathlib.Data.List.Basic

/-!
# DiffSections.Proofs.Path.Decoding -- which texts are decoded as quoted paths

`Quoted.decode?` takes a quote off either end of a text and undoes the escapes of what is left. It
does not look for quotes there. So what it decodes are the spellings of paths, and besides them
the texts in which a quote stands bare (`Loose`), as if the string went on behind it
(`decode?_eq_some_iff`).

`Quoted.endIndex?` sees that such a string ends early. A text is a spelling exactly if it is decoded
and its string is not closed before its last octet; the other texts that are decoded are closed
before that, and what stands behind the closing quote is taken for a part of the path
(`decode?_grammar`).
-/

namespace DiffSections.Quoted

set_option autoImplicit false

open Bytes

/-- What the text between two quotes may be to be decoded: tokens, and quotes that stand bare. -/
inductive Loose : Bytes → Bytes → Prop where
  | nil : Loose [] []
  | token {token text path : Bytes} {octet : UInt8} (first : Token token octet)
      (later : Loose text path) : Loose (token ++ text) (octet :: path)
  | bareQuote {text path : Bytes} (later : Loose text path) : Loose (quote :: text) (quote :: path)

variable {text raw path rest : Bytes} {octet : UInt8}

/-! ## What is decoded -/

theorem Loose.unescape? (loose : Loose text path) : Quoted.unescape? text = some path := by
  induction loose with
  | nil => rfl
  | token first _ ih => rw [first.unescape?, ih, Option.map_some]
  | @bareQuote text path _ ih =>
      have bare : Quoted.unescape? (quote :: text) =
          (Quoted.unescape? text).map (quote :: ·) := by
        rw [Quoted.unescape?.eq_def]
        rfl
      rw [bare, ih, Option.map_some]

theorem names_of_lookup {letter : UInt8} (found : Quoted.named.lookup letter = some octet) :
    Names letter octet := by
  obtain ⟨before, after, split, -⟩ := List.lookup_eq_some_iff.1 found
  have member : (letter, octet) ∈ Quoted.named := by simp [split]
  simp only [Quoted.named, List.mem_cons, Prod.mk.injEq, List.not_mem_nil, or_false] at member
  rcases member with ⟨rfl, rfl⟩ | ⟨rfl, rfl⟩ | ⟨rfl, rfl⟩ | ⟨rfl, rfl⟩ | ⟨rfl, rfl⟩ | ⟨rfl, rfl⟩ |
    ⟨rfl, rfl⟩ | ⟨rfl, rfl⟩ | ⟨rfl, rfl⟩ <;> constructor

/-- Three octal digits that are read are those of the octet. -/
theorem octalDigits_of_octal? {a b c : UInt8} (reads : octal? a b c = some octet) :
    [a, b, c] = octalDigits octet := by
  unfold octal? at reads
  split at reads
  · rename_i digits
    simp only [isOctalDigit, Bool.and_eq_true, decide_eq_true_eq, UInt8.le_iff_toNat_le,
      UInt8.reduceToNat] at digits
    have value : octet.toNat =
        (a.toNat - 48) * 64 + (b.toNat - 48) * 8 + (c.toNat - 48) := by
      rw [← Option.some.inj reads]
      exact UInt8.toNat_ofNat_of_lt' (by simp only [digitValue, UInt8.size]; omega)
    have base : zero.toNat = 48 := rfl
    simp only [octalDigits, List.cons.injEq, and_true, ← UInt8.toNat_inj, UInt8.toNat_add,
      UInt8.toNat_div, UInt8.toNat_mod, UInt8.reduceToNat, value, base]
    omega
  · cases reads

/-- **What is unescaped is loose.** -/
theorem loose_of_unescape? (decodes : unescape? text = some path) : Loose text path := by
  fun_induction unescape? text generalizing path with
  | case1 =>
      cases decodes
      exact .nil
  | case2 | case5 | case6 => cases decodes
  | case3 letter rest octet names ih =>
      obtain ⟨later, decodesLater, rfl⟩ := Option.map_eq_some_iff.1 decodes
      exact .token (.named (names_of_lookup names)) (ih decodesLater)
  | case4 a _ b c rest octet digits ih =>
      obtain ⟨later, decodesLater, rfl⟩ := Option.map_eq_some_iff.1 decodes
      have isToken : Token (backslash :: [a, b, c]) octet := by
        rw [octalDigits_of_octal? digits]
        exact .octal octet
      exact .token isToken (ih decodesLater)
  | case7 b rest notBackslash ih =>
      obtain ⟨later, decodesLater, rfl⟩ := Option.map_eq_some_iff.1 decodes
      by_cases isQuote : b = quote
      · subst isQuote
        exact .bareQuote (ih decodesLater)
      · exact .token (.plain isQuote notBackslash) (ih decodesLater)

/-- **What is decoded is loose between two quotes.** -/
theorem decode?_eq_some_iff :
    decode? raw = some path ↔ ∃ text, raw = quote :: (text ++ [quote]) ∧ Loose text path := by
  constructor
  · intro decodes
    cases raw with
    | nil => cases decodes
    | cons b rest =>
        rw [decode?] at decodes
        split at decodes
        · rename_i quoted
          obtain ⟨text, rfl⟩ := List.getLast?_eq_some_iff.1 quoted.2
          rw [List.dropLast_concat] at decodes
          exact ⟨text, by rw [quoted.1], loose_of_unescape? decodes⟩
        · cases decodes
  · rintro ⟨text, rfl, loose⟩
    rw [decode?, if_pos ⟨rfl, List.getLast?_concat⟩, List.dropLast_concat, loose.unescape?]

/-! ## Where a string that is decoded closes -/

/-- A loose text is a spelling, or holds a quote that closes the string. -/
theorem Loose.spells_or_closes (loose : Loose text path) (index : Nat) (rest : Bytes) :
    Spells text path ∨
      ∃ last, endIndexFrom? false index (text ++ rest) = some last ∧
        last < index + text.length := by
  induction loose generalizing index with
  | nil => exact .inl .nil
  | @token token text path octet first _ ih =>
      rw [List.append_assoc, first.endIndexFrom?]
      rcases ih (index + token.length) with spells | ⟨last, closes, early⟩
      · exact .inl (.cons first spells)
      · exact .inr ⟨last, closes, by rw [List.length_append]; omega⟩
  | bareQuote => exact .inr ⟨index, rfl, by simp⟩

/-- What is decoded is a spelling, or is closed before its end. -/
theorem quotes_or_closes (decodes : decode? raw = some path) :
    Quotes raw path ∨ ∃ last, endIndex? raw = some last ∧ last < raw.length - 1 := by
  obtain ⟨text, rfl, loose⟩ := decode?_eq_some_iff.1 decodes
  rcases loose.spells_or_closes 1 [quote] with spells | ⟨last, closes, early⟩
  · exact .inl ⟨text, rfl, spells⟩
  · exact .inr ⟨last, closes, by simp; omega⟩

theorem Quotes.endIndex?_eq (quotes : Quotes raw path) :
    Quoted.endIndex? raw = some (raw.length - 1) := by
  have ends := quotes.endIndex? []
  rwa [List.append_nil] at ends

/-- **What is decoded is loose, and the spellings are what is decoded and closed at its end only.**
Any other text that is decoded is closed before its end. -/
theorem decode?_grammar (raw path : Bytes) :
    (decode? raw = some path ↔ ∃ text, raw = quote :: (text ++ [quote]) ∧ Loose text path) ∧
    (Quotes raw path ↔ decode? raw = some path ∧ endIndex? raw = some (raw.length - 1)) ∧
    (decode? raw = some path ∧ ¬ Quotes raw path ↔
      decode? raw = some path ∧ ∃ last, endIndex? raw = some last ∧ last < raw.length - 1) := by
  refine ⟨decode?_eq_some_iff, ⟨fun quotes => ⟨quotes.decode?, quotes.endIndex?_eq⟩, ?_⟩, ?_⟩
  · rintro ⟨decodes, ends⟩
    refine (quotes_or_closes decodes).resolve_right ?_
    rintro ⟨last, closes, early⟩
    rw [ends, Option.some.injEq] at closes
    omega
  · refine and_congr_right fun decodes => ⟨(quotes_or_closes decodes).resolve_left, ?_⟩
    rintro ⟨last, closes, early⟩ quotes
    rw [quotes.endIndex?_eq, Option.some.injEq] at closes
    omega

/-- The string closes behind the `a`, and what follows is taken for a part of the path. -/
theorem decode?_text_behind_quote :
    let raw := ofAscii "\"a\"b\""
    decode? raw = some (ofAscii "a\"b") ∧ endIndex? raw = some 2 ∧ ∀ path, ¬ Quotes raw path := by
  intro raw
  have closes : endIndex? raw = some 2 := by decide
  refine ⟨by decide, closes, fun path quotes => ?_⟩
  rw [quotes.endIndex?_eq] at closes
  exact absurd closes (by decide)

end DiffSections.Quoted
