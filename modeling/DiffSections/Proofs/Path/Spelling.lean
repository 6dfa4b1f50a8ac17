import DiffSections.Path.Quoted

/-!
# DiffSections.Proofs.Path.Spelling -- the ways to write a path between quotes

Between quotes an octet is written as it is, unless it is a quote or a backslash, or behind a
backslash: by the letter that names it, or by its three octal digits (`Quoted.Token`). A path is
spelled octet by octet (`Quoted.Spells`), and so in many ways.

All of them are read alike. A spelling between quotes is decoded to the path that it spells
(`Quotes.decode?`). In a longer text it ends where its own quote is (`Quotes.endIndex?`), for no
token holds a quote that no backslash takes.
-/

namespace DiffSections.Quoted

set_option autoImplicit false

open Bytes

/-! ## Spellings -/

/-- The letters that name an octet behind a backslash. -/
inductive Names : UInt8 → UInt8 → Prop where
  | alert : Names 97 7
  | backspace : Names 98 8
  | tab : Names 116 tab
  | lineFeed : Names 110 lf
  | verticalTab : Names 118 11
  | formFeed : Names 102 12
  | carriageReturn : Names 114 cr
  | quote : Names quote quote
  | backslash : Names backslash backslash

/-- The three octal digits of an octet. -/
def octalDigits (octet : UInt8) : Bytes :=
  [zero + octet / 64, zero + octet / 8 % 8, zero + octet % 8]

/-- The ways to write an octet between quotes. -/
inductive Token : Bytes → UInt8 → Prop where
  | plain {octet : UInt8} (notQuote : octet ≠ quote) (notBackslash : octet ≠ backslash) :
      Token [octet] octet
  | named {letter octet : UInt8} (names : Names letter octet) : Token [backslash, letter] octet
  | octal (octet : UInt8) : Token (backslash :: octalDigits octet) octet

/-- A text that spells a path, octet by octet. -/
inductive Spells : Bytes → Bytes → Prop where
  | nil : Spells [] []
  | cons {token text path : Bytes} {octet : UInt8} (first : Token token octet)
      (later : Spells text path) : Spells (token ++ text) (octet :: path)

/-- A spelling of a path between its quotes. -/
def Quotes (raw path : Bytes) : Prop :=
  ∃ text, raw = quote :: (text ++ [quote]) ∧ Spells text path

/-! ## Every token is decoded -/

theorem Names.lookup {letter octet : UInt8} (names : Names letter octet) :
    Quoted.named.lookup letter = some octet := by
  cases names <;> rfl

/-- The digits of an octet are octal, and name nothing themselves. -/
theorem octal?_octalDigits (octet : UInt8) :
    Quoted.named.lookup (zero + octet / 64) = none ∧
      octal? (zero + octet / 64) (zero + octet / 8 % 8) (zero + octet % 8) = some octet := by
  have each : ∀ n : Fin 256, let octet := UInt8.ofNat n
      Quoted.named.lookup (zero + octet / 64) = none ∧
        octal? (zero + octet / 64) (zero + octet / 8 % 8) (zero + octet % 8) = some octet := by
    decide +kernel
  simpa using each ⟨octet.toNat, octet.toNat_lt⟩

variable {token text raw path : Bytes} {octet : UInt8}

theorem Token.unescape? (isToken : Token token octet) (text : Bytes) :
    Quoted.unescape? (token ++ text) = (Quoted.unescape? text).map (octet :: ·) := by
  rw [Quoted.unescape?.eq_def]
  cases isToken with
  | plain _ notBackslash => simp [notBackslash]
  | named names => simp [names.lookup]
  | octal =>
      obtain ⟨unnamed, digits⟩ := octal?_octalDigits octet
      simp [octalDigits, unnamed, digits]

theorem Spells.unescape? (spells : Spells text path) : Quoted.unescape? text = some path := by
  induction spells with
  | nil => rfl
  | cons first _ ih => rw [first.unescape?, ih, Option.map_some]

/-- **A spelling between quotes is decoded to what it spells.** -/
theorem Quotes.decode? (quotes : Quotes raw path) : Quoted.decode? raw = some path := by
  obtain ⟨text, rfl, spells⟩ := quotes
  rw [Quoted.decode?, if_pos ⟨rfl, List.getLast?_concat⟩, List.dropLast_concat, spells.unescape?]

/-! ## The quote that closes a spelling -/

/-- No octal digit is a quote or a backslash. -/
theorem ne_of_mem_octalDigits {b : UInt8} (member : b ∈ octalDigits octet) :
    b ≠ quote ∧ b ≠ backslash := by
  have each : ∀ n : Fin 256,
      (octalDigits (UInt8.ofNat n)).all (fun b => b != quote && b != backslash) = true := by
    decide +kernel
  have digits := each ⟨octet.toNat, octet.toNat_lt⟩
  rw [UInt8.ofNat_toNat] at digits
  simpa using List.all_eq_true.1 digits b member

/-- Plain octets are passed over. -/
theorem endIndexFrom?_append {plain : Bytes} (notEnd : ∀ b ∈ plain, b ≠ quote ∧ b ≠ backslash)
    (index : Nat) (rest : Bytes) :
    endIndexFrom? false index (plain ++ rest) =
      endIndexFrom? false (index + plain.length) rest := by
  induction plain generalizing index with
  | nil => rfl
  | cons b plain ih =>
      obtain ⟨notQuote, notBackslash⟩ := notEnd b (by simp)
      rw [List.cons_append, endIndexFrom?, if_neg notBackslash, if_neg notQuote,
        ih fun other member => notEnd other (List.mem_cons_of_mem b member), List.length_cons,
        Nat.add_right_comm, Nat.add_assoc]

theorem Token.endIndexFrom? (isToken : Token token octet) (index : Nat) (rest : Bytes) :
    Quoted.endIndexFrom? false index (token ++ rest) =
      Quoted.endIndexFrom? false (index + token.length) rest := by
  cases isToken with
  | plain notQuote notBackslash =>
      exact endIndexFrom?_append (by simpa using ⟨notQuote, notBackslash⟩) index rest
  | named => rfl
  | octal =>
      -- The backslash takes the first digit; the other two are plain.
      have others : ∀ b ∈ (octalDigits octet).tail, b ≠ quote ∧ b ≠ backslash :=
        fun b member => ne_of_mem_octalDigits (List.mem_of_mem_tail member)
      exact endIndexFrom?_append others (index + 2) rest

theorem Spells.endIndexFrom? (spells : Spells text path) (index : Nat) (rest : Bytes) :
    Quoted.endIndexFrom? false index (text ++ rest) =
      Quoted.endIndexFrom? false (index + text.length) rest := by
  induction spells generalizing index with
  | nil => rfl
  | cons first _ ih =>
      rw [List.append_assoc, first.endIndexFrom?, ih, List.length_append, Nat.add_assoc]

/-- **A quoted path ends where its own quote is**, whatever follows it. -/
theorem Quotes.endIndex? (quotes : Quotes raw path) (rest : Bytes) :
    Quoted.endIndex? (raw ++ rest) = some (raw.length - 1) := by
  obtain ⟨text, rfl, spells⟩ := quotes
  rw [List.cons_append, List.append_assoc, Quoted.endIndex?, List.tail_cons, spells.endIndexFrom?,
    List.singleton_append, Quoted.endIndexFrom?, if_neg (by decide), if_pos rfl]
  simp [Nat.add_comm]

/-! ## Quotes around a path -/

theorem Quotes.head? (quotes : Quotes raw path) : raw.head? = some quote := by
  obtain ⟨text, rfl, -⟩ := quotes
  rfl

theorem Quotes.getLast? (quotes : Quotes raw path) : raw.getLast? = some quote := by
  obtain ⟨text, rfl, -⟩ := quotes
  rw [← List.cons_append, List.getLast?_concat]

theorem Quotes.length_pos (quotes : Quotes raw path) : 0 < raw.length := by
  obtain ⟨text, rfl, -⟩ := quotes
  simp

theorem Quotes.pathOf? (quotes : Quotes raw path) : Quoted.pathOf? raw = some path := by
  rw [Quoted.pathOf?, if_pos quotes.head?, quotes.decode?]

end DiffSections.Quoted
