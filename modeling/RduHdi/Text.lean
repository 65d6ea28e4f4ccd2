import Mathlib

/-!
# Splitting and reading text

Text is a list of characters.  This file has the split at the last separator, the reading of a
decimal integer as `int` reads it, and the two round trips a delimited wire format needs: the
split undoes a join whose tail has no separator, and reading undoes printing.
-/

namespace Text

section Split

variable {α : Type*} [DecidableEq α]

/-- Split at the last separator, as `rsplit(separator, 1)` does when it finds one. -/
def rsplitOnce (separator : α) : List α → Option (List α × List α)
  | [] => none
  | head :: tail =>
      match rsplitOnce separator tail with
      | some (front, back) => some (head :: front, back)
      | none => if head = separator then some ([], tail) else none

theorem rsplitOnce_eq_none {separator : α} {text : List α} (absent : separator ∉ text) :
    rsplitOnce separator text = none := by
  induction text with
  | nil => rfl
  | cons head tail ih =>
      rw [List.mem_cons, not_or] at absent
      simp [rsplitOnce, ih absent.2, Ne.symm absent.1]

/-- The split recovers both parts of a join whose second part has no separator, whatever the
first part holds. -/
theorem rsplitOnce_append {separator : α} (front : List α) {back : List α}
    (absent : separator ∉ back) :
    rsplitOnce separator (front ++ separator :: back) = some (front, back) := by
  induction front with
  | nil => simp [rsplitOnce, rsplitOnce_eq_none absent]
  | cons head front ih => simp [rsplitOnce, ih]

end Split

/-! ## Reading integers -/

/-- Code points of the decimal zeros; the nine digits after each one follow it. -/
def digitZeros : List ℕ :=
  [0x30, 0x660, 0x6F0, 0x7C0, 0x966, 0x9E6, 0xA66, 0xAE6, 0xB66, 0xBE6, 0xC66, 0xCE6, 0xD66,
    0xDE6, 0xE50, 0xED0, 0xF20, 0x1040, 0x1090, 0x17E0, 0x1810, 0x1946, 0x19D0, 0x1A80, 0x1A90,
    0x1B50, 0x1BB0, 0x1C40, 0x1C50, 0xA620, 0xA8D0, 0xA900, 0xA9D0, 0xA9F0, 0xAA50, 0xABF0,
    0xFF10, 0x104A0, 0x10D30, 0x11066, 0x110F0, 0x11136, 0x111D0, 0x112F0, 0x11450, 0x114D0,
    0x11650, 0x116C0, 0x11730, 0x118E0, 0x11950, 0x11C50, 0x11D50, 0x11DA0, 0x16A60, 0x16AC0,
    0x16B50, 0x1D7CE, 0x1D7D8, 0x1D7E2, 0x1D7EC, 0x1D7F6, 0x1E140, 0x1E2F0, 0x1E950, 0x1FBF0]

/-- The value of a decimal digit. -/
def decimalDigit? (c : Char) : Option ℕ :=
  digitZeros.findSome? fun first =>
    if first ≤ c.toNat ∧ c.toNat < first + 10 then some (c.toNat - first) else none

/-- The characters that `int` skips at both ends.  `str.strip` removes four more, the separators
from U+001C on, at which `int` raises. -/
def isSpace (c : Char) : Bool :=
  let code := c.toNat
  (9 ≤ code && code ≤ 13) || code == 32 || code == 0x85 || code == 0xA0 || code == 0x1680 ||
    (0x2000 ≤ code && code ≤ 0x200A) || code == 0x2028 || code == 0x2029 || code == 0x202F ||
    code == 0x205F || code == 0x3000

/-- Remove the white space at both ends. -/
def strip (text : List Char) : List Char :=
  (text.dropWhile isSpace).rdropWhile isSpace

/-- Read a digit string in which single underscores may stand between two digits; `digitBefore`
says whether the last character read was a digit. -/
def readDigits (digitBefore : Bool) (value : ℕ) : List Char → Option ℕ
  | [] => if digitBefore then some value else none
  | c :: rest =>
      match decimalDigit? c with
      | some digit => readDigits true (10 * value + digit) rest
      | none => if c = '_' ∧ digitBefore then readDigits false value rest else none

/-- Read an integer in base ten, of any length. -/
def readInt (text : List Char) : Option ℤ :=
  match strip text with
  | '+' :: digits => (readDigits false 0 digits).map Int.ofNat
  | '-' :: digits => (readDigits false 0 digits).map fun value => -Int.ofNat value
  | digits => (readDigits false 0 digits).map Int.ofNat

/-- The most digits that `int` converts, `sys.int_info.default_max_str_digits`. -/
def maxStrDigits : ℕ := 4300

/-- `int(text)`; `none` where it raises `ValueError`, as it does for too many digits. -/
def int (text : List Char) : Option ℤ :=
  if text.countP (fun c => (decimalDigit? c).isSome) ≤ maxStrDigits then readInt text else none

theorem isDigit_bounds {c : Char} (digit : c.isDigit) : 48 ≤ c.toNat ∧ c.toNat ≤ 57 :=
  Char.isDigit_iff_toNat.mp digit

theorem decimalDigit?_of_isDigit {c : Char} (digit : c.isDigit) :
    decimalDigit? c = some (c.toNat - 48) := by
  have bounds := isDigit_bounds digit
  have inside : 0x30 ≤ c.toNat ∧ c.toNat < 0x30 + 10 := by omega
  rw [decimalDigit?, digitZeros, List.findSome?_cons, if_pos inside]

theorem isSpace_of_isDigit {c : Char} (digit : c.isDigit) : isSpace c = false := by
  have bounds := isDigit_bounds digit
  simp only [isSpace, Bool.or_eq_false_iff, Bool.and_eq_false_imp, decide_eq_true_eq,
    decide_eq_false_iff_not, beq_eq_false_iff_ne]
  omega

theorem readDigits_of_isDigit {digits : List Char} (all : ∀ c ∈ digits, c.isDigit)
    (value : ℕ) : readDigits true value digits = some (Nat.ofDigitChars 10 digits value) := by
  induction digits generalizing value with
  | nil => simp [readDigits]
  | cons c digits ih =>
      rw [readDigits, decimalDigit?_of_isDigit (all c List.mem_cons_self)]
      simp only
      rw [ih fun other member => all other (List.mem_cons_of_mem c member),
        Nat.ofDigitChars_cons]
      rfl

theorem strip_of_isDigit {digits : List Char} (all : ∀ c ∈ digits, c.isDigit) :
    strip digits = digits := by
  have front : digits.dropWhile isSpace = digits := by
    rw [List.dropWhile_eq_self_iff]
    intro nonempty
    simp [isSpace_of_isDigit (all _ (List.getElem_mem nonempty))]
  rw [strip, front, List.rdropWhile_eq_self_iff]
  intro nonempty
  simp [isSpace_of_isDigit (all _ (List.getLast_mem nonempty))]

/-- Reading undoes printing. -/
theorem readInt_toDigits (value : ℕ) : readInt (Nat.toDigits 10 value) = some (value : ℤ) := by
  have all : ∀ c ∈ Nat.toDigits 10 value, c.isDigit := fun c member =>
    Nat.isDigit_of_mem_toDigits (by decide) (by decide) member
  have read : readDigits false 0 (Nat.toDigits 10 value) = some value := by
    cases digits : Nat.toDigits 10 value with
    | nil => exact absurd digits Nat.toDigits_ne_nil
    | cons c rest =>
        have opened : readDigits false 0 (c :: rest) = readDigits true 0 (c :: rest) := by
          rw [readDigits, readDigits, decimalDigit?_of_isDigit (all c (by simp [digits]))]
        rw [opened, ← digits, readDigits_of_isDigit all, Nat.ofDigitChars_ten_toDigits]
  rw [readInt, strip_of_isDigit all]
  split
  · rename_i digits shape
    exact absurd (all '+' (by simp [shape])) (by decide)
  · rename_i digits shape
    exact absurd (all '-' (by simp [shape])) (by decide)
  · simp [read]

theorem int_toDigits {value : ℕ} (short : (Nat.toDigits 10 value).length ≤ maxStrDigits) :
    int (Nat.toDigits 10 value) = some (value : ℤ) := by
  rw [int, if_pos (List.countP_le_length.trans short), readInt_toDigits]

theorem toDigits_injective : Function.Injective (Nat.toDigits 10) := by
  intro first second same
  have read := congrArg readInt same
  rw [readInt_toDigits, readInt_toDigits] at read
  exact Int.ofNat.inj (Option.some.inj read)

theorem notMem_toDigits {c : Char} (other : ¬ c.isDigit) (value : ℕ) :
    c ∉ Nat.toDigits 10 value := fun member =>
  other (Nat.isDigit_of_mem_toDigits (by decide) (by decide) member)

/-! ## Lists of numbers -/

/-- Read a number that is not negative. -/
def nat? (text : List Char) : Option ℕ :=
  (readInt text).bind Int.toNat?

@[simp]
theorem nat?_toDigits (value : ℕ) : nat? (Nat.toDigits 10 value) = some value := by
  simp [nat?, readInt_toDigits, Int.toNat?]

/-- The decimal forms of a list of numbers, with a separator between two of them. -/
def joinNats (separator : Char) (values : List ℕ) : List Char :=
  [separator].intercalate (values.map (Nat.toDigits 10))

/-- Read a list of numbers; the empty text is the empty list. -/
def readNats (separator : Char) (text : List Char) : Option (List ℕ) :=
  if text = [] then some [] else (text.splitOn separator).mapM nat?

theorem mapM_nat?_toDigits (values : List ℕ) :
    (values.map (Nat.toDigits 10)).mapM nat? = some values := by
  induction values with
  | nil => rfl
  | cons value values ih => simp [List.mapM_cons, ih]

theorem joinNats_cons_ne_nil (separator : Char) (value : ℕ) (values : List ℕ) :
    joinNats separator (value :: values) ≠ [] := by
  cases values with
  | nil => simp [joinNats, Nat.toDigits_ne_nil]
  | cons next values => simp [joinNats, List.intercalate_cons_cons]

theorem notMem_joinNats {c separator : Char} (other : ¬ c.isDigit) (distinct : c ≠ separator)
    (values : List ℕ) : c ∉ joinNats separator values := by
  induction values with
  | nil => simp [joinNats]
  | cons value values ih =>
      cases values with
      | nil => simpa [joinNats] using notMem_toDigits other value
      | cons next values =>
          rw [joinNats, List.map_cons, List.map_cons, List.intercalate_cons_cons]
          simp only [List.mem_append, List.mem_singleton, not_or]
          exact ⟨⟨notMem_toDigits other value, distinct⟩, ih⟩

theorem readNats_joinNats {separator : Char} (plain : ¬ separator.isDigit) (values : List ℕ) :
    readNats separator (joinNats separator values) = some values := by
  cases values with
  | nil => simp [readNats, joinNats]
  | cons value values =>
      have pieces : (joinNats separator (value :: values)).splitOn separator =
          (value :: values).map (Nat.toDigits 10) := by
        apply List.splitOn_intercalate
        · intro piece member
          obtain ⟨number, _, rfl⟩ := List.mem_map.mp member
          exact notMem_toDigits plain number
        · simp
      rw [readNats, if_neg (joinNats_cons_ne_nil separator value values), pieces,
        mapM_nat?_toDigits]

/-! ## Encoding -/

theorem fromUTF8?_toUTF8 (text : String) : String.fromUTF8? text.toUTF8 = some text := by
  have valid : text.toUTF8.IsValidUTF8 := text.isValidUTF8
  rw [String.fromUTF8?, dif_pos valid]
  rfl

end Text
