import Mathlib.Tactic

/-!
# Character classes of Unicode text

The classes that identifiers are checked against: white space, as a trimming function removes it
from both ends, and control characters. A text may also be given by its bytes, which need not be
UTF-8.
-/

namespace SpiceAgent.Lib

open List

/-- The characters with the Unicode property `White_Space`. -/
def isSpace (c : Char) : Bool :=
  (9 ≤ c.toNat && c.toNat ≤ 13) || c.toNat == 0x20 || c.toNat == 0x85 || c.toNat == 0xA0 ||
    c.toNat == 0x1680 || (0x2000 ≤ c.toNat && c.toNat ≤ 0x200A) || c.toNat == 0x2028 ||
    c.toNat == 0x2029 || c.toNat == 0x202F || c.toNat == 0x205F || c.toNat == 0x3000

/-- The characters of the Unicode category `Cc`. -/
def isControl (c : Char) : Bool := c.toNat < 0x20 || (0x7F ≤ c.toNat && c.toNat < 0xA0)

/-- The text is not empty and trimming leaves it unchanged. -/
def trimmedToken (s : String) : Bool :=
  match s.toList, s.toList.getLast? with
  | c :: _, some d => !isSpace c && !isSpace d
  | _, _ => false

/-- The text begins with a character that trimming keeps. -/
def Opens (s : String) : Prop := ∃ c, s.toList.head? = some c ∧ isSpace c = false

/-- The text ends with a character that trimming keeps. -/
def Closes (s : String) : Prop := ∃ c, s.toList.getLast? = some c ∧ isSpace c = false

theorem trimmedToken_iff {s : String} : trimmedToken s = true ↔ Opens s ∧ Closes s := by
  unfold trimmedToken Opens Closes
  cases h : s.toList with
  | nil => simp
  | cons c l => simp [getLast?_cons]

theorem Opens.append {s : String} (h : Opens s) (t : String) : Opens (s ++ t) := by
  obtain ⟨c, hc, hspace⟩ := h
  refine ⟨c, ?_, hspace⟩
  rw [String.toList_append, head?_append, hc, Option.some_or]

theorem Closes.append {t : String} (h : Closes t) (s : String) : Closes (s ++ t) := by
  obtain ⟨c, hc, hspace⟩ := h
  refine ⟨c, ?_, hspace⟩
  rw [String.toList_append, getLast?_append, hc, Option.some_or]

/-! ## Sizes and numbers -/

theorem utf8ByteSize_ofList (l : List Char) :
    (String.ofList l).utf8ByteSize = (l.map Char.utf8Size).sum := by
  induction l with
  | nil => rfl
  | cons c l ih =>
    rw [← singleton_append, String.ofList_append, String.utf8ByteSize_append, ih,
      ← String.singleton_eq_ofList, String.utf8ByteSize_singleton, map_append, sum_append,
      map_singleton, sum_singleton]

variable (s : String)

theorem utf8ByteSize_eq_sum : s.utf8ByteSize = (s.toList.map Char.utf8Size).sum := by
  rw [← utf8ByteSize_ofList, String.ofList_toList]

theorem toList_toString (n : ℕ) : (toString n).toList = Nat.toDigits 10 n := by
  rw [Nat.toString_eq_repr, Nat.repr_eq_ofList_toDigits, String.toList_ofList]

theorem isDigit_of_mem_toString {n : ℕ} {c : Char} (h : c ∈ (toString n).toList) : c.isDigit := by
  rw [toList_toString] at h
  exact Nat.isDigit_of_mem_toDigits (by decide) (by decide) h

theorem isSpace_of_isDigit {c : Char} (h : c.isDigit) : isSpace c = false := by
  obtain ⟨hlo, hhi⟩ := Char.isDigit_iff_toNat.mp h
  have h0 : '0'.toNat = 48 := rfl
  have h9 : '9'.toNat = 57 := rfl
  unfold isSpace
  simp only [Bool.or_eq_false_iff, Bool.and_eq_false_iff, decide_eq_false_iff_not,
    beq_eq_false_iff_ne]
  omega

theorem closes_toString (n : ℕ) : Closes (toString n) := by
  have hne : (toString n).toList ≠ [] := by
    rw [toList_toString]
    exact Nat.toDigits_ne_nil
  refine ⟨_, getLast?_eq_some_getLast hne, ?_⟩
  exact isSpace_of_isDigit (isDigit_of_mem_toString (getLast_mem hne))

theorem utf8ByteSize_toString {n k : ℕ} (hk : 0 < k) (h : n < 10 ^ k) :
    (toString n).utf8ByteSize ≤ k := by
  have hone : ∀ c ∈ (toString n).toList, c.utf8Size = 1 := by
    intro c hc
    obtain ⟨-, hhi⟩ := Char.isDigit_iff_toNat.mp (isDigit_of_mem_toString hc)
    rw [Char.utf8Size_eq_one_iff, UInt32.le_iff_toNat_le]
    exact hhi.trans (by decide)
  rw [utf8ByteSize_eq_sum, map_congr_left hone, map_const', sum_replicate,
    toList_toString, smul_eq_mul, mul_one]
  exact (Nat.length_toDigits_le_iff (by decide) hk).mpr h

/-! ## Quoted texts -/

/-- The character inside a quoted text of Go; one that is not ASCII counts as printable. -/
def quotedChar (c : Char) : List Char :=
  match c with
  | '"' | '\\' => ['\\', c]
  | '\x07' => ['\\', 'a']
  | '\x08' => ['\\', 'b']
  | '\x0c' => ['\\', 'f']
  | '\n' => ['\\', 'n']
  | '\r' => ['\\', 'r']
  | '\t' => ['\\', 't']
  | '\x0b' => ['\\', 'v']
  | _ =>
    if c < ' ' || c = '\x7f' then ['\\', 'x', (c.toNat / 16).digitChar, (c.toNat % 16).digitChar]
    else [c]

/-- The text as the verb `%q` prints it. -/
def quoted : String := .ofList ('"' :: s.toList.flatMap quotedChar ++ ['"'])

/-! ## Byte strings -/

instance linearOrderUInt8 : LinearOrder UInt8 where
  le_refl := UInt8.le_refl
  le_trans _ _ _ := UInt8.le_trans
  le_antisymm _ _ := UInt8.le_antisymm
  le_total := UInt8.le_total
  lt_iff_le_not_ge _ _ :=
    ⟨fun h => ⟨UInt8.le_of_lt h, UInt8.not_le.mpr h⟩, fun h => UInt8.not_le.mp h.2⟩
  toDecidableLE := inferInstance

def utf8 : List UInt8 := s.toByteArray.data.toList

theorem utf8_injective : Function.Injective utf8 := fun _ _ h =>
  String.toByteArray_inj.mp (ByteArray.ext (Array.toList_inj.mp h))

theorem length_utf8 : (utf8 s).length = s.utf8ByteSize := rfl

def validUTF8 (value : List UInt8) : Bool := value.toByteArray.validateUTF8

/-- The encodings of the white space of `isSpace`. -/
def spaces : List (List UInt8) :=
  ([9, 10, 11, 12, 13, 0x20, 0x85, 0xA0, 0x1680, 0x2028, 0x2029, 0x202F, 0x205F, 0x3000] ++
    range' 0x2000 11).map fun n => String.utf8EncodeChar (.ofNat n)

/-- The bytes are not empty and trimming leaves them unchanged. -/
def trimmedBytes (value : List UInt8) : Bool :=
  !value.isEmpty && spaces.all fun space => !space.isPrefixOf value && !space.isSuffixOf value

end SpiceAgent.Lib
