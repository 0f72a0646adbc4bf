import Mathlib.Tactic

/-!
# Sizes of Protobuf encodings

The number of bytes that a proto3 encoder writes for a field. Scalars, strings and bytes without
explicit presence are left out when they are zero or empty; embedded messages and the members of a
`oneof` are written with their length whenever they are set.
-/

namespace SpiceAgent.Lib.ProtoSize

/-- Bytes of a base-128 varint of a value below `2 ^ 64`: one more for every seven further bits. -/
def varintSize (n : ℕ) : ℕ := 1 + (List.range 9).countP fun k => 2 ^ (7 * (k + 1)) ≤ n

variable (field : ℕ) {m n : ℕ}

def tagSize : ℕ := varintSize (field * 8)

def uintField (field value : ℕ) : ℕ := if value = 0 then 0 else tagSize field + varintSize value

/-- An unsigned integer with explicit presence. -/
def optionalField : Option ℕ → ℕ
  | none => 0
  | some value => tagSize field + varintSize value

def boolField (value : Bool) : ℕ := if value then tagSize field + 1 else 0

/-- A string or byte string of a length that is set, embedded messages included. -/
def lengthField (field length : ℕ) : ℕ := tagSize field + varintSize length + length

def bytesField (field length : ℕ) : ℕ := if length = 0 then 0 else lengthField field length

def messageField : Option ℕ → ℕ
  | none => 0
  | some size => lengthField field size

/-- The members of a repeated field of strings or messages. -/
def repeatedField (sizes : List ℕ) : ℕ := (sizes.map (lengthField field)).sum

theorem varintSize_pos (n : ℕ) : 0 < varintSize n := by
  unfold varintSize
  omega

theorem varintSize_le (n : ℕ) : varintSize n ≤ 10 := by
  have h : (List.range 9).countP (fun k => decide (2 ^ (7 * (k + 1)) ≤ n)) ≤ 9 :=
    List.countP_le_length
  unfold varintSize
  omega

theorem varintSize_mono {m n : ℕ} (h : m ≤ n) : varintSize m ≤ varintSize n := by
  refine Nat.add_le_add_left (List.countP_mono_left fun k _ hk => ?_) 1
  rw [decide_eq_true_eq] at hk ⊢
  exact hk.trans h

theorem uintField_le (field value : ℕ) : uintField field value ≤ tagSize field + 10 := by
  have := varintSize_le value
  unfold uintField
  split_ifs <;> omega

theorem uintField_mono (h : m ≤ n) : uintField field m ≤ uintField field n := by
  have := varintSize_mono h
  unfold uintField
  split_ifs <;> omega

theorem boolField_le (value : Bool) : boolField field value ≤ tagSize field + 1 := by
  unfold boolField
  split_ifs <;> omega

theorem lengthField_mono (h : m ≤ n) : lengthField field m ≤ lengthField field n := by
  have := varintSize_mono h
  unfold lengthField
  omega

theorem bytesField_mono (h : m ≤ n) : bytesField field m ≤ bytesField field n := by
  have := lengthField_mono field h
  unfold bytesField
  split_ifs <;> omega

end SpiceAgent.Lib.ProtoSize
