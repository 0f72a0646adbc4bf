import Mathlib.Tactic

/-!
# Sizes of JSON encodings

The number of bytes that Go's `encoding/json` writes for a string, for an embedded JSON text and
for a timestamp, with its default HTML escaping. Only the sizes are computed: a bound on an encoded
value never needs the bytes.
-/

namespace SpiceAgent.Lib.JsonSize

/-- Characters written as a backslash and one letter. -/
def shortEscaped (c : Char) : Bool :=
  c == '"' || c == '\\' || c == '\x08' || c == '\x0c' || c == '\n' || c == '\r' || c == '\t'

/-- Characters that HTML escaping writes as `\u` and four digits. -/
def htmlEscaped (c : Char) : Bool :=
  c == '<' || c == '>' || c == '&' || c == '\u2028' || c == '\u2029'

/-- Bytes of one character inside a JSON string. -/
def charSize (c : Char) : ℕ :=
  if shortEscaped c then 2 else if c < ' ' || htmlEscaped c then 6 else c.utf8Size

def quotedSize (s : String) : ℕ := 2 + (s.toList.map charSize).sum

/-- Bytes of an embedded JSON text after compaction. `inString` and `escaped` follow the scanner:
blanks are dropped outside strings only, and HTML escaping applies to every character. -/
def compactSize : Bool → Bool → List Char → ℕ
  | _, _, [] => 0
  | inString, escaped, c :: cs =>
    let size := if htmlEscaped c then 6 else c.utf8Size
    if inString then
      if escaped then size + compactSize true false cs
      else if c == '\\' then size + compactSize true true cs
      else size + compactSize (c != '"') false cs
    else if c == ' ' || c == '\t' || c == '\n' || c == '\r' then compactSize false false cs
    else size + compactSize (c == '"') false cs

def decimalSize (n : ℕ) : ℕ := (Nat.toDigits 10 n).length

end SpiceAgent.Lib.JsonSize
