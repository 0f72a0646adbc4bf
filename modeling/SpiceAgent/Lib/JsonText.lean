import SpiceAgent.Lib.JsonSize
import SpiceAgent.Lib.Text

/-!
# Compact JSON text

The text that Go's `json.Marshal` writes: a sequence of tokens without blanks, with its default
escaping inside strings. Embedding such a text again leaves it as it is, so that its compacted size
is its size. The last section is about objects whose members are strings, truth values, numbers and
lists of strings.
-/

namespace SpiceAgent.Lib.JsonText

open JsonSize List

def textSize (l : List Char) : ℕ := (l.map Char.utf8Size).sum

@[simp] theorem textSize_nil : textSize [] = 0 := rfl

variable (c : Char)

@[simp] theorem textSize_cons (l : List Char) :
    textSize (c :: l) = c.utf8Size + textSize l := by simp [textSize]

@[simp] theorem textSize_append (l₁ l₂ : List Char) :
    textSize (l₁ ++ l₂) = textSize l₁ + textSize l₂ := by simp [textSize]

section

variable (s : String)

theorem utf8ByteSize_eq : s.utf8ByteSize = textSize s.toList := utf8ByteSize_eq_sum s

theorem forall_mem_of_all {P : Char → Prop} [DecidablePred P] {l : List Char}
    (h : l.all (fun c => decide (P c)) = true) : ∀ c ∈ l, P c := by
  simpa only [all_eq_true, decide_eq_true_eq] using h

/-! ## Strings -/

/-- The letter after the backslash of a short escape. -/
def shortLetter : Char :=
  if c == '\x08' then 'b' else if c == '\x0c' then 'f' else if c == '\n' then 'n'
  else if c == '\r' then 'r' else if c == '\t' then 't' else c

def hexDigit (n : ℕ) : Char := Nat.digitChar (n % 16)

def hex4 (n : ℕ) : List Char :=
  [hexDigit (n / 4096), hexDigit (n / 256), hexDigit (n / 16), hexDigit n]

def escape : List Char :=
  if shortEscaped c then ['\\', shortLetter c]
  else if c < ' ' || htmlEscaped c then '\\' :: 'u' :: hex4 c.toNat
  else [c]

def quote : List Char := '"' :: (s.toList.flatMap escape ++ ['"'])

/-- A character that the scanner copies wherever it stands. -/
structure Plain (c : Char) : Prop where
  not_html : htmlEscaped c = false
  not_backslash : (c == '\\') = false
  not_quote : (c == '"') = false
  not_blank : (c == ' ' || c == '\t' || c == '\n' || c == '\r') = false
  size : c.utf8Size = 1

instance (c : Char) : Decidable (Plain c) :=
  decidable_of_iff (htmlEscaped c = false ∧ (c == '\\') = false ∧ (c == '"') = false ∧
      (c == ' ' || c == '\t' || c == '\n' || c == '\r') = false ∧ c.utf8Size = 1)
    ⟨fun ⟨h₁, h₂, h₃, h₄, h₅⟩ => ⟨h₁, h₂, h₃, h₄, h₅⟩, fun h => ⟨h.1, h.2, h.3, h.4, h.5⟩⟩

theorem plain_hexDigit (n : ℕ) : Plain (hexDigit n) := by
  have hall : ∀ k < 16, Plain (Nat.digitChar k) := by decide
  exact hall _ (Nat.mod_lt n (by decide))

theorem compactSize_plain_string {c : Char} (h : Plain c) (cs : List Char) :
    compactSize true false (c :: cs) = 1 + compactSize true false cs := by
  simp [compactSize, h.not_html, h.not_backslash, h.not_quote, h.size, bne]

theorem compactSize_plain {c : Char} (h : Plain c) (cs : List Char) :
    compactSize false false (c :: cs) = 1 + compactSize false false cs := by
  simp [compactSize, h.not_html, h.not_blank, h.not_quote, h.size]

theorem of_shortEscaped {P : Char → Prop} [DecidablePred P] {c : Char}
    (hall : ['"', '\\', '\x08', '\x0c', '\n', '\r', '\t'].all (fun c => decide (P c)) = true)
    (h : shortEscaped c = true) : P c :=
  forall_mem_of_all hall c (by simpa [shortEscaped, or_assoc] using h)

theorem textSize_short {c : Char} (h : shortEscaped c = true) :
    textSize ['\\', shortLetter c] = 2 :=
  of_shortEscaped (P := fun c => textSize ['\\', shortLetter c] = 2) (by decide) h

theorem textSize_escape : textSize (escape c) = charSize c := by
  unfold escape charSize
  split_ifs with hshort hlong
  · exact textSize_short hshort
  · have hbackslash : '\\'.utf8Size = 1 := by decide
    have hu : 'u'.utf8Size = 1 := by decide
    simp [hex4, (plain_hexDigit _).size, hbackslash, hu]
  · simp

theorem textSize_quote : textSize (quote s) = quotedSize s := by
  have hquote : '"'.utf8Size = 1 := by decide
  have hbody : textSize (s.toList.flatMap escape) = (s.toList.map charSize).sum := by
    induction s.toList with
    | nil => rfl
    | cons c l ih => rw [flatMap_cons, textSize_append, ih, textSize_escape, map_cons,
        sum_cons]
  simp only [quote, textSize_cons, textSize_append, textSize_nil, hbody, hquote, quotedSize]
  omega

theorem utf8Size_le_charSize : c.utf8Size ≤ charSize c := by
  have hfour := c.utf8Size_le_four
  unfold charSize
  split_ifs with hshort
  · exact of_shortEscaped (P := fun c => c.utf8Size ≤ 2) (by decide) hshort
  · omega
  · exact le_rfl

theorem add_two_le_quotedSize : s.utf8ByteSize + 2 ≤ quotedSize s := by
  have hsum : (s.toList.map Char.utf8Size).sum ≤ (s.toList.map charSize).sum :=
    sum_le_sum fun c _ => utf8Size_le_charSize c
  rw [utf8ByteSize_eq_sum, quotedSize]
  omega

theorem compactSize_escape (cs : List Char) :
    compactSize true false (escape c ++ cs) = textSize (escape c) + compactSize true false cs := by
  have hbackslash : ∀ cs, compactSize true false ('\\' :: cs) = 1 + compactSize true true cs :=
    fun cs => by
      have hsize : '\\'.utf8Size = 1 := by decide
      simp [compactSize, htmlEscaped, hsize]
  unfold escape
  split_ifs with hshort hlong
  · obtain ⟨hhtml, hsize⟩ := of_shortEscaped (P := fun c => htmlEscaped (shortLetter c) = false ∧
      (shortLetter c).utf8Size = 1) (by decide) hshort
    rw [textSize_short hshort, cons_append, hbackslash]
    simp only [cons_append, nil_append, compactSize, hhtml, hsize, if_true,
      Bool.false_eq_true, if_false]
    omega
  · have hu : ∀ cs, compactSize true true ('u' :: cs) = 1 + compactSize true false cs :=
        fun cs => by
      have hsize : 'u'.utf8Size = 1 := by decide
      simp [compactSize, htmlEscaped, hsize]
    have hb : '\\'.utf8Size = 1 := by decide
    have hus : 'u'.utf8Size = 1 := by decide
    simp only [cons_append, nil_append, hbackslash, hu, hex4,
      compactSize_plain_string (plain_hexDigit _), textSize_cons, textSize_nil, hb, hus,
      (plain_hexDigit _).size]
    omega
  · simp only [Bool.not_eq_true, Bool.or_eq_false_iff] at hshort hlong
    have hbs : (c == '\\') = false := by
      simp only [shortEscaped, Bool.or_eq_false_iff] at hshort
      tauto
    have hq : (c == '"') = false := by
      simp only [shortEscaped, Bool.or_eq_false_iff] at hshort
      tauto
    simp [compactSize, hlong.2, hbs, hq, bne]

theorem compactSize_quote (cs : List Char) :
    compactSize false false (quote s ++ cs) = textSize (quote s) + compactSize false false cs := by
  have hquote : '"'.utf8Size = 1 := by decide
  have hbody : ∀ l : List Char, compactSize true false (l.flatMap escape ++ '"' :: cs) =
      textSize (l.flatMap escape) + 1 + compactSize false false cs := by
    intro l
    induction l with
    | nil => simp [compactSize, htmlEscaped, hquote]
    | cons c l ih =>
      rw [flatMap_cons, append_assoc, compactSize_escape, ih, textSize_append]
      omega
  have hopen : ∀ l, compactSize false false ('"' :: l) = 1 + compactSize true false l := fun l => by
    simp [compactSize, htmlEscaped, hquote]
  rw [quote, cons_append, hopen, append_assoc, singleton_append, hbody]
  simp only [textSize_cons, textSize_append, textSize_nil, hquote]
  omega

end

/-! ## Tokens -/

/-- The characters of numbers and of `true`, `false` and `null`. -/
def wordChars : List Char := "0123456789+-.eEtrufalsn".toList

/-- The tokens of a JSON text. -/
inductive Token
  /-- One of the six marks. -/
  | mark (c : Char) (h : c ∈ ['{', '}', '[', ']', ':', ','])
  /-- A number or a literal name. -/
  | word (text : List Char) (h : ∀ c ∈ text, c ∈ wordChars)
  | str (s : String)

def Token.render : Token → List Char
  | mark c _ => [c]
  | word text _ => text
  | str s => quote s

def render (tokens : List Token) : List Char := tokens.flatMap Token.render

theorem compactSize_token (t : Token) (cs : List Char) :
    compactSize false false (t.render ++ cs) = textSize t.render + compactSize false false cs := by
  have hmarks : ∀ c ∈ ['{', '}', '[', ']', ':', ','], Plain c := forall_mem_of_all (by decide)
  have hwords : ∀ c ∈ wordChars, Plain c := forall_mem_of_all (by decide)
  cases t with
  | mark c h => simp [Token.render, compactSize_plain (hmarks c h), (hmarks c h).size]
  | str s => exact compactSize_quote s cs
  | word text h =>
    simp only [Token.render]
    induction text with
    | nil => simp
    | cons c text ih =>
      have hc := hwords c (h c mem_cons_self)
      rw [cons_append, compactSize_plain hc, ih fun x hx => h x (mem_cons_of_mem c hx),
        textSize_cons, hc.size]
      omega

theorem compactSize_render (tokens : List Token) :
    compactSize false false (render tokens) = textSize (render tokens) := by
  induction tokens with
  | nil => rfl
  | cons t tokens ih =>
    rw [render, flatMap_cons, compactSize_token, ← render, ih, textSize_append]

/-! ## Flat objects -/

/-- The values of the members of a flat object. -/
inductive Value
  | str (s : String)
  | bool (b : Bool)
  | nat (n : ℕ)
  | strs (l : List String)
  deriving DecidableEq

theorem digit_mem_wordChars {c : Char} (h : c.isDigit) : c ∈ wordChars := by
  obtain ⟨hlo, hhi⟩ := Char.isDigit_iff_toNat.mp h
  have hdigits : ∀ k < 10, Char.ofNat (48 + k) ∈ wordChars := by decide
  have h0 : '0'.toNat = 48 := rfl
  have h9 : '9'.toNat = 57 := rfl
  have hmem := hdigits (c.toNat - 48) (by omega)
  rwa [show 48 + (c.toNat - 48) = c.toNat by omega, Char.ofNat_toNat] at hmem

def commas : List (List Token) → List Token
  | [] => []
  | [ts] => ts
  | ts :: rest => ts ++ .mark ',' (by decide) :: commas rest

def Value.tokens : Value → List Token
  | str s => [.str s]
  | bool true => [.word "true".toList (forall_mem_of_all (by decide))]
  | bool false => [.word "false".toList (forall_mem_of_all (by decide))]
  | nat n => [.word (toString n).toList fun _ hc =>
    digit_mem_wordChars (isDigit_of_mem_toString hc)]
  | strs l => .mark '[' (by decide) :: commas (l.map fun s => [.str s]) ++ [.mark ']' (by decide)]

def memberTokens (m : String × Value) : List Token :=
  .str m.1 :: .mark ':' (by decide) :: m.2.tokens

variable (members : List (String × Value))

def objectTokens : List Token :=
  .mark '{' (by decide) :: commas (members.map memberTokens) ++ [.mark '}' (by decide)]

/-- `json.Marshal` of a flat object. -/
def marshalObject : String :=
  String.ofList (render (objectTokens members))

def memberSize (m : String × Value) : ℕ := textSize (render (memberTokens m))

@[simp] theorem render_append (l₁ l₂ : List Token) : render (l₁ ++ l₂) = render l₁ ++ render l₂ :=
  flatMap_append

theorem render_cons (t : Token) (l : List Token) : render (t :: l) = t.render ++ render l := rfl

theorem textSize_commas (l : List (List Token)) :
    textSize (render (commas l)) = (l.map fun ts => textSize (render ts)).sum + (l.length - 1) := by
  have hcomma : ','.utf8Size = 1 := by decide
  induction l with
  | nil => rfl
  | cons ts rest ih =>
    cases rest with
    | nil => simp [commas]
    | cons ts' rest =>
      rw [commas, render_append, textSize_append, render_cons, textSize_append, ih]
      · simp only [Token.render, textSize_cons, textSize_nil, hcomma, map_cons, sum_cons,
          length_cons]
        omega
      · simp

theorem utf8ByteSize_marshalObject :
    (marshalObject members).utf8ByteSize =
      2 + (members.map memberSize).sum + (members.length - 1) := by
  have hopen : '{'.utf8Size = 1 := by decide
  have hclose : '}'.utf8Size = 1 := by decide
  rw [utf8ByteSize_eq, marshalObject, String.toList_ofList, objectTokens, render_append,
    render_cons, textSize_append, textSize_append, textSize_commas, map_map, length_map]
  simp only [render, flatMap_cons, flatMap_nil, Token.render, textSize_append, textSize_cons,
    textSize_nil, hopen, hclose]
  change 1 + 0 + ((members.map memberSize).sum + (members.length - 1)) + (1 + 0 + 0) = _
  omega

theorem memberSize_str (key s : String) : memberSize (key, .str s) =
    quotedSize key + 1 + quotedSize s := by
  have hcolon : ':'.utf8Size = 1 := by decide
  simp only [memberSize, memberTokens, Value.tokens, render, flatMap_cons, flatMap_nil,
    Token.render, textSize_append, textSize_cons, textSize_nil, textSize_quote, hcolon]
  omega

theorem marshalObject_sublist {l l' : List (String × Value)} (h : l.Sublist l') :
    (marshalObject l).utf8ByteSize ≤ (marshalObject l').utf8ByteSize := by
  have hlength := h.length_le
  have hsum : (l.map memberSize).sum ≤ (l'.map memberSize).sum :=
    (h.map memberSize).sum_le_sum fun _ _ => Nat.zero_le _
  rw [utf8ByteSize_marshalObject, utf8ByteSize_marshalObject]
  omega

end SpiceAgent.Lib.JsonText
