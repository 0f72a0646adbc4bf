import SpiceAgent.Lib.JsonText

/-!
# JSON trees and their text

A tree of arrays, strings, integers, truth values and `null`, and the text that Go's JSON encoder
writes for it when it is told not to escape HTML. The text determines the tree: a value is read from
the left, and a number ends where no digit follows. The strings of a tree are of any type, so that a
tree over byte strings can be converted to one over texts.
-/

namespace SpiceAgent.Lib

open JsonSize JsonText List

inductive Json (α : Type)
  | null
  | bool (value : Bool)
  | num (value : ℤ)
  | str (value : α)
  | arr (items : List (Json α))

namespace Json

/-! ## Text -/

/-- The line separators, which are escaped although they are no control characters. -/
def isSeparator (c : Char) : Bool := c == '\u2028' || c == '\u2029'

def escapeChar (c : Char) : List Char :=
  if shortEscaped c then ['\\', shortLetter c]
  else if c < ' ' || isSeparator c then '\\' :: 'u' :: hex4 c.toNat
  else [c]

def renderInt : ℤ → List Char
  | .ofNat n => Nat.toDigits 10 n
  | .negSucc n => '-' :: Nat.toDigits 10 (n + 1)

mutual

def render : Json String → List Char
  | .null => ['n', 'u', 'l', 'l']
  | .bool true => ['t', 'r', 'u', 'e']
  | .bool false => ['f', 'a', 'l', 's', 'e']
  | .num n => renderInt n
  | .str s => '"' :: (s.toList.flatMap escapeChar ++ ['"'])
  | .arr [] => ['[', ']']
  | .arr (v :: vs) => '[' :: (render v ++ renderTail vs)

/-- The items after the first one, and the end of the array. -/
def renderTail : List (Json String) → List Char
  | [] => [']']
  | v :: vs => ',' :: (render v ++ renderTail vs)

end

/-! ## Numbers -/

theorem toDigits_injective {m n : ℕ} (h : Nat.toDigits 10 m = Nat.toDigits 10 n) : m = n := by
  have hm := Nat.ofDigitChars_toDigits (n := m) (show 1 < 10 by decide) (by decide)
  have hn := Nat.ofDigitChars_toDigits (n := n) (show 1 < 10 by decide) (by decide)
  rw [← hm, h, hn]

theorem isDigit_of_mem_toDigits {n : ℕ} {c : Char} (h : c ∈ Nat.toDigits 10 n) :
    c.isDigit = true := by
  rw [← toList_toString] at h
  exact isDigit_of_mem_toString h

theorem toDigits_ne_nil (n : ℕ) : Nat.toDigits 10 n ≠ [] := by
  intro h
  have hlen := Nat.length_toDigits_pos (b := 10) (n := n)
  rw [h] at hlen
  cases hlen

def Stops (rest : List Char) : Prop := ∀ c, rest.head? = some c → c.isDigit = false

variable {c : Char}

theorem stops_cons (rest : List Char) (h : c.isDigit = false) : Stops (c :: rest) := by
  intro d hd
  cases hd
  exact h

theorem digits_append_inj {l l' r r' : List Char} (hl : ∀ c ∈ l, c.isDigit = true)
    (hl' : ∀ c ∈ l', c.isDigit = true) (hr : Stops r) (hr' : Stops r')
    (h : l ++ r = l' ++ r') : l = l' ∧ r = r' := by
  induction l generalizing l' with
  | nil =>
    cases l' with
    | nil => exact ⟨rfl, h⟩
    | cons d l' =>
      rw [nil_append] at h
      have hd := hr d (by rw [h]; rfl)
      rw [hl' d mem_cons_self] at hd
      cases hd
  | cons c l ih =>
    cases l' with
    | nil =>
      rw [nil_append] at h
      have hc := hr' c (by rw [← h]; rfl)
      rw [hl c mem_cons_self] at hc
      cases hc
    | cons d l' =>
      obtain ⟨rfl, htail⟩ := cons.inj h
      obtain ⟨rfl, hrest⟩ := ih (fun x hx => hl x (mem_cons_of_mem _ hx))
        (fun x hx => hl' x (mem_cons_of_mem _ hx)) htail
      exact ⟨rfl, hrest⟩

theorem renderInt_head (n : ℤ) : ∃ c l, renderInt n = c :: l ∧ (c = '-' ∨ c.isDigit = true) := by
  cases n with
  | ofNat n =>
    obtain ⟨c, l, h⟩ := exists_cons_of_ne_nil (toDigits_ne_nil n)
    exact ⟨c, l, h, .inr (isDigit_of_mem_toDigits (h ▸ mem_cons_self))⟩
  | negSucc n => exact ⟨'-', _, rfl, .inl rfl⟩

theorem renderInt_inj {m n : ℤ} {r r' : List Char} (hr : Stops r) (hr' : Stops r')
    (h : renderInt m ++ r = renderInt n ++ r') : m = n ∧ r = r' := by
  have hdigits : ∀ k, ∀ c ∈ Nat.toDigits 10 k, c.isDigit = true :=
    fun k c hc => isDigit_of_mem_toDigits hc
  -- a sign is no digit
  have hsign : ∀ k l, Nat.toDigits 10 k ++ r ≠ '-' :: l ∧ Nat.toDigits 10 k ++ r' ≠ '-' :: l := by
    intro k l
    obtain ⟨c, t, hc⟩ := exists_cons_of_ne_nil (toDigits_ne_nil k)
    have hdigit := hdigits k c (hc ▸ mem_cons_self)
    rw [hc]
    refine ⟨fun h => ?_, fun h => ?_⟩ <;>
    · rw [(cons.inj h).1] at hdigit
      cases hdigit
  cases m with
  | ofNat m =>
    cases n with
    | ofNat n =>
      obtain ⟨hmn, hrest⟩ := digits_append_inj (hdigits m) (hdigits n) hr hr' h
      exact ⟨congrArg Int.ofNat (toDigits_injective hmn), hrest⟩
    | negSucc n => exact absurd h (hsign m _).1
  | negSucc m =>
    cases n with
    | ofNat n => exact absurd h.symm (hsign n _).2
    | negSucc n =>
      obtain ⟨hmn, hrest⟩ := digits_append_inj (hdigits _) (hdigits _) hr hr' (cons.inj h).2
      exact ⟨congrArg Int.negSucc (by simpa using toDigits_injective hmn), hrest⟩

/-! ## Strings -/

theorem hexDigit_inj {m n : ℕ} (h : hexDigit m = hexDigit n) : m % 16 = n % 16 := by
  have hall : ∀ i < 16, ∀ j < 16, Nat.digitChar i = Nat.digitChar j → i = j := by decide
  exact hall _ (Nat.mod_lt m (by decide)) _ (Nat.mod_lt n (by decide)) h

theorem hex4_inj {m n : ℕ} (hm : m < 65536) (hn : n < 65536) (h : hex4 m = hex4 n) : m = n := by
  simp only [hex4, cons.injEq, and_true] at h
  obtain ⟨h₁, h₂, h₃, h₄⟩ := h
  have h₁ := hexDigit_inj h₁
  have h₂ := hexDigit_inj h₂
  have h₃ := hexDigit_inj h₃
  have h₄ := hexDigit_inj h₄
  omega

/-- The three ways to write a character. -/
inductive Written (c : Char) : Prop
  | short (hc : shortEscaped c = true) (h : escapeChar c = ['\\', shortLetter c])
  | long (hc : c.toNat < 65536) (h : escapeChar c = '\\' :: 'u' :: hex4 c.toNat)
  | raw (hc : shortEscaped c = false) (h : escapeChar c = [c])

theorem written (c : Char) : Written c := by
  by_cases hshort : shortEscaped c = true
  · exact .short hshort (by rw [escapeChar, if_pos hshort])
  by_cases hlong : (c < ' ' || isSeparator c) = true
  · refine .long ?_ (by rw [escapeChar, if_neg hshort, if_pos hlong])
    rcases Bool.or_eq_true_iff.mp hlong with h | h
    · have hlt : c.toNat < ' '.toNat := of_decide_eq_true h
      exact hlt.trans (by decide)
    · rcases Bool.or_eq_true_iff.mp h with h | h <;>
      · rw [beq_iff_eq.mp h]
        decide
  · exact .raw (Bool.eq_false_iff.mpr hshort) (by rw [escapeChar, if_neg hshort, if_neg hlong])

theorem shortLetter_ne_u (h : shortEscaped c = true) : shortLetter c ≠ 'u' :=
  of_shortEscaped (P := fun c => shortLetter c ≠ 'u') (by decide) h

def shortChar (letter : Char) : Char :=
  if letter == 'b' then '\x08' else if letter == 'f' then '\x0c' else if letter == 'n' then '\n'
  else if letter == 'r' then '\r' else if letter == 't' then '\t' else letter

theorem shortChar_shortLetter (h : shortEscaped c = true) : shortChar (shortLetter c) = c :=
  of_shortEscaped (P := fun c => shortChar (shortLetter c) = c) (by decide) h

theorem shortLetter_inj {c d : Char} (hc : shortEscaped c = true) (hd : shortEscaped d = true)
    (h : shortLetter c = shortLetter d) : c = d := by
  rw [← shortChar_shortLetter hc, h, shortChar_shortLetter hd]

theorem ne_backslash_of_raw (h : shortEscaped c = false) : c ≠ '\\' := by
  rintro rfl
  cases h

theorem ne_quote_of_raw (h : shortEscaped c = false) : c ≠ '"' := by
  rintro rfl
  cases h

theorem escapeChar_inj {c d : Char} {r r' : List Char}
    (h : escapeChar c ++ r = escapeChar d ++ r') : c = d ∧ r = r' := by
  rcases written c with ⟨hc, hwc⟩ | ⟨hc, hwc⟩ | ⟨hc, hwc⟩ <;>
    rcases written d with ⟨hd, hwd⟩ | ⟨hd, hwd⟩ | ⟨hd, hwd⟩ <;> rw [hwc, hwd] at h
  · obtain ⟨hletter, hrest⟩ := cons.inj (cons.inj h).2
    exact ⟨shortLetter_inj hc hd hletter, hrest⟩
  · exact absurd (cons.inj (cons.inj h).2).1 (shortLetter_ne_u hc)
  · exact absurd (cons.inj h).1.symm (ne_backslash_of_raw hd)
  · exact absurd (cons.inj (cons.inj h).2).1.symm (shortLetter_ne_u hd)
  · obtain ⟨hhex, hrest⟩ := append_inj (cons.inj (cons.inj h).2).2 rfl
    exact ⟨Char.toNat_inj.mp (hex4_inj hc hd hhex), hrest⟩
  · exact absurd (cons.inj h).1.symm (ne_backslash_of_raw hd)
  · exact absurd (cons.inj h).1 (ne_backslash_of_raw hc)
  · exact absurd (cons.inj h).1 (ne_backslash_of_raw hc)
  · exact cons.inj h

theorem escapeChar_ne_quote (c : Char) (r r' : List Char) : escapeChar c ++ r ≠ '"' :: r' := by
  intro h
  rcases written c with ⟨hc, hwc⟩ | ⟨hc, hwc⟩ | ⟨hc, hwc⟩ <;> rw [hwc] at h
  · exact absurd (cons.inj h).1 (by decide)
  · exact absurd (cons.inj h).1 (by decide)
  · exact absurd (cons.inj h).1 (ne_quote_of_raw hc)

theorem escaped_inj {l l' r r' : List Char}
    (h : l.flatMap escapeChar ++ '"' :: r = l'.flatMap escapeChar ++ '"' :: r') :
    l = l' ∧ r = r' := by
  induction l generalizing l' with
  | nil =>
    cases l' with
    | nil => exact ⟨rfl, (cons.inj h).2⟩
    | cons d l' =>
      rw [flatMap_cons, append_assoc] at h
      exact absurd h.symm (escapeChar_ne_quote d _ _)
  | cons c l ih =>
    rw [flatMap_cons, append_assoc] at h
    cases l' with
    | nil => exact absurd h (escapeChar_ne_quote c _ _)
    | cons d l' =>
      rw [flatMap_cons, append_assoc] at h
      obtain ⟨rfl, htail⟩ := escapeChar_inj h
      obtain ⟨rfl, hrest⟩ := ih htail
      exact ⟨rfl, hrest⟩

/-! ## Trees -/

def kind : Json String → ℕ
  | .null => 0
  | .bool _ => 1
  | .num _ => 2
  | .str _ => 3
  | .arr _ => 4

/-- The constructor that a text's first character stands for. -/
def leadKind (c : Char) : ℕ :=
  if c == 'n' then 0 else if c == 't' || c == 'f' then 1 else if c == '"' then 3
  else if c == '[' then 4 else 2

theorem leadKind_number (h : c = '-' ∨ c.isDigit = true) : leadKind c = 2 := by
  have hne : ∀ d, d.isDigit = false → d ≠ '-' → c ≠ d := by
    rintro d hd hminus rfl
    rcases h with h | h
    · exact hminus h
    · exact absurd (hd.symm.trans h) (by decide)
  simp [leadKind, hne 'n' (by decide) (by decide), hne 't' (by decide) (by decide),
    hne 'f' (by decide) (by decide), hne '"' (by decide) (by decide),
    hne '[' (by decide) (by decide)]

theorem render_head (v : Json String) : ∃ c l, render v = c :: l ∧ leadKind c = v.kind := by
  cases v with
  | null => exact ⟨'n', _, by rw [render], by decide⟩
  | bool value =>
    cases value with
    | true => exact ⟨'t', _, by rw [render], by decide⟩
    | false => exact ⟨'f', _, by rw [render], by decide⟩
  | num n =>
    obtain ⟨c, l, h, hc⟩ := renderInt_head n
    exact ⟨c, l, by rw [render, h], leadKind_number hc⟩
  | str s => exact ⟨'"', _, by rw [render], rfl⟩
  | arr items =>
    cases items with
    | nil => exact ⟨'[', _, by rw [render], rfl⟩
    | cons v vs => exact ⟨'[', _, by rw [render], rfl⟩

theorem kind_eq_of_render {v w : Json String} {r r' : List Char}
    (h : render v ++ r = render w ++ r') : v.kind = w.kind := by
  obtain ⟨c, l, hv, hc⟩ := render_head v
  obtain ⟨d, l', hw, hd⟩ := render_head w
  rw [hv, hw] at h
  rw [← hc, ← hd, (cons.inj h).1]

theorem render_ne_bracket (v : Json String) (r r' : List Char) : render v ++ r ≠ ']' :: r' := by
  intro h
  cases v with
  | null => rw [render] at h; exact absurd (cons.inj h).1 (by decide)
  | bool value =>
    cases value <;> rw [render] at h <;> exact absurd (cons.inj h).1 (by decide)
  | num n =>
    obtain ⟨c, l, hn, hc⟩ := renderInt_head n
    rw [render, hn] at h
    rw [(cons.inj h).1] at hc
    exact absurd hc (by decide)
  | str s => rw [render] at h; exact absurd (cons.inj h).1 (by decide)
  | arr items =>
    cases items <;> rw [render] at h <;> exact absurd (cons.inj h).1 (by decide)

theorem stops_renderTail (vs : List (Json String)) (r : List Char) :
    Stops (renderTail vs ++ r) := by
  cases vs with
  | nil => rw [renderTail]; exact stops_cons _ (by decide)
  | cons v vs => rw [renderTail]; exact stops_cons _ (by decide)

mutual

theorem render_append_inj (v w : Json String) {r r' : List Char} (hr : Stops r) (hr' : Stops r')
    (h : render v ++ r = render w ++ r') : v = w ∧ r = r' := by
  have hkind := kind_eq_of_render h
  match v, w, hkind with
  | .null, .null, _ => exact ⟨rfl, append_cancel_left h⟩
  | .bool true, .bool true, _ => exact ⟨rfl, append_cancel_left h⟩
  | .bool false, .bool false, _ => exact ⟨rfl, append_cancel_left h⟩
  | .bool true, .bool false, _ =>
    rw [render, render] at h
    exact absurd (cons.inj h).1 (by decide)
  | .bool false, .bool true, _ =>
    rw [render, render] at h
    exact absurd (cons.inj h).1 (by decide)
  | .num m, .num n, _ =>
    rw [render, render] at h
    obtain ⟨rfl, hrest⟩ := renderInt_inj hr hr' h
    exact ⟨rfl, hrest⟩
  | .str s, .str t, _ =>
    rw [render, render] at h
    simp only [cons_append, append_assoc] at h
    obtain ⟨hst, hrest⟩ := escaped_inj (cons.inj h).2
    exact ⟨congrArg Json.str (String.toList_inj.mp hst), hrest⟩
  | .arr [], .arr [], _ => exact ⟨rfl, append_cancel_left h⟩
  | .arr [], .arr (w :: ws), _ =>
    simp only [render, cons_append, append_assoc] at h
    exact absurd (cons.inj h).2.symm (render_ne_bracket w _ _)
  | .arr (v :: vs), .arr [], _ =>
    simp only [render, cons_append, append_assoc] at h
    exact absurd (cons.inj h).2 (render_ne_bracket v _ _)
  | .arr (v :: vs), .arr (w :: ws), _ =>
    rw [render, render, cons_append, cons_append, append_assoc,
      append_assoc] at h
    obtain ⟨rfl, htail⟩ := render_append_inj v w (stops_renderTail vs r) (stops_renderTail ws r')
      (cons.inj h).2
    obtain ⟨rfl, hrest⟩ := renderTail_append_inj vs ws htail
    exact ⟨rfl, hrest⟩

theorem renderTail_append_inj (vs ws : List (Json String)) {r r' : List Char}
    (h : renderTail vs ++ r = renderTail ws ++ r') : vs = ws ∧ r = r' := by
  match vs, ws with
  | [], [] => exact ⟨rfl, append_cancel_left h⟩
  | [], w :: ws =>
    rw [renderTail, renderTail] at h
    exact absurd (cons.inj h).1 (by decide)
  | v :: vs, [] =>
    rw [renderTail, renderTail] at h
    exact absurd (cons.inj h).1 (by decide)
  | v :: vs, w :: ws =>
    rw [renderTail, renderTail, cons_append, cons_append, append_assoc,
      append_assoc] at h
    obtain ⟨rfl, htail⟩ := render_append_inj v w (stops_renderTail vs r) (stops_renderTail ws r')
      (cons.inj h).2
    obtain ⟨rfl, hrest⟩ := renderTail_append_inj vs ws htail
    exact ⟨rfl, hrest⟩

end

section Convert

variable {α β : Type} {f : α → Option β}

mutual

def convert (f : α → Option β) : Json α → Option (Json β)
  | .null => some .null
  | .bool value => some (.bool value)
  | .num value => some (.num value)
  | .str value => (f value).map .str
  | .arr items => (convertItems f items).map .arr

def convertItems (f : α → Option β) : List (Json α) → Option (List (Json β))
  | [] => some []
  | v :: vs => (convert f v).bind fun w => (convertItems f vs).map (w :: ·)

end

mutual

def map (g : β → α) : Json β → Json α
  | .null => .null
  | .bool value => .bool value
  | .num value => .num value
  | .str value => .str (g value)
  | .arr items => .arr (mapItems g items)

def mapItems (g : β → α) : List (Json β) → List (Json α)
  | [] => []
  | v :: vs => map g v :: mapItems g vs

end

mutual

theorem map_of_convert {g : β → α} (hg : ∀ a c, f a = some c → g c = a) (v : Json α) {u : Json β}
    (h : convert f v = some u) : map g u = v := by
  match v with
  | .null | .bool _ | .num _ =>
    cases h
    rfl
  | .str value =>
    obtain ⟨c, hc, rfl⟩ := Option.map_eq_some_iff.mp h
    rw [map, hg _ _ hc]
  | .arr items =>
    obtain ⟨us, hus, rfl⟩ := Option.map_eq_some_iff.mp h
    rw [map, mapItems_of_convertItems hg items hus]

theorem mapItems_of_convertItems {g : β → α} (hg : ∀ a c, f a = some c → g c = a)
    (vs : List (Json α)) {us : List (Json β)} (h : convertItems f vs = some us) :
    mapItems g us = vs := by
  match vs with
  | [] =>
    cases h
    rfl
  | v :: vs =>
    obtain ⟨w, hw, h⟩ := Option.bind_eq_some_iff.mp h
    obtain ⟨ws, hws, rfl⟩ := Option.map_eq_some_iff.mp h
    rw [mapItems, map_of_convert hg v hw, mapItems_of_convertItems hg vs hws]

end

end Convert

end Json

end SpiceAgent.Lib
