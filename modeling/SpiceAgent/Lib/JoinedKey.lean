import Mathlib.Data.List.Lex
import SpiceAgent.Lib.Text

/-!
# Keys joined with a NUL

A pair of byte strings is ordered and told apart like the byte string `a ++ 0 :: b`, if the first
ones have no NUL: it is the least byte.
-/

namespace SpiceAgent.Lib

open List

variable {x y : List UInt8}

theorem append_nul_lt : ∀ {l l' : List UInt8}, 0 ∉ l → 0 ∉ l' → l < l' → l ++ 0 :: x < l' ++ 0 :: y
  | _, [], _, _, h => absurd h (not_lt_nil _)
  | [], c :: l', _, hl', _ =>
    cons_lt_cons_iff.mpr (.inl (UInt8.pos_iff_ne_zero.mpr fun hc => hl' (hc ▸ mem_cons_self)))
  | c :: l, c' :: l', hl, hl', h => by
    rw [cons_lt_cons_iff] at h
    refine cons_lt_cons_iff.mpr (h.imp_right fun ⟨heq, hlt⟩ => ⟨heq, ?_⟩)
    exact append_nul_lt (fun hc => hl (mem_cons_of_mem c hc))
      (fun hc => hl' (mem_cons_of_mem c' hc)) hlt

theorem append_left_lt (h : x < y) : ∀ l : List UInt8, l ++ x < l ++ y
  | [] => h
  | _ :: l => cons_lt_cons_iff.mpr (.inr ⟨rfl, append_left_lt h l⟩)

theorem joined_inj : ∀ {l l' : List UInt8}, 0 ∉ l → 0 ∉ l' → l ++ 0 :: x = l' ++ 0 :: y →
    l = l' ∧ x = y
  | [], [], _, _, h => ⟨rfl, (cons.inj h).2⟩
  | [], c :: _, _, hl', h => absurd (cons.inj h).1 fun hc => hl' (hc ▸ mem_cons_self)
  | c :: _, [], hl, _, h => absurd (cons.inj h).1 fun hc => hl (hc ▸ mem_cons_self)
  | c :: l, c' :: l', hl, hl', h => by
    obtain ⟨heq, hrest⟩ := cons.inj h
    obtain ⟨htail, hx⟩ := joined_inj (fun hc => hl (mem_cons_of_mem c hc))
      (fun hc => hl' (mem_cons_of_mem c' hc)) hrest
    exact ⟨by rw [heq, htail], hx⟩

theorem joined_lt {a b : List UInt8} (ha : 0 ∉ a) (hb : 0 ∉ b) (h : a < b ∨ a = b ∧ x < y) :
    a ++ 0 :: x < b ++ 0 :: y := by
  rcases h with hlt | ⟨rfl, hlt⟩
  · exact append_nul_lt ha hb hlt
  · exact append_left_lt (cons_lt_cons_iff.mpr (.inr ⟨rfl, hlt⟩)) _

theorem empty_lt_joined (a b : List UInt8) : [] < a ++ 0 :: b := by
  cases a with
  | nil => exact nil_lt_cons ..
  | cons c l => exact nil_lt_cons ..

end SpiceAgent.Lib
