import Mathlib.Data.List.Basic

/-!
# A slot with one owner at a time

A slot is claimed by an owner, who either gives it back, so that another may claim it, or fills it
for good. A history of such a slot is accepted when every claim finds it free and only the owner
gives it back or fills it.
-/

namespace SpiceAgent.Lib

open Option

variable {ι ρ : Type*} [DecidableEq ι]

/-- What happens to a slot. -/
inductive SlotEvent (ι ρ : Type*)
  | claim (owner : ι)
  | giveBack (owner : ι)
  | fill (owner : ι) (value : ρ)

/-- The state of a slot. -/
inductive Slot (ι ρ : Type*)
  | free
  | held (owner : ι)
  | filled (owner : ι) (value : ρ)

namespace Slot

def step : Slot ι ρ → SlotEvent ι ρ → Option (Slot ι ρ)
  | .free, .claim i => some (.held i)
  | .held i, .giveBack j => if i = j then some .free else none
  | .held i, .fill j r => if i = j then some (.filled i r) else none
  | _, _ => none

def run (s : Slot ι ρ) (events : List (SlotEvent ι ρ)) : Option (Slot ι ρ) := events.foldlM step s

variable {s s' : Slot ι ρ} {i j : ι} {events mid : List (SlotEvent ι ρ)}

theorem run_cons (e : SlotEvent ι ρ) : run s (e :: events) = (step s e).bind (run · events) := rfl

theorem run_append (events' : List (SlotEvent ι ρ)) :
    run s (events ++ events') = (run s events).bind (run · events') :=
  List.foldlM_append ..

end Slot

end SpiceAgent.Lib
