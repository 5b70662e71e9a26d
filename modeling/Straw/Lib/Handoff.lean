import Mathlib.Data.List.Basic

/-!
# One item in flight

A task takes an item up, and hands it on in a later step; in between the item is in a
slot. What is handed on is logged, or lost. Conditions are checked when an item is taken
up, so only the item in flight at the start may have been admitted under other ones.
-/

set_option autoImplicit false

universe u

structure Handoff (β : Type u) where
  slot : Option β
  log : List β

namespace Handoff

variable {β : Type u}

def empty : Handoff β := ⟨none, []⟩

def fill (h : Handoff β) (e : β) : Handoff β := { h with slot := some e }

def pass (h : Handoff β) (kept : Bool) : Handoff β :=
  match h.slot with
  | none => h
  | some e => ⟨none, if kept then h.log ++ [e] else h.log⟩

/-- Since `start`, every item but the one in flight there was taken up under `P`. -/
def Admits (P : β → Prop) (start h : Handoff β) : Prop :=
  h = start ∨ ∃ early late, h.log = start.log ++ (early ++ late) ∧
    early.Sublist start.slot.toList ∧ (∀ e ∈ late, P e) ∧ ∀ e, h.slot = some e → P e

variable {P Q : β → Prop} {start h : Handoff β}

namespace Admits

theorem mono (hadmits : Admits P start h) (himp : ∀ e, P e → Q e) : Admits Q start h := by
  rcases hadmits with rfl | ⟨early, late, hlog, hearly, hlate, hslot⟩
  · exact Or.inl rfl
  · exact Or.inr ⟨early, late, hlog, hearly, fun e he => himp e (hlate e he),
      fun e he => himp e (hslot e he)⟩

theorem fill (hadmits : Admits P start h) {e : β} (he : P e) :
    Admits P start (h.fill e) := by
  have hslot : ∀ e', (h.fill e).slot = some e' → P e' := by
    intro e' he'
    obtain rfl := Option.some.inj he'
    exact he
  rcases hadmits with rfl | ⟨early, late, hlog, hearly, hlate, -⟩
  · exact Or.inr ⟨[], [], (List.append_nil _).symm, List.nil_sublist _, by simp, hslot⟩
  · exact Or.inr ⟨early, late, hlog, hearly, hlate, hslot⟩

theorem pass (hadmits : Admits P start h) (kept : Bool) : Admits P start (h.pass kept) := by
  cases hh : h.slot with
  | none =>
    rw [Handoff.pass, hh]
    exact hadmits
  | some e =>
    rw [Handoff.pass, hh]
    refine Or.inr ?_
    rcases hadmits with rfl | ⟨early, late, hlog, hearly, hlate, hslot⟩
    · cases kept with
      | true => exact ⟨[e], [], by simp, by simp [hh], by simp, by simp⟩
      | false => exact ⟨[], [], by simp, by simp, by simp, by simp⟩
    · cases kept with
      | true =>
        refine ⟨early, late ++ [e], by simp [hlog], hearly, ?_, by simp⟩
        intro e' he'
        rcases List.mem_append.mp he' with he' | he'
        · exact hlate e' he'
        · obtain rfl := List.mem_singleton.mp he'
          exact hslot e' hh
      | false => exact ⟨early, late, by simpa using hlog, hearly, hlate, by simp⟩

theorem log_split (hadmits : Admits P start h) :
    ∃ early late, h.log = start.log ++ (early ++ late) ∧ early.Sublist start.slot.toList ∧
      ∀ e ∈ late, P e := by
  rcases hadmits with rfl | ⟨early, late, hlog, hearly, hlate, -⟩
  · exact ⟨[], [], by simp, by simp, by simp⟩
  · exact ⟨early, late, hlog, hearly, hlate⟩

/-- With nothing in flight at the start, everything logged since was taken up under `P`. -/
theorem forall_log (hadmits : Admits P empty h) : ∀ e ∈ h.log, P e := by
  obtain ⟨early, late, hlog, hearly, hlate⟩ := hadmits.log_split
  obtain rfl : early = [] := List.sublist_nil.mp hearly
  rw [hlog]
  exact hlate

end Admits

end Handoff
