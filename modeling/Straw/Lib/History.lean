import Mathlib.Data.List.Basic
import Mathlib.Data.List.Induction

/-!
# What a history of operations leaves standing

Each operation puts items, in order, and undoes some of those put before it. `items` keeps
what is left as a list, `Stands` says of an item at which point of the history it was put and
that nothing has undone it since.
-/

set_option autoImplicit false

universe u v

namespace History

variable {Op : Type u} {Item : Type v} (puts : Op → List Item) (undoes : Op → Item → Bool)

/-- The item is the `j`-th that the `i`-th operation put, and it has not been undone. -/
def Stands (ops : List Op) (i j : Nat) (x : Item) : Prop :=
  ∃ op, ops[i]? = some op ∧ (puts op)[j]? = some x ∧
    ∀ later ∈ ops.drop (i + 1), undoes later x = false

def step (items : List Item) (op : Op) : List Item :=
  items.filter (fun x => !undoes op x) ++ puts op

def items (ops : List Op) : List Item := ops.foldl (step puts undoes) []

variable {puts undoes} {ops : List Op} {i j : Nat} {x y : Item}

theorem Stands.lt (h : Stands puts undoes ops i j x) : i < ops.length := by
  obtain ⟨op, hop, -⟩ := h
  exact (List.getElem?_eq_some_iff.mp hop).1

theorem Stands.unique (hx : Stands puts undoes ops i j x) (hy : Stands puts undoes ops i j y) :
    x = y := by
  obtain ⟨op, hop, hputs, -⟩ := hx
  obtain ⟨op', hop', hputs', -⟩ := hy
  cases hop.symm.trans hop'
  exact Option.some.inj (hputs.symm.trans hputs')

theorem stands_snoc (op : Op) : Stands puts undoes (ops ++ [op]) i j x ↔
    Stands puts undoes ops i j x ∧ undoes op x = false ∨
      i = ops.length ∧ (puts op)[j]? = some x := by
  -- an old operation, the new one, or none at all
  rcases Nat.lt_trichotomy i ops.length with hlt | heq | hgt
  · have hdrop : (ops ++ [op]).drop (i + 1) = ops.drop (i + 1) ++ [op] :=
      List.drop_append_of_le_length hlt
    unfold Stands
    rw [List.getElem?_append_left hlt, hdrop]
    constructor
    · rintro ⟨o, ho, hputs, hlater⟩
      refine Or.inl ⟨⟨o, ho, hputs, ?_⟩, hlater op (by simp)⟩
      intro later hmem
      exact hlater later (List.mem_append_left _ hmem)
    · rintro (⟨⟨o, ho, hputs, hlater⟩, hlast⟩ | ⟨rfl, -⟩)
      · refine ⟨o, ho, hputs, ?_⟩
        intro later hmem
        rcases List.mem_append.mp hmem with hold | hnew
        · exact hlater later hold
        · rwa [List.mem_singleton.mp hnew]
      · exact absurd hlt (Nat.lt_irrefl _)
  · constructor
    · rintro ⟨o, ho, hputs, -⟩
      rw [heq, List.getElem?_concat_length] at ho
      cases ho
      exact Or.inr ⟨heq, hputs⟩
    · rintro (⟨hstands, -⟩ | ⟨-, hputs⟩)
      · exact absurd hstands.lt (by omega)
      · refine ⟨op, by rw [heq, List.getElem?_concat_length], hputs, ?_⟩
        intro later hmem
        rw [List.drop_eq_nil_of_le (by simp [heq])] at hmem
        cases hmem
  · constructor
    · intro hstands
      have hlt := hstands.lt
      rw [List.length_append, List.length_singleton] at hlt
      omega
    · rintro (⟨hstands, -⟩ | ⟨heq, -⟩)
      · exact absurd hstands.lt (by omega)
      · omega

/-- One point of the history is before another. -/
def Before (a b : Nat × Nat) : Prop := a.1 < b.1 ∨ a.1 = b.1 ∧ a.2 < b.2

/-- The items with the points of the history at which they were put. -/
structure Listing (puts : Op → List Item) (undoes : Op → Item → Bool) (ops : List Op)
    (tagged : List ((Nat × Nat) × Item)) : Prop where
  items_eq : tagged.map Prod.snd = items puts undoes ops
  ordered : tagged.Pairwise fun a b => Before a.1 b.1
  mem_iff : ∀ i j x, ((i, j), x) ∈ tagged ↔ Stands puts undoes ops i j x

theorem Listing.snoc {tagged : List ((Nat × Nat) × Item)} (h : Listing puts undoes ops tagged)
    (op : Op) : Listing puts undoes (ops ++ [op]) (tagged.filter (fun a => !undoes op a.2) ++
      (puts op).zipIdx.map fun a => ((ops.length, a.2), a.1)) where
  items_eq := by
    have hold : (tagged.filter fun a => !undoes op a.2).map Prod.snd =
        (items puts undoes ops).filter fun x => !undoes op x := by
      rw [← h.items_eq, List.filter_map]
      rfl
    have hnew : ((puts op).zipIdx.map fun a => ((ops.length, a.2), a.1)).map Prod.snd = puts op := by
      rw [List.map_map]
      exact List.zipIdx_map_fst 0 (puts op)
    rw [List.map_append, hold, hnew, items, items, List.foldl_append]
    rfl
  ordered := by
    rw [List.pairwise_append]
    refine ⟨h.ordered.sublist List.filter_sublist, ?_, ?_⟩
    · rw [List.pairwise_map]
      have hindices : ((puts op).zipIdx.map Prod.snd).Pairwise (· < ·) := by
        rw [List.zipIdx_map_snd]
        exact List.pairwise_lt_range'
      exact (List.pairwise_map.mp hindices).imp fun hlt => Or.inr ⟨rfl, hlt⟩
    · intro a ha b hb
      obtain ⟨c, -, rfl⟩ := List.mem_map.mp hb
      have hstands := (h.mem_iff a.1.1 a.1.2 a.2).mp (List.mem_of_mem_filter ha)
      exact Or.inl hstands.lt
  mem_iff := by
    intro i j x
    rw [stands_snoc, List.mem_append, List.mem_filter, h.mem_iff, List.mem_map]
    apply or_congr
    · simp
    · constructor
      · rintro ⟨⟨y, k⟩, hmem, heq⟩
        cases heq
        exact ⟨rfl, List.mem_zipIdx_iff_getElem?.mp hmem⟩
      · rintro ⟨rfl, hputs⟩
        exact ⟨(x, j), List.mem_zipIdx_iff_getElem?.mpr hputs, rfl⟩

theorem exists_listing (puts : Op → List Item) (undoes : Op → Item → Bool) (ops : List Op) :
    ∃ tagged, Listing puts undoes ops tagged := by
  induction ops using List.reverseRecOn with
  | nil =>
    refine ⟨[], rfl, List.Pairwise.nil, ?_⟩
    intro i j x
    apply iff_of_false List.not_mem_nil
    intro hstands
    exact Nat.not_lt_zero _ hstands.lt
  | append_singleton ops op ih =>
    obtain ⟨tagged, h⟩ := ih
    exact ⟨_, h.snoc op⟩

theorem mem_items_iff : x ∈ items puts undoes ops ↔ ∃ i j, Stands puts undoes ops i j x := by
  obtain ⟨tagged, h⟩ := exists_listing puts undoes ops
  rw [← h.items_eq, List.mem_map]
  constructor
  · rintro ⟨⟨⟨i, j⟩, y⟩, hmem, rfl⟩
    exact ⟨i, j, (h.mem_iff i j y).mp hmem⟩
  · rintro ⟨i, j, hstands⟩
    exact ⟨((i, j), x), (h.mem_iff i j x).mpr hstands, rfl⟩

/-- An item that no earlier one exceeds and that exceeds all later ones is the latest of the
largest. -/
theorem exists_latest {p : Item → Bool} {key : Item → Nat} {pre post : List Item}
    (h : (items puts undoes ops).filter p = pre ++ x :: post)
    (hpre : ∀ y ∈ pre, key y ≤ key x) (hpost : ∀ y ∈ post, key y < key x) :
    ∃ i j, Stands puts undoes ops i j x ∧ ∀ i' j' y, Stands puts undoes ops i' j' y → p y = true →
      key y < key x ∨ key y = key x ∧ (Before (i', j') (i, j) ∨ (i', j') = (i, j)) := by
  obtain ⟨tagged, hl⟩ := exists_listing puts undoes ops
  rw [← hl.items_eq, List.filter_map] at h
  obtain ⟨before, rest, hsplit, hbefore, hrest⟩ := List.map_eq_append_iff.mp h
  obtain ⟨⟨⟨i, j⟩, x'⟩, after, hcons, hx, hafter⟩ := List.map_eq_cons_iff.mp hrest
  cases hx
  rw [hcons] at hsplit
  have hordered := hl.ordered.sublist (List.filter_sublist (p := p ∘ Prod.snd))
  rw [hsplit, List.pairwise_append, List.pairwise_cons] at hordered
  have hmid : ((i, j), x') ∈ tagged.filter (p ∘ Prod.snd) := by
    rw [hsplit]
    exact List.mem_append_right _ List.mem_cons_self
  refine ⟨i, j, (hl.mem_iff i j x').mp (List.mem_of_mem_filter hmid), ?_⟩
  intro i' j' y hstands hp
  have hmem : ((i', j'), y) ∈ tagged.filter (p ∘ Prod.snd) :=
    List.mem_filter.mpr ⟨(hl.mem_iff i' j' y).mpr hstands, hp⟩
  rw [hsplit] at hmem
  rcases List.mem_append.mp hmem with hearlier | hmem
  · have hle : key y ≤ key x' := by
      apply hpre
      rw [← hbefore]
      exact List.mem_map_of_mem hearlier
    have hpoint := hordered.2.2 _ hearlier _ List.mem_cons_self
    rcases Nat.lt_or_eq_of_le hle with hlt | heq
    · exact Or.inl hlt
    · exact Or.inr ⟨heq, Or.inl hpoint⟩
  · rcases List.mem_cons.mp hmem with heq | hlater
    · cases heq
      exact Or.inr ⟨rfl, Or.inr rfl⟩
    · apply Or.inl
      apply hpost
      rw [← hafter]
      exact List.mem_map_of_mem hlater

end History
