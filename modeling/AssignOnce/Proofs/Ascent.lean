import AssignOnce.Program.Scope
import AssignOnce.Tree.Basic

/-!
# Ways to the root

Nodes and scopes are numbered so that what lies around one has a smaller number. `Ascent` says that
`path` lists a number and all that lies around it, following `up`; both `Tree.enclosing` and
`ScopeForest.chain` do (`Tree.ascent`, `ScopeForest.ascent`). What lies around one number lies
around each other in the order of the numbers (`Ascent.mem_of_le`).
-/

namespace AssignOnce

/-- A way up by smaller and smaller numbers. -/
structure Ascent (up : Nat → Option Nat) (path : Nat → List Nat) : Prop where
  lt {i p : Nat} : up i = some p → p < i
  path_top {i : Nat} : up i = none → path i = [i]
  path_up {i p : Nat} : up i = some p → path i = i :: path p

theorem Tree.ascent (t : Tree) : Ascent t.parent? t.enclosing :=
  ⟨lt_of_parent?, enclosing_of_root, enclosing_of_parent⟩

theorem ScopeForest.ascent (f : ScopeForest) : Ascent f.outer? f.chain :=
  ⟨lt_of_outer?, chain_of_root, chain_of_outer⟩

namespace Ascent

variable {up : Nat → Option Nat} {path : Nat → List Nat} (h : Ascent up path)
include h

theorem mem_iff {i k : Nat} : k ∈ path i ↔ k = i ∨ ∃ p, up i = some p ∧ k ∈ path p := by
  cases hu : up i with
  | none => simp [h.path_top hu]
  | some p => simp [h.path_up hu]

theorem mem_self (i : Nat) : i ∈ path i :=
  h.mem_iff.2 (.inl rfl)

theorem mem_of_up {i p k : Nat} (hp : up i = some p) (hk : k ∈ path p) : k ∈ path i :=
  h.mem_iff.2 (.inr ⟨p, hp, hk⟩)

theorem up_mem {i p : Nat} (hp : up i = some p) : p ∈ path i :=
  h.mem_of_up hp (h.mem_self p)

theorem le_of_mem {i k : Nat} (hk : k ∈ path i) : k ≤ i := by
  induction i using Nat.strongRecOn with
  | ind i ih =>
    rcases h.mem_iff.1 hk with rfl | ⟨p, hp, hkp⟩
    · exact Nat.le_refl _
    · have := h.lt hp
      have := ih p (h.lt hp) hkp
      omega

theorem trans {i j k : Nat} (hk : k ∈ path j) (hj : j ∈ path i) : k ∈ path i := by
  induction i using Nat.strongRecOn with
  | ind i ih =>
    rcases h.mem_iff.1 hj with rfl | ⟨p, hp, hjp⟩
    · exact hk
    · exact h.mem_of_up hp (ih p (h.lt hp) hjp)

/-- Of two numbers on one way the smaller one is on the way from the other. -/
theorem mem_of_le {i j k : Nat} (hk : k ∈ path i) (hj : j ∈ path i) (hkj : k ≤ j) : k ∈ path j := by
  induction i using Nat.strongRecOn with
  | ind i ih =>
    rcases h.mem_iff.1 hj with rfl | ⟨p, hp, hjp⟩
    · exact hk
    · rcases h.mem_iff.1 hk with rfl | ⟨q, hq, hkq⟩
      · have := h.le_of_mem hjp
        have := h.lt hp
        omega
      · obtain rfl : q = p := by rw [hq] at hp; exact Option.some.inj hp
        exact ih q (h.lt hp) hkq hjp

/-- Just before a number on a way, unless the way starts there, stands one directly below it. -/
theorem exists_below {i k : Nat} (hk : k ∈ path i) (hne : k ≠ i) :
    ∃ c ∈ path i, up c = some k := by
  induction i using Nat.strongRecOn with
  | ind i ih =>
    rcases h.mem_iff.1 hk with rfl | ⟨p, hp, hkp⟩
    · exact absurd rfl hne
    · by_cases e : k = p
      · exact ⟨i, h.mem_self i, e ▸ hp⟩
      · obtain ⟨c, hc, hck⟩ := ih p (h.lt hp) hkp e
        exact ⟨c, h.mem_of_up hp hc, hck⟩

/-- Only one of the numbers directly below another one is on a way. -/
theorem eq_of_up {i a b p : Nat} (ha : a ∈ path i) (hb : b ∈ path i) (hap : up a = some p)
    (hbp : up b = some p) : a = b := by
  have eq_of_le : ∀ {a b : Nat}, a ∈ path i → b ∈ path i → up a = some p → up b = some p → a ≤ b →
      a = b := by
    intro a b ha hb hap hbp hab
    rcases h.mem_iff.1 (h.mem_of_le ha hb hab) with e | ⟨q, hq, haq⟩
    · exact e
    · obtain rfl : q = p := by rw [hq] at hbp; exact Option.some.inj hbp
      have := h.le_of_mem haq
      have := h.lt hap
      omega
  rcases Nat.le_total a b with hab | hba
  · exact eq_of_le ha hb hap hbp hab
  · exact (eq_of_le hb ha hbp hap hba).symm

/-- What has a property on a way lies around the first that has it. -/
theorem mem_of_find? {p : Nat → Bool} {i a b : Nat} (ha : (path i).find? p = some a)
    (hb : b ∈ path i) (hp : p b) : b ∈ path a := by
  induction i using Nat.strongRecOn with
  | ind i ih =>
    by_cases hi : p i
    · have hhead : (path i).find? p = some i := by
        cases hu : up i with
        | none => simp only [h.path_top hu, List.find?_cons, hi]
        | some q => simp only [h.path_up hu, List.find?_cons, hi]
      rw [hhead] at ha
      cases ha
      exact hb
    · rcases h.mem_iff.1 hb with rfl | ⟨q, hq, hbq⟩
      · exact absurd hp hi
      · rw [h.path_up hq, List.find?_cons_of_neg hi] at ha
        exact ih q (h.lt hq) ha hbq

/-- The first number on a way that has a property is the one that has it when none on the way there
does. -/
theorem find?_eq_some_iff {p : Nat → Bool} {i k : Nat} :
    (path i).find? p = some k ↔
      k ∈ path i ∧ p k ∧ ∀ j ∈ path i, k ∈ path j → j ≠ k → p j = false := by
  constructor
  · intro hk
    refine ⟨List.mem_of_find?_eq_some hk, List.find?_some hk, fun j hj hkj hne => ?_⟩
    refine Bool.eq_false_iff.2 fun hpj => hne ?_
    exact Nat.le_antisymm (h.le_of_mem (h.mem_of_find? hk hj hpj)) (h.le_of_mem hkj)
  · rintro ⟨hk, hpk, hnone⟩
    obtain ⟨a, ha⟩ := Option.isSome_iff_exists.1 (List.find?_isSome.2 ⟨k, hk, hpk⟩)
    have hpa : p a := List.find?_some ha
    by_cases hak : a = k
    · rw [ha, hak]
    · rw [hnone a (List.mem_of_find?_eq_some ha) (h.mem_of_find? ha hk hpk) hak] at hpa
      cases hpa

/-- A way ends where there is no way up. -/
theorem getLastD_spec (i d : Nat) :
    (path i).getLastD d ∈ path i ∧ up ((path i).getLastD d) = none := by
  induction i using Nat.strongRecOn generalizing d with
  | ind i ih =>
    cases hu : up i with
    | none =>
      rw [h.path_top hu]
      exact ⟨List.mem_singleton_self i, hu⟩
    | some p =>
      rw [h.path_up hu, List.getLastD_cons]
      exact (ih p (h.lt hu) i).imp_left (List.mem_cons_of_mem i)

end Ascent

end AssignOnce
