/-!
# Searching by halving

A list of which some front comes before what is searched, and the rest does not, is searched by
halving (`bisect`). The comment groups of a file and the starts of the lines of a text are searched
this way.
-/

namespace AssignOnce

variable {α β : Type}

/-- The number of elements that come before what is searched, if these come first in the list and it
is a number from `low` to `high`. The numbers in question are halved until one is left. -/
def bisect (before : α → Bool) (l : List α) (low high : Nat) : Nat :=
  if low < high then
    let middle := (low + high) / 2
    if l[middle]?.any before then bisect before l (middle + 1) high
    else bisect before l low middle
  else low
termination_by high - low

/-- If all elements of the front come before what is searched and no other element does, the search
ends where the front ends. -/
theorem bisect_append {before : α → Bool} {front back : List α}
    (hfront : ∀ x ∈ front, before x = true) (hback : ∀ x ∈ back, before x = false) {low high : Nat}
    (hlow : low ≤ front.length) (hhigh : front.length ≤ high) :
    bisect before (front ++ back) low high = front.length := by
  -- each halving keeps the end of the front between the bounds
  fun_induction bisect before (front ++ back) low high with
  | case1 low high hlt middle hbefore ih =>
    obtain ⟨x, hx, hxb⟩ := (Option.any_eq_true ..).1 hbefore
    have hmiddle : middle < front.length := by
      refine Nat.lt_of_not_le fun hle => ?_
      rw [List.getElem?_append_right hle] at hx
      rw [hback x (List.mem_of_getElem? hx)] at hxb
      cases hxb
    exact ih hmiddle hhigh
  | case2 low high hlt middle hbefore ih =>
    have hmiddle : front.length ≤ middle := by
      refine Nat.le_of_not_lt fun hlt => hbefore ?_
      rw [List.getElem?_append_left hlt, List.getElem?_eq_getElem hlt]
      exact hfront _ (List.getElem_mem hlt)
    exact ih hlow hmiddle
  | case3 low high hge => omega

/-- Only what comes before decides where the search ends. -/
theorem bisect_map {before : α → Bool} {before' : β → Bool} {f : α → β}
    (hf : ∀ x, before' (f x) = before x) (l : List α) (low high : Nat) :
    bisect before' (l.map f) low high = bisect before l low high := by
  fun_induction bisect before l low high with
  | case1 low high hlt middle hbefore ih =>
    rw [bisect]
    simp only [if_pos hlt, List.getElem?_map, Option.any_map, hf]
    rw [if_pos hbefore, ih]
  | case2 low high hlt middle hbefore ih =>
    rw [bisect]
    simp only [if_pos hlt, List.getElem?_map, Option.any_map, hf]
    rw [if_neg hbefore, ih]
  | case3 low high hge => rw [bisect, if_neg hge]

end AssignOnce
