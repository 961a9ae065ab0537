import AssignOnce.Proofs.Ascent
import Mathlib.Data.List.Find

/-!
# Looking up names

In a well-formed forest (`ScopeForest.WellFormed`) the extents of the scopes nest as the scopes do,
so a position inside a scope is looked up below that scope (`WellFormed.exists_innermostAt?`). A
name is looked up from a scope outwards (`ScopeForest.lookup?`). A name that is declared neither in
a scope nor around it nor below it can be added to the scope (`ScopeForest.withName`):

* `Fresh.lookup?_withName_self`: from the scope and from all scopes below it the name leads to it;
* `Fresh.lookup?_withName`: what any name meant before, it means afterwards.
-/

namespace AssignOnce

namespace Span

/-- Whether every position of a span lies in another one. -/
def Inside (a b : Span) : Prop :=
  a.stop ≤ a.start ∨ b.start ≤ a.start ∧ a.stop ≤ b.stop

/-- Whether no position lies in both of two spans. -/
def Apart (a b : Span) : Prop :=
  a.stop ≤ a.start ∨ b.stop ≤ b.start ∨ a.stop ≤ b.start ∨ b.stop ≤ a.start

instance (a b : Span) : Decidable (a.Inside b) := inferInstanceAs (Decidable (_ ∨ _))

instance (a b : Span) : Decidable (a.Apart b) := inferInstanceAs (Decidable (_ ∨ _))

theorem contains_iff {a : Span} {p : Int} : a.contains p ↔ a.start ≤ p ∧ p < a.stop := by
  simp [contains]

theorem Inside.contains {a b : Span} (h : a.Inside b) {p : Int} (hp : a.contains p) :
    b.contains p := by
  rw [contains_iff] at hp ⊢
  unfold Inside at h
  omega

theorem Apart.not_contains {a b : Span} (h : a.Apart b) {p : Int} (ha : a.contains p) :
    ¬ b.contains p := by
  rw [contains_iff] at ha ⊢
  unfold Apart at h
  omega

end Span

namespace ScopeForest

variable {f : ScopeForest}

/-- The extents of the scopes nest as the scopes do. The package scope, which comes first, has no
extent of its own. -/
structure WellFormed (f : ScopeForest) : Prop where
  inside {s o : Nat} : f.outer? s = some o → o ≠ 0 → (f.scope s).span.Inside (f.scope o).span
  apart {s s' o : Nat} : f.outer? s = some o → f.outer? s' = some o → s ≠ s' →
    (f.scope s).span.Apart (f.scope s').span

theorem scope_of_size_le {s : Nat} (h : f.size ≤ s) : f.scope s = default := by
  simp [scope, Array.getD_eq_getD_getElem?, Array.getElem?_eq_none h]

theorem lt_size_of_outer? {s o : Nat} (h : f.outer? s = some o) : s < f.size := by
  rcases Nat.lt_or_ge s f.size with hs | hs
  · exact hs
  · rw [outer?, scope_of_size_le hs] at h
    cases h

theorem wellFormed_iff : f.WellFormed ↔
    (∀ s < f.size, ∀ o < f.size, f.outer? s = some o → o ≠ 0 →
      (f.scope s).span.Inside (f.scope o).span) ∧
    ∀ s < f.size, ∀ s' < f.size, (f.outer? s).isSome → f.outer? s = f.outer? s' → s ≠ s' →
      (f.scope s).span.Apart (f.scope s').span := by
  constructor
  · intro h
    refine ⟨fun s _ o _ => h.inside, fun s _ s' _ hs he => ?_⟩
    obtain ⟨o, ho⟩ := Option.isSome_iff_exists.1 hs
    exact h.apart ho (he ▸ ho)
  · rintro ⟨hi, ha⟩
    refine ⟨fun {s o} hs => ?_, fun {s s' o} hs hs' => ?_⟩
    · have := lt_size_of_outer? hs
      have := lt_of_outer? hs
      exact hi s (by omega) o (by omega) hs
    · exact ha s (lt_size_of_outer? hs) s' (lt_size_of_outer? hs') (by rw [hs]; rfl)
        (hs.trans hs'.symm)

instance (f : ScopeForest) : Decidable f.WellFormed :=
  @decidable_of_iff _ _ wellFormed_iff.symm (@instDecidableAnd _ _ inferInstance inferInstance)

/-! ## From positions to scopes -/

theorem mem_children {s b : Nat} : b ∈ f.children s ↔ b < f.size ∧ f.outer? b = some s := by
  simp [children, ids]

theorem outer?_of_childAt? {s b : Nat} {p : Int} (h : f.childAt? s p = some b) :
    f.outer? b = some s :=
  (mem_children.1 (List.mem_of_find?_eq_some h)).2

theorem descend_eq (f : ScopeForest) (p : Int) (s : Nat) :
    f.descend p s = match f.childAt? s p with
      | some b => f.descend p b
      | none => s := by
  rw [descend]
  split <;> simp_all

/-- The search for the innermost scope ends below the scope where it starts. -/
theorem mem_chain_descend (f : ScopeForest) (p : Int) (s : Nat) : s ∈ f.chain (f.descend p s) := by
  fun_induction descend f p s with
  | case1 s b hb ih => exact f.ascent.trans (f.ascent.up_mem (outer?_of_childAt? hb)) ih
  | case2 s => exact f.self_mem_chain s

theorem descend_lt_size {p : Int} {s : Nat} (hs : s < f.size) : f.descend p s < f.size := by
  fun_induction descend f p s with
  | case1 s b hb ih => exact ih (childAt?_bounds hb).2
  | case2 s => exact hs

/-- The innermost scope at a position is a scope of a file or lies below one. -/
theorem innermostAt?_spec {p : Int} {s : Nat} (h : f.innermostAt? p = some s) :
    s ≠ 0 ∧ s < f.size ∧ 0 ∈ f.chain s := by
  obtain ⟨b, hb, rfl⟩ := Option.map_eq_some_iff.1 h
  have hbs := childAt?_bounds hb
  have hmem := f.mem_chain_descend p b
  have hle := f.ascent.le_of_mem hmem
  exact ⟨by omega, descend_lt_size hbs.2,
    f.ascent.trans (f.ascent.up_mem (outer?_of_childAt? hb)) hmem⟩

namespace WellFormed

variable (h : f.WellFormed)
include h

theorem contains_of_mem_chain {s c : Nat} {p : Int} (hc : c ∈ f.chain s) (hne : c ≠ 0)
    (hp : (f.scope s).span.contains p) : (f.scope c).span.contains p := by
  induction s using Nat.strongRecOn with
  | ind s ih =>
    rcases f.ascent.mem_iff.1 hc with rfl | ⟨o, ho, hco⟩
    · exact hp
    · have := f.ascent.le_of_mem hco
      exact ih o (lt_of_outer? ho) hco ((h.inside ho (by omega)).contains hp)

/-- Only one scope below a scope contains a position. -/
theorem childAt?_eq {o b : Nat} {p : Int} (hb : f.outer? b = some o)
    (hp : (f.scope b).span.contains p) : f.childAt? o p = some b := by
  have hmem : b ∈ f.children o := mem_children.2 ⟨lt_size_of_outer? hb, hb⟩
  cases hc : f.childAt? o p with
  | none => exact absurd hp (List.find?_eq_none.1 hc b hmem)
  | some c =>
    have hcp : (f.scope c).span.contains p := by
      have := List.find?_some hc
      exact this
    by_cases e : c = b
    · rw [e]
    · exact absurd hp ((h.apart (outer?_of_childAt? hc) hb e).not_contains hcp)

/-- The search for a position inside a scope comes to that scope. -/
theorem mem_chain_descend_of_contains {s b : Nat} {p : Int} (hb : b ∈ f.chain s)
    (hp : (f.scope s).span.contains p) : s ∈ f.chain (f.descend p b) := by
  -- the search steps from `b` to the scope below it that leads to `s`
  induction hn : s - b using Nat.strongRecOn generalizing b with
  | ind n ih =>
    by_cases e : b = s
    · rw [e]
      exact f.mem_chain_descend p s
    · obtain ⟨c, hc, hcb⟩ := f.ascent.exists_below hb e
      have hbc := lt_of_outer? hcb
      have hcs := f.ascent.le_of_mem hc
      rw [descend_eq, h.childAt?_eq hcb (h.contains_of_mem_chain hc (by omega) hp)]
      exact ih (s - c) (by omega) hc rfl

/-- The innermost scope at a position inside a scope lies below that scope. -/
theorem exists_innermostAt? {s : Nat} {p : Int} (hs : s ≠ 0) (h0 : 0 ∈ f.chain s)
    (hp : (f.scope s).span.contains p) : ∃ q, f.innermostAt? p = some q ∧ s ∈ f.chain q := by
  obtain ⟨c, hc, hc0⟩ := f.ascent.exists_below h0 (Ne.symm hs)
  have hlt := lt_of_outer? hc0
  have hcp := h.contains_of_mem_chain hc (by omega) hp
  refine ⟨f.descend p c, ?_, h.mem_chain_descend_of_contains hc hp⟩
  rw [innermostAt?, h.childAt?_eq hc0 hcp]
  rfl

end WellFormed

/-! ## From names to scopes -/

/-- What a name leads to. -/
inductive Binding where
  | predeclared
  | scope (s : Nat)
  deriving DecidableEq, Repr

/-- What a name leads to from a scope: the first scope on the way outwards that declares it, or else
the predeclared name. -/
def lookup? (f : ScopeForest) (s : Nat) (name : String) : Option Binding :=
  match (f.chain s).find? (f.declares · name) with
  | some d => some (.scope d)
  | none =>
    if f.seesPredeclared s && predeclaredNames.contains name then some .predeclared else none

/-- A name leads to a scope exactly if the scope declares it and none on the way there does. -/
theorem lookup?_eq_scope_iff {s d : Nat} {name : String} :
    f.lookup? s name = some (.scope d) ↔ d ∈ f.chain s ∧ f.declares d name ∧
      ∀ b ∈ f.chain s, d ∈ f.chain b → b ≠ d → f.declares b name = false := by
  refine Iff.trans ?_ (f.ascent.find?_eq_some_iff (p := (f.declares · name)))
  unfold lookup?
  split
  · rename_i e he
    simp [he]
  · rename_i hnone
    simp only [hnone, reduceCtorEq, iff_false]
    split <;> simp

/-- The forest with one more name in a scope. -/
def withName (f : ScopeForest) (s : Nat) (name : String) : ScopeForest :=
  ⟨f.scopes.modify s fun sc => { sc with names := name :: sc.names }⟩

theorem scope_withName (f : ScopeForest) (s : Nat) (name : String) (q : Nat) :
    (f.withName s name).scope q =
      if q = s ∧ s < f.size then { f.scope q with names := name :: (f.scope q).names }
      else f.scope q := by
  simp only [scope, withName, Array.getD_eq_getD_getElem?, Array.getElem?_modify, size]
  by_cases e : q = s
  · subst e
    by_cases h : q < f.scopes.size
    · simp [h]
    · simp [h]
  · simp [e, Ne.symm e]

theorem outer_scope_withName (f : ScopeForest) (s : Nat) (name : String) (q : Nat) :
    ((f.withName s name).scope q).outer = (f.scope q).outer := by
  rw [scope_withName]
  split <;> rfl

theorem chain_withName (f : ScopeForest) (s : Nat) (name : String) (q : Nat) :
    (f.withName s name).chain q = f.chain q := by
  have outer_eq : ∀ q, (f.withName s name).outer? q = f.outer? q := fun q => by
    simp only [outer?, outer_scope_withName]
  induction q using Nat.strongRecOn with
  | ind q ih =>
    cases ho : f.outer? q with
    | none => rw [chain_of_root ho, chain_of_root ((outer_eq q).trans ho)]
    | some o =>
      rw [chain_of_outer ho, chain_of_outer ((outer_eq q).trans ho), ih o (lt_of_outer? ho)]

theorem seesPredeclared_withName (f : ScopeForest) (s : Nat) (name : String) (q : Nat) :
    (f.withName s name).seesPredeclared q = f.seesPredeclared q := by
  simp only [seesPredeclared, chain_withName, outer_scope_withName]

theorem declares_withName {s : Nat} (hs : s < f.size) (name : String) (q : Nat) (m : String) :
    (f.withName s name).declares q m = (f.declares q m || q == s && m == name) := by
  simp only [declares, scope_withName, hs, and_true]
  by_cases e : q = s
  · simp only [e, if_true, List.contains_cons, BEq.rfl, Bool.true_and, Bool.or_comm]
  · simp [e]

/-! ## Fresh names -/

/-- A name is fresh for a scope if no scope that is it, lies around it or lies below it declares the
name, and it is no predeclared name that can be seen there. -/
structure Fresh (f : ScopeForest) (s : Nat) (name : String) : Prop where
  around {q : Nat} : q ∈ f.chain s → f.declares q name = false
  below {q : Nat} : s ∈ f.chain q → f.declares q name = false
  predeclared : f.seesPredeclared s → name ∉ predeclaredNames

theorem declares_eq_false_of_size_le {q : Nat} (h : f.size ≤ q) (name : String) :
    f.declares q name = false := by
  rw [declares, scope_of_size_le h]
  rfl

theorem fresh_of_visibleAround {s : Nat} {name : String} (h : f.visibleAround s name = false) :
    f.Fresh s name := by
  simp only [visibleAround, visibleIn, declaredBelow, Bool.or_eq_false_iff, List.any_eq_false,
    Bool.and_eq_false_iff] at h
  obtain ⟨⟨haround, hpre⟩, hbelow⟩ := h
  refine ⟨fun hq => by simpa using haround _ hq, fun {q} hq => ?_, fun hs => ?_⟩
  · rcases Nat.lt_or_ge q f.size with hlt | hge
    · simpa [within_iff.2 hq] using hbelow q (List.mem_range.2 hlt)
    · exact declares_eq_false_of_size_le hge name
  · simpa [hs] using hpre

theorem visibleAround_eq_false_iff {s : Nat} {name : String} :
    f.visibleAround s name = false ↔ f.Fresh s name := by
  refine ⟨fresh_of_visibleAround, fun h => ?_⟩
  simp only [visibleAround, visibleIn, declaredBelow, Bool.or_eq_false_iff, List.any_eq_false,
    Bool.and_eq_false_iff, Bool.and_eq_true, not_and]
  refine ⟨⟨fun q hq => by simp [h.around hq], ?_⟩, fun q _ hq => ?_⟩
  · cases hs : f.seesPredeclared s with
    | false => exact .inl rfl
    | true => exact .inr (by simpa using h.predeclared hs)
  · simp [h.below (within_iff.1 hq)]

namespace Fresh

variable {s : Nat} {name : String} (h : f.Fresh s name)
include h

/-- A scope on a way through the scope does not declare a fresh name. -/
theorem declares_eq_false {q d : Nat} (hs : s ∈ f.chain q) (hd : d ∈ f.chain q) :
    f.declares d name = false := by
  rcases Nat.le_total d s with hds | hsd
  · exact h.around (f.ascent.mem_of_le hd hs hds)
  · exact h.below (f.ascent.mem_of_le hs hd hsd)

/-- A fresh name leads nowhere from the scope or from below it. -/
theorem lookup?_eq_none {q : Nat} (hs : s ∈ f.chain q) : f.lookup? q name = none := by
  have hfind : (f.chain q).find? (f.declares · name) = none :=
    List.find?_eq_none.2 fun d hd => by simp [h.declares_eq_false hs hd]
  have hpre : ¬ (f.seesPredeclared q && predeclaredNames.contains name) := by
    intro hp
    simp only [Bool.and_eq_true, seesPredeclared, List.any_eq_true, beq_iff_eq,
      List.contains_iff_mem] at hp
    obtain ⟨⟨o, ho, hout⟩, hn⟩ := hp
    -- the scope below the predeclared names is the last one on the way, so also on that from `s`
    have htop : f.chain o = [o] := chain_of_root (by simp [outer?, hout])
    have hos : o ∈ f.chain s := by
      rcases Nat.le_total o s with hle | hle
      · exact f.ascent.mem_of_le ho hs hle
      · have := f.ascent.mem_of_le hs ho hle
        rw [htop, List.mem_singleton] at this
        rw [this, htop]
        exact List.mem_singleton_self o
    exact h.predeclared (List.any_eq_true.2 ⟨o, hos, by simp [hout]⟩) hn
  simp only [lookup?, hfind, hpre, Bool.false_eq_true, if_false]

/-- Once a fresh name is added to a scope, it leads to the scope from there and from below. -/
theorem lookup?_withName_self (hlt : s < f.size) {q : Nat} (hs : s ∈ f.chain q) :
    (f.withName s name).lookup? q name = some (.scope s) := by
  have hfind : (f.chain q).find? (fun d => (f.withName s name).declares d name) = some s := by
    induction q using Nat.strongRecOn with
    | ind q ih =>
      by_cases e : q = s
      · subst e
        have hdq : (f.withName q name).declares q name := by simp [declares_withName hlt]
        cases ho : f.outer? q with
        | none => simp only [chain_of_root ho, List.find?_cons, hdq]
        | some o => simp only [chain_of_outer ho, List.find?_cons, hdq]
      · rcases f.ascent.mem_iff.1 hs with e' | ⟨o, ho, hso⟩
        · exact absurd e'.symm e
        · have hdq : (f.withName s name).declares q name = false := by
            simp [declares_withName hlt, e, h.below hs]
          simp only [chain_of_outer ho, List.find?_cons, hdq]
          exact ih o (lt_of_outer? ho) hso
  simp only [lookup?, chain_withName, hfind]

/-- Adding a fresh name to a scope changes the meaning of no name that had one. -/
theorem lookup?_withName (hlt : s < f.size) {q : Nat} {m : String} {b : Binding}
    (hb : f.lookup? q m = some b) : (f.withName s name).lookup? q m = some b := by
  by_cases hs : s ∈ f.chain q ∧ m = name
  · obtain ⟨hs, rfl⟩ := hs
    rw [h.lookup?_eq_none hs] at hb
    cases hb
  · have same : ∀ d ∈ f.chain q, (f.withName s name).declares d m = f.declares d m := by
      intro d hd
      have : ¬ (d = s ∧ m = name) := fun he => hs ⟨he.1 ▸ hd, he.2⟩
      rw [declares_withName hlt, Bool.or_eq_left_iff_imp]
      intro he
      simp only [Bool.and_eq_true, beq_iff_eq] at he
      exact absurd he this
    have hfind : (f.chain q).find? (fun d => (f.withName s name).declares d m) =
        (f.chain q).find? (f.declares · m) :=
      List.find?_congr same
    simp only [lookup?, chain_withName, seesPredeclared_withName, hfind]
    exact hb

end Fresh

end ScopeForest

end AssignOnce
