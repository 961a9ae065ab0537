import AssignOnce.Proofs.Fix.Numbering
import AssignOnce.Proofs.Scope.Lookup

/-!
# Names that are given out

A namer gives out the first free candidate (`Namer.unique_eq_ok_iff`), and none if all that it tries
are taken (`Namer.unique_eq_error_iff`). It is asked again and again (`Namer.session`): names are
reserved, and new names are given out or not. What is reserved afterwards is what was reserved
before and what the answers name (`Namer.mem_reserved_session`), so no name is given out that was
reserved or given out before.

* `Namer.session_names`: what each answer of a session is;
* `Namer.unique_isIdentifier_iff`: when a name that is given out for an identifier is one.
-/

namespace AssignOnce

namespace Namer

variable {n n' : Namer} {scopes : ScopeForest} {old name : String} {s : Nat}

/-! ## The first free candidate -/

theorem firstFrom_eq_some_iff {free : Nat → Bool} {tries k j : Nat} :
    firstFrom free tries k = some j ↔
      k ≤ j ∧ j < k + tries ∧ free j ∧ ∀ i, k ≤ i → i < j → free i = false := by
  induction tries generalizing k with
  | zero =>
    simp only [firstFrom, reduceCtorEq, false_iff]
    omega
  | succ tries ih =>
    rw [firstFrom]
    split
    · rename_i hk
      rw [Option.some.injEq]
      constructor
      · rintro rfl
        exact ⟨Nat.le_refl _, by omega, hk, fun i hi hij => by omega⟩
      · rintro ⟨hkj, -, -, hleast⟩
        by_contra hne
        simp [hleast k (Nat.le_refl k) (by omega)] at hk
    · rename_i hk
      rw [ih]
      constructor
      · rintro ⟨hkj, hj, hfree, hleast⟩
        refine ⟨by omega, by omega, hfree, fun i hi hij => ?_⟩
        by_cases e : i = k
        · rw [e]
          exact Bool.eq_false_iff.2 hk
        · exact hleast i (by omega) hij
      · rintro ⟨hkj, hj, hfree, hleast⟩
        have hne : k ≠ j := fun e => hk (e ▸ hfree)
        exact ⟨by omega, by omega, hfree, fun i hi => hleast i (by omega)⟩

theorem firstFrom_eq_none_iff {free : Nat → Bool} {tries k : Nat} :
    firstFrom free tries k = none ↔ ∀ i, k ≤ i → i < k + tries → free i = false := by
  induction tries generalizing k with
  | zero =>
    simp only [firstFrom, true_iff]
    omega
  | succ tries ih =>
    rw [firstFrom]
    split
    · rename_i hk
      simp only [reduceCtorEq, false_iff]
      intro hall
      simp [hall k (Nat.le_refl k) (by omega)] at hk
    · rename_i hk
      rw [ih]
      constructor
      · intro hall i hi hlt
        by_cases e : i = k
        · rw [e]
          exact Bool.eq_false_iff.2 hk
        · exact hall i (by omega) (by omega)
      · intro hall i hi hlt
        exact hall i (by omega) (by omega)

/-- Whether a name can be given out for a scope: it is none of the names that are reserved, and
fresh for the scope. -/
def Free (reserved : List String) (scopes : ScopeForest) (s : Nat) (name : String) : Prop :=
  name ∉ reserved ∧ scopes.Fresh s name

theorem not_isTaken_iff : (!n.isTaken scopes s name) = true ↔ Free n.reserved scopes s name := by
  simp [isTaken, Free, ScopeForest.visibleAround_eq_false_iff]

/-- The name that is given out is the first candidate that is free. -/
theorem unique_eq_ok_iff :
    n.unique scopes old s = .ok (name, n') ↔
      (∃ k, 1 ≤ k ∧ k ≤ n.tries ∧ Free n.reserved scopes s (candidate old k) ∧
        (∀ j, 1 ≤ j → j < k → ¬ Free n.reserved scopes s (candidate old j)) ∧
        name = candidate old k) ∧ n' = n.reserve name := by
  have hfirst : n.unique scopes old s = .ok (name, n') ↔
      (∃ k, firstFrom (fun k => !n.isTaken scopes s (candidate old k)) n.tries 1 = some k ∧
        name = candidate old k) ∧ n' = n.reserve name := by
    unfold unique
    split
    · rename_i k hk
      simp only [hk, Except.ok.injEq, Prod.mk.injEq, Option.some.injEq, exists_eq_left']
      constructor
      · rintro ⟨rfl, rfl⟩
        exact ⟨rfl, rfl⟩
      · rintro ⟨rfl, rfl⟩
        exact ⟨rfl, rfl⟩
    · rename_i hk
      simp [hk]
  rw [hfirst]
  simp only [firstFrom_eq_some_iff, ← Bool.not_eq_true, not_isTaken_iff, and_assoc,
    Nat.lt_add_one_iff, Nat.add_comm 1]

/-- No name is given out exactly if none of the candidates is free. -/
theorem unique_eq_error_iff {e : FixError} :
    n.unique scopes old s = .error e ↔ e = .namesExhausted old n.tries ∧
      ∀ k, 1 ≤ k → k ≤ n.tries → ¬ Free n.reserved scopes s (candidate old k) := by
  have hnone : n.unique scopes old s = .error e ↔ e = .namesExhausted old n.tries ∧
      firstFrom (fun k => !n.isTaken scopes s (candidate old k)) n.tries 1 = none := by
    unfold unique
    split
    · rename_i k hk
      simp [hk]
    · rename_i hk
      simp [hk, eq_comm]
  rw [hnone]
  simp only [firstFrom_eq_none_iff, ← Bool.not_eq_true, not_isTaken_iff, Nat.lt_add_one_iff,
    Nat.add_comm 1]

/-- A name that is given out is fresh for the scope it is meant for. -/
theorem fresh_of_unique (h : n.unique scopes old s = .ok (name, n')) : scopes.Fresh s name := by
  obtain ⟨⟨k, -, -, hfree, -, rfl⟩, -⟩ := unique_eq_ok_iff.1 h
  exact hfree.2

end Namer

/-! ## Sessions -/

/-- What a namer is asked for. -/
inductive NameRequest where
  /-- A name is not to be given out. -/
  | reserve (name : String)
  /-- A new name is needed for a variable that is to be declared in a scope. -/
  | unique (scopes : ScopeForest) (old : String) (scope : Nat)

/-- What a request comes to. -/
inductive NameOutcome where
  | reserved (name : String)
  | given (name : String)
  | failed (cause : FixError)
  deriving DecidableEq, Repr

/-- The name that an outcome takes from the names that can be given out. -/
def NameOutcome.name? : NameOutcome → Option String
  | .reserved name => some name
  | .given name => some name
  | .failed _ => none

namespace Namer

/-- Serves a request. A request that fails changes nothing. -/
def serve (n : Namer) : NameRequest → NameOutcome × Namer
  | .reserve name => (.reserved name, n.reserve name)
  | .unique scopes old s =>
    match n.unique scopes old s with
    | .ok (name, n') => (.given name, n')
    | .error cause => (.failed cause, n)

/-- Serves requests one after the other. -/
def session (n : Namer) : List NameRequest → List NameOutcome × Namer
  | [] => ([], n)
  | r :: rest =>
    let (outcome, n') := n.serve r
    let (outcomes, last) := n'.session rest
    (outcome :: outcomes, last)

/-- The names that outcomes take. -/
def namesOf (outcomes : List NameOutcome) : List String :=
  outcomes.filterMap NameOutcome.name?

variable {n : Namer} {scopes : ScopeForest} {old name : String} {s : Nat}

theorem serve_eq_given_iff :
    (n.serve (.unique scopes old s)).1 = .given name ↔
      n.unique scopes old s = .ok (name, n.reserve name) := by
  cases hu : n.unique scopes old s with
  | ok answer =>
    obtain ⟨x, n'⟩ := answer
    obtain rfl := (unique_eq_ok_iff.1 hu).2
    simp only [serve, hu, NameOutcome.given.injEq, Except.ok.injEq, Prod.mk.injEq]
    exact ⟨fun h => ⟨h, by rw [h]⟩, And.left⟩
  | error cause => simp [serve, hu]

theorem serve_eq_failed_iff {cause : FixError} :
    (n.serve (.unique scopes old s)).1 = .failed cause ↔
      n.unique scopes old s = .error cause := by
  cases hu : n.unique scopes old s with
  | ok answer => simp [serve, hu]
  | error e => simp [serve, hu]

/-- What a request can come to. -/
theorem serve_cases (n : Namer) (r : NameRequest) :
    (∃ name, n.serve r = (.reserved name, n.reserve name)) ∨
    (∃ name, n.serve r = (.given name, n.reserve name) ∧ name ∉ n.reserved) ∨
    ∃ cause, n.serve r = (.failed cause, n) := by
  cases r with
  | reserve name => exact .inl ⟨name, rfl⟩
  | unique scopes old s =>
    cases hu : n.unique scopes old s with
    | ok answer =>
      obtain ⟨name, n'⟩ := answer
      obtain ⟨⟨k, -, -, hfree, -, rfl⟩, rfl⟩ := unique_eq_ok_iff.1 hu
      exact .inr (.inl ⟨candidate old k, by simp only [serve, hu], hfree.1⟩)
    | error cause => exact .inr (.inr ⟨cause, by simp only [serve, hu]⟩)

theorem tries_serve (n : Namer) (r : NameRequest) : (n.serve r).2.tries = n.tries := by
  obtain ⟨name, h⟩ | ⟨name, h, -⟩ | ⟨cause, h⟩ := n.serve_cases r <;> rw [h] <;> rfl

/-- A request reserves the name that its outcome takes, and nothing else. -/
theorem reserved_serve (n : Namer) (r : NameRequest) :
    (n.serve r).2.reserved = (n.serve r).1.name?.toList ++ n.reserved := by
  obtain ⟨name, h⟩ | ⟨name, h, -⟩ | ⟨cause, h⟩ := n.serve_cases r <;> rw [h] <;> rfl

theorem not_mem_reserved_of_serve {r : NameRequest} (h : (n.serve r).1 = .given name) :
    name ∉ n.reserved := by
  obtain ⟨x, hx⟩ | ⟨x, hx, hfree⟩ | ⟨cause, hx⟩ := n.serve_cases r
  · rw [hx] at h
    cases h
  · rw [hx] at h
    cases h
    exact hfree
  · rw [hx] at h
    cases h

theorem session_cons (n : Namer) (r : NameRequest) (rest : List NameRequest) :
    n.session (r :: rest) =
      ((n.serve r).1 :: ((n.serve r).2.session rest).1, ((n.serve r).2.session rest).2) :=
  rfl

theorem namesOf_cons (outcome : NameOutcome) (outcomes : List NameOutcome) :
    namesOf (outcome :: outcomes) = outcome.name?.toList ++ namesOf outcomes := by
  cases outcome <;> rfl

theorem tries_session (n : Namer) (requests : List NameRequest) :
    (n.session requests).2.tries = n.tries := by
  induction requests generalizing n with
  | nil => rfl
  | cons r rest ih => rw [session_cons, ih, tries_serve]

/-- What is reserved after a session was reserved before it, or one of its outcomes takes it. -/
theorem mem_reserved_session {requests : List NameRequest} {x : String} :
    x ∈ (n.session requests).2.reserved ↔
      x ∈ namesOf (n.session requests).1 ∨ x ∈ n.reserved := by
  induction requests generalizing n with
  | nil => simp [session, namesOf]
  | cons r rest ih =>
    rw [session_cons, ih, reserved_serve, namesOf_cons, List.mem_append, List.mem_append,
      or_left_comm, ← or_assoc]

/-- No name is given out that is reserved when the session begins. -/
theorem not_mem_reserved_of_given {requests : List NameRequest}
    (h : .given name ∈ (n.session requests).1) : name ∉ n.reserved := by
  induction requests generalizing n with
  | nil => cases h
  | cons r rest ih =>
    rw [session_cons, List.mem_cons] at h
    rcases h with h | h
    · exact not_mem_reserved_of_serve h.symm
    · have hrest := ih h
      rw [reserved_serve] at hrest
      exact fun hmem => hrest (List.mem_append_right _ hmem)

/-- A name that is given out differs from all that were reserved or given out before. -/
theorem pairwise_session (n : Namer) (requests : List NameRequest) :
    (n.session requests).1.Pairwise fun a b => ∀ name, b = .given name → a.name? ≠ some name := by
  induction requests generalizing n with
  | nil => exact .nil
  | cons r rest ih =>
    rw [session_cons]
    refine .cons ?_ (ih (n.serve r).2)
    rintro b hb name rfl hname
    refine not_mem_reserved_of_given hb ?_
    rw [reserved_serve, hname]
    exact List.mem_append_left _ (List.mem_singleton_self name)

/-- What a namer answers after any requests. A new name is the first of the candidates that no
request before took and that is fresh for the scope; there is none if no candidate is so, and then
nothing changes. A name that is given out was neither reserved nor given out before. A candidate is
the base of the old name with the number counted up, as long as that fits into 64 bits. -/
theorem session_names (limit : Int) (before : List NameRequest) (scopes : ScopeForest)
    (old : String) (s : Nat) :
    let tries := (ofLimit limit).tries
    let outcomes := ((ofLimit limit).session before).1
    let n := ((ofLimit limit).session before).2
    let free := fun k => Free (namesOf outcomes) scopes s (candidate old k)
    (∀ name, (n.serve (.unique scopes old s)).1 = .given name ↔
      ∃ k, 1 ≤ k ∧ k ≤ tries ∧ free k ∧ (∀ j, 1 ≤ j → j < k → ¬ free j) ∧
        name = candidate old k) ∧
    (∀ cause, (n.serve (.unique scopes old s)).1 = .failed cause ↔
      cause = .namesExhausted old tries ∧ ∀ k, 1 ≤ k → k ≤ tries → ¬ free k) ∧
    (∀ cause, (n.serve (.unique scopes old s)).1 = .failed cause →
      (n.serve (.unique scopes old s)).2 = n) ∧
    outcomes.Pairwise (fun a b => ∀ name, b = .given name → a.name? ≠ some name) ∧
    Splits old (stem old) (number old) ∧
    ∀ k, candidate old k = stem old ++ toString (number old + k) ↔
      (number old + k : Int) ≤ Integer64.largest := by
  intro tries outcomes n free
  have htries : n.tries = tries := tries_session (ofLimit limit) before
  have hfree : ∀ k, Free n.reserved scopes s (candidate old k) ↔ free k := by
    intro k
    have hmem : candidate old k ∈ n.reserved ↔ candidate old k ∈ namesOf outcomes :=
      mem_reserved_session.trans (or_iff_left List.not_mem_nil)
    exact and_congr_left' (not_congr hmem)
  refine ⟨fun name => ?_, fun cause => ?_, fun cause h => ?_, pairwise_session _ _, splits old,
    fun k => candidate_eq_iff⟩
  · simp only [serve_eq_given_iff, unique_eq_ok_iff, and_true, htries, hfree]
  · simp only [serve_eq_failed_iff, unique_eq_error_iff, htries, hfree]
  · rw [serve, serve_eq_failed_iff.1 h]

/-- Behind the largest number of 64 bits the name is not counted up: the next candidate has a
negative number, although the name with the next number is free. -/
theorem session_names_largest :
    stem "x9223372036854775807" = "x" ∧ number "x9223372036854775807" = 9223372036854775807 ∧
      (ofLimit 0).isTaken ⟨#[default]⟩ 0 ("x" ++ toString (9223372036854775807 + 1)) = false ∧
      ((ofLimit 0).session [.unique ⟨#[default]⟩ "x9223372036854775807" 0]).1 =
        [.given "x-9223372036854775808"] := by
  decide +kernel

/-! ## Identifiers -/

/-- A name that is given out for an identifier is one, and differs from it only in the digits at the
end, exactly if the number it was given is not negative. -/
theorem unique_isIdentifier_iff {n' : Namer} (h : isIdentifier old)
    (hu : n.unique scopes old s = .ok (name, n')) :
    ∃ k, 1 ≤ k ∧ k ≤ n.tries ∧ name = candidate old k ∧
      (isIdentifier name ↔ 0 ≤ Integer64.wrap (number old + k)) ∧
      (Renumbers name old ↔ 0 ≤ Integer64.wrap (number old + k)) := by
  obtain ⟨⟨k, hpos, hle, -, -, rfl⟩, -⟩ := unique_eq_ok_iff.1 hu
  exact ⟨k, hpos, hle, rfl, isIdentifier_candidate_iff h, renumbers_candidate_iff⟩

/-- The largest number can still be given out. -/
theorem unique_isIdentifier_iff_largest :
    ((ofLimit 0).unique ⟨#[default]⟩ "x9223372036854775806" 0).map Prod.fst =
        .ok "x9223372036854775807" ∧
      isIdentifier "x9223372036854775806" ∧
      Renumbers "x9223372036854775807" "x9223372036854775806" := by
  have hu : (ofLimit 0).unique ⟨#[default]⟩ "x9223372036854775806" 0 =
      .ok ("x9223372036854775807", (ofLimit 0).reserve "x9223372036854775807") := by decide +kernel
  have hid : isIdentifier "x9223372036854775806" := by decide +kernel
  obtain ⟨k, -, -, -, hiff, hrenumbers⟩ := unique_isIdentifier_iff hid hu
  exact ⟨by rw [hu]; rfl, hid, hrenumbers.2 (hiff.1 (by decide +kernel))⟩

/-- Behind the largest number a name is given out that is no identifier. -/
theorem unique_not_isIdentifier :
    isIdentifier "x9223372036854775807" ∧
      ((ofLimit 0).unique ⟨#[default]⟩ "x9223372036854775807" 0).map Prod.fst =
        .ok "x-9223372036854775808" ∧
      ¬ isIdentifier "x-9223372036854775808" := by
  decide +kernel

end Namer

end AssignOnce
