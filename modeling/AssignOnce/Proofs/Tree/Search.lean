import AssignOnce.Proofs.Tree.Layout

/-!
# Finding an identifier by its place

The search for the innermost node around a piece of the text looks at the nodes in preorder, leaves
out what lies below nodes in front of the piece, and stops at the first node behind it. What it
finds lies around the piece (`Tree.around_of_innermostAt?`). In a tree whose nodes lie in each other
or follow each other (`Tree.Ordered`), the search for the place of an identifier finds this
identifier (`Ordered.innermostAt?_span`): no node that is left out lies around it, no node before it
ends the search, and none after it is taken for it.
-/

namespace AssignOnce

namespace Tree

variable {t : Tree}

/-- Whether nodes lie inside the nodes around them and otherwise follow each other. Comments may
stand in front of what they belong to. The type of a declared function starts at its keyword, in
front of the receiver and the name. -/
structure Ordered (t : Tree) : Prop where
  spans : ∀ i < t.size, t.start i ≤ t.stop i
  inside : ∀ i < t.size, (t.kind i).isComment = false → ∀ a ∈ t.enclosing i,
    t.start a ≤ t.start i ∧ t.stop i ≤ t.stop a
  follows : ∀ j < t.size, ∀ i < j, i ∉ t.enclosing j → t.stop i ≤ t.start j ∨
    t.isDeclaredType j ∧ (t.parent? j).any (t.within i)

/-- Whether identifiers have no parts and are not empty. -/
structure AtomicNames (t : Tree) : Prop where
  leaves : ∀ j < t.size, ∀ p ∈ t.parent? j, (t.kind p).isIdent = false
  nonempty : ∀ i < t.size, (t.kind i).isIdent → t.start i < t.stop i

instance (t : Tree) : Decidable t.Ordered :=
  decidable_of_iff (_ ∧ _ ∧ _) ⟨fun ⟨spans, inside, follows⟩ => ⟨spans, inside, follows⟩,
    fun h => ⟨h.spans, h.inside, h.follows⟩⟩

instance (t : Tree) : Decidable t.AtomicNames :=
  decidable_of_iff (_ ∧ _) ⟨fun ⟨leaves, nonempty⟩ => ⟨leaves, nonempty⟩,
    fun h => ⟨h.leaves, h.nonempty⟩⟩

/-- The span of a node as a search takes it: the root has the bounds of the file. -/
def spanIn (t : Tree) (bounds : Span) (i : Nat) : Span :=
  if i = 0 then bounds else t.span i

/-- The search after it has looked at the first nodes. -/
def searchTo (t : Tree) (bounds piece : Span) (n : Nat) : Search :=
  (List.range n).foldl (Search.visit t bounds piece) .begin

section Search

variable {bounds piece : Span}

theorem searchTo_succ (n : Nat) : t.searchTo bounds piece (n + 1) =
    (t.searchTo bounds piece n).visit t bounds piece n := by
  rw [searchTo, List.range_succ, List.foldl_append, ← searchTo]
  rfl

/-- What a search does with a node. -/
inductive Search.Visits (t : Tree) (bounds piece : Span) (s : Search) (i : Nat) : Search → Prop
  | leavesOut : s.ended ∨ s.skipped.any (t.within i) ∨ s.overlapsName t i →
      Visits t bounds piece s i s
  | ends : piece.start < (t.spanIn bounds i).start →
      Visits t bounds piece s i { s with ended := true }
  | takes : ¬ s.overlapsName t i → (t.spanIn bounds i).start ≤ piece.start →
      piece.stop ≤ (t.spanIn bounds i).stop → Visits t bounds piece s i { s with best := some i }
  | skips : (t.spanIn bounds i).stop < piece.stop →
      Visits t bounds piece s i { s with skipped := some i }
  | passes : (t.spanIn bounds i).stop < piece.stop → Visits t bounds piece s i s

theorem Search.visit_eq (s : Search) (i : Nat) : s.visit t bounds piece i =
    if s.ended || s.skipped.any (t.within i) || s.overlapsName t i then s
    else if piece.start < (t.spanIn bounds i).start then { s with ended := true }
    else if piece.stop ≤ (t.spanIn bounds i).stop then { s with best := some i }
    else if (t.spanIn bounds i).stop < piece.start then { s with skipped := some i }
    else s :=
  rfl

theorem Search.visits (t : Tree) (bounds piece : Span) (s : Search) (i : Nat) :
    s.Visits t bounds piece i (s.visit t bounds piece i) := by
  rw [visit_eq]
  split
  · rename_i hout
    simp only [Bool.or_eq_true, or_assoc] at hout
    exact .leavesOut hout
  · rename_i hin
    rw [Bool.or_eq_true, not_or] at hin
    split
    · exact .ends ‹_›
    · rename_i hstart
      split
      · exact .takes hin.2 (Int.not_lt.1 hstart) ‹_›
      · rename_i hstop
        split
        · exact .skips (Int.not_le.1 hstop)
        · exact .passes (Int.not_le.1 hstop)

/-- What a search has found lies around the piece. -/
theorem around_of_searchTo {n i : Nat} (h : (t.searchTo bounds piece n).best = some i) :
    i < n ∧ (t.spanIn bounds i).start ≤ piece.start ∧ piece.stop ≤ (t.spanIn bounds i).stop := by
  induction n with
  | zero => cases h
  | succ n ih =>
    rw [searchTo_succ] at h
    have hv := Search.visits t bounds piece (t.searchTo bounds piece n) n
    generalize (t.searchTo bounds piece n).visit t bounds piece n = s' at h hv
    cases hv with
    | takes _ hstart hstop =>
      cases h
      exact ⟨Nat.lt_succ_self _, hstart, hstop⟩
    | _ => exact (ih h).imp_left Nat.lt_succ_of_lt

theorem around_of_innermostAt? {i : Nat} (h : t.innermostAt? bounds piece = some i) :
    i < t.size ∧ (t.spanIn bounds i).start ≤ piece.start ∧
      piece.stop ≤ (t.spanIn bounds i).stop :=
  around_of_searchTo h

end Search

/-! ## Identifiers -/

theorem AtomicNames.eq_of_mem_enclosing (h : t.AtomicNames) {d k : Nat} (hd : (t.kind d).isIdent)
    (hk : d ∈ t.enclosing k) : d = k := by
  refine Decidable.byContradiction fun hne => ?_
  obtain ⟨c, -, hc⟩ := t.ascent.exists_below hk hne
  have := h.leaves c (lt_size_of_parent? hc) d hc
  rw [hd] at this
  cases this

theorem not_isDeclaredType_of_isIdent {d : Nat} (hd : (t.kind d).isIdent) :
    ¬ t.isDeclaredType d := by
  intro h
  unfold isDeclaredType at h
  cases hk : t.kind d <;> simp_all [Kind.isIdent, Kind.identName?]

theorem lt_size_of_isIdent {d : Nat} (hd : (t.kind d).isIdent) : d < t.size := by
  obtain ⟨name, hname⟩ := Option.isSome_iff_exists.1 hd
  exact lt_size_of_identName? hname

theorem not_overlapsName_of_isIdent {s : Search} {d : Nat} (hd : (t.kind d).isIdent) :
    ¬ s.overlapsName t d := by
  intro h
  unfold Search.overlapsName at h
  split at h
  · rename_i hk _ _
    rw [hk] at hd
    cases hd
  · cases h

/-- The type of a declared function is not looked at once an identifier in the function is found. -/
theorem overlapsName_of_isDeclaredType {s : Search} {d k : Nat} (hd : (t.kind d).isIdent)
    (hs : s.best = some d) (hk : t.isDeclaredType k) (hp : (t.parent? k).any (t.within d)) :
    s.overlapsName t k := by
  obtain ⟨p, hpk, hpd⟩ := (Option.any_eq_true _ _).1 hp
  simp only [isDeclaredType, parentKind?, hpk, Option.map_some, Option.any_some, Bool.and_eq_true,
    beq_iff_eq] at hk
  have hne : p ≠ d := by
    rintro rfl
    cases he : t.kind p <;> simp_all [Kind.isIdent, Kind.identName?, Kind.isFunctionDeclaration]
  have hle := le_of_mem_enclosing (within_iff.1 hpd)
  simp only [Search.overlapsName, hk.1, hpk, hs, hk.2, Bool.true_and, decide_eq_true_iff]
  omega

/-- A node before an identifier lies around it or ends before it starts. -/
theorem Ordered.stop_le_of_isIdent (h : t.Ordered) {d k : Nat} (hd : (t.kind d).isIdent)
    (hk : k < d) (hn : k ∉ t.enclosing d) : t.stop k ≤ t.start d := by
  rcases h.follows d (lt_size_of_isIdent hd) k hk hn with hle | ⟨htype, -⟩
  · exact hle
  · exact absurd htype (not_isDeclaredType_of_isIdent hd)

/-- Two identifiers do not start at the same place. -/
theorem Ordered.eq_of_start_eq (h : t.Ordered) (hn : t.AtomicNames) {i j : Nat}
    (hi : (t.kind i).isIdent) (hj : (t.kind j).isIdent) (he : t.start i = t.start j) : i = j := by
  have not_lt : ∀ {i j : Nat}, (t.kind i).isIdent → (t.kind j).isIdent → t.start i = t.start j →
      ¬ i < j := by
    intro i j hi hj he hlt
    have hout : i ∉ t.enclosing j := fun hm => Nat.ne_of_lt hlt (hn.eq_of_mem_enclosing hi hm)
    have := h.stop_le_of_isIdent hj hlt hout
    have := hn.nonempty i (lt_size_of_isIdent hi) hi
    omega
  rcases Nat.lt_trichotomy i j with hlt | e | hlt
  · exact absurd hlt (not_lt hi hj he)
  · exact e
  · exact absurd hlt (not_lt hj hi he.symm)

section Found

variable (h : t.Ordered) {bounds : Span} {d : Nat} (hd : (t.kind d).isIdent)
  (hb : bounds.start ≤ t.start d ∧ t.stop d ≤ bounds.stop)
include h hd hb

/-- A node up to an identifier does not start behind it, and lies around it unless it ends before the
identifier does. -/
theorem Ordered.spanIn_of_le {k : Nat} (hk : k ≤ d) :
    (t.spanIn bounds k).start ≤ t.start d ∧
      (k ∈ t.enclosing d → t.stop d ≤ (t.spanIn bounds k).stop) := by
  have hsize := lt_size_of_isIdent hd
  have hcomment : (t.kind d).isComment = false := by
    obtain ⟨name, hname⟩ := Option.isSome_iff_exists.1 hd
    exact Kind.isComment_of_identName? hname
  unfold spanIn
  split
  · exact ⟨hb.1, fun _ => hb.2⟩
  · by_cases hin : k ∈ t.enclosing d
    · have := h.inside d hsize hcomment k hin
      exact ⟨this.1, fun _ => this.2⟩
    · refine ⟨?_, fun hm => absurd hm hin⟩
      have hlt : k < d := Nat.lt_of_le_of_ne hk fun e => hin (e ▸ t.self_mem_enclosing k)
      have := h.stop_le_of_isIdent hd hlt hin
      exact Int.le_trans (h.spans k (by omega)) this

/-- Up to an identifier the search has not ended, and has skipped nothing around it. -/
theorem Ordered.searchTo_of_le {n : Nat} (hnd : n ≤ d) :
    (t.searchTo bounds (t.span d) n).ended = false ∧
      ∀ r ∈ (t.searchTo bounds (t.span d) n).skipped, r ∉ t.enclosing d := by
  induction n with
  | zero => exact ⟨rfl, nofun⟩
  | succ n ih =>
    have ih := ih (by omega)
    obtain ⟨hstart, hstop⟩ := h.spanIn_of_le hd hb (show n ≤ d by omega)
    rw [searchTo_succ]
    have hv := Search.visits t bounds (t.span d) (t.searchTo bounds (t.span d) n) n
    generalize (t.searchTo bounds (t.span d) n).visit t bounds (t.span d) n = s' at hv ⊢
    cases hv with
    | ends hlt => exact absurd hlt (Int.not_lt.2 hstart)
    | skips hbefore =>
      refine ⟨ih.1, fun r hr hin => ?_⟩
      cases hr
      exact absurd (hstop hin) (Int.not_le.2 hbefore)
    | _ => exact ih

/-- When the search comes to an identifier, it takes it. -/
theorem Ordered.searchTo_self : (t.searchTo bounds (t.span d) (d + 1)).best = some d := by
  obtain ⟨hended, hskipped⟩ := h.searchTo_of_le hd hb (Nat.le_refl d)
  obtain ⟨hstart, hstop⟩ := h.spanIn_of_le hd hb (Nat.le_refl d)
  have hstop := hstop (t.self_mem_enclosing d)
  rw [searchTo_succ]
  have hv := Search.visits t bounds (t.span d) (t.searchTo bounds (t.span d) d) d
  generalize (t.searchTo bounds (t.span d) d).visit t bounds (t.span d) d = s' at hv ⊢
  cases hv with
  | leavesOut hout =>
    exfalso
    rcases hout with hout | hout | hout
    · rw [hended] at hout
      cases hout
    · obtain ⟨r, hr, hin⟩ := (Option.any_eq_true _ _).1 hout
      exact hskipped r hr (within_iff.1 hin)
    · exact not_overlapsName_of_isIdent hd hout
  | ends hlt => exact absurd hlt (Int.not_lt.2 hstart)
  | takes => rfl
  | skips hbefore => exact absurd hstop (Int.not_le.2 hbefore)
  | passes hbefore => exact absurd hstop (Int.not_le.2 hbefore)

/-- Behind an identifier the search takes no other node. -/
theorem Ordered.searchTo_of_lt (hn : t.AtomicNames) {n : Nat} (hdn : d < n) (hs : n ≤ t.size) :
    (t.searchTo bounds (t.span d) n).best = some d := by
  induction n with
  | zero => cases hdn
  | succ n ih =>
    rcases Nat.lt_succ_iff_lt_or_eq.1 hdn with hlt | rfl
    · have ih := ih hlt (by omega)
      rw [searchTo_succ]
      have hv := Search.visits t bounds (t.span d) (t.searchTo bounds (t.span d) n) n
      generalize (t.searchTo bounds (t.span d) n).visit t bounds (t.span d) n = s' at hv ⊢
      cases hv with
      | takes hoverlaps hstart _ =>
        exfalso
        have hspan : t.spanIn bounds n = t.span n := if_neg (by omega)
        rw [hspan] at hstart
        have hlength := hn.nonempty d (lt_size_of_isIdent hd) hd
        have hout : d ∉ t.enclosing n := fun hm => Nat.ne_of_lt hlt (hn.eq_of_mem_enclosing hd hm)
        rcases h.follows n (by omega) d hlt hout with hle | ⟨htype, hp⟩
        · exact absurd hstart (Int.not_le.2 (Int.lt_of_lt_of_le hlength hle))
        · exact hoverlaps (overlapsName_of_isDeclaredType hd ih htype hp)
      | _ => exact ih
    · exact h.searchTo_self hd hb

/-- The search for the place of an identifier finds the identifier. -/
theorem Ordered.innermostAt?_span (hn : t.AtomicNames) : t.innermostAt? bounds (t.span d) = some d :=
  h.searchTo_of_lt hd hb hn (lt_size_of_isIdent hd) (Nat.le_refl _)

end Found

end Tree

end AssignOnce
