import AssignOnce.Analysis.Write
import AssignOnce.Proofs.Tree.Preorder

/-!
# The writes of a node

`Tree.Site` says what is collected at a node (`Tree.mem_writesAt_iff`); `Tree.WritesAt` is the part
of it that most arguments need, the forms of a write with its statement and its target. Collecting
without arguments leaves out nothing else (`Tree.writes_eq_filter`). The target of a write lies
below its node with nothing but parentheses between (`Tree.Peels`), so the targets of all writes of
a file are different nodes (`Tree.nodup_targets`).
-/

namespace AssignOnce

/-- The node that a write is collected at: the statement, or the operator `&` of an argument. -/
def Write.node (w : Write) : Nat :=
  match w.kind with
  | .outArg unary => unary
  | _ => w.stmt

/-- The place of the target among the left sides of an assignment with several. -/
def WriteKind.index : WriteKind → Nat
  | .tuple k => k
  | _ => 0

namespace Tree

variable {t : Tree}

/-! ## Identifiers in parentheses -/

theorem unparen_of_kind_ne {e : Nat} (h : t.kind e ≠ .parenExpr) : t.unparen e = e := by
  rw [unparen, if_neg h]

theorem unparen_of_childIn? {e x : Nat} (h : t.kind e = .parenExpr)
    (hx : t.childIn? e .x = some x) : t.unparen e = t.unparen x := by
  rw [unparen, if_pos h]
  split <;> simp_all

theorem unparen_of_identName? {e : Nat} {name : String}
    (h : (t.kind e).identName? = some name) : t.unparen e = e := by
  apply unparen_of_kind_ne
  intro hk
  rw [hk] at h
  cases h

theorem unparen_of_bareIdent? {e x : Nat} (h : t.bareIdent? e = some x) : t.unparen e = x := by
  unfold bareIdent? at h
  split at h
  · split at h
    · cases h
    · exact Option.some.inj h
  · cases h

/-- Whether an expression is an identifier other than the blank one, in parentheses or not. -/
inductive Names (t : Tree) : Nat → Nat → Prop
  | ident {x : Nat} {name : String} : (t.kind x).identName? = some name → name ≠ blankName →
      Names t x x
  | paren {e inner x : Nat} : t.kind e = .parenExpr → t.childIn? e .x = some inner →
      Names t inner x → Names t e x

theorem names_of_bareIdent? {e x : Nat} (h : t.bareIdent? e = some x) : t.Names e x := by
  fun_induction unparen t e with
  | case1 e he inner hinner ih =>
    refine .paren he hinner (ih ?_)
    rwa [bareIdent?, ← unparen_of_childIn? he hinner]
  | case2 e he hinner =>
    have hself : t.unparen e = e := by
      rw [unparen, if_pos he]
      split <;> simp_all
    simp [bareIdent?, hself, he, Kind.identName?] at h
  | case3 e he =>
    rw [bareIdent?, unparen_of_kind_ne he] at h
    split at h
    · rename_i name hname
      split at h
      · cases h
      · cases h
        exact .ident hname ‹_›
    · cases h

theorem bareIdent?_of_names {e x : Nat} (h : t.Names e x) : t.bareIdent? e = some x := by
  induction h with
  | ident hname hne =>
    rw [bareIdent?, unparen_of_identName? hname]
    simp only [hname, if_neg hne]
  | paren he hinner _ ih => rwa [bareIdent?, unparen_of_childIn? he hinner]

/-! ## The writes of a node -/

/-- The writes that are collected at a node, with arguments `&x` or without. -/
inductive Site (t : Tree) (outArgs : Bool) (i : Nat) : Write → Prop
  /-- `x = e`. -/
  | assign {pos : Int} {e x : Nat} : t.kind i = .assignStmt .assign pos → t.isPost i = false →
      t.lhs i = [e] → t.Names e x → Site t outArgs i ⟨.assign, i, x⟩
  /-- `x op= e`; only the first left side is written. -/
  | compound {op : Operator} {pos : Int} {e x : Nat} : t.kind i = .assignStmt op pos →
      t.isPost i = false → op ≠ .assign → op ≠ .define → (t.lhs i).head? = some e → t.Names e x →
      Site t outArgs i ⟨.compound (op.updating?.getD .illegal), i, x⟩
  /-- `x++` or `x--`. -/
  | incDec {op : Operator} {e x : Nat} : t.kind i = .incDecStmt op → t.isPost i = false →
      t.childIn? i .x = some e → t.Names e x → Site t outArgs i ⟨.incDec (stepOperator op), i, x⟩
  /-- An element of `a, x = …`. -/
  | tuple {pos : Int} {k e x : Nat} : t.kind i = .assignStmt .assign pos → t.isPost i = false →
      1 < (t.lhs i).length → (t.lhs i)[k]? = some e → t.Names e x →
      Site t outArgs i ⟨.tuple k, i, x⟩
  /-- An element of `a, x := …` that is not declared by it. The target keeps its parentheses. -/
  | redefine {pos : Int} {k e x : Nat} : t.kind i = .assignStmt .define pos → t.isPost i = false →
      1 < (t.lhs i).length → (t.lhs i)[k]? = some e → t.Names e x →
      (t.kind x).declares = .nothing → Site t outArgs i ⟨.tuple k, i, e⟩
  /-- An argument `&x` of a call in a statement. -/
  | outArg {e x s : Nat} : outArgs → t.kind i = .unaryExpr (.arithmetic .and) → t.isArgument i →
      t.childIn? i .x = some e → t.Names e x → t.statement? i = some s →
      Site t outArgs i ⟨.outArg i, s, x⟩

theorem exists_cons_cons_of_one_lt {l : List Nat} (h : 1 < l.length) :
    ∃ a b rest, l = a :: b :: rest := by
  match l with
  | a :: b :: rest => exact ⟨a, b, rest, rfl⟩

theorem one_lt_length_of_getElem? {l : List Nat} {k e : Nat} (hk : l[k]? = some e)
    (h : ∀ a, l ≠ [a]) : 1 < l.length := by
  match l with
  | [] => cases hk
  | [a] => exact absurd rfl (h a)
  | _ :: _ :: l => simp

theorem site_of_mem_assignmentWrites {outArgs : Bool} {i : Nat} {op : Operator} {pos : Int}
    {w : Write} (hk : t.kind i = .assignStmt op pos) (hpost : t.isPost i = false)
    (hw : w ∈ t.assignmentWrites i op) : t.Site outArgs i w := by
  unfold assignmentWrites at hw
  split at hw
  · cases hw
  · rename_i hlhs
    obtain ⟨⟨e, k⟩, hek, h⟩ := List.mem_filterMap.1 hw
    have he := List.mem_zipIdx_iff_getElem?.1 hek
    simp only at h
    split at h
    · rename_i x hx
      split at h
      · cases h
        exact .redefine hk hpost (one_lt_length_of_getElem? he hlhs) he
          (names_of_bareIdent? hx) ‹_›
      · cases h
    · cases h
  · rename_i e he
    simp only [List.mem_map, Option.mem_toList] at hw
    obtain ⟨x, hx, rfl⟩ := hw
    exact .assign hk hpost he (names_of_bareIdent? hx)
  · rename_i hlhs
    obtain ⟨⟨e, k⟩, hek, h⟩ := List.mem_filterMap.1 hw
    have he := List.mem_zipIdx_iff_getElem?.1 hek
    obtain ⟨x, hx, rfl⟩ := Option.map_eq_some_iff.1 h
    exact .tuple hk hpost (one_lt_length_of_getElem? he hlhs) he
      (names_of_bareIdent? hx)
  · rename_i hd ha _ _
    simp only [List.mem_map, Option.mem_toList, Option.bind_eq_some_iff] at hw
    obtain ⟨x, ⟨e, he, hx⟩, rfl⟩ := hw
    exact .compound hk hpost ha hd he (names_of_bareIdent? hx)

theorem site_of_mem {outArgs : Bool} {i : Nat} {w : Write} (hw : w ∈ t.writesAt outArgs i) :
    t.Site outArgs i w := by
  unfold writesAt at hw
  split at hw
  · split at hw
    · cases hw
    · exact site_of_mem_assignmentWrites ‹_› (Bool.eq_false_iff.2 ‹_›) hw
  · split at hw
    · cases hw
    · simp only [List.mem_map, Option.mem_toList, Option.bind_eq_some_iff] at hw
      obtain ⟨x, ⟨e, he, hx⟩, rfl⟩ := hw
      exact .incDec ‹_› (Bool.eq_false_iff.2 ‹_›) he (names_of_bareIdent? hx)
  · split at hw
    · rename_i ha
      simp only [Bool.and_eq_true] at ha
      split at hw
      · rename_i x s hx hs
        obtain ⟨e, he, hx⟩ := Option.bind_eq_some_iff.1 hx
        obtain rfl := List.mem_singleton.1 hw
        exact .outArg ha.1 ‹_› ha.2 he (names_of_bareIdent? hx) hs
      · cases hw
    · cases hw
  · cases hw

theorem Site.mem {outArgs : Bool} {i : Nat} {w : Write} (h : t.Site outArgs i w) :
    w ∈ t.writesAt outArgs i := by
  cases h with
  | assign hk hpost he hx =>
    simp [writesAt, hk, hpost, assignmentWrites, he, bareIdent?_of_names hx]
  | @compound op _ _ _ hk hpost ha hd he hx =>
    have hwrites : t.assignmentWrites i op = ((t.lhs i).head?.bind t.bareIdent?).toList.map
        fun x => ⟨.compound (op.updating?.getD .illegal), i, x⟩ := by
      unfold assignmentWrites
      split <;> simp_all
    simp [writesAt, hk, hpost, hwrites, he, bareIdent?_of_names hx]
  | incDec hk hpost he hx => simp [writesAt, hk, hpost, he, bareIdent?_of_names hx]
  | @tuple _ k e x hk hpost hlength he hx =>
    obtain ⟨a, b, rest, hlhs⟩ := exists_cons_cons_of_one_lt hlength
    rw [hlhs] at he
    simp only [writesAt, hk, hpost, Bool.false_eq_true, if_false, assignmentWrites, hlhs]
    exact List.mem_filterMap.2 ⟨(e, k), List.mem_zipIdx_iff_getElem?.2 he,
      by simp [bareIdent?_of_names hx]⟩
  | @redefine _ k e x hk hpost hlength he hx hdeclares =>
    obtain ⟨a, b, rest, hlhs⟩ := exists_cons_cons_of_one_lt hlength
    rw [hlhs] at he
    simp only [writesAt, hk, hpost, Bool.false_eq_true, if_false, assignmentWrites, hlhs]
    exact List.mem_filterMap.2 ⟨(e, k), List.mem_zipIdx_iff_getElem?.2 he,
      by simp [bareIdent?_of_names hx, hdeclares]⟩
  | outArg hout hk harg he hx hs =>
    simp [writesAt, hk, hout, harg, he, bareIdent?_of_names hx, hs]

/-- What is collected at a node. -/
theorem mem_writesAt_iff {outArgs : Bool} {i : Nat} {w : Write} :
    w ∈ t.writesAt outArgs i ↔ t.Site outArgs i w :=
  ⟨site_of_mem, Site.mem⟩

/-- The writes that a node can be. -/
inductive WritesAt (t : Tree) (i : Nat) : Write → Prop
  /-- `x = e`. -/
  | assign {pos : Int} {e x : Nat} : t.kind i = .assignStmt .assign pos → t.lhs i = [e] →
      t.bareIdent? e = some x → WritesAt t i ⟨.assign, i, x⟩
  /-- `x op= e`. -/
  | compound {op : Operator} {pos : Int} {e x : Nat} : t.kind i = .assignStmt op pos →
      op ≠ .assign → op ≠ .define → (t.lhs i).head? = some e → t.bareIdent? e = some x →
      WritesAt t i ⟨.compound (op.updating?.getD .illegal), i, x⟩
  /-- `x++` or `x--`. -/
  | incDec {op : Operator} {e x : Nat} : t.kind i = .incDecStmt op → t.childIn? i .x = some e →
      t.bareIdent? e = some x → WritesAt t i ⟨.incDec (stepOperator op), i, x⟩
  /-- An element of `a, x = …`. -/
  | tuple {pos : Int} {k e x : Nat} : t.kind i = .assignStmt .assign pos →
      (t.lhs i)[k]? = some e → t.bareIdent? e = some x → WritesAt t i ⟨.tuple k, i, x⟩
  /-- An element of `a, x := …` that is not declared by it. -/
  | redefine {pos : Int} {k e x : Nat} : t.kind i = .assignStmt .define pos →
      (t.lhs i)[k]? = some e → t.bareIdent? e = some x → WritesAt t i ⟨.tuple k, i, e⟩
  /-- An argument `&x`. -/
  | outArg {e x s : Nat} : t.kind i = .unaryExpr (.arithmetic .and) → t.isArgument i →
      t.childIn? i .x = some e → t.bareIdent? e = some x → t.statement? i = some s →
      WritesAt t i ⟨.outArg i, s, x⟩

/-- What a collected write is. -/
theorem writesAt_of_mem {outArgs : Bool} {i : Nat} {w : Write} (hw : w ∈ t.writesAt outArgs i) :
    t.WritesAt i w := by
  cases mem_writesAt_iff.1 hw with
  | assign hk _ he hx => exact .assign hk he (bareIdent?_of_names hx)
  | compound hk _ ha hd he hx => exact .compound hk ha hd he (bareIdent?_of_names hx)
  | incDec hk _ he hx => exact .incDec hk he (bareIdent?_of_names hx)
  | tuple hk _ _ he hx => exact .tuple hk he (bareIdent?_of_names hx)
  | redefine hk _ _ he hx _ => exact .redefine hk he (bareIdent?_of_names hx)
  | outArg _ hk harg he hx hs => exact .outArg hk harg he (bareIdent?_of_names hx) hs

theorem WritesAt.node_eq {i : Nat} {w : Write} (h : t.WritesAt i w) : w.node = i := by
  cases h <;> rfl

/-! ## Writes through arguments -/

/-- The writes through arguments are those of the operator `&`. -/
theorem WritesAt.isOutArg_iff {i : Nat} {w : Write} (h : t.WritesAt i w) :
    w.kind.isOutArg ↔ t.kind i = .unaryExpr (.arithmetic .and) := by
  cases h with
  | outArg hk => simp [WriteKind.isOutArg, hk]
  | assign hk | compound hk | incDec hk | tuple hk | redefine hk => simp [WriteKind.isOutArg, hk]

/-- Leaving out arguments leaves all other writes of a node. -/
theorem writesAt_eq_filter {outArgs' outArgs : Bool} (h : outArgs' → outArgs) (i : Nat) :
    t.writesAt outArgs' i =
      (t.writesAt outArgs i).filter fun w => outArgs' || !w.kind.isOutArg := by
  cases outArgs' with
  | true =>
    rw [h rfl]
    exact (List.filter_eq_self.2 fun _ _ => rfl).symm
  | false =>
    by_cases hk : t.kind i = .unaryExpr (.arithmetic .and)
    · have hnone : t.writesAt false i = [] := by simp [writesAt, hk]
      rw [hnone, eq_comm]
      refine List.filter_eq_nil_iff.2 fun w hw => ?_
      simp [(writesAt_of_mem hw).isOutArg_iff.2 hk]
    · have hsame : t.writesAt outArgs i = t.writesAt false i := by
        unfold writesAt
        split
        · rfl
        · rfl
        · exact absurd ‹_› hk
        · rfl
      rw [hsame, eq_comm]
      refine List.filter_eq_self.2 fun w hw => ?_
      simpa using fun ho => hk ((writesAt_of_mem hw).isOutArg_iff.1 ho)

/-- Leaving out arguments leaves all other writes below a node. -/
theorem writes_eq_filter {outArgs' outArgs : Bool} (h : outArgs' → outArgs) (root : Nat) :
    t.writes outArgs' root =
      (t.writes outArgs root).filter fun w => outArgs' || !w.kind.isOutArg := by
  unfold writes
  rw [List.filter_flatMap]
  congr 1
  funext i
  exact writesAt_eq_filter h i

/-! ## Targets -/

/-- Whether a node is another one in parentheses. -/
def Peels (t : Tree) (e x : Nat) : Prop :=
  e ∈ t.enclosing x ∧ ∀ k ∈ t.enclosing x, e ∈ t.enclosing k → k ≠ x → t.kind k = .parenExpr

theorem Peels.refl (t : Tree) (e : Nat) : t.Peels e e := by
  refine ⟨t.self_mem_enclosing e, fun k hk hek hne => ?_⟩
  exact absurd (Nat.le_antisymm (le_of_mem_enclosing hk) (le_of_mem_enclosing hek)) hne

theorem peels_unparen (t : Tree) (e : Nat) : t.Peels e (t.unparen e) := by
  fun_induction unparen t e with
  | case1 i hi j hj ih =>
    have hp := parent?_of_childIn? hj
    refine ⟨mem_enclosing_trans (parent_mem_enclosing hp) ih.1, fun k hk hik hne => ?_⟩
    rcases Nat.le_total j k with hjk | hkj
    · exact ih.2 k hk (mem_enclosing_of_le ih.1 hk hjk) hne
    · rcases mem_enclosing_iff.1 (mem_enclosing_of_le hk ih.1 hkj) with rfl | ⟨q, hq, hkq⟩
      · exact ih.2 k hk (t.self_mem_enclosing k) hne
      · obtain rfl : q = i := by rw [hq] at hp; exact Option.some.inj hp
        obtain rfl := Nat.le_antisymm (le_of_mem_enclosing hkq) (le_of_mem_enclosing hik)
        exact hi
  | case2 i => exact Peels.refl t i
  | case3 i => exact Peels.refl t i

theorem peels_of_bareIdent? {e x : Nat} (h : t.bareIdent? e = some x) : t.Peels e x :=
  unparen_of_bareIdent? h ▸ peels_unparen t e

/-- A node in parentheses leads to one node outside of them. -/
theorem Peels.unique {e e' x i j : Nat} (h : t.Peels e x) (h' : t.Peels e' x)
    (hi : t.parent? e = some i) (hj : t.parent? e' = some j) (hik : t.kind i ≠ .parenExpr)
    (hjk : t.kind j ≠ .parenExpr) : e = e' := by
  -- the outer one of both would have the parent of the inner one among its parentheses
  have outer : ∀ {a b p : Nat}, t.Peels a x → t.Peels b x → t.parent? b = some p →
      t.kind p ≠ .parenExpr → a ≤ b → a = b := by
    intro a b p ha hb hp hk hab
    rcases mem_enclosing_iff.1 (mem_enclosing_of_le ha.1 hb.1 hab) with e | ⟨q, hq, haq⟩
    · exact e
    · obtain rfl : q = p := by rw [hq] at hp; exact Option.some.inj hp
      have hqx : q ∈ t.enclosing x := mem_enclosing_trans (parent_mem_enclosing hp) hb.1
      have := le_of_mem_enclosing hb.1
      have := lt_of_parent? hp
      exact absurd (ha.2 q hqx haq (by omega)) hk
  rcases Nat.le_total e e' with hle | hle
  · exact outer h h' hj hjk hle
  · exact (outer h' h hi hik hle).symm

theorem parent?_of_mem_lhs {i e : Nat} (h : e ∈ t.lhs i) : t.parent? e = some i :=
  (mem_childrenIn.1 h).1.2

/-- The target of a write is a child of its node, or that child without parentheses. -/
theorem WritesAt.exists_peels {i : Nat} {w : Write} (h : t.WritesAt i w) :
    t.kind i ≠ .parenExpr ∧ ∃ e, t.parent? e = some i ∧ t.Peels e w.target := by
  cases h with
  | assign hk he hx =>
    exact ⟨by simp [hk], _, parent?_of_mem_lhs (by simp [he]), peels_of_bareIdent? hx⟩
  | compound hk _ _ he hx =>
    exact ⟨by simp [hk], _, parent?_of_mem_lhs (List.mem_of_mem_head? he), peels_of_bareIdent? hx⟩
  | incDec hk he hx => exact ⟨by simp [hk], _, parent?_of_childIn? he, peels_of_bareIdent? hx⟩
  | tuple hk he hx =>
    exact ⟨by simp [hk], _, parent?_of_mem_lhs (List.mem_of_getElem? he), peels_of_bareIdent? hx⟩
  | redefine hk he hx =>
    exact ⟨by simp [hk], _, parent?_of_mem_lhs (List.mem_of_getElem? he), .refl t _⟩
  | outArg hk _ he hx _ => exact ⟨by simp [hk], _, parent?_of_childIn? he, peels_of_bareIdent? hx⟩

theorem WritesAt.mem_enclosing_target {i : Nat} {w : Write} (h : t.WritesAt i w) :
    i ∈ t.enclosing w.target := by
  obtain ⟨-, e, he, hpeel⟩ := h.exists_peels
  exact mem_enclosing_trans (parent_mem_enclosing he) hpeel.1

/-! ## No target is written twice -/

theorem nodup_lhs (t : Tree) (i : Nat) : (t.lhs i).Nodup :=
  ((List.pairwise_lt_range.imp (fun h => Nat.ne_of_lt h)).filter _).filter _

/-- Writes read off different left sides have different targets, in the order of the left sides. -/
theorem pairwise_filterMap_lhs {i : Nat} {g : Nat × Nat → Option Write}
    (hg : ∀ a w, g a = some w → w.kind = .tuple a.2 ∧ t.Peels a.1 w.target) :
    ((t.lhs i).zipIdx.filterMap g).Pairwise fun a b =>
      a.kind.index < b.kind.index ∧ a.target ≠ b.target := by
  have hsides : (t.lhs i).zipIdx.Pairwise fun a b => a.1 ≠ b.1 := by
    apply List.pairwise_map.1
    rw [List.zipIdx_map_fst]
    exact nodup_lhs t i
  have hindex : (t.lhs i).zipIdx.Pairwise fun a b => a.2 < b.2 := by
    apply List.pairwise_map.1
    rw [List.zipIdx_map_snd]
    exact List.pairwise_lt_range'
  refine List.pairwise_filterMap.2 ((hindex.and hsides).imp_of_mem ?_)
  rintro a b ha hb ⟨hlt, hne⟩ w hw w' hw'
  obtain ⟨hk, hpeels⟩ := hg a w hw
  obtain ⟨hk', hpeels'⟩ := hg b w' hw'
  refine ⟨by rw [hk, hk']; exact hlt, fun htarget => ?_⟩
  have hpa := parent?_of_mem_lhs (List.fst_mem_of_mem_zipIdx ha)
  have hpb := parent?_of_mem_lhs (List.fst_mem_of_mem_zipIdx hb)
  exact hne (t.ascent.eq_of_up hpeels.1 (htarget ▸ hpeels'.1) hpa hpb)

theorem pairwise_toList_map {α β : Type} (r : β → β → Prop) (o : Option α) (f : α → β) :
    (o.toList.map f).Pairwise r := by
  cases o <;> simp

theorem pairwise_assignmentWrites (t : Tree) (i : Nat) (op : Operator) :
    (t.assignmentWrites i op).Pairwise fun a b =>
      a.kind.index < b.kind.index ∧ a.target ≠ b.target := by
  unfold assignmentWrites
  split
  · exact .nil
  · refine pairwise_filterMap_lhs fun a w hw => ?_
    simp only at hw
    split at hw
    · split at hw
      · cases hw
        exact ⟨rfl, .refl t _⟩
      · cases hw
    · cases hw
  · exact pairwise_toList_map _ _ _
  · refine pairwise_filterMap_lhs fun a w hw => ?_
    obtain ⟨x, hx, rfl⟩ := Option.map_eq_some_iff.1 hw
    exact ⟨rfl, peels_of_bareIdent? hx⟩
  · exact pairwise_toList_map _ _ _

theorem pairwise_writesAt (t : Tree) (outArgs : Bool) (i : Nat) :
    (t.writesAt outArgs i).Pairwise fun a b =>
      a.kind.index < b.kind.index ∧ a.target ≠ b.target := by
  unfold writesAt
  split
  · split
    · exact .nil
    · exact pairwise_assignmentWrites t i _
  · split
    · exact .nil
    · exact pairwise_toList_map _ _ _
  · split
    · split
      · exact List.pairwise_singleton _ _
      · exact .nil
    · exact .nil
  · exact .nil

/-- The writes below a node have different targets. -/
theorem nodup_targets (t : Tree) (outArgs : Bool) (root : Nat) :
    ((t.writes outArgs root).map (·.target)).Nodup := by
  refine List.pairwise_map.2 (List.pairwise_flatMap.2
    ⟨fun i _ => (pairwise_writesAt t outArgs i).imp And.right, ?_⟩)
  refine (pairwise_lt_subtree t root).imp fun {i j} hij w hw w' hw' htarget => ?_
  obtain ⟨hi, e, he, hpeel⟩ := (writesAt_of_mem hw).exists_peels
  obtain ⟨hj, e', he', hpeel'⟩ := (writesAt_of_mem hw').exists_peels
  obtain rfl := hpeel.unique (htarget ▸ hpeel') he he' hi hj
  rw [he] at he'
  exact Nat.ne_of_lt hij (Option.some.inj he')

end Tree

end AssignOnce
