import AssignOnce.Proofs.Analysis.Writes
import AssignOnce.Proofs.Fix.NewVariable

/-!
# Where the edits of a fix lie

A declaration of a new variable changes only its statement, and references are redirected behind it
(`Declaration.Stays`); this is shown for each kind of write. The statement of an argument is looked
for in the innermost function literal, so it lies in the body of the outermost function around the
write (`Tree.LaidOut.mem_enclosing_of_listStatement?`). Together: the edits of a fix do not get in
each other's way and lie in that function, behind the start of its body
(`Source.newVariable_extent`).
-/

namespace AssignOnce

namespace Edit

/-- Whether an edit and a later one of the same fix can both be made: their ranges share nothing,
and if they start at the same position, then an insertion comes before a replacement. -/
structure Agrees (a b : Edit) : Prop where
  apart : a.rangeStop ≤ b.start ∨ b.rangeStop ≤ a.start
  shared : a.start = b.start → a.stop = none ∧ b.stop.isSome

@[simp] theorem start_replacement (s : Span) (text : String) :
    (replacement s text).start = s.start := rfl

@[simp] theorem rangeStop_replacement (s : Span) (text : String) :
    (replacement s text).rangeStop = max s.start s.stop := rfl

@[simp] theorem start_insertion (p : Int) (text : String) : (insertion p text).start = p := rfl

@[simp] theorem rangeStop_insertion (p : Int) (text : String) :
    (insertion p text).rangeStop = p := rfl

/-- An edit that ends before another one starts, and starts before it. -/
theorem agrees_of_le {a b : Edit} (h : a.rangeStop ≤ b.start) (hlt : a.start < b.start) :
    a.Agrees b :=
  ⟨.inl h, fun e => by omega⟩

theorem insertion_agrees {p : Int} {s : Span} (h : p ≤ s.start) (text text' : String) :
    (insertion p text).Agrees (replacement s text') :=
  ⟨.inl h, fun _ => ⟨rfl, rfl⟩⟩

end Edit

/-! ## Places -/

theorem find?_throughFirst {α : Type} {p q : α → Bool} (hpq : ∀ a, q a → p a) {l : List α} {a : α}
    (h : (throughFirst p l).find? q = some a) : l.find? p = some a := by
  induction l with
  | nil => cases h
  | cons b l ih =>
    rw [throughFirst] at h
    by_cases hb : p b
    · rw [if_pos hb] at h
      obtain rfl := List.mem_singleton.1 (List.mem_of_find?_eq_some h)
      exact List.find?_cons_of_pos hb
    · have hq : ¬ q b := fun hq => hb (hpq b hq)
      rw [if_neg hb, List.find?_cons_of_neg hq] at h
      rw [List.find?_cons_of_neg hb]
      exact ih h

namespace Tree

variable {t : Tree}

theorem parent?_zero (t : Tree) : t.parent? 0 = none := by
  cases h : t.parent? 0 with
  | none => rfl
  | some p => exact absurd (lt_of_parent? h) (Nat.not_lt_zero p)

/-- The statement of a list around a node lies in all function literals around the node. -/
theorem listStatement?_spec {i s : Nat} (h : t.listStatement? i = some s) :
    s ∈ t.enclosing i ∧ t.inStatementList s ∧
      ∀ f ∈ t.enclosing i, (t.kind f).isFunctionLiteral → f ∈ t.enclosing s := by
  have hfirst := find?_throughFirst (fun j hj => by simp [hj]) h
  refine ⟨List.mem_of_find?_eq_some hfirst, List.find?_some h, fun f hf hk => ?_⟩
  exact t.ascent.mem_of_find? hfirst hf (by simp [hk])

/-- The statement of a list around a node in the body of an outermost function lies in the body. -/
theorem LaidOut.mem_enclosing_of_listStatement? (hl : t.LaidOut) (ht : t.WellFormed)
    {i s f b : Nat} (hf : t.Outermost f) (hb : t.body? f = some b) (hbi : b ∈ t.enclosing i)
    (h : t.listStatement? i = some s) : b ∈ t.enclosing s := by
  obtain ⟨hsi, hin, hlit⟩ := listStatement?_spec h
  have hbf := parent?_of_body? hb
  have hfb := parent_mem_enclosing hbf
  have hfsize : f < t.size := Nat.lt_trans (lt_of_parent? hbf) (lt_size_of_parent? hbf)
  rcases Nat.le_total b s with hle | hle
  · exact mem_enclosing_of_le hbi hsi hle
  · rcases mem_enclosing_iff.1 (mem_enclosing_of_le hsi hbi hle) with rfl | ⟨p, hp, hsp⟩
    · exact t.self_mem_enclosing s
    · -- the statement would lie around the function; but it is none, and no list is the root
      obtain rfl : p = f := by rw [hp] at hbf; exact Option.some.inj hbf
      have hne : s ≠ p := by
        rintro rfl
        exact Kind.not_isFunction_of_isStatement (hl.statements s hfsize hin) hf.isFunction
      rcases hf with hd | ⟨hk, -⟩
      · rcases mem_enclosing_iff.1 hsp with e | ⟨q, hq, hsq⟩
        · exact absurd e hne
        · obtain rfl : q = 0 := by rw [ht.declared hd] at hq; exact (Option.some.inj hq).symm
          obtain rfl := Nat.le_zero.1 (le_of_mem_enclosing hsq)
          rw [inStatementList, parentKind?, parent?_zero] at hin
          cases hin
      · have := le_of_mem_enclosing (hlit p (mem_enclosing_trans hfb hbi) hk)
        have := le_of_mem_enclosing hsp
        omega

end Tree

/-! ## Declarations -/

/-- Whether a declaration changes only the text between two positions, in edits that can all be made
and come before the references. -/
structure Declaration.Stays (d : Declaration) (lo hi : Int) : Prop where
  agree : d.edits.Pairwise Edit.Agrees
  within : ∀ e ∈ d.edits, lo ≤ e.start ∧ e.rangeStop ≤ d.start ∧
    (e.start < d.start ∨ e.stop = none)
  lo_le : lo ≤ d.start
  le_hi : d.start ≤ hi

namespace Declaration.Stays

variable {a b : Edit} {lo hi start : Int}

theorem single (ha : lo ≤ a.start) (hs : a.rangeStop ≤ start) (hlt : a.start < start)
    (hhi : start ≤ hi) : (⟨[a], start⟩ : Declaration).Stays lo hi := by
  refine ⟨List.pairwise_singleton _ _, fun e he => ?_, Int.le_trans ha (Int.le_of_lt hlt), hhi⟩
  rw [List.mem_singleton.1 he]
  exact ⟨ha, hs, .inl hlt⟩

theorem pair (h : a.Agrees b) (ha : lo ≤ a.start) (hb : lo ≤ b.start) (has : a.rangeStop ≤ start)
    (hbs : b.rangeStop ≤ start) (halt : a.start < start) (hblt : b.start < start ∨ b.stop = none)
    (hhi : start ≤ hi) : (⟨[a, b], start⟩ : Declaration).Stays lo hi := by
  refine ⟨List.pairwise_pair.2 h, fun e he => ?_, Int.le_trans ha (Int.le_of_lt halt), hhi⟩
  rcases List.mem_cons.1 he with rfl | he
  · exact ⟨ha, has, .inl halt⟩
  · rw [List.mem_singleton.1 he]
    exact ⟨hb, hbs, hblt⟩

theorem mono {d : Declaration} {lo' hi' : Int} (h : d.Stays lo hi) (hlo : lo' ≤ lo)
    (hhi : hi ≤ hi') : d.Stays lo' hi' := by
  refine ⟨h.agree, fun e he => ?_, Int.le_trans hlo h.lo_le, Int.le_trans h.le_hi hhi⟩
  obtain ⟨h1, h2⟩ := h.within e he
  exact ⟨Int.le_trans hlo h1, h2⟩

end Declaration.Stays

namespace Tree

variable {t : Tree}

/-- The parts of an assignment follow each other. -/
theorem LaidOut.assignment (h : t.LaidOut) {i e : Nat} (he : e ∈ t.lhs i)
    (hc : (t.kind e).isComment = false) (hne : t.start e < t.stop e) :
    t.start i ≤ t.start e ∧ t.stop e ≤ (t.assignOperator i).2.start ∧
      (t.assignOperator i).2.stop ≤ t.stop i ∧ t.start i ≤ t.start (t.firstRhs i) ∧
      t.start (t.firstRhs i) ≤ t.stop (t.firstRhs i) ∧ t.start i < t.stop (t.firstRhs i) ∧
      t.stop (t.firstRhs i) ≤ t.stop i := by
  have hp := parent?_of_mem_lhs he
  have hi : i < t.size := Nat.lt_trans (lt_of_parent? hp) (lt_size_of_parent? hp)
  obtain ⟨hic, hstart, hstop⟩ := h.inside e (lt_size_of_parent? hp) i hp hc
  obtain ⟨hop, hop'⟩ := h.leftSides i hi e he
  have hle : (t.assignOperator i).2.start ≤ (t.assignOperator i).2.stop := by
    unfold assignOperator
    split
    · exact Int.le_add_of_nonneg_right (Int.natCast_nonneg _)
    · exact Int.le_refl _
  refine ⟨hstart, hop, hop', ?_⟩
  unfold firstRhs
  cases hr : t.rhs i with
  | nil =>
    rw [List.headD_nil]
    omega
  | cons r rs =>
    have hmem : r ∈ t.rhs i := by rw [hr]; exact List.mem_cons_self
    have hrp : t.parent? r = some i := (mem_childrenIn.1 hmem).1.2
    obtain ⟨hopr, hrc⟩ := h.rightSides i hi r hmem
    have hord := h.ordered r (lt_size_of_parent? hrp) hrc
    obtain ⟨-, hrstart, hrstop⟩ := h.inside r (lt_size_of_parent? hrp) i hrp hrc
    rw [List.headD_cons]
    omega

theorem exists_parent?_of_isArgument {i : Nat} (h : t.isArgument i) :
    ∃ call, t.parent? i = some call := by
  unfold isArgument parentKind? at h
  cases hp : t.parent? i with
  | none => simp [hp] at h
  | some call => exact ⟨call, rfl⟩

/-- The operator of an assignment or a declaration is not empty. -/
theorem assignOperator_lt {i : Nat} {op : Operator} {p : Int} (hk : t.kind i = .assignStmt op p)
    (hop : op = .assign ∨ op = .define) :
    (t.assignOperator i).2.start < (t.assignOperator i).2.stop := by
  have hpos : 0 < op.text.utf8ByteSize := by
    rcases hop with rfl | rfl <;> decide
  rw [assignOperator, hk]
  show p < p + op.text.utf8ByteSize
  omega

/-- The node of a target, or what it is in parentheses, is not empty. -/
theorem Nested.lt_of_peels (h : t.Nested) {e x : Nat} {name : String}
    (hx : (t.kind x).identName? = some name) (hu : (t.kind x).uses?.isSome) (hp : t.Peels e x) :
    (t.kind e).isComment = false ∧ t.start e < t.stop e := by
  have hlt := h.referring x (lt_size_of_identName? hx) hu
  obtain ⟨hc, hstart, hstop⟩ := h.inside_of_mem_enclosing hp.1 (Kind.isComment_of_identName? hx)
  exact ⟨hc, by omega⟩

end Tree

namespace Source

variable {src : Source} {o : Nat} {name : String} {d : Declaration}

section Assignment

variable (hl : src.tree.LaidOut) {i e : Nat} (he : e ∈ src.tree.lhs i)
  (hc : (src.tree.kind e).isComment = false) (hne : src.tree.start e < src.tree.stop e)
include hl he hc hne

/-- A replacement of the front of an assignment, up to its first right side. -/
theorem stays_front (text : String) :
    (⟨[.replacement ⟨src.tree.start i, src.tree.start (src.tree.firstRhs i)⟩ text],
      src.tree.stop i⟩ : Declaration).Stays (src.tree.start i) (src.tree.stop i) := by
  obtain ⟨hlhs, hop, hend, hfront, hrhs, hlt, hstop⟩ := hl.assignment he hc hne
  refine .single (Int.le_refl _) ?_ ?_ (Int.le_refl _) <;>
    simp only [Edit.start_replacement, Edit.rangeStop_replacement] <;> omega

theorem declareAssign_stays (h0 : src.tree.lhsAt i 0 = e)
    (hsign : (src.tree.assignOperator i).2.start < (src.tree.assignOperator i).2.stop)
    (hd : src.declareAssign i o name = .ok d) :
    d.Stays (src.tree.start i) (src.tree.stop i) := by
  obtain ⟨hlhs, hop, hend, hfront, hrhs, hlt, hstop⟩ := hl.assignment he hc hne
  unfold declareAssign at hd
  simp only [h0] at hd
  split at hd
  · cases hd
    unfold Tree.start Tree.stop at *
    refine .pair (Edit.agrees_of_le ?_ ?_) ?_ ?_ ?_ ?_ ?_ (.inl ?_) (Int.le_refl _) <;>
      simp only [Edit.start_replacement, Edit.rangeStop_replacement, Tree.defineEdit] <;> omega
  · cases ht : src.declaredType i o with
    | error err => rw [ht] at hd; cases hd
    | ok type =>
      rw [ht] at hd
      cases hd
      exact stays_front hl he hc hne _

theorem declareCompound_stays (op : Operator) :
    (src.declareCompound i o op name).Stays (src.tree.start i) (src.tree.stop i) := by
  obtain ⟨hlhs, hop, hend, hfront, hrhs, hlt, hstop⟩ := hl.assignment he hc hne
  unfold declareCompound
  simp only
  split
  · refine .pair (Edit.agrees_of_le ?_ ?_) ?_ ?_ ?_ ?_ ?_ (.inr rfl) (Int.le_refl _) <;>
      simp only [Edit.start_replacement, Edit.rangeStop_replacement, Edit.start_insertion,
        Edit.rangeStop_insertion] <;> omega
  · exact stays_front hl he hc hne _

theorem declareTuple_stays {k s : Nat} (hk : src.tree.lhsAt i k = e)
    (hsign : (src.tree.assignOperator i).2.start < (src.tree.assignOperator i).2.stop)
    (hd : src.declareTuple i k o s name = .ok d) :
    d.Stays (src.tree.start i) (src.tree.stop i) := by
  obtain ⟨hlhs, hop, hend, -⟩ := hl.assignment he hc hne
  unfold declareTuple at hd
  simp only [hk] at hd
  split at hd
  · cases hd
    unfold Tree.start Tree.stop at *
    refine .single ?_ ?_ ?_ (Int.le_refl _) <;>
      simp only [Edit.start_replacement, Edit.rangeStop_replacement] <;> omega
  · split at hd
    · cases hd
      unfold Tree.start Tree.stop at *
      refine .pair (Edit.agrees_of_le ?_ ?_) ?_ ?_ ?_ ?_ ?_ (.inl ?_) (Int.le_refl _) <;>
        simp only [Edit.start_replacement, Edit.rangeStop_replacement, Tree.defineEdit] <;> omega
    · cases ht : src.declaredType i o with
      | error err => rw [ht] at hd; cases hd
      | ok type =>
        rw [ht] at hd
        cases hd
        unfold Tree.start Tree.stop at *
        refine .pair (Edit.insertion_agrees hlhs _ _) ?_ ?_ ?_ ?_ ?_ (.inl ?_) (Int.le_refl _) <;>
          simp only [Edit.start_replacement, Edit.rangeStop_replacement, Edit.start_insertion,
            Edit.rangeStop_insertion] <;> omega

end Assignment

theorem declareIncDec_stays {i : Nat} (hne : src.tree.start i < src.tree.stop i) (op : Operator) :
    (src.declareIncDec i o op name).Stays (src.tree.start i) (src.tree.stop i) := by
  unfold declareIncDec Tree.start Tree.stop at *
  refine .single ?_ ?_ ?_ (Int.le_refl _) <;>
    simp only [Edit.start_replacement, Edit.rangeStop_replacement] <;> omega

theorem declareOutArg_stays {stmt unary target call : Nat}
    (hp : src.tree.parent? unary = some call)
    (hstart : src.tree.start stmt ≤ src.tree.start target)
    (hne : src.tree.start target < src.tree.stop target)
    (hcall : src.tree.stop target ≤ src.tree.stop call)
    (hstop : src.tree.stop call ≤ src.tree.stop stmt) :
    (src.declareOutArg stmt unary target o name).Stays (src.tree.start stmt)
      (src.tree.stop stmt) := by
  unfold declareOutArg
  simp only [hp, Option.getD_some]
  unfold Tree.start Tree.stop at *
  refine .pair (Edit.insertion_agrees hstart _ _) ?_ ?_ ?_ ?_ ?_ (.inl ?_) hstop <;>
    simp only [Edit.start_replacement, Edit.rangeStop_replacement, Edit.start_insertion,
      Edit.rangeStop_insertion] <;> omega

theorem listStatement?_of_placeOf {unary stmt target : Nat} {place : Place}
    (hp : src.placeOf ⟨.outArg unary, stmt, target⟩ name = .ok place) :
    src.tree.listStatement? stmt = some place.stmt := by
  unfold placeOf at hp
  simp only at hp
  split at hp
  · rename_i s hs
    rw [(placeAt_eq_ok hp).1]
    exact hs
  · cases hp

/-- A declaration of a new variable changes only the statement at its place. -/
theorem declare_stays (hl : src.tree.LaidOut) {i : Nat} {w : Write} (hw : src.tree.WritesAt i w)
    (ho : src.written? w = .ok o) {place : Place} (hp : src.placeOf w (src.nameOf o) = .ok place)
    (hd : src.declare w o place name = .ok d) :
    d.Stays (src.tree.start place.stmt) (src.tree.stop place.stmt) := by
  obtain ⟨⟨x, hx⟩, hu⟩ := written?_eq_ok ho
  have hu : (src.tree.kind w.target).uses?.isSome := by rw [hu]; rfl
  cases hw with
  | assign hk he hb =>
    obtain ⟨hc, hne⟩ := hl.lt_of_peels hx hu (Tree.peels_of_bareIdent? hb)
    rw [(placeAt_eq_ok hp).1]
    exact declareAssign_stays hl (by rw [he]; exact List.mem_cons_self) hc hne
      (by rw [Tree.lhsAt, he]; rfl) (Tree.assignOperator_lt hk (.inl rfl)) hd
  | compound hk _ _ he hb =>
    obtain ⟨hc, hne⟩ := hl.lt_of_peels hx hu (Tree.peels_of_bareIdent? hb)
    rw [(placeAt_eq_ok hp).1]
    cases hd
    exact declareCompound_stays hl (List.mem_of_mem_head? he) hc hne _
  | incDec hk he hb =>
    obtain ⟨hc, hne⟩ := hl.lt_of_peels hx hu (Tree.peels_of_bareIdent? hb)
    have hpe := Tree.parent?_of_childIn? he
    obtain ⟨-, hstart, hstop⟩ := hl.inside _ (Tree.lt_size_of_parent? hpe) _ hpe hc
    have hlt : src.tree.start i < src.tree.stop i := by omega
    rw [(placeAt_eq_ok hp).1]
    cases hd
    exact declareIncDec_stays hlt _
  | tuple hk he hb =>
    obtain ⟨hc, hne⟩ := hl.lt_of_peels hx hu (Tree.peels_of_bareIdent? hb)
    rw [(placeAt_eq_ok hp).1]
    exact declareTuple_stays hl (List.mem_of_getElem? he) hc hne
      (by rw [Tree.lhsAt, List.getD_eq_getElem?_getD, he]; rfl)
      (Tree.assignOperator_lt hk (.inl rfl)) hd
  | redefine hk he hb =>
    obtain ⟨hc, hne⟩ := hl.lt_of_peels hx hu (.refl _ _)
    rw [(placeAt_eq_ok hp).1]
    exact declareTuple_stays hl (List.mem_of_getElem? he) hc hne
      (by rw [Tree.lhsAt, List.getD_eq_getElem?_getD, he]; rfl)
      (Tree.assignOperator_lt hk (.inr rfl)) hd
  | @outArg e _ s hk ha he hb hs =>
    -- the statement lies around the call, and the call around the target
    obtain ⟨call, hcall⟩ := Tree.exists_parent?_of_isArgument ha
    have hst : (src.tree.kind s).isStatement := by
      have := List.find?_some hs
      exact this
    have hsc : s ∈ src.tree.enclosing call := by
      rcases Tree.mem_enclosing_iff.1 (List.mem_of_find?_eq_some hs) with rfl | ⟨p, hp, hsp⟩
      · rw [hk] at hst
        cases hst
      · rw [hcall] at hp
        cases hp
        exact hsp
    have hpc : place.stmt ∈ src.tree.enclosing call :=
      Tree.mem_enclosing_trans (Tree.listStatement?_spec (listStatement?_of_placeOf hp)).1 hsc
    have hpe := Tree.parent?_of_childIn? he
    have hcx : call ∈ src.tree.enclosing _ :=
      Tree.mem_enclosing_trans (Tree.mem_enclosing_of_parent hpe (Tree.parent_mem_enclosing hcall))
        (Tree.peels_of_bareIdent? hb).1
    have hne := hl.referring _ (Tree.lt_size_of_identName? hx) hu
    obtain ⟨hcc, hstart, hstop⟩ :=
      hl.inside_of_mem_enclosing hcx (Kind.isComment_of_identName? hx)
    obtain ⟨-, hstart', hstop'⟩ := hl.inside_of_mem_enclosing hpc hcc
    cases hd
    exact declareOutArg_stays hcall (Int.le_trans hstart' hstart) hne hstop hstop'

/-! ## Whole fixes -/

section Body

variable (ht : src.tree.WellFormed) (hl : src.tree.LaidOut) {f b i : Nat}
  (hf : src.tree.Outermost f) (hb : src.tree.body? f = some b) (hbi : b ∈ src.tree.enclosing i)
  {w : Write} (hw : src.tree.WritesAt i w)
include ht hl hf hb hbi hw

/-- A new variable for a write in a body is declared at a statement in the body. -/
theorem mem_enclosing_of_placeOf {place : Place} (hp : src.placeOf w name = .ok place) :
    b ∈ src.tree.enclosing place.stmt ∧ (src.tree.kind place.stmt).isStatement := by
  cases hw with
  | outArg _ _ he _ hs =>
    have hpe := Tree.parent?_of_childIn? he
    have hbf := Tree.parent?_of_body? hb
    have hfsize := Nat.lt_trans (Tree.lt_of_parent? hbf) (Tree.lt_size_of_parent? hbf)
    have hbs := src.tree.ascent.mem_of_find? hs hbi (hl.bodies f hfsize hf.isFunction b hb).1
    have hlist := listStatement?_of_placeOf hp
    obtain ⟨hmem, hin, -⟩ := Tree.listStatement?_spec hlist
    have hle := Tree.le_of_mem_enclosing
      (Tree.mem_enclosing_trans hmem (List.mem_of_find?_eq_some hs))
    have hlt := Tree.lt_of_parent? hpe
    have hsize := Tree.lt_size_of_parent? hpe
    exact ⟨hl.mem_enclosing_of_listStatement? ht hf hb hbs hlist,
      hl.statements _ (by omega) hin⟩
  | assign hk | compound hk | incDec hk | tuple hk | redefine hk =>
    rw [(placeAt_eq_ok hp).1]
    exact ⟨hbi, by rw [hk]; rfl⟩

omit hl in
/-- The references of a write in a body lie in the function. -/
theorem mem_enclosing_of_mem_laterReferences (hx : w.target < src.tree.size) {start : Int} {r : Nat}
    (hr : r ∈ src.laterReferences (src.referenceRoot w) o start) : f ∈ src.tree.enclosing r := by
  have hfi := Tree.mem_enclosing_trans (Tree.parent_mem_enclosing (Tree.parent?_of_body? hb)) hbi
  have hfx := Tree.mem_enclosing_trans hfi hw.mem_enclosing_target
  rw [referenceRoot_eq ht hx] at hr
  have hg := (Tree.mem_subtree.1 (mem_laterReferences.1 hr).1).2
  cases hfun : src.tree.function? w.target with
  | none => exact absurd hf.isFunction (List.find?_eq_none.1 hfun f hfx)
  | some g =>
    rw [hfun] at hg
    exact Tree.mem_enclosing_trans (src.tree.ascent.mem_of_find? hfun hfx hf.isFunction) hg

end Body

/-- Different references are replaced at different places. -/
theorem pairwise_agrees_laterReferences (hl : src.tree.LaidOut) (root : Nat) (start : Int) :
    ((src.laterReferences root o start).map fun r =>
      Edit.replacement (src.tree.span r) name).Pairwise Edit.Agrees := by
  refine List.pairwise_map.2 (((Tree.pairwise_lt_subtree _ _).filter _).imp_of_mem ?_)
  intro r r' hr hr' hlt
  obtain ⟨hsub, hname, huses, -⟩ := mem_laterReferences.1 hr
  obtain ⟨hsub', hname', huses', -⟩ := mem_laterReferences.1 hr'
  have hsize := (Tree.mem_subtree.1 hsub).1
  have hsize' := (Tree.mem_subtree.1 hsub').1
  have hne := hl.referring r hsize (by rw [huses]; rfl)
  have hne' := hl.referring r' hsize' (by rw [huses']; rfl)
  have hapart := hl.identifiers r' hsize' r hlt (by rw [Kind.isIdent, hname]; rfl)
    (by rw [Kind.isIdent, hname']; rfl)
  unfold Tree.start Tree.stop at *
  refine ⟨?_, fun hs => ?_⟩
  · simp only [Edit.start_replacement, Edit.rangeStop_replacement]
    omega
  · simp only [Edit.start_replacement] at hs
    omega

/-- The edits of a fix for a write in the body of an outermost function can all be made. They lie in
the function, behind the start of its body. -/
theorem newVariable_extent (ht : src.tree.WellFormed) (hl : src.tree.LaidOut) {f b i : Nat}
    (hf : src.tree.Outermost f) (hb : src.tree.body? f = some b) (hbi : b ∈ src.tree.enclosing i)
    {w : Write} (hw : src.tree.WritesAt i w) {cancelled : Bool} {n : Namer} {edits : List Edit}
    (h : (src.newVariable cancelled n w).1 = .ok edits) :
    edits.Pairwise Edit.Agrees ∧
      ∀ e ∈ edits, src.tree.start b ≤ e.start ∧ e.rangeStop ≤ src.tree.stop f := by
  obtain ⟨o, place, name, n', d, refs, ho, hplace, -, hd, hrefs, rfl⟩ := newVariable_eq_ok h
  have hstays := declare_stays hl hw ho hplace hd
  obtain ⟨rfl, -⟩ := references_eq_ok hrefs
  obtain ⟨⟨x, hx⟩, -⟩ := written?_eq_ok ho
  rw [edits_renameFor hl.toNested]
  have hbf := Tree.parent?_of_body? hb
  -- the declaration stays in its statement, and so in the body and in the function
  obtain ⟨hbp, hst⟩ := mem_enclosing_of_placeOf ht hl hf hb hbi hw hplace
  obtain ⟨hbc, hstart, hstop⟩ :=
    hl.inside_of_mem_enclosing hbp (Kind.isComment_of_isStatement hst)
  obtain ⟨-, -, hstop'⟩ := hl.inside b (Tree.lt_size_of_parent? hbf) f hbf hbc
  have hdecl := hstays.mono hstart (Int.le_trans hstop hstop')
  have hrefs : ∀ e ∈ (src.laterReferences (src.referenceRoot w) o d.start).map (fun r =>
      Edit.replacement (src.tree.span r) name),
      d.start ≤ e.start ∧ e.rangeStop ≤ src.tree.stop f ∧ e.stop.isSome := by
    intro e he
    obtain ⟨r, hr, rfl⟩ := List.mem_map.1 he
    obtain ⟨hsub, hname, huses, -, hfrom⟩ := mem_laterReferences.1 hr
    have hfr := mem_enclosing_of_mem_laterReferences ht hf hb hbi hw
      (Tree.lt_size_of_identName? hx) hr
    have hne := hl.referring r (Tree.mem_subtree.1 hsub).1 (by rw [huses]; rfl)
    have hin := (hl.inside_of_mem_enclosing hfr (Kind.isComment_of_identName? hname)).2.2
    unfold Tree.start Tree.stop at *
    refine ⟨hfrom, ?_, rfl⟩
    rw [Edit.rangeStop_replacement]
    omega
  constructor
  · refine List.pairwise_append.2 ⟨hdecl.agree, pairwise_agrees_laterReferences hl _ _, ?_⟩
    intro e he e' he'
    obtain ⟨-, hbefore, hlast⟩ := hdecl.within e he
    obtain ⟨hfrom, -, hsome⟩ := hrefs e' he'
    refine ⟨.inl (Int.le_trans hbefore hfrom), fun hs => ⟨hlast.resolve_left ?_, hsome⟩⟩
    omega
  · intro e he
    have hlo := hdecl.lo_le
    have hhi := hdecl.le_hi
    rcases List.mem_append.1 he with he | he
    · obtain ⟨h1, h2, -⟩ := hdecl.within e he
      omega
    · obtain ⟨h1, h2, -⟩ := hrefs e he
      omega

end Source

end AssignOnce
