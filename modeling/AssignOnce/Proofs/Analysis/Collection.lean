import AssignOnce.Proofs.Analysis.Writes
import Mathlib.Data.List.Sort

/-!
# What a collection of writes holds

The writes below a node are the sites of the nodes below it, in preorder and those of one
assignment from left to right. In a tree in preorder the nodes below a node are a piece of the
nodes below any node around it (`Tree.InPreorder.subtree_eq_append`), so the writes below it are
a piece of the writes below that node (`Tree.collect_sites`).
-/

namespace AssignOnce

/-- Whether a write stands before another one: at an earlier node, or further left in the same
assignment. -/
def Write.Precedes (a b : Write) : Prop :=
  a.node < b.node ∨ a.node = b.node ∧ a.kind.index < b.kind.index

namespace Tree

variable {t : Tree}

/-! ## The writes below a node -/

theorem mem_writes_iff {outArgs : Bool} {root : Nat} {w : Write} :
    w ∈ t.writes outArgs root ↔ ∃ i ∈ t.subtree root, t.Site outArgs i w := by
  simp only [writes, List.mem_flatMap, mem_writesAt_iff]

theorem node_mem_subtree {outArgs : Bool} {root : Nat} {w : Write}
    (h : w ∈ t.writes outArgs root) : w.node ∈ t.subtree root := by
  obtain ⟨i, hi, hw⟩ := List.mem_flatMap.1 h
  rwa [(writesAt_of_mem hw).node_eq]

/-- Writes are collected in preorder, and from left to right in one assignment. -/
theorem pairwise_precedes_writes (t : Tree) (outArgs : Bool) (root : Nat) :
    (t.writes outArgs root).Pairwise Write.Precedes := by
  refine List.pairwise_flatMap.2 ⟨fun i _ => ?_, ?_⟩
  · refine (pairwise_writesAt t outArgs i).imp_of_mem fun {a b} ha hb hab => .inr ⟨?_, hab.1⟩
    rw [(writesAt_of_mem ha).node_eq, (writesAt_of_mem hb).node_eq]
  · refine (pairwise_lt_subtree t root).imp fun {i j} hij a ha b hb => .inl ?_
    rwa [(writesAt_of_mem ha).node_eq, (writesAt_of_mem hb).node_eq]

/-! ## The writes below an inner node -/

theorem le_of_mem_subtree {i r : Nat} (hi : i ∈ t.subtree r) : r ≤ i :=
  le_of_mem_enclosing (mem_subtree.1 hi).2

theorem mem_subtree_trans {i r root : Nat} (hr : root ∈ t.enclosing r) (hi : i ∈ t.subtree r) :
    i ∈ t.subtree root :=
  mem_subtree.2 ⟨(mem_subtree.1 hi).1, mem_enclosing_trans hr (mem_subtree.1 hi).2⟩

/-- The nodes below `root` that come before `r`. -/
def nodesBefore (t : Tree) (root r : Nat) : List Nat :=
  (t.subtree root).filter (· < r)

/-- The nodes below `root` that come after `r` and do not lie below it. -/
def nodesBehind (t : Tree) (root r : Nat) : List Nat :=
  (t.subtree root).filter fun i => r ≤ i ∧ i ∉ t.subtree r

theorem mem_nodesBefore {i root r : Nat} :
    i ∈ t.nodesBefore root r ↔ i ∈ t.subtree root ∧ i < r := by
  simp [nodesBefore]

theorem mem_nodesBehind {i root r : Nat} :
    i ∈ t.nodesBehind root r ↔ i ∈ t.subtree root ∧ r ≤ i ∧ i ∉ t.subtree r := by
  simp [nodesBehind]

theorem notMem_subtree_of_mem_nodesBefore {i root r : Nat} (hi : i ∈ t.nodesBefore root r) :
    i ∉ t.subtree r :=
  fun hin => Nat.not_le.2 (mem_nodesBefore.1 hi).2 (le_of_mem_subtree hin)

namespace InPreorder

variable (h : t.InPreorder) {r root : Nat}
include h

/-- A node that comes after `r` and does not lie below it comes after all that do. -/
theorem lt_of_notMem_subtree {i j : Nat} (hi : i ∈ t.subtree r) (hrj : r ≤ j)
    (hj : j ∉ t.subtree r) : i < j := by
  obtain ⟨hsize, hri⟩ := mem_subtree.1 hi
  rcases Nat.lt_or_ge i j with hij | hji
  · exact hij
  · have hrj := h.mem_enclosing_of_between hri hrj hji
    exact absurd (mem_subtree.2 ⟨Nat.lt_of_le_of_lt hji hsize, hrj⟩) hj

theorem pairwise_lt_pieces (root r : Nat) :
    (t.nodesBefore root r ++ t.subtree r ++ t.nodesBehind root r).Pairwise (· < ·) := by
  have hsorted := pairwise_lt_subtree t root
  refine List.pairwise_append.2 ⟨List.pairwise_append.2
    ⟨hsorted.filter _, pairwise_lt_subtree t r, ?_⟩, hsorted.filter _, ?_⟩
  · intro i hi j hj
    exact Nat.lt_of_lt_of_le (mem_nodesBefore.1 hi).2 (le_of_mem_subtree hj)
  · intro i hi j hj
    obtain ⟨-, hrj, hnot⟩ := mem_nodesBehind.1 hj
    rcases List.mem_append.1 hi with hi | hi
    · exact Nat.lt_of_lt_of_le (mem_nodesBefore.1 hi).2 hrj
    · exact h.lt_of_notMem_subtree hi hrj hnot

/-- The nodes below a node are a piece of the nodes below any node around it. -/
theorem subtree_eq_append (hr : root ∈ t.enclosing r) :
    t.subtree root = t.nodesBefore root r ++ t.subtree r ++ t.nodesBehind root r := by
  -- both lists are sorted, so it is enough to compare their elements
  refine (pairwise_lt_subtree t root).eq_of_mem_iff (h.pairwise_lt_pieces root r) fun i => ?_
  simp only [List.mem_append, mem_nodesBefore, mem_nodesBehind]
  constructor
  · intro hi
    by_cases hin : i ∈ t.subtree r
    · exact .inl (.inr hin)
    · rcases Nat.lt_or_ge i r with hlt | hge
      · exact .inl (.inl ⟨hi, hlt⟩)
      · exact .inr ⟨hi, hge, hin⟩
  · rintro ((⟨hi, -⟩ | hi) | ⟨hi, -⟩)
    · exact hi
    · exact mem_subtree_trans hr hi
    · exact hi

/-- The writes below a node are a piece of the writes below any node around it. -/
theorem exists_writes_append (outArgs : Bool) (hr : root ∈ t.enclosing r) :
    ∃ before after, t.writes outArgs root = before ++ t.writes outArgs r ++ after ∧
      (∀ w ∈ before, w.node ∉ t.subtree r) ∧ ∀ w ∈ after, w.node ∉ t.subtree r := by
  have houtside : ∀ {nodes : List Nat}, (∀ i ∈ nodes, i ∉ t.subtree r) →
      ∀ w ∈ nodes.flatMap (t.writesAt outArgs), w.node ∉ t.subtree r := by
    intro nodes hnodes w hw
    obtain ⟨i, hi, hw⟩ := List.mem_flatMap.1 hw
    rw [(writesAt_of_mem hw).node_eq]
    exact hnodes i hi
  refine ⟨(t.nodesBefore root r).flatMap (t.writesAt outArgs),
    (t.nodesBehind root r).flatMap (t.writesAt outArgs), ?_,
    houtside fun i hi => notMem_subtree_of_mem_nodesBefore hi,
    houtside fun i hi => (mem_nodesBehind.1 hi).2.2⟩
  rw [writes, h.subtree_eq_append hr, List.flatMap_append, List.flatMap_append, writes]

end InPreorder

/-- What is collected below a node are the sites of the nodes below it, in order and with different
targets; without arguments it is what is collected with them, less the writes through arguments.
What is collected below an inner node is a piece of it, the one that comes from the nodes below the
inner node. -/
theorem collect_sites (t : Tree) (outArgs : Bool) (root : Nat) :
    ∃ ws, t.collect false outArgs root = .ok ws ∧
      (∀ w, w ∈ ws ↔ ∃ i ∈ t.subtree root, t.Site outArgs i w) ∧
      ws.Pairwise Write.Precedes ∧ (ws.map (·.target)).Nodup ∧
      (∃ all, t.collect false true root = .ok all ∧
        ws = all.filter fun w => outArgs || !w.kind.isOutArg) ∧
      (t.InPreorder → ∀ r ∈ t.subtree root, ∃ before inside after,
        t.collect false outArgs r = .ok inside ∧ ws = before ++ inside ++ after ∧
        (∀ w ∈ inside, w.node ∈ t.subtree r) ∧ (∀ w ∈ before, w.node ∉ t.subtree r) ∧
        ∀ w ∈ after, w.node ∉ t.subtree r) := by
  refine ⟨t.writes outArgs root, rfl, fun w => mem_writes_iff,
    pairwise_precedes_writes t outArgs root, nodup_targets t outArgs root,
    ⟨t.writes true root, rfl, writes_eq_filter (fun _ => rfl) root⟩, ?_⟩
  intro h r hr
  obtain ⟨before, after, hws, hbefore, hafter⟩ :=
    h.exists_writes_append outArgs (mem_subtree.1 hr).2
  exact ⟨before, t.writes outArgs r, after, rfl, hws, fun w hw => node_mem_subtree hw, hbefore,
    hafter⟩

/-- A function with a write of each kind:

    func f(a int) {
        a, c := 1, 2
        for ; ; a++ {
            (a), _ = c, 0
            a += c
            println(&c)
            c--
            a = c
        }
    }
-/
def loopOfWrites : Tree := ⟨#[
  ⟨.file none, none, .other, ⟨1, 114⟩, none⟩,
  ⟨.ident "p" .noObject none, some 0, .name, ⟨9, 10⟩, none⟩,
  ⟨.funcDecl true none, some 0, .decls, ⟨12, 114⟩, none⟩,
  ⟨.ident "f" (.object 0) none, some 2, .name, ⟨17, 18⟩, none⟩,
  ⟨.funcType, some 2, .type, ⟨12, 25⟩, none⟩,
  ⟨.fieldList, some 4, .params, ⟨18, 25⟩, none⟩,
  ⟨.field, some 5, .list, ⟨19, 24⟩, none⟩,
  ⟨.ident "a" (.object 1) none, some 6, .names, ⟨19, 20⟩, none⟩,
  ⟨.ident "int" .nothing (some 2), some 6, .type, ⟨21, 24⟩, none⟩,
  ⟨.blockStmt 26, some 2, .body, ⟨26, 114⟩, none⟩,
  ⟨.assignStmt .define 34, some 9, .list, ⟨29, 41⟩, none⟩,
  ⟨.ident "a" .nothing (some 1), some 10, .lhs, ⟨29, 30⟩, none⟩,
  ⟨.ident "c" (.object 3) none, some 10, .lhs, ⟨32, 33⟩, none⟩,
  ⟨.basicLit .integer, some 10, .rhs, ⟨37, 38⟩, some 1⟩,
  ⟨.basicLit .integer, some 10, .rhs, ⟨40, 41⟩, some 1⟩,
  ⟨.forStmt, some 9, .list, ⟨43, 112⟩, none⟩,
  ⟨.incDecStmt .increment, some 15, .post, ⟨51, 54⟩, none⟩,
  ⟨.ident "a" .nothing (some 1), some 16, .x, ⟨51, 52⟩, none⟩,
  ⟨.blockStmt 55, some 15, .body, ⟨55, 112⟩, none⟩,
  ⟨.assignStmt .assign 66, some 18, .list, ⟨59, 72⟩, none⟩,
  ⟨.parenExpr, some 19, .lhs, ⟨59, 62⟩, none⟩,
  ⟨.ident "a" .nothing (some 1), some 20, .x, ⟨60, 61⟩, none⟩,
  ⟨.ident "_" .noObject none, some 19, .lhs, ⟨64, 65⟩, none⟩,
  ⟨.ident "c" .nothing (some 3), some 19, .rhs, ⟨68, 69⟩, some 1⟩,
  ⟨.basicLit .integer, some 19, .rhs, ⟨71, 72⟩, some 1⟩,
  ⟨.assignStmt (.update .add) 77, some 18, .list, ⟨75, 81⟩, none⟩,
  ⟨.ident "a" .nothing (some 1), some 25, .lhs, ⟨75, 76⟩, none⟩,
  ⟨.ident "c" .nothing (some 3), some 25, .rhs, ⟨80, 81⟩, some 1⟩,
  ⟨.exprStmt, some 18, .list, ⟨84, 95⟩, none⟩,
  ⟨.callExpr, some 28, .x, ⟨84, 95⟩, none⟩,
  ⟨.ident "println" .nothing (some 4), some 29, .other, ⟨84, 91⟩, none⟩,
  ⟨.unaryExpr (.arithmetic .and), some 29, .args, ⟨92, 94⟩, none⟩,
  ⟨.ident "c" .nothing (some 3), some 31, .x, ⟨93, 94⟩, none⟩,
  ⟨.incDecStmt .decrement, some 18, .list, ⟨98, 101⟩, none⟩,
  ⟨.ident "c" .nothing (some 3), some 33, .x, ⟨98, 99⟩, none⟩,
  ⟨.assignStmt .assign 106, some 18, .list, ⟨104, 109⟩, none⟩,
  ⟨.ident "a" .nothing (some 1), some 35, .lhs, ⟨104, 105⟩, none⟩,
  ⟨.ident "c" .nothing (some 3), some 35, .rhs, ⟨108, 109⟩, some 1⟩]⟩

/-- The writes of the body of the loop come behind the one in front of it; `a++` is none. -/
theorem collect_sites_loopOfWrites :
    loopOfWrites.WellFormed ∧ 18 ∈ loopOfWrites.subtree 0 ∧
      loopOfWrites.collect false true 0 = .ok [⟨.tuple 0, 10, 11⟩, ⟨.tuple 0, 19, 21⟩,
        ⟨.compound (.arithmetic .add), 25, 26⟩, ⟨.outArg 31, 28, 32⟩,
        ⟨.incDec (.arithmetic .sub), 33, 34⟩, ⟨.assign, 35, 36⟩] ∧
      ∃ ws before inside after, loopOfWrites.collect false true 0 = .ok ws ∧
        loopOfWrites.collect false true 18 = .ok inside ∧ ws = before ++ inside ++ after ∧
        (∀ w, w ∈ ws ↔ ∃ i ∈ loopOfWrites.subtree 0, loopOfWrites.Site true i w) ∧
        (∀ w ∈ inside, w.node ∈ loopOfWrites.subtree 18) ∧
        (∀ w ∈ before, w.node ∉ loopOfWrites.subtree 18) ∧
        ∀ w ∈ after, w.node ∉ loopOfWrites.subtree 18 := by
  have hwf : loopOfWrites.WellFormed := by decide +kernel
  have hbody : 18 ∈ loopOfWrites.subtree 0 := by decide +kernel
  obtain ⟨ws, hws, hsites, -, -, -, hpiece⟩ := collect_sites loopOfWrites true 0
  obtain ⟨before, inside, after, hinside, hsplit, hin, hbefore, hafter⟩ :=
    hpiece hwf.inPreorder 18 hbody
  exact ⟨hwf, hbody, by decide +kernel, ws, before, inside, after, hws, hinside, hsplit, hsites, hin,
    hbefore, hafter⟩

end Tree

end AssignOnce
