import AssignOnce.Program.Function
import AssignOnce.Proofs.Ascent

/-!
# Trees in preorder

In a tree in preorder (`Tree.InPreorder`) a node hangs below the node just before it or below a node
around that one. What a walk over the tree of a file may rely on besides (`Tree.WellFormed`): the
root is a file, every other node hangs below some node, and functions are declared only at the top
level. From this:

* `InPreorder.mem_enclosing_of_between`: the nodes below a node follow it without a gap;
* `WellFormed.exists_branch`: of two nodes that do not lie in each other, the earlier one lies in an
  earlier child of some common node;
* `WellFormed.lt_of_mem_bodyNodes`: the bodies of outermost functions follow each other.
-/

namespace AssignOnce

namespace Kind

/-- Whether a kind is a file. -/
def isFile : Kind → Bool
  | .file _ => true
  | _ => false

theorem isFunction_eq (k : Kind) :
    k.isFunction = (k.isFunctionDeclaration || k.isFunctionLiteral) := by
  cases k <;> rfl

theorem not_isFunction_of_isFile {k : Kind} (h : k.isFile) : ¬ k.isFunction := by
  cases k with
  | file => exact Bool.false_ne_true
  | _ => cases h

end Kind

namespace Tree

variable {t : Tree}

/-- Whether each node hangs below a node that the one before it lies in, if it hangs below any. -/
def InPreorder (t : Tree) : Prop :=
  ∀ i p, t.parent? (i + 1) = some p → p ∈ t.enclosing i

/-- The nodes of a file as a parser leaves them. -/
structure WellFormed (t : Tree) : Prop where
  root : (t.kind 0).isFile
  preorder {i : Nat} : i + 1 < t.size → ∃ p ∈ t.enclosing i, t.parent? (i + 1) = some p
  declared {f : Nat} : (t.kind f).isFunctionDeclaration → t.parent? f = some 0

theorem node_of_size_le {i : Nat} (h : t.size ≤ i) : t.node i = default := by
  simp [node, Array.getD_eq_getD_getElem?, Array.getElem?_eq_none h]

theorem wellFormed_iff : t.WellFormed ↔ (t.kind 0).isFile ∧
    (∀ i < t.size - 1, ∃ p ∈ t.enclosing i, t.parent? (i + 1) = some p) ∧
    ∀ f < t.size, (t.kind f).isFunctionDeclaration → t.parent? f = some 0 := by
  constructor
  · intro h
    exact ⟨h.root, fun i hi => h.preorder (by omega), fun f _ => h.declared⟩
  · rintro ⟨hr, hp, hd⟩
    refine ⟨hr, fun hi => hp _ (by omega), fun {f} hf => ?_⟩
    rcases Nat.lt_or_ge f t.size with h | h
    · exact hd f h hf
    · rw [kind, node_of_size_le h] at hf
      cases hf

instance (t : Tree) : Decidable t.WellFormed :=
  decidable_of_iff _ wellFormed_iff.symm

/-! ## The nodes around a node -/

theorem mem_enclosing_iff {i k : Nat} :
    k ∈ t.enclosing i ↔ k = i ∨ ∃ p, t.parent? i = some p ∧ k ∈ t.enclosing p :=
  t.ascent.mem_iff

theorem mem_enclosing_of_parent {i p k : Nat} (hp : t.parent? i = some p)
    (hk : k ∈ t.enclosing p) : k ∈ t.enclosing i :=
  t.ascent.mem_of_up hp hk

theorem parent_mem_enclosing {i p : Nat} (hp : t.parent? i = some p) : p ∈ t.enclosing i :=
  t.ascent.up_mem hp

theorem mem_enclosing_trans {i j k : Nat} (hk : k ∈ t.enclosing j) (hj : j ∈ t.enclosing i) :
    k ∈ t.enclosing i :=
  t.ascent.trans hk hj

/-- The nodes around a node lie around each other. -/
theorem mem_enclosing_of_le {i j k : Nat} (hk : k ∈ t.enclosing i) (hj : j ∈ t.enclosing i)
    (h : k ≤ j) : k ∈ t.enclosing j :=
  t.ascent.mem_of_le hk hj h

theorem lt_size_of_parent? {i p : Nat} (h : t.parent? i = some p) : i < t.size := by
  rcases Nat.lt_or_ge i t.size with hi | hi
  · exact hi
  · rw [parent?, node_of_size_le hi] at h
    cases h

theorem parent_lt_size {i p : Nat} (h : t.parent? i = some p) : p < t.size :=
  Nat.lt_trans (lt_of_parent? h) (lt_size_of_parent? h)

theorem pairwise_lt_subtree (t : Tree) (r : Nat) : (t.subtree r).Pairwise (· < ·) :=
  List.pairwise_lt_range.filter _

/-! ## Order -/

/-- The nodes below a node follow it without a gap. -/
theorem InPreorder.mem_enclosing_of_between (h : t.InPreorder) {i j r : Nat}
    (hr : r ∈ t.enclosing i) (hrj : r ≤ j) (hji : j ≤ i) : r ∈ t.enclosing j := by
  -- on the way back from `i` to `j` every node still lies below `r`
  induction i with
  | zero =>
    obtain rfl : j = 0 := by omega
    exact hr
  | succ i ih =>
    rcases Nat.lt_or_ge i j with hij | hij
    · obtain rfl : j = i + 1 := by omega
      exact hr
    · rcases mem_enclosing_iff.1 hr with rfl | ⟨p, hp, hrp⟩
      · omega
      · exact ih (mem_enclosing_trans hrp (h i p hp)) hij

namespace WellFormed

variable (h : t.WellFormed)
include h

theorem inPreorder : t.InPreorder := by
  intro i p hp
  obtain ⟨q, hq, hqi⟩ := h.preorder (lt_size_of_parent? hp)
  obtain rfl : q = p := by rw [hqi] at hp; exact Option.some.inj hp
  exact hq

theorem root_mem_enclosing {i : Nat} (hi : i < t.size) : 0 ∈ t.enclosing i := by
  induction i with
  | zero => exact t.self_mem_enclosing 0
  | succ i ih =>
    obtain ⟨p, hp, hpi⟩ := h.preorder hi
    have hp0 : 0 ∈ t.enclosing p := mem_enclosing_of_le (ih (by omega)) hp (Nat.zero_le p)
    exact mem_enclosing_of_parent hpi hp0

/-- Above a node that does not lie around another one there is a last such node. -/
theorem exists_last_outside {i j : Nat} (hi : i < t.size) (hj : j < t.size)
    (hn : j ∉ t.enclosing i) :
    ∃ b ∈ t.enclosing j, b ∉ t.enclosing i ∧ ∃ p ∈ t.enclosing i, t.parent? b = some p := by
  induction j using Nat.strongRecOn with
  | ind j ih =>
    cases j with
    | zero => exact absurd (h.root_mem_enclosing hi) hn
    | succ j =>
      obtain ⟨p, -, hp⟩ := h.preorder hj
      by_cases hpi : p ∈ t.enclosing i
      · exact ⟨j + 1, t.self_mem_enclosing _, hn, p, hpi, hp⟩
      · have hlt := lt_of_parent? hp
        obtain ⟨b, hb, hbi⟩ := ih p hlt (by omega) hpi
        exact ⟨b, mem_enclosing_of_parent hp hb, hbi⟩

/-- Two nodes that do not lie in each other lie in two children of some node, in their order. -/
theorem exists_branch {i j : Nat} (hij : i < j) (hj : j < t.size) (hn : i ∉ t.enclosing j) :
    ∃ p, ∃ a ∈ t.enclosing i, ∃ b ∈ t.enclosing j,
      t.parent? a = some p ∧ t.parent? b = some p ∧ a < b := by
  have hji : j ∉ t.enclosing i := fun hm => by have := le_of_mem_enclosing hm; omega
  obtain ⟨b, hb, hbi, p, hp, hbp⟩ := h.exists_last_outside (by omega) hj hji
  have hpj : p ∈ t.enclosing j := mem_enclosing_trans (parent_mem_enclosing hbp) hb
  obtain ⟨a, ha, hap⟩ := t.ascent.exists_below hp (fun e => hn (e ▸ hpj))
  refine ⟨p, a, ha, b, hb, hap, hbp, ?_⟩
  rcases Nat.lt_trichotomy a b with hab | rfl | hba
  · exact hab
  · exact absurd ha hbi
  · have hai := le_of_mem_enclosing ha
    exact absurd (h.inPreorder.mem_enclosing_of_between hb (by omega) (by omega)) hbi

end WellFormed

/-! ## Functions -/

theorem parent?_of_childIn? {i e : Nat} {f : Field} (h : t.childIn? i f = some e) :
    t.parent? e = some i :=
  (mem_childrenIn.1 (List.mem_of_mem_head? h)).1.2

theorem parent?_of_body? {f b : Nat} (h : t.body? f = some b) : t.parent? b = some f := by
  unfold body? at h
  split at h
  · cases h
  · exact parent?_of_childIn? h

/-- Whether a node is a declared function, or a literal with no function around it. -/
def Outermost (t : Tree) (f : Nat) : Prop :=
  (t.kind f).isFunctionDeclaration ∨
    (t.kind f).isFunctionLiteral ∧ ∀ a ∈ t.enclosing f, t.isFunction a → a = f

instance (t : Tree) (f : Nat) : Decidable (t.Outermost f) :=
  inferInstanceAs (Decidable (_ ∨ _))

theorem isTopFunction_eq (t : Tree) (f : Nat) : t.isTopFunction f =
    ((t.kind f).isFunctionDeclaration ||
      (t.kind f).isFunctionLiteral && (t.outerFunction? f).isNone) := by
  unfold isTopFunction
  generalize (t.outerFunction? f).isNone = b
  cases t.kind f <;> rfl

theorem outerFunction?_isNone_iff {f : Nat} (h : (t.kind f).isFunctionLiteral) :
    (t.outerFunction? f).isNone ↔ ∀ a ∈ t.enclosing f, t.isFunction a → a = f := by
  have none_iff : (t.outerFunction? f).isNone ↔
      ∀ p, t.parent? f = some p → ∀ a ∈ t.enclosing p, ¬ t.isFunction a := by
    cases hp : t.parent? f <;> simp [outerFunction?, h, hp, function?]
  rw [none_iff]
  constructor
  · intro hn a ha haf
    rcases mem_enclosing_iff.1 ha with e | ⟨p, hp, hap⟩
    · exact e
    · exact absurd haf (hn p hp a hap)
  · intro he p hp a hap haf
    have := he a (mem_enclosing_of_parent hp hap) haf
    have := le_of_mem_enclosing hap
    have := lt_of_parent? hp
    omega

/-- The functions that are checked by themselves are the outermost ones. -/
theorem isTopFunction_iff {f : Nat} : t.isTopFunction f ↔ t.Outermost f := by
  rw [isTopFunction_eq, Bool.or_eq_true, Bool.and_eq_true, Outermost]
  exact or_congr_right (and_congr_right outerFunction?_isNone_iff)

/-- No function lies around an outermost one. -/
theorem WellFormed.eq_of_outermost (h : t.WellFormed) {f a : Nat} (hf : t.Outermost f)
    (ha : a ∈ t.enclosing f) (haf : t.isFunction a) : a = f := by
  rcases hf with hd | ⟨-, hl⟩
  · rcases mem_enclosing_iff.1 ha with e | ⟨p, hp, hap⟩
    · exact e
    · obtain rfl : p = 0 := by rw [h.declared hd] at hp; exact (Option.some.inj hp).symm
      obtain rfl : a = 0 := Nat.le_zero.1 (le_of_mem_enclosing hap)
      exact absurd haf (Kind.not_isFunction_of_isFile h.root)
  · exact hl a ha haf

theorem Outermost.isFunction {f : Nat} (h : t.Outermost f) : t.isFunction f := by
  rw [Tree.isFunction, Kind.isFunction_eq, Bool.or_eq_true]
  exact h.imp_right And.left

/-- The nodes of the body of a function, in preorder. -/
def bodyNodes (t : Tree) (f : Nat) : List Nat :=
  match t.body? f with
  | some b => t.subtree b
  | none => []

theorem mem_bodyNodes {f n : Nat} :
    n ∈ t.bodyNodes f ↔ n < t.size ∧ ∃ b ∈ t.enclosing n, t.body? f = some b := by
  unfold bodyNodes
  split
  · rename_i b hb
    simp [mem_subtree, hb]
  · rename_i hb
    simp [hb]

theorem mem_enclosing_of_mem_bodyNodes {f n : Nat} (h : n ∈ t.bodyNodes f) :
    f ∈ t.enclosing n := by
  obtain ⟨-, b, hb, hf⟩ := mem_bodyNodes.1 h
  exact mem_enclosing_trans (parent_mem_enclosing (parent?_of_body? hf)) hb

theorem pairwise_lt_bodyNodes (t : Tree) (f : Nat) : (t.bodyNodes f).Pairwise (· < ·) := by
  unfold bodyNodes
  split
  · exact pairwise_lt_subtree t _
  · exact .nil

/-- The body of an outermost function ends before the next outermost function begins. -/
theorem WellFormed.lt_of_mem_bodyNodes (h : t.WellFormed) {f g n : Nat} (hf : t.Outermost f)
    (hg : t.Outermost g) (hfg : f < g) (hn : n ∈ t.bodyNodes f) : n < g := by
  rcases Nat.lt_or_ge n g with hng | hng
  · exact hng
  · have hfn := mem_enclosing_of_mem_bodyNodes hn
    have hin := h.inPreorder.mem_enclosing_of_between hfn (by omega) hng
    have := h.eq_of_outermost hg hin hf.isFunction
    omega

end Tree

end AssignOnce
