/-!
# Sets of flags

Up to eight flags in one byte. A mask stands for the flags whose bits it has; `set` switches all of
them on or off, and `enabled` asks for any of them. What they do is said bit by bit
(`Flags.getLsbD_set`, `Flags.enabled_iff`), and the laws of masks follow from it.
-/

namespace AssignOnce

/-- A set of flags. -/
structure Flags where
  bits : BitVec 8
  deriving DecidableEq, Repr

namespace Flags

/-- The flags of some masks together. -/
def ofMasks (masks : List (BitVec 8)) : Flags :=
  ⟨masks.foldl (· ||| ·) 0⟩

/-- Switches the flags of a mask on or off. -/
def set (f : Flags) (mask : BitVec 8) (on : Bool) : Flags :=
  if on then ⟨f.bits ||| mask⟩ else ⟨f.bits &&& ~~~mask⟩

/-- Whether some flag of a mask is on. -/
def enabled (f : Flags) (mask : BitVec 8) : Bool :=
  f.bits &&& mask != 0

/-- The flags one by one, the lowest first. -/
def toList (f : Flags) : List Bool :=
  (List.range 8).map f.bits.getLsbD

variable {f f' : Flags} {mask mask' : BitVec 8} {on on' : Bool}

theorem eq_of_getLsbD_eq (h : ∀ i, f.bits.getLsbD i = f'.bits.getLsbD i) : f = f' :=
  congrArg mk (BitVec.eq_of_getLsbD_eq fun i _ => h i)

theorem ne_zero_iff {x : BitVec 8} : x ≠ 0 ↔ ∃ i, x.getLsbD i := by
  constructor
  · intro h
    apply Classical.byContradiction
    intro hnone
    refine h (BitVec.eq_of_getLsbD_eq fun i _ => ?_)
    show x.getLsbD i = (0#8).getLsbD i
    rw [BitVec.getLsbD_zero, Bool.eq_false_iff]
    exact fun hi => hnone ⟨i, hi⟩
  · rintro ⟨i, hi⟩ rfl
    exact Bool.false_ne_true (BitVec.getLsbD_zero.symm.trans hi)

/-- Whether some flag of a mask is on, flag by flag. -/
theorem enabled_iff : f.enabled mask ↔ ∃ i, f.bits.getLsbD i ∧ mask.getLsbD i := by
  rw [enabled, bne_iff_ne, ne_zero_iff]
  simp only [BitVec.getLsbD_and, Bool.and_eq_true]

theorem getLsbD_set (i : Nat) : (f.set mask on).bits.getLsbD i =
    if mask.getLsbD i then on else f.bits.getLsbD i := by
  cases on <;> cases hm : mask.getLsbD i <;> simp [set, hm]
  exact BitVec.lt_of_getLsbD

theorem getLsbD_ofMasks {masks : List (BitVec 8)} {i : Nat} :
    (ofMasks masks).bits.getLsbD i ↔ ∃ m ∈ masks, m.getLsbD i := by
  have hfold : ∀ x : BitVec 8, (masks.foldl (· ||| ·) x).getLsbD i ↔
      x.getLsbD i ∨ ∃ m ∈ masks, m.getLsbD i := by
    induction masks with
    | nil => simp
    | cons m masks ih =>
      intro x
      rw [List.foldl_cons, ih, BitVec.getLsbD_or, Bool.or_eq_true, or_assoc]
      simp only [List.mem_cons, exists_eq_or_imp]
  rw [ofMasks, hfold]
  exact or_iff_right fun h => Bool.false_ne_true (BitVec.getLsbD_zero.symm.trans h)

/-- A flag of a mask is no flag of another one that has no flag in common with it. -/
theorem getLsbD_of_disjoint (h : mask &&& mask' = 0) {i : Nat} (hi : mask'.getLsbD i) :
    mask.getLsbD i = false := by
  have hboth : (mask &&& mask').getLsbD i = false := by
    rw [h]
    exact BitVec.getLsbD_zero
  rwa [BitVec.getLsbD_and, hi, Bool.and_true] at hboth

theorem set_comm (h : mask &&& mask' = 0) :
    (f.set mask on).set mask' on' = (f.set mask' on').set mask on := by
  refine eq_of_getLsbD_eq fun i => ?_
  simp only [getLsbD_set]
  split
  · rename_i hi
    rw [getLsbD_of_disjoint h hi, if_neg Bool.false_ne_true]
  · rfl

theorem enabled_set_self (h : mask ≠ 0) : (f.set mask on).enabled mask = on := by
  obtain ⟨i, hi⟩ := ne_zero_iff.1 h
  rw [Bool.eq_iff_iff, enabled_iff]
  constructor
  · rintro ⟨j, hon, hj⟩
    rwa [getLsbD_set, if_pos hj] at hon
  · intro hon
    exact ⟨i, by rw [getLsbD_set, if_pos hi, hon], hi⟩

theorem enabled_set_of_disjoint (h : mask &&& mask' = 0) :
    (f.set mask on).enabled mask' = f.enabled mask' := by
  rw [Bool.eq_iff_iff, enabled_iff, enabled_iff]
  refine exists_congr fun i => and_congr_left fun hi => ?_
  rw [getLsbD_set, getLsbD_of_disjoint h hi, if_neg Bool.false_ne_true]

/-- Switching flags off switches none on. -/
theorem enabled_of_enabled_set_false (h : (f.set mask false).enabled mask') : f.enabled mask' := by
  rw [enabled_iff] at h ⊢
  obtain ⟨i, hon, hi⟩ := h
  rw [getLsbD_set] at hon
  split at hon
  · cases hon
  · exact ⟨i, hon, hi⟩

end Flags

end AssignOnce
