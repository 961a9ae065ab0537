import AssignOnce.Fix.Edit
import AssignOnce.Text.Utf8
import Mathlib.Data.List.Basic
import Mathlib.Order.Monotone.Basic

/-!
# Applying edits

Edits are applied at once to a text that starts at some position of its package: at every position
come the texts of the edits that start there, then the byte, unless an edit replaces it
(`Edit.changed`, `Edit.applied?`). A single edit replaces its range by its text
(`Edit.applied_singleton`).

When edits are applied one group after the other, the positions of the second group shift by what
the first one adds in front of them (`Edit.shift`). The place to which the first group moves a
position is `Edit.place`; it never moves positions past each other, and where edits overlap none of
the group the shift leads to that place (`Edit.start_rebased`, `Edit.rangeStop_rebased`). So what
the second group does to the bytes that come from one position is what it would have done at that
position (`Edit.changed_cell`), and by induction over the text the two groups one after the other do
what they do at once (`Edit.applied?_append`).
-/

namespace AssignOnce

namespace Edit

/-! ## Overlapping -/

theorem start_le_rangeStop (e : Edit) : e.start ≤ e.rangeStop := by
  unfold rangeStop
  split
  · exact Int.le_max_left _ _
  · exact Int.le_refl _

theorem overlaps_comm (a b : Edit) : a.overlaps b = b.overlaps a := by
  unfold overlaps
  rw [Bool.and_comm]
  congr 1
  rw [Bool.eq_iff_iff, beq_iff_eq, beq_iff_eq, eq_comm]

/-- Whether an edit replaces the byte at a position. -/
def Covers (e : Edit) (p : Int) : Prop :=
  e.start ≤ p ∧ p < e.rangeStop

instance (e : Edit) (p : Int) : Decidable (e.Covers p) :=
  inferInstanceAs (Decidable (_ ∧ _))

/-- Whether an edit starts at a position or replaces the byte there. -/
def Touches (e : Edit) (p : Int) : Prop :=
  e.start = p ∨ e.Covers p

/-- Edits overlap if there is a position that both touch. -/
theorem overlaps_of_touches {a b : Edit} {p : Int} (ha : a.Touches p) (hb : b.Touches p) :
    a.overlaps b := by
  have := a.start_le_rangeStop
  have := b.start_le_rangeStop
  simp only [Touches, Covers] at ha hb
  simp only [overlaps, Bool.or_eq_true, beq_iff_eq, Bool.and_eq_true, decide_eq_true_eq]
  omega

/-- Whether the ranges of two edits are apart; they may touch. -/
def Apart (a b : Edit) : Prop :=
  a.rangeStop ≤ b.start ∨ b.rangeStop ≤ a.start

instance (a b : Edit) : Decidable (a.Apart b) :=
  inferInstanceAs (Decidable (_ ∨ _))

/-! ## Application -/

/-- The bytes that an edit puts in the place of its range. -/
def bytes (e : Edit) : Bytes :=
  Utf8.encode e.text

/-- What edits put in front of a position. -/
def textsAt (edits : List Edit) (p : Int) : Bytes :=
  edits.flatMap fun e => if e.start = p then e.bytes else []

/-- What edits leave of the byte at a position. -/
def keptAt (edits : List Edit) (p : Int) (b : UInt8) : Bytes :=
  if ∃ e ∈ edits, e.Covers p then [] else [b]

/-- What edits make of the bytes from a position on, without what they put behind the last one. -/
def changed (edits : List Edit) (p : Int) : Bytes → Bytes
  | [] => []
  | b :: rest => textsAt edits p ++ keptAt edits p b ++ changed edits (p + 1) rest

/-- The text after some edits, where `base` is the position of its first byte. -/
def applied (edits : List Edit) (base : Int) (text : Bytes) : Bytes :=
  changed edits base text ++ textsAt edits (base + text.length)

/-- Whether an edit lies in a text. -/
def LiesIn (base : Int) (text : Bytes) (e : Edit) : Prop :=
  base ≤ e.start ∧ e.rangeStop ≤ base + text.length

instance (base : Int) (text : Bytes) (e : Edit) : Decidable (e.LiesIn base text) :=
  inferInstanceAs (Decidable (_ ∧ _))

/-- The text after some edits, if all of them lie in it. -/
def applied? (edits : List Edit) (base : Int) (text : Bytes) : Option Bytes :=
  if ∀ e ∈ edits, e.LiesIn base text then some (applied edits base text) else none

/-- By how much an edit makes the text longer. -/
def change (e : Edit) : Int :=
  e.bytes.length - (e.rangeStop - e.start)

/-- A position, shifted by the edits that start before it. -/
def shift : List Edit → Int → Int
  | [], p => p
  | e :: rest, p => (if e.start < p then e.change else 0) + shift rest p

/-- An edit for the text that other edits have changed. -/
def rebased (edits : List Edit) (e : Edit) : Edit :=
  ⟨shift edits e.start, e.stop.map (shift edits), e.text⟩

variable {edits : List Edit} {p q : Int}

theorem changed_append (edits : List Edit) (p : Int) (x y : Bytes) :
    changed edits p (x ++ y) = changed edits p x ++ changed edits (p + x.length) y := by
  induction x generalizing p with
  | nil => simp [changed]
  | cons b x ih =>
    have hp : p + 1 + x.length = p + (b :: x).length := by
      rw [List.length_cons]
      omega
    simp only [List.cons_append, changed, ih, hp, List.append_assoc]

theorem textsAt_append (edits others : List Edit) (p : Int) :
    textsAt (edits ++ others) p = textsAt edits p ++ textsAt others p :=
  List.flatMap_append

theorem textsAt_eq_nil (h : ∀ e ∈ edits, e.start ≠ p) : textsAt edits p = [] :=
  List.flatMap_eq_nil_iff.2 fun e he => if_neg (h e he)

theorem keptAt_eq (h : ∀ e ∈ edits, ¬ e.Covers p) (b : UInt8) : keptAt edits p b = [b] :=
  if_neg fun ⟨e, he, hcovers⟩ => h e he hcovers

theorem keptAt_congr {others : List Edit} (h : (∃ e ∈ edits, e.Covers p) ↔ ∃ e ∈ others, e.Covers q)
    (b : UInt8) : keptAt edits p b = keptAt others q b :=
  if_congr h rfl rfl

/-- The order of edits matters only where several of them start at one position. -/
theorem changed_congr {others : List Edit} (htexts : ∀ p, textsAt edits p = textsAt others p)
    (hmem : ∀ e, e ∈ edits ↔ e ∈ others) (p : Int) (text : Bytes) :
    changed edits p text = changed others p text := by
  induction text generalizing p with
  | nil => rfl
  | cons b text ih =>
    have hkept : keptAt edits p b = keptAt others p b := keptAt_congr (by simp only [hmem]) b
    rw [changed, htexts, hkept, ih, changed]

/-- Bytes that no edit touches stay as they are. -/
theorem changed_eq_self {x : Bytes}
    (h : ∀ e ∈ edits, ∀ y, p ≤ y → y < p + x.length → ¬ e.Touches y) :
    changed edits p x = x := by
  induction x generalizing p with
  | nil => rfl
  | cons b x ih =>
    rw [List.length_cons] at h
    have hfirst : ∀ e ∈ edits, ¬ e.Touches p := fun e he => h e he p (by omega) (by omega)
    rw [changed, textsAt_eq_nil fun e he hp => hfirst e he (.inl hp),
      keptAt_eq fun e he hp => hfirst e he (.inr hp),
      ih fun e he y hy hlt => h e he y (by omega) (by omega)]
    rfl

theorem LiesIn.not_covers {e : Edit} {base : Int} {text : Bytes} (h : e.LiesIn base text) :
    ¬ e.Covers (base + text.length) :=
  fun hcovers => absurd hcovers.2 (Int.not_lt.2 h.2)

/-- The end of a text that holds all edits is like one more byte that none of them replaces. -/
theorem changed_concat {base : Int} {text : Bytes} (h : ∀ e ∈ edits, e.LiesIn base text)
    (b : UInt8) : changed edits base (text ++ [b]) = applied edits base text ++ [b] := by
  rw [changed_append, changed, keptAt_eq fun e he => (h e he).not_covers, changed, applied,
    List.append_nil, List.append_assoc]

/-! ## Places -/

/-- By how much an edit makes the text in front of a position longer. -/
def growth (e : Edit) (p : Int) : Int :=
  if e.start < p then e.bytes.length - (min e.rangeStop p - e.start) else 0

/-- The place of a position after some edits. -/
def place : List Edit → Int → Int
  | [], p => p
  | e :: rest, p => e.growth p + place rest p

theorem growth_succ (e : Edit) (p : Int) :
    e.growth (p + 1) + (if e.Covers p then 1 else 0) =
      e.growth p + (if e.start = p then (e.bytes.length : Int) else 0) := by
  have := e.start_le_rangeStop
  unfold growth Covers
  split_ifs <;> omega

theorem place_succ_add (edits : List Edit) (p : Int) :
    place edits (p + 1) + edits.countP (·.Covers p) =
      place edits p + (textsAt edits p).length + 1 := by
  induction edits with
  | nil => simp [place, textsAt]
  | cons e edits ih =>
    have hgrowth := e.growth_succ p
    have htexts : (textsAt (e :: edits) p).length =
        (if e.start = p then e.bytes.length else 0) + (textsAt edits p).length := by
      rw [textsAt, List.flatMap_cons, List.length_append]
      split <;> rfl
    simp only [place, List.countP_cons, decide_eq_true_eq, htexts]
    split_ifs at hgrowth ⊢ <;> push_cast <;> omega

/-- Of edits that are apart at most one replaces a byte. -/
theorem length_keptAt (h : edits.Pairwise Apart) (p : Int) (b : UInt8) :
    (keptAt edits p b).length + edits.countP (·.Covers p) = 1 := by
  induction edits with
  | nil => simp [keptAt]
  | cons e edits ih =>
    obtain ⟨hfirst, hothers⟩ := List.pairwise_cons.1 h
    by_cases he : e.Covers p
    · have hnone : edits.countP (·.Covers p) = 0 := by
        rw [List.countP_eq_zero]
        intro f hf hcovers
        have hapart := hfirst f hf
        rw [decide_eq_true_eq] at hcovers
        unfold Apart Covers at *
        omega
      simp [keptAt, he, hnone]
    · have := ih hothers
      simpa [keptAt, he] using this

/-- Places move on by what edits make of the byte at a position. -/
theorem place_succ (h : edits.Pairwise Apart) (p : Int) (b : UInt8) :
    place edits (p + 1) = place edits p + (textsAt edits p ++ keptAt edits p b).length := by
  have hplace := place_succ_add edits p
  have hkept := length_keptAt h p b
  rw [List.length_append]
  omega

theorem place_mono (h : edits.Pairwise Apart) (hle : p ≤ q) : place edits p ≤ place edits q := by
  refine monotone_int_of_le_succ (fun r => ?_) hle
  rw [place_succ h r 0]
  omega

theorem place_lt (h : edits.Pairwise Apart) (hkept : ∀ e ∈ edits, ¬ e.Covers p) (hlt : p < q) :
    place edits p < place edits q := by
  have hnext : place edits p < place edits (p + 1) := by
    rw [place_succ h p 0, keptAt_eq hkept, List.length_append, List.length_singleton]
    omega
  exact Int.lt_of_lt_of_le hnext (place_mono h hlt)

theorem length_changed (h : edits.Pairwise Apart) (p : Int) (text : Bytes) :
    place edits (p + text.length) = place edits p + (changed edits p text).length := by
  induction text generalizing p with
  | nil => simp [changed]
  | cons b text ih =>
    have hfirst := place_succ h p b
    have hothers := ih (p + 1)
    rw [changed, List.length_append, List.length_cons, Int.natCast_succ, Int.add_comm _ 1,
      ← Int.add_assoc, hothers, hfirst]
    push_cast
    omega

theorem place_of_le (h : ∀ e ∈ edits, p ≤ e.start) : place edits p = p := by
  induction edits with
  | nil => rfl
  | cons e edits ih =>
    obtain ⟨he, hothers⟩ := List.forall_mem_cons.1 h
    rw [place, growth, if_neg (Int.not_lt.2 he), ih hothers, Int.zero_add]

theorem shift_le_place (edits : List Edit) (p : Int) : shift edits p ≤ place edits p := by
  induction edits with
  | nil => exact Int.le_refl p
  | cons e edits ih =>
    rw [shift, place, growth, change]
    split <;> omega

/-- A position that lies in no range is shifted to its place. -/
theorem shift_eq_place (h : ∀ e ∈ edits, e.start < p → e.rangeStop ≤ p) :
    shift edits p = place edits p := by
  induction edits with
  | nil => rfl
  | cons e edits ih =>
    obtain ⟨he, hothers⟩ := List.forall_mem_cons.1 h
    rw [shift, place, ih hothers, growth, change]
    split
    · next hlt => rw [Int.min_eq_left (he hlt)]
    · rfl

/-! ## One group of edits after the other -/

variable {A B : List Edit} {e : Edit}

theorem not_touches (hclear : ∀ a ∈ A, ¬ a.overlaps e) (he : e.Touches p) :
    ∀ a ∈ A, ¬ a.Touches p :=
  fun a ha hp => hclear a ha (overlaps_of_touches hp he)

theorem start_rebased (hclear : ∀ a ∈ A, ¬ a.overlaps e) :
    (rebased A e).start = place A e.start := by
  refine shift_eq_place fun a ha hlt => Int.not_lt.1 fun hstop => ?_
  exact not_touches hclear (.inl rfl) a ha (.inr ⟨Int.le_of_lt hlt, hstop⟩)

theorem rangeStop_rebased (hA : A.Pairwise Apart) (hclear : ∀ a ∈ A, ¬ a.overlaps e) :
    (rebased A e).rangeStop = place A e.rangeStop := by
  have hstart := start_rebased hclear
  obtain ⟨start, stop, text⟩ := e
  cases stop with
  | none => exact hstart
  | some stop =>
    have hmax : (rebased A ⟨start, some stop, text⟩).rangeStop =
        max (place A start) (shift A stop) := by
      rw [← hstart]
      rfl
    rw [hmax]
    by_cases hle : stop ≤ start
    · -- the end of an insertion is not shifted behind its start
      have hplace := Int.le_trans (shift_le_place A stop) (place_mono hA hle)
      rw [Int.max_eq_left hplace]
      exact congrArg _ (Int.max_eq_left hle).symm
    · have hlt : start < stop := Int.not_le.1 hle
      have hshift : shift A stop = place A stop := by
        refine shift_eq_place fun a ha hbefore => Int.not_lt.1 fun hstop => ?_
        have hlast : Touches ⟨start, some stop, text⟩ (stop - 1) := by
          right
          simp only [Covers, rangeStop]
          omega
        exact not_touches hclear hlast a ha (.inr ⟨by omega, by omega⟩)
      rw [hshift, Int.max_eq_right (place_mono hA (Int.le_of_lt hlt))]
      exact congrArg _ (Int.max_eq_right (Int.le_of_lt hlt)).symm

/-- Of the edits for the changed text, only those for a position start in the bytes that come from
it. -/
theorem start_eq_of_rebased (hA : A.Pairwise Apart) (hclear : ∀ a ∈ A, ¬ a.overlaps e) {y : Int}
    (hle : place A p ≤ y) (hlt : y < place A (p + 1)) (hstart : (rebased A e).start = y) :
    e.start = p := by
  rw [start_rebased hclear] at hstart
  have hkept : ∀ a ∈ A, ¬ a.Covers e.start :=
    fun a ha hcovers => not_touches hclear (.inl rfl) a ha (.inr hcovers)
  rcases Int.lt_trichotomy e.start p with hbefore | hsame | hafter
  · have := place_lt hA hkept hbefore
    omega
  · exact hsame
  · have := place_mono hA hafter
    omega

/-- An edit for the changed text replaces all bytes that come from a position or none. -/
theorem covers_rebased_iff (hA : A.Pairwise Apart) (hclear : ∀ a ∈ A, ¬ a.overlaps e) {y : Int}
    (hle : place A p ≤ y) (hlt : y < place A (p + 1)) : (rebased A e).Covers y ↔ e.Covers p := by
  rw [Covers, start_rebased hclear, rangeStop_rebased hA hclear, Covers]
  constructor
  · rintro ⟨hstart, hstop⟩
    constructor
    · by_contra hafter
      have := place_mono hA (Int.not_le.1 hafter)
      omega
    · by_contra hbefore
      have := place_mono hA (Int.not_lt.1 hbefore)
      omega
  · rintro ⟨hstart, hstop⟩
    have := place_mono hA hstart
    have := place_mono hA hstop
    omega

/-- What a second group makes of the bytes that come from one position is what it makes of that
position. -/
theorem changed_cell (hA : A.Pairwise Apart) (hclear : ∀ a ∈ A, ∀ e ∈ B, ¬ a.overlaps e) (p : Int)
    (b : UInt8) :
    changed (B.map (rebased A)) (place A p) (textsAt A p ++ keptAt A p b) =
      textsAt (A ++ B) p ++ keptAt (A ++ B) p b := by
  have hsucc := place_succ hA p b
  have hclear' : ∀ e ∈ B, ∀ a ∈ A, ¬ a.overlaps e := fun e he a ha => hclear a ha e he
  by_cases htouch : ∃ a ∈ A, a.Touches p
  · -- the second group touches neither the position nor what comes from it
    obtain ⟨a, ha, hap⟩ := htouch
    have hnone : ∀ e ∈ B, ¬ e.Touches p := fun e he hep =>
      hclear a ha e he (overlaps_of_touches hap hep)
    have hkept : keptAt (A ++ B) p b = keptAt A p b := by
      refine keptAt_congr ⟨?_, ?_⟩ b
      · rintro ⟨e, he, hcovers⟩
        rcases List.mem_append.1 he with he | he
        · exact ⟨e, he, hcovers⟩
        · exact absurd (.inr hcovers) (hnone e he)
      · rintro ⟨e, he, hcovers⟩
        exact ⟨e, List.mem_append_left _ he, hcovers⟩
    rw [textsAt_append, textsAt_eq_nil fun e he hp => hnone e he (.inl hp), List.append_nil, hkept]
    refine changed_eq_self fun e' he' y hle hlt => ?_
    obtain ⟨e, he, rfl⟩ := List.mem_map.1 he'
    rw [← hsucc] at hlt
    rintro (hstart | hcovers)
    · exact hnone e he (.inl (start_eq_of_rebased hA (hclear' e he) hle hlt hstart))
    · exact hnone e he (.inr ((covers_rebased_iff hA (hclear' e he) hle hlt).1 hcovers))
  · -- only the byte itself comes from the position
    have hnone : ∀ a ∈ A, ¬ a.Touches p := fun a ha hap => htouch ⟨a, ha, hap⟩
    have htextsA : textsAt A p = [] := textsAt_eq_nil fun a ha hp => hnone a ha (.inl hp)
    have hkeptA : keptAt A p b = [b] := keptAt_eq (fun a ha hp => hnone a ha (.inr hp)) b
    rw [htextsA, hkeptA, List.nil_append, List.length_singleton] at hsucc
    have htextsB : textsAt (B.map (rebased A)) (place A p) = textsAt B p := by
      rw [textsAt, List.flatMap_map]
      refine List.flatMap_congr fun e he => if_congr ⟨fun hstart => ?_, ?_⟩ rfl rfl
      · exact start_eq_of_rebased hA (hclear' e he) (Int.le_refl _) (by omega) hstart
      · rintro rfl
        exact start_rebased (hclear' e he)
    have hkeptB : keptAt (B.map (rebased A)) (place A p) b = keptAt (A ++ B) p b := by
      refine keptAt_congr ⟨?_, ?_⟩ b
      · rintro ⟨e', he', hcovers⟩
        obtain ⟨e, he, rfl⟩ := List.mem_map.1 he'
        refine ⟨e, List.mem_append_right _ he, ?_⟩
        exact (covers_rebased_iff hA (hclear' e he) (Int.le_refl _) (by omega)).1 hcovers
      · rintro ⟨e, he, hcovers⟩
        rcases List.mem_append.1 he with he | he
        · exact absurd (.inr hcovers) (hnone e he)
        · refine ⟨rebased A e, List.mem_map_of_mem he, ?_⟩
          exact (covers_rebased_iff hA (hclear' e he) (Int.le_refl _) (by omega)).2 hcovers
    rw [textsAt_append, htextsA, hkeptA, List.nil_append, List.nil_append, changed, htextsB, hkeptB,
      changed, List.append_nil]

/-- Two groups of edits one after the other do to a text what they do at once. -/
theorem changed_rebased (hA : A.Pairwise Apart) (hclear : ∀ a ∈ A, ∀ e ∈ B, ¬ a.overlaps e)
    (p : Int) (text : Bytes) :
    changed (B.map (rebased A)) (place A p) (changed A p text) = changed (A ++ B) p text := by
  induction text generalizing p with
  | nil => rfl
  | cons b text ih =>
    rw [changed, changed_append, changed_cell hA hclear, ← place_succ hA, ih, changed]

variable {base : Int} {text : Bytes}

theorem liesIn_rebased_iff (hA : A.Pairwise Apart) (hclear : ∀ a ∈ A, ¬ a.overlaps e)
    (hin : ∀ a ∈ A, a.LiesIn base text) :
    (rebased A e).LiesIn base (applied A base text) ↔ e.LiesIn base text := by
  have hbase : place A base = base := place_of_le fun a ha => (hin a ha).1
  have hlast : place A (base + text.length) < place A (base + text.length + 1) :=
    place_lt hA (fun a ha => (hin a ha).not_covers) (by omega)
  have hend : place A (base + text.length + 1) = base + (applied A base text).length + 1 := by
    have hlength := length_changed hA base (text ++ [0])
    rw [changed_concat hin, hbase, List.length_append, List.length_append,
      List.length_singleton] at hlength
    push_cast at hlength
    rwa [← Int.add_assoc, ← Int.add_assoc] at hlength
  rw [LiesIn, start_rebased hclear, rangeStop_rebased hA hclear, LiesIn]
  refine and_congr ⟨fun h => ?_, fun h => ?_⟩ ⟨fun h => ?_, fun h => ?_⟩
  · by_contra hbefore
    have hsame : place A e.start = e.start := place_of_le fun a ha => by
      have := (hin a ha).1
      omega
    omega
  · have := place_mono hA h
    omega
  · by_contra hbehind
    have := place_mono hA (Int.not_le.1 hbehind)
    omega
  · have := place_mono hA h
    omega

theorem applied_append (hA : A.Pairwise Apart) (hclear : ∀ a ∈ A, ∀ e ∈ B, ¬ a.overlaps e)
    (hin : ∀ e ∈ A ++ B, e.LiesIn base text) :
    applied (B.map (rebased A)) base (applied A base text) = applied (A ++ B) base text := by
  obtain ⟨hinA, hinB⟩ := List.forall_mem_append.1 hin
  have hrebased : ∀ e ∈ B.map (rebased A), e.LiesIn base (applied A base text) :=
    List.forall_mem_map.2 fun e he =>
      (liesIn_rebased_iff hA (fun a ha => hclear a ha e he) hinA).2 (hinB e he)
  have hbase : place A base = base := place_of_le fun a ha => (hinA a ha).1
  have hconcat : applied (B.map (rebased A)) base (applied A base text) ++ [0] =
      applied (A ++ B) base text ++ [0] :=
    calc applied (B.map (rebased A)) base (applied A base text) ++ [0]
        = changed (B.map (rebased A)) base (applied A base text ++ [0]) :=
          (changed_concat hrebased 0).symm
      _ = changed (B.map (rebased A)) (place A base) (changed A base (text ++ [0])) := by
          rw [hbase, changed_concat hinA]
      _ = changed (A ++ B) base (text ++ [0]) := changed_rebased hA hclear base _
      _ = applied (A ++ B) base text ++ [0] := changed_concat hin 0
  exact List.append_cancel_right hconcat

/-- Applying a second group of edits, with the positions shifted by the first one, to the text that
the first one has changed gives the text that all edits give at once. -/
theorem applied?_append (hA : A.Pairwise Apart) (hclear : ∀ a ∈ A, ∀ e ∈ B, ¬ a.overlaps e)
    (base : Int) (text : Bytes) :
    (applied? A base text).bind (applied? (B.map (rebased A)) base) =
      applied? (A ++ B) base text := by
  unfold applied?
  by_cases hinA : ∀ a ∈ A, a.LiesIn base text
  · have hrebased : (∀ e ∈ B.map (rebased A), e.LiesIn base (applied A base text)) ↔
        ∀ e ∈ B, e.LiesIn base text := by
      rw [List.forall_mem_map]
      exact forall₂_congr fun e he => liesIn_rebased_iff hA (fun a ha => hclear a ha e he) hinA
    rw [if_pos hinA, Option.bind_some]
    by_cases hinB : ∀ e ∈ B, e.LiesIn base text
    · have hin := List.forall_mem_append.2 ⟨hinA, hinB⟩
      rw [if_pos (hrebased.2 hinB), if_pos hin, applied_append hA hclear hin]
    · rw [if_neg (mt hrebased.1 hinB), if_neg (mt (fun h => (List.forall_mem_append.1 h).2) hinB)]
  · rw [if_neg hinA, if_neg (mt (fun h => (List.forall_mem_append.1 h).1) hinA), Option.bind_none]

/-- The order of two groups of edits does not matter when they are applied at once. -/
theorem applied?_append_comm (hclear : ∀ a ∈ A, ∀ e ∈ B, ¬ a.overlaps e) (base : Int)
    (text : Bytes) : applied? (B ++ A) base text = applied? (A ++ B) base text := by
  have hmem : ∀ e, e ∈ B ++ A ↔ e ∈ A ++ B := fun e => by
    rw [List.mem_append, List.mem_append, or_comm]
  have htexts : ∀ p, textsAt (B ++ A) p = textsAt (A ++ B) p := by
    intro p
    rw [textsAt_append, textsAt_append]
    -- no two edits of different groups start at one position
    by_cases hstart : ∃ a ∈ A, a.start = p
    · obtain ⟨a, ha, hap⟩ := hstart
      have hnone : textsAt B p = [] := textsAt_eq_nil fun e he hep =>
        hclear a ha e he (overlaps_of_touches (.inl hap) (.inl hep))
      rw [hnone, List.append_nil, List.nil_append]
    · have hnone : textsAt A p = [] := textsAt_eq_nil fun a ha hap => hstart ⟨a, ha, hap⟩
      rw [hnone, List.append_nil, List.nil_append]
  simp only [applied?, hmem, applied, changed_congr htexts hmem, htexts]

/-! ## A single edit -/

theorem keptAt_singleton_append (h : e.start ≤ p) (b : UInt8) (rest : Bytes) :
    keptAt [e] p b ++ rest.drop (e.rangeStop - (p + 1)).toNat =
      (b :: rest).drop (e.rangeStop - p).toNat := by
  by_cases hlt : p < e.rangeStop
  · have hdrop : (e.rangeStop - p).toNat = (e.rangeStop - (p + 1)).toNat + 1 := by omega
    rw [hdrop, List.drop_succ_cons]
    simp [keptAt, Covers, h, hlt]
  · have hnone : (e.rangeStop - p).toNat = 0 := by omega
    have hnone' : (e.rangeStop - (p + 1)).toNat = 0 := by omega
    rw [hnone, hnone']
    simp [keptAt, Covers, hlt]

theorem changed_singleton_of_lt (h : e.start < p) (text : Bytes) :
    changed [e] p text = text.drop (e.rangeStop - p).toNat := by
  induction text generalizing p with
  | nil => simp [changed]
  | cons b text ih =>
    have htexts : textsAt [e] p = [] := textsAt_eq_nil (by simp; omega)
    rw [changed, htexts, List.nil_append, ih (by omega), keptAt_singleton_append (by omega)]

/-- An edit replaces its range by its text. -/
theorem applied_singleton (h : e.LiesIn base text) :
    applied [e] base text = text.take (e.start - base).toNat ++
      (e.bytes ++ text.drop (e.rangeStop - base).toNat) := by
  have hin : ∀ f ∈ [e], f.LiesIn base text := by simpa using h
  have hle := e.start_le_rangeStop
  obtain ⟨hstart, hstop⟩ := h
  obtain ⟨n, hn⟩ := Int.eq_ofNat_of_zero_le (Int.sub_nonneg.2 hstart)
  have hlength : (text.take n).length = n := List.length_take_of_le (by omega)
  have hp : base + (text.take n).length = e.start := by omega
  have hfront : changed [e] base (text.take n) = text.take n := by
    refine changed_eq_self fun f hf y hy hlt => ?_
    rw [List.mem_singleton.1 hf, Touches, Covers]
    omega
  have hback : ∀ rest ≠ [], changed [e] e.start rest =
      e.bytes ++ rest.drop (e.rangeStop - e.start).toNat := by
    intro rest hne
    obtain ⟨b, others, rfl⟩ := List.exists_cons_of_ne_nil hne
    have htexts : textsAt [e] e.start = e.bytes := by simp [textsAt]
    rw [changed, htexts, changed_singleton_of_lt (Int.lt_succ _), List.append_assoc,
      keptAt_singleton_append (Int.le_refl _)]
  have hdrop : (text.drop n ++ [0]).drop (e.rangeStop - e.start).toNat =
      text.drop (e.rangeStop - base).toNat ++ [0] := by
    rw [List.drop_append_of_le_length (by rw [List.length_drop]; omega), List.drop_drop]
    congr 2
    omega
  have hconcat : applied [e] base text ++ [0] =
      text.take n ++ (e.bytes ++ text.drop (e.rangeStop - base).toNat) ++ [0] :=
    calc applied [e] base text ++ [0]
        = changed [e] base (text ++ [0]) := (changed_concat hin 0).symm
      _ = changed [e] base (text.take n ++ (text.drop n ++ [0])) := by
          rw [← List.append_assoc, List.take_append_drop]
      _ = text.take n ++ (e.bytes ++ (text.drop n ++ [0]).drop (e.rangeStop - e.start).toNat) := by
          rw [changed_append, hfront, hp, hback _ (by simp)]
      _ = text.take n ++ (e.bytes ++ text.drop (e.rangeStop - base).toNat) ++ [0] := by
          rw [hdrop, List.append_assoc, List.append_assoc]
  rw [hn, Int.toNat_natCast]
  exact List.append_cancel_right hconcat

end Edit

end AssignOnce
