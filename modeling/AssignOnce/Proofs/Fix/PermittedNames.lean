import AssignOnce.Proofs.Fix.Permit

/-!
# The names that an inserted directive permits

The fix that permits writes is given names in any order and with repetitions. It sorts them and
drops what repeats the name in front of it (`mem_sortedNames`, `pairwise_sortedNames`), so the
directive is read back with just these names, each once and in order (`Source.permit_names`).
-/

namespace AssignOnce

/-! ## Names in order -/

theorem eraseReps_loop (a : String) (as acc : List String) :
    List.eraseRepsBy.loop (· == ·) a as acc = acc.reverse ++ (a :: as).eraseReps := by
  induction as generalizing a acc with
  | nil => simp [List.eraseReps, List.eraseRepsBy, List.eraseRepsBy.loop]
  | cons b as ih =>
    simp only [List.eraseReps, List.eraseRepsBy, List.eraseRepsBy.loop]
    split
    · rw [ih, ih]
      simp
    · rw [ih, ih]
      simp

theorem eraseReps_cons_cons (a b : String) (as : List String) :
    (a :: b :: as).eraseReps =
      if a = b then (a :: as).eraseReps else a :: (b :: as).eraseReps := by
  rw [List.eraseReps, List.eraseRepsBy, List.eraseRepsBy.loop]
  split
  · rename_i hab
    rw [if_pos (eq_of_beq hab), eraseReps_loop]
    rfl
  · rename_i hab
    rw [if_neg (ne_of_beq_false hab), eraseReps_loop]
    rfl

theorem mem_eraseReps {n : String} {names : List String} :
    n ∈ names.eraseReps ↔ n ∈ names := by
  cases names with
  | nil => rfl
  | cons a as =>
    induction as generalizing a with
    | nil => rfl
    | cons b as ih =>
      rw [eraseReps_cons_cons]
      split
      · rename_i hab
        rw [ih, hab]
        simp
      · rw [List.mem_cons, ih, ← List.mem_cons]

theorem pairwise_eraseReps {names : List String} (h : names.Pairwise (· ≤ ·)) :
    names.eraseReps.Pairwise (· < ·) := by
  cases names with
  | nil => exact .nil
  | cons a as =>
    induction as generalizing a with
    | nil => exact List.pairwise_singleton _ a
    | cons b as ih =>
      rw [eraseReps_cons_cons]
      obtain ⟨ha, hb⟩ := List.pairwise_cons.1 h
      split
      · rename_i hab
        exact ih a (hab ▸ hb)
      · rename_i hab
        refine List.pairwise_cons.2 ⟨?_, ih b hb⟩
        intro n hn
        have hbn : b ≤ n := by
          rcases List.mem_cons.1 (mem_eraseReps.1 hn) with rfl | hn
          · exact String.le_refl _
          · exact (List.pairwise_cons.1 hb).1 n hn
        have hle : a ≤ b := ha b List.mem_cons_self
        exact String.not_le.1 fun hna => hab (String.le_antisymm hle (String.le_trans hbn hna))

theorem mem_sortedNames {n : String} {names : List String} :
    n ∈ sortedNames names ↔ n ∈ names := by
  rw [sortedNames, mem_eraseReps, List.mem_mergeSort]

theorem pairwise_sortedNames (names : List String) : (sortedNames names).Pairwise (· < ·) := by
  have htrans (a b c : String) (hab : decide (a ≤ b)) (hbc : decide (b ≤ c)) : decide (a ≤ c) :=
    decide_eq_true (String.le_trans (of_decide_eq_true hab) (of_decide_eq_true hbc))
  have htotal (a b : String) : decide (a ≤ b) || decide (b ≤ a) := by
    simpa using String.le_total a b
  have hsorted := List.pairwise_mergeSort htrans htotal names
  exact pairwise_eraseReps (hsorted.imp of_decide_eq_true)

/-! ## The inserted line -/

/-- The first line of a text. -/
def firstLine (text : String) : String :=
  String.ofList (text.toList.takeWhile (· != '\n'))

theorem firstLine_append {line : String} (h : '\n' ∉ line.toList) (rest : String) :
    firstLine (line ++ "\n" ++ rest) = line := by
  have hline : ∀ c ∈ line.toList, c != '\n' := by
    intro c hc
    exact bne_iff_ne.2 fun e => h (e ▸ hc)
  have htake : (line.toList ++ ('\n' :: rest.toList)).takeWhile (· != '\n') = line.toList := by
    rw [List.takeWhile_append_of_pos hline]
    simp
  rw [firstLine, String.toList_append, String.toList_append, List.append_assoc]
  exact (congrArg String.ofList htake).trans String.ofList_toList

namespace Source

/-- What is written for names of variables is read back: a directive is read with all its entries
valid and with the names in the order in which they were written. The directive that is inserted
for names in any order is the first line of the inserted text. It is read with the same names, each
once and in order byte by byte, so it allows just these. -/
theorem permit_names {names : List String} (hn : ∀ n ∈ names, namesVariable n) :
    (∀ c : Comment, c.text = Permission.format names →
      ∃ p, Permission.parse? c = some p ∧ (∀ e ∈ p.entries, e.valid) ∧ p.names = names) ∧
    ∀ (src : Source) (node f : Nat), src.tree.function? node = some f →
      ∃ ins, src.permit false node names = .ok ins ∧
        ∀ c : Comment, c.text = firstLine ins.edit.text →
          ∃ p, Permission.parse? c = some p ∧ (∀ e ∈ p.entries, e.valid) ∧
            p.names.Pairwise (fun m n => Utf8.encode m < Utf8.encode n) ∧
            (∀ n, n ∈ p.names ↔ n ∈ names) ∧ ∀ n, p.allows n ↔ n ∈ names := by
  refine ⟨fun c hc => Permission.exists_parse?_format hn hc, ?_⟩
  intro src node f hf
  refine ⟨src.insertionFor f names, by simp [permit, hf], ?_⟩
  intro c hc
  have hsorted : ∀ n ∈ sortedNames names, namesVariable n :=
    fun n h => hn n (mem_sortedNames.1 h)
  have hline : c.text = Permission.format (sortedNames names) :=
    hc.trans (firstLine_append (Permission.newline_notMem_format hsorted) _)
  obtain ⟨p, hp, hvalid, hnames⟩ := Permission.exists_parse?_format hsorted hline
  have hmem : ∀ n, n ∈ p.names ↔ n ∈ names := by
    intro n
    rw [hnames, mem_sortedNames]
  refine ⟨p, hp, hvalid, ?_, hmem, fun n => List.contains_iff_mem.trans (hmem n)⟩
  rw [hnames]
  exact (pairwise_sortedNames names).imp Utf8.encode_lt_encode

theorem permit_names_commentedLiteral :
    ∃ ins, (commentedLiteral "" [reassigns]).permit false 17 ["y", "x", "y"] = .ok ins ∧
      ∀ c : Comment, c.text = firstLine ins.edit.text →
        ∃ p, Permission.parse? c = some p ∧ (∀ e ∈ p.entries, e.valid) ∧
          p.names.Pairwise (fun m n => Utf8.encode m < Utf8.encode n) ∧
          (∀ n, n ∈ p.names ↔ n ∈ ["y", "x", "y"]) ∧ ∀ n, p.allows n ↔ n ∈ ["y", "x", "y"] :=
  (permit_names (by decide +kernel)).2 (commentedLiteral "" [reassigns]) 17 9 (by decide +kernel)

end Source

end AssignOnce
