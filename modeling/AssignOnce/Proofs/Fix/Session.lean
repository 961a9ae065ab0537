import AssignOnce.Proofs.Fix.Application
import Mathlib.Data.List.Induction

/-!
# Sessions of fixes

A session is offered one fix after the other. `FixSession.run` is the session after some offers;
what it has taken are the edits of the fixes that it has accepted (`FixSession.mem_taken_run`). So
a fix is refused exactly if one of its edits overlaps one of these, and any two fixes that are
accepted can be applied together: one after the other in either order, or at once
(`FixSession.accepted_fixes_commute`).
-/

namespace AssignOnce

namespace FixSession

open Edit (Apart LiesIn applied? rebased)

/-! ## Offers -/

theorem admits_iff {s : FixSession} {edits : List Edit} :
    s.admits edits ↔ ∀ e ∈ edits, ∀ t ∈ s.taken, e.overlaps t = false := by
  simp [admits]

/-- The session after some fixes have been offered one after the other. -/
def run (offers : List (List Edit)) : FixSession :=
  offers.foldl (fun s edits => (s.offer edits).2) empty

/-- Whether a fix is accepted after some offers. -/
def Accepts (offers : List (List Edit)) (edits : List Edit) : Prop :=
  ((run offers).offer edits).1 = true

instance (offers : List (List Edit)) (edits : List Edit) : Decidable (Accepts offers edits) :=
  inferInstanceAs (Decidable (_ = true))

/-- Whether a fix is among some offers and was accepted. -/
def Accepted (offers : List (List Edit)) (edits : List Edit) : Prop :=
  ∃ earlier later, offers = earlier ++ edits :: later ∧ Accepts earlier edits

variable {offers : List (List Edit)} {edits : List Edit}

theorem accepts_iff : Accepts offers edits ↔ (run offers).admits edits := by
  unfold Accepts offer
  split <;> simp [*]

theorem offer_of_not_accepts (h : ¬ Accepts offers edits) :
    ((run offers).offer edits).2 = run offers := by
  rw [accepts_iff] at h
  rw [offer, if_neg h]

theorem run_concat (offers : List (List Edit)) (edits : List Edit) :
    run (offers ++ [edits]) = ((run offers).offer edits).2 := by
  simp [run]

/-- A session takes the edits of a fix that it accepts, and else nothing. -/
theorem mem_taken_concat {t : Edit} : t ∈ (run (offers ++ [edits])).taken ↔
    t ∈ (run offers).taken ∨ Accepts offers edits ∧ t ∈ edits := by
  rw [run_concat, accepts_iff, offer]
  by_cases h : (run offers).admits edits
  · simp [h]
  · simp [h]

/-- An offer is the last one or an earlier one. -/
theorem accepted_concat {fix : List Edit} : Accepted (offers ++ [edits]) fix ↔
    Accepted offers fix ∨ Accepts offers edits ∧ fix = edits := by
  constructor
  · rintro ⟨earlier, later, hoffers, haccepts⟩
    rcases List.eq_nil_or_concat later with rfl | ⟨later, last, rfl⟩
    · obtain ⟨rfl, hlast⟩ := List.append_inj' hoffers rfl
      obtain rfl := List.singleton_inj.1 hlast
      exact .inr ⟨haccepts, rfl⟩
    · rw [List.concat_eq_append, ← List.cons_append, ← List.append_assoc] at hoffers
      exact .inl ⟨earlier, later, (List.append_inj' hoffers rfl).1, haccepts⟩
  · rintro (⟨earlier, later, rfl, haccepts⟩ | ⟨haccepts, rfl⟩)
    · exact ⟨earlier, later ++ [edits], by simp, haccepts⟩
    · exact ⟨offers, [], rfl, haccepts⟩

theorem mem_taken_run {t : Edit} :
    t ∈ (run offers).taken ↔ ∃ fix, Accepted offers fix ∧ t ∈ fix := by
  induction offers using List.reverseRecOn with
  | nil => simp [run, empty, Accepted]
  | append_singleton offers edits ih =>
    rw [mem_taken_concat, ih]
    simp only [accepted_concat, or_and_right, exists_or, and_assoc, exists_and_left,
      exists_eq_left]

theorem not_accepts_iff : ¬ Accepts offers edits ↔
    ∃ fix, Accepted offers fix ∧ ∃ e ∈ edits, ∃ t ∈ fix, e.overlaps t := by
  rw [accepts_iff, admits_iff]
  constructor
  · intro h
    by_contra hnone
    refine h fun e he t ht => Bool.eq_false_iff.2 fun hoverlaps => hnone ?_
    obtain ⟨fix, hfix, htfix⟩ := mem_taken_run.1 ht
    exact ⟨fix, hfix, e, he, t, htfix, hoverlaps⟩
  · rintro ⟨fix, hfix, e, he, t, ht, hoverlaps⟩ h
    rw [h e he t (mem_taken_run.2 ⟨fix, hfix, ht⟩)] at hoverlaps
    cases hoverlaps

/-! ## Fixes that are accepted -/

/-- After any offers, a fix that is refused leaves the session as it is, and it is refused exactly
if one of its edits overlaps an edit of a fix that was accepted. A fix `A` that was accepted and a
fix `B` that is accepted now, each with edits that are apart, change every text in the same way: `A`
and then `B`, `B` and then `A`, or all edits at once. -/
theorem accepted_fixes_commute (offers : List (List Edit)) :
    (∀ edits, ¬ Accepts offers edits → ((run offers).offer edits).2 = run offers) ∧
      (∀ edits, ¬ Accepts offers edits ↔
        ∃ fix, Accepted offers fix ∧ ∃ e ∈ edits, ∃ t ∈ fix, e.overlaps t) ∧
      ∀ A B, Accepted offers A → Accepts offers B → A.Pairwise Apart → B.Pairwise Apart →
        ∀ (base : Int) (text : Bytes),
          (applied? A base text).bind (applied? (B.map (rebased A)) base) =
            applied? (A ++ B) base text ∧
          (applied? B base text).bind (applied? (A.map (rebased B)) base) =
            applied? (A ++ B) base text ∧
          ((∀ e ∈ A ++ B, e.LiesIn base text) →
            ∃ result, applied? (A ++ B) base text = some result) := by
  refine ⟨fun edits h => offer_of_not_accepts h, fun edits => not_accepts_iff, ?_⟩
  intro A B hA hB hapartA hapartB base text
  have hclear : ∀ a ∈ A, ∀ b ∈ B, ¬ a.overlaps b := by
    intro a ha b hb hoverlaps
    rw [Edit.overlaps_comm] at hoverlaps
    exact not_accepts_iff.2 ⟨A, hA, b, hb, a, ha, hoverlaps⟩ hB
  have hclear' : ∀ b ∈ B, ∀ a ∈ A, ¬ b.overlaps a := by
    intro b hb a ha hoverlaps
    rw [Edit.overlaps_comm] at hoverlaps
    exact hclear a ha b hb hoverlaps
  refine ⟨Edit.applied?_append hapartA hclear base text, ?_, fun hin => ⟨_, if_pos hin⟩⟩
  rw [Edit.applied?_append hapartB hclear', Edit.applied?_append_comm hclear]

/-- A fix with an insertion and a replacement at one position, and one that overlaps it. -/
def overlappingFixes : List (List Edit) :=
  [[⟨4, none, "x := "⟩, ⟨4, some 6, "y1"⟩], [⟨1, some 2, ""⟩, ⟨5, none, "z"⟩]]

/-- A fix that inserts at the end of what the first one replaces is accepted. -/
theorem accepted_fixes_commute_overlappingFixes :
    Accepted overlappingFixes [⟨4, none, "x := "⟩, ⟨4, some 6, "y1"⟩] ∧
      Accepts overlappingFixes [⟨6, none, ";"⟩, ⟨1, some 2, ""⟩] ∧
      ¬ Accepts overlappingFixes [⟨5, none, "z"⟩] ∧
      ((run overlappingFixes).offer [⟨5, none, "z"⟩]).2 = run overlappingFixes ∧
      (applied? [⟨4, none, "x := "⟩, ⟨4, some 6, "y1"⟩] 1 (Utf8.encode "abcdefgh")).bind
          (applied? [⟨11, none, ";"⟩, ⟨1, some 2, ""⟩] 1) =
        some (Utf8.encode "bcx := y1;fgh") ∧
      (applied? [⟨6, none, ";"⟩, ⟨1, some 2, ""⟩] 1 (Utf8.encode "abcdefgh")).bind
          (applied? [⟨3, none, "x := "⟩, ⟨3, some 5, "y1"⟩] 1) =
        some (Utf8.encode "bcx := y1;fgh") := by
  have hA : Accepted overlappingFixes [⟨4, none, "x := "⟩, ⟨4, some 6, "y1"⟩] :=
    ⟨[], _, rfl, by decide +kernel⟩
  have hB : Accepts overlappingFixes [⟨6, none, ";"⟩, ⟨1, some 2, ""⟩] := by decide +kernel
  have hrefused : ¬ Accepts overlappingFixes [⟨5, none, "z"⟩] := by decide +kernel
  obtain ⟨hsame, -, hcommute⟩ := accepted_fixes_commute overlappingFixes
  obtain ⟨hAB, hBA, -⟩ := hcommute _ _ hA hB (by decide +kernel) (by decide +kernel) 1
    (Utf8.encode "abcdefgh")
  have hall : applied? [⟨4, none, "x := "⟩, ⟨4, some 6, "y1"⟩, ⟨6, none, ";"⟩, ⟨1, some 2, ""⟩] 1
      (Utf8.encode "abcdefgh") = some (Utf8.encode "bcx := y1;fgh") := by decide +kernel
  exact ⟨hA, hB, hrefused, hsame _ hrefused, hAB.trans hall, hBA.trans hall⟩

end FixSession

end AssignOnce
