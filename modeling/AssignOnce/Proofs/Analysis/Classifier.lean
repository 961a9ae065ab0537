import AssignOnce.Analysis.Classifier

/-!
# What a classifier keeps is right

Whatever a classifier of a file has been asked, what it keeps are the presumptions and directives of
that file (`Classifier.Classifies`): it keeps nothing at first, each answer adds at most what is
right (`Classifies.after`), and so do all answers together (`classifies_afterAll`). Its answers are
therefore those of the file.
-/

namespace AssignOnce

namespace Classifier

/-- Whether a classifier is one of a file and keeps only what is right about it. -/
structure Classifies (c : Classifier) (src : Source) (params : Bool) : Prop where
  source : c.source = src
  presumes : c.params = params
  presumptions {o : Nat} {b : Bool} :
    c.presumptions.lookup o = some b → b = src.presumed params o
  permissions {f : Nat} {ps : List Permission} :
    c.permissions.lookup f = some ps → ps = src.file.permissionsOf f

theorem classifies_ofSource (src : Source) (params : Bool) :
    (ofSource src params).Classifies src params :=
  ⟨rfl, rfl, nofun, nofun⟩

namespace Classifies

variable {c : Classifier} {src : Source} {params : Bool} (h : c.Classifies src params)
include h

theorem presumed (o : Nat) :
    (c.presumed o).1 = src.presumed params o ∧ (c.presumed o).2.Classifies src params := by
  unfold Classifier.presumed
  split
  · rename_i b hb
    exact ⟨h.presumptions hb, h⟩
  · obtain ⟨rfl, rfl, hpresumptions, hpermissions⟩ := h
    refine ⟨rfl, rfl, rfl, ?_, hpermissions⟩
    intro o' b hb
    rw [List.lookup_cons] at hb
    split at hb
    · rename_i e
      obtain rfl := eq_of_beq e
      exact (Option.some.inj hb).symm
    · exact hpresumptions hb

theorem permissionsOf (f : Nat) : (c.permissionsOf f).1 = src.file.permissionsOf f ∧
    (c.permissionsOf f).2.Classifies src params := by
  unfold Classifier.permissionsOf
  split
  · rename_i ps hps
    exact ⟨h.permissions hps, h⟩
  · obtain ⟨rfl, rfl, hpresumptions, hpermissions⟩ := h
    refine ⟨rfl, rfl, rfl, hpresumptions, ?_⟩
    intro f' ps hps
    rw [List.lookup_cons] at hps
    split at hps
    · rename_i e
      obtain rfl := eq_of_beq e
      exact (Option.some.inj hps).symm
    · exact hpermissions hps

/-- Asking functions up to the first that permits a name tells whether any of them does. -/
theorem permitted (name : String) (fs : List Nat) :
    (Classifier.permitted name c fs).1 = fs.any (src.permits · name) ∧
      (Classifier.permitted name c fs).2.Classifies src params := by
  induction fs generalizing c with
  | nil => exact ⟨rfl, h⟩
  | cons f rest ih =>
    obtain ⟨hps, hc⟩ := h.permissionsOf f
    have hpermits : (c.permissionsOf f).1.any (·.allows name) = src.permits f name := by
      rw [hps, Source.permits]
    unfold Classifier.permitted
    simp only [hpermits, List.any_cons]
    cases src.permits f name with
    | true => exact ⟨rfl, hc⟩
    | false => exact ih hc

theorem verdict (cancelled : Bool) (o node : Nat) :
    (c.verdict cancelled o node).1 = src.verdict cancelled params o node ∧
      (c.verdict cancelled o node).2.Classifies src params := by
  obtain ⟨hp, hc⟩ := h.presumed o
  obtain ⟨hpermitted, hc'⟩ := hc.permitted (src.nameOf o) (src.tree.functionsAround node)
  unfold Classifier.verdict Source.verdict Source.disallowed
  simp only [hp, hc.source]
  cases src.presumed params o with
  | false => exact ⟨by simp, hc⟩
  | true =>
    simp only [Bool.not_true, Bool.false_eq_true, if_false, Bool.and_true, Bool.true_and]
    split
    · exact ⟨rfl, hc⟩
    · refine ⟨congrArg Except.ok ?_, hc'⟩
      rw [hpermitted, List.not_any_eq_all_not]

theorem presumedNames (ws : List Write) :
    (c.presumedNames ws).1 = src.presumedNames params ws ∧
      (c.presumedNames ws).2.Classifies src params := by
  induction ws generalizing c with
  | nil => exact ⟨rfl, h⟩
  | cons w rest ih =>
    unfold Classifier.presumedNames
    rw [h.source, Source.presumedNames, List.filterMap_cons]
    cases src.resolve? w with
    | none => exact ih h
    | some o =>
      obtain ⟨hp, hc⟩ := h.presumed o
      obtain ⟨hnames, hc'⟩ := ih hc
      refine ⟨?_, hc'⟩
      simp only [hp, hnames]
      cases src.presumed params o <;> rfl

theorem audit (cancelled outArgs : Bool) (f : Nat) :
    (c.audit cancelled outArgs f).1 = src.auditUnless cancelled ⟨outArgs, params⟩ f ∧
      (c.audit cancelled outArgs f).2.Classifies src params := by
  obtain ⟨hps, hc⟩ := h.permissionsOf f
  unfold Classifier.audit Source.auditUnless Source.audit Source.written
  simp only [hps, hc.source]
  split
  · exact ⟨rfl, hc⟩
  · cases src.tree.body? f with
    | none => exact ⟨rfl, hc⟩
    | some b =>
      unfold Tree.collect
      dsimp only
      cases cancelled && (src.tree.subtree b).any src.tree.mayWrite with
      | true => exact ⟨rfl, hc⟩
      | false =>
        obtain ⟨hnames, hc'⟩ := hc.presumedNames (src.tree.writes outArgs b)
        refine ⟨?_, hc'⟩
        simp only [Bool.false_eq_true, if_false, hnames]
        rfl

/-- What a question adds to what a classifier keeps is right. -/
theorem after (q : Question) : (c.after q).Classifies src params := by
  cases q with
  | presumed o => exact (h.presumed o).2
  | permissions f => exact (h.permissionsOf f).2
  | verdict cancelled o node => exact (h.verdict cancelled o node).2
  | audit cancelled outArgs f => exact (h.audit cancelled outArgs f).2

end Classifies

/-- Whatever a classifier has been asked, what it keeps is right. -/
theorem classifies_afterAll (src : Source) (params : Bool) (questions : List Question) :
    ((ofSource src params).afterAll questions).Classifies src params := by
  unfold afterAll
  generalize ofSource src params = c, classifies_ofSource src params = h
  induction questions generalizing c with
  | nil => exact h
  | cons q rest ih => exact ih _ (h.after q)

end Classifier

end AssignOnce
