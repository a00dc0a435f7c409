import Reconciler.Proofs.Root
import Reconciler.Proofs.Run.Commit

/-! What becomes of one governed resource: it is left alone, flagged, or rendered as it is. To do the
same again changes nothing. -/
namespace Reconciler

/-- What generation does with a governed resource. -/
inductive Verdict where
  | leave
  | retire
  | renew
deriving DecidableEq

namespace Resource

variable {r : Ref} {g o x : Resource} {v : Verdict}

def isOutdated (g o : Resource) : Bool := g.isFlagged || !g.root.structuralEq o.root

theorem unannotated_renew (ho : g.renew r = .ok o) :
    o.unannotated deleteAnnotation = o := by
  have hset : (g.unannotated deleteAnnotation).set
      ["metadata", "annotations", ownerAnnotation] (.string (Subject.singleType r)) = .ok o := ho
  refine unannotated_of_get? ?_
  rw [← get?_unannotated_self g deleteAnnotation]
  exact Document.get?_set_of_diverge (set_eq_ok hset) (by decide)

private theorem renew_renew (hw : g.root.WellFormed) (ho : g.renew r = .ok o) :
    o.root.WellFormed ∧ o.unannotated deleteAnnotation = o ∧ o.renew r = .ok o ∧
      o.isOutdated o = false := by
  have hwo := wellFormed_renew hw ho
  have hset : (g.unannotated deleteAnnotation).set
      ["metadata", "annotations", ownerAnnotation] (.string (Subject.singleType r)) = .ok o := ho
  have hwithout := unannotated_renew ho
  refine ⟨hwo, hwithout, ?_, ?_⟩
  · rw [renew, hwithout]
    exact setAnnotation_of_annotation? hwo (Document.get?_set (set_eq_ok hset))
  · rw [isOutdated, Document.structuralEq_refl hwo, isFlagged_renew ho]
    rfl

def regenerated (v : Verdict) (r : Ref) (g : Resource) : Option Resource :=
  match v with
  | .leave => none
  | .retire => (Inventory.retireEffect (.governed r) g).item
  | .renew =>
    match g.renew r with
    | .error _ => none
    | .ok o =>
      if g.isOutdated o then (Inventory.writeEffect true ⟨.governed r, none, o⟩).item else none

def afterwards (v : Verdict) (r : Ref) (g : Resource) : Resource :=
  match g.regenerated v r with
  | none => g
  | some x => Batch.merged (some g) x

private theorem regenerated_cases (h : g.regenerated v r = some x) :
    (v = .renew ∧ ∃ o, g.renew r = .ok o ∧ g.isOutdated o = true ∧
        x = o.unannotated deleteAnnotation) ∨
      (v = .retire ∧ g.isFlagged = false ∧ g.flagForDeletion = .ok x) := by
  cases v with
  | leave => cases h
  | retire => exact .inr ⟨rfl, Inventory.retireEffect_item h⟩
  | renew =>
    rw [regenerated] at h
    split at h
    · cases h
    · rename_i o ho
      split at h
      · rename_i hout
        refine .inl ⟨rfl, o, ho, hout, ?_⟩
        obtain ⟨hx, -⟩ := Inventory.writeEffect_item_iff.1 h
        rw [Run.prepared_governed] at hx
        exact (Except.ok.inj hx).symm
      · cases h

theorem sameBody_regenerated (h : g.regenerated v r = some x) : SameBody g x := by
  rcases regenerated_cases h with ⟨-, o, ho, -, rfl⟩ | ⟨-, -, hf⟩
  · exact (sameBody_renew ho).trans (SameBody.unannotated o _)
  · exact SameBody.annotated hf

private theorem mark_regenerated (h : g.regenerated v r = some x) :
    Batch.mark x = Batch.mark g := by
  apply Batch.mark_congr (sameBody_regenerated h).identity
  intro key hkey
  have hd : key ≠ deleteAnnotation ∧ key ≠ ownerAnnotation := by
    simp only [List.mem_cons, List.not_mem_nil, or_false] at hkey
    rcases hkey with rfl | rfl
    · decide
    · decide
  rcases regenerated_cases h with ⟨-, o, hr, -, rfl⟩ | ⟨-, -, hf⟩
  · rw [annotation?_unannotated_of_ne o hd.1, annotation?_setAnnotation_of_ne hr hd.2,
      annotation?_unannotated_of_ne g hd.1]
  · rw [annotation?_setAnnotation_of_ne hf hd.1]

private theorem afterwards_cases (v : Verdict) (r : Ref) (g : Resource) :
    g.afterwards v r = g ∨ ∃ x, g.regenerated v r = some x ∧ g.afterwards v r = x := by
  rw [afterwards]
  cases h : g.regenerated v r with
  | none => exact .inl rfl
  | some x =>
    simp only
    rw [Batch.merged, Batch.keepSpace_of_space_eq (sameBody_regenerated h).space.symm]
    split
    · exact .inl rfl
    · exact .inr ⟨x, rfl, rfl⟩

theorem identity_afterwards (v : Verdict) (r : Ref) (g : Resource) :
    (g.afterwards v r).identity = g.identity := by
  rcases afterwards_cases v r g with he | ⟨x, hx, he⟩
  · rw [he]
  · rw [he, (sameBody_regenerated hx).identity]

theorem mark_afterwards (v : Verdict) (r : Ref) (g : Resource) :
    Batch.mark (g.afterwards v r) = Batch.mark g := by
  rcases afterwards_cases v r g with he | ⟨x, hx, he⟩
  · rw [he]
  · rw [he, mark_regenerated hx]

theorem merged_afterwards (hw : g.root.WellFormed)
    (h : (g.afterwards v r).regenerated v r = some x) :
    Batch.merged (some (g.afterwards v r)) x = g.afterwards v r := by
  rcases afterwards_cases v r g with he | ⟨y, hy, he⟩
  · -- a resource that stayed is written again as before
    rw [he] at h ⊢
    rw [afterwards, h] at he
    exact he
  · rw [he] at h ⊢
    rcases regenerated_cases hy with ⟨rfl, o, ho, -, rfl⟩ | ⟨rfl, -, hf⟩
    · obtain ⟨-, hwithout, hrenew, hout⟩ := renew_renew hw ho
      rw [hwithout, regenerated] at h
      simp only [hrenew, hout, Bool.false_eq_true, if_false, reduceCtorEq] at h
    · rw [regenerated, Inventory.retireEffect, if_pos (isFlagged_flagForDeletion hf)] at h
      cases h

end Resource

end Reconciler
