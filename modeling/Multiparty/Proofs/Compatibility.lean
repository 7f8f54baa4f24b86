import Multiparty.Ty

/-! Which types may stand for which. Among the types that values have this is an order: a secret type comes before its
public counterpart, and no other types are comparable. The counterpart that a type does not have is written `none`, and
so a type without a public counterpart also passes where `none` is asked for. -/

namespace Multiparty.Ty

theorem isSecret_iff {type : Ty} : type.isSecret ↔ type.publicOf ≠ .none := by
  rw [isSecret, bne_iff_ne]

theorem compatible_iff {offered required : Ty} : offered.compatible required ↔
    offered ≠ .none ∧ (offered = required ∨ offered.publicOf = required) := by
  rw [compatible, Bool.and_eq_true, Bool.or_eq_true, bne_iff_ne, beq_iff_eq, beq_iff_eq]

/-- A public counterpart is public. -/
theorem publicOf_publicOf (type : Ty) : type.publicOf.publicOf = .none := by
  cases type <;> rfl

/-- Each way of pairing types undoes the other. -/
theorem publicOf_eq_iff {secret type : Ty} (hidden : secret.isSecret) :
    secret.publicOf = type ↔ type.secretOf = secret := by
  constructor
  · rintro rfl
    cases secret <;> first | rfl | cases hidden
  · rintro rfl
    cases type <;> first | rfl | cases hidden

theorem compatible_self_iff (type : Ty) : type.compatible type ↔ type ≠ .none := by
  rw [compatible_iff]
  exact and_iff_left (.inl rfl)

theorem none_compatible (required : Ty) : Ty.none.compatible required = false := rfl

theorem compatible_none_iff (offered : Ty) :
    offered.compatible .none ↔ offered ≠ .none ∧ offered.isSecret = false := by
  rw [compatible_iff, ← Bool.not_eq_true, isSecret_iff, Decidable.not_not]
  refine and_congr_right fun real => ?_
  exact or_iff_right real

/-- Where a type is asked for, only the secret with that counterpart may stand for it beside the type itself. -/
theorem compatible_iff_of_ne {offered required : Ty} (asked : required ≠ .none) (different : offered ≠ required) :
    offered.compatible required ↔ offered.isSecret ∧ offered.publicOf = required := by
  rw [compatible_iff, isSecret_iff]
  constructor
  · rintro ⟨-, same | shown⟩
    · exact absurd same different
    · exact ⟨shown ▸ asked, shown⟩
  · rintro ⟨hidden, shown⟩
    refine ⟨?_, .inr shown⟩
    rintro rfl
    exact hidden rfl

theorem compatible_antisymm {first second : Ty} (forth : first.compatible second)
    (back : second.compatible first) : first = second := by
  obtain ⟨real, same | shown⟩ := compatible_iff.mp forth
  · exact same
  · obtain ⟨-, same | shownBack⟩ := compatible_iff.mp back
    · exact same.symm
    · have gone := publicOf_publicOf first
      rw [shown, shownBack] at gone
      exact absurd gone real

/-- Two steps make one, unless a secret type is to pass for `none` by way of its counterpart. -/
theorem compatible_trans_iff {first second third : Ty} (before : first.compatible second)
    (after : second.compatible third) :
    first.compatible third ↔ (first.isSecret → third ≠ .none) := by
  obtain ⟨real, same | shown⟩ := compatible_iff.mp before
  · subst same
    refine iff_of_true after fun hidden asked => ?_
    subst asked
    rw [((compatible_none_iff first).mp after).2] at hidden
    cases hidden
  · obtain ⟨realSecond, same | shownAgain⟩ := compatible_iff.mp after
    · subst same
      exact iff_of_true before fun _ => realSecond
    · have asked : third = .none := by rw [← shownAgain, ← shown, publicOf_publicOf]
      have hidden : first.isSecret := isSecret_iff.mpr (shown ▸ realSecond)
      subst asked
      refine iff_of_false (fun passes => ?_) fun keeps => keeps hidden rfl
      rw [((compatible_none_iff first).mp passes).2] at hidden
      cases hidden

/-- Compatibility is an order of the types that values have, in which a secret type comes before its public counterpart.
Nothing else breaks its laws than that every type without a public counterpart passes for `none`. -/
theorem compatible_order (first second third : Ty) :
    (first.compatible first ↔ first ≠ .none) ∧
    (first.compatible second → second.compatible first → first = second) ∧
    (first.compatible second → second.compatible third →
      (first.compatible third ↔ (first.isSecret → third ≠ .none))) ∧
    Ty.none.compatible second = false ∧
    (first.compatible .none ↔ first ≠ .none ∧ first.isSecret = false) ∧
    (second ≠ .none → first ≠ second →
      (first.compatible second ↔ first.isSecret ∧ first.publicOf = second)) ∧
    (first.isSecret → (first.publicOf = second ↔ second.secretOf = first)) :=
  ⟨compatible_self_iff first, compatible_antisymm, compatible_trans_iff, none_compatible second,
    compatible_none_iff first, compatible_iff_of_ne, publicOf_eq_iff⟩

theorem compatible_order_sbool : Ty.sbool.compatible .bool ∧ Ty.bool.compatible .bool ∧
    (Ty.sbool.compatible .bool ↔ (Ty.sbool.isSecret → Ty.bool ≠ .none)) :=
  ⟨by decide, by decide, (compatible_order .sbool .bool .bool).2.2.1 (by decide) (by decide)⟩

/-- A secret integer passes for an integer, which passes for `none`, although the secret does not. -/
theorem compatible_breaks_at_none : Ty.sint.compatible .int ∧ Ty.int.compatible .none ∧
    Ty.sint.compatible .none = false := by
  decide

end Multiparty.Ty
