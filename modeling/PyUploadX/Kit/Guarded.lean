import PyUploadX.Kit.Protocol

/-! Locks that protect a view of the database: nobody else changes what a transaction can
see of the keys it has locked. -/
namespace Kit

variable {κ ν δ σ ε α φ τ : Type}

/-- Everybody leaves `fixed` as it is, and a locked key looks the same to its holder. -/
def guarding (fixed : δ → φ) (view : δ → κ → τ) (calls : ν → World δ σ → Prop) :
    Protocol κ ν δ σ where
  rely held before after := fixed after.db = fixed before.db ∧
    ∀ key, held key → view after.db key = view before.db key
  refl _ _ := ⟨rfl, fun _ _ => rfl⟩
  trans := by
    rintro held first second third ⟨same, kept⟩ ⟨same', kept'⟩
    exact ⟨same'.trans same, fun key mine => (kept' key mine).trans (kept key mine)⟩
  calls := calls

/-- The writes so far show in locked keys alone. -/
structure Within (fixed : δ → φ) (view : δ → κ → τ) (held : κ → Prop) (pending : δ → δ) :
    Prop where
  still : ∀ db, fixed (pending db) = fixed db
  shown : ∀ key, ¬ held key → ∀ db, view (pending db) key = view db key

namespace Within

variable {fixed : δ → φ} {view : δ → κ → τ} {calls : ν → World δ σ → Prop} {held : κ → Prop}
  {pending change : δ → δ}

theorem start : Within fixed view held id := ⟨fun _ => rfl, fun _ _ _ => rfl⟩

/-- Such writes can be committed: they show where nobody else looks. -/
theorem compatible (within : Within fixed view held pending) (world : World δ σ) (store : σ) :
    (guarding fixed view calls).Compatible held world ⟨pending world.db, store⟩ := by
  refine fun other disjoint => ⟨within.still world.db, fun key theirs => ?_⟩
  apply within.shown key
  intro mine
  exact disjoint key mine theirs

theorem call (held : κ → Prop) (world : World δ σ) (store : σ) :
    (guarding fixed view calls).Compatible held world ⟨world.db, store⟩ :=
  fun _ _ => ⟨rfl, fun _ _ => rfl⟩

theorem lock (within : Within fixed view held pending) (lock : Option κ) :
    Within fixed view (Protocol.hold held lock) pending :=
  ⟨within.still, fun key free => within.shown key fun mine => free (.inl mine)⟩

/-- A write that shows in locked keys. -/
theorem write (within : Within fixed view held pending) (still : ∀ db, fixed (change db) = fixed db)
    (shown : ∀ key, ¬ held key → ∀ db, view (change db) key = view db key) :
    Within fixed view held (change ∘ pending) :=
  ⟨fun db => (still _).trans (within.still db),
    fun key free db => (shown key free _).trans (within.shown key free db)⟩

end Within

end Kit
