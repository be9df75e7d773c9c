import Mathlib.Data.List.Basic

/-! Things that leave a crowd in order. The order is any relation between what has left and
what is still waiting; it need not be total on the crowd. -/
namespace Procession

variable {α : Type*} {r : α → α → Prop} {past : List α} {waiting waiting' : α → Prop} {x : α}

structure InOrder (r : α → α → Prop) (past : List α) (waiting : α → Prop) : Prop where
  ordered : past.Pairwise r
  ahead : ∀ p ∈ past, ∀ t, waiting t → r p t

theorem inOrder_nil (waiting : α → Prop) : InOrder r [] waiting := by
  constructor
  · exact List.Pairwise.nil
  · intro p hp
    cases hp

/-- Those who wait may leave unseen, or change in ways that the order does not see. -/
theorem InOrder.shrink (h : InOrder r past waiting)
    (hw : ∀ t, waiting' t → ∃ t₀, waiting t₀ ∧ ∀ p ∈ past, r p t₀ → r p t) :
    InOrder r past waiting' := by
  constructor
  · exact h.ordered
  · intro p hp t ht
    obtain ⟨t₀, ht₀, hr⟩ := hw t ht
    exact hr p hp (h.ahead p hp t₀ ht₀)

/-- Newcomers must come behind all that have left. -/
theorem InOrder.join (h : InOrder r past waiting)
    (hw : ∀ t, waiting' t → waiting t ∨ ∀ p ∈ past, r p t) : InOrder r past waiting' := by
  constructor
  · exact h.ordered
  · intro p hp t ht
    rcases hw t ht with ht | hall
    · exact h.ahead p hp t ht
    · exact hall p hp

/-- The first of those who wait leaves. -/
theorem InOrder.leave (h : InOrder r past waiting) (hx : waiting x)
    (hw : ∀ t, waiting' t → r x t ∧ ∃ t₀, waiting t₀ ∧ ∀ p ∈ past, r p t₀ → r p t) :
    InOrder r (past ++ [x]) waiting' := by
  constructor
  · apply List.pairwise_append.mpr
    refine ⟨h.ordered, List.pairwise_singleton r x, ?_⟩
    intro p hp y hy
    rw [List.mem_singleton.mp hy]
    exact h.ahead p hp x hx
  · intro p hp t ht
    obtain ⟨hxt, t₀, ht₀, hr⟩ := hw t ht
    rcases List.mem_append.mp hp with hp | hp
    · exact hr p hp (h.ahead p hp t₀ ht₀)
    · rw [List.mem_singleton.mp hp]
      exact hxt

end Procession
