import Mathlib.Data.List.Basic

/-! A first-in first-out line whose items leave at the front, each either delivered or
dropped. -/
namespace Conveyor

variable {α : Type*} {accepted delivered dropped queued : List α} {x : α}

/-- The accepted items are those that left, in order and each with its fate, and then those
still queued. -/
def Conveys (accepted delivered dropped queued : List α) : Prop :=
  ∃ fates : List (α × Bool), accepted = fates.map Prod.fst ++ queued ∧
    delivered = (fates.filter (·.2)).map Prod.fst ∧
    dropped = (fates.filter (!·.2)).map Prod.fst

theorem conveys_nil : Conveys ([] : List α) [] [] [] := ⟨[], rfl, rfl, rfl⟩

theorem Conveys.enter (h : Conveys accepted delivered dropped queued) (xs : List α) :
    Conveys (accepted ++ xs) delivered dropped (queued ++ xs) := by
  obtain ⟨fates, ha, hd, hp⟩ := h
  exact ⟨fates, by rw [ha, List.append_assoc], hd, hp⟩

theorem Conveys.deliver {xs : List α} (h : Conveys accepted delivered dropped (xs ++ queued)) :
    Conveys accepted (delivered ++ xs) dropped queued := by
  obtain ⟨fates, ha, hd, hp⟩ := h
  refine ⟨fates ++ xs.map (·, true), ?_, ?_, ?_⟩
  · simp [ha, Function.comp_def]
  · simp [hd, List.filter_map, Function.comp_def]
  · simp [hp, List.filter_map, Function.comp_def]

theorem Conveys.drop {xs : List α} (h : Conveys accepted delivered dropped (xs ++ queued)) :
    Conveys accepted delivered (dropped ++ xs) queued := by
  obtain ⟨fates, ha, hd, hp⟩ := h
  refine ⟨fates ++ xs.map (·, false), ?_, ?_, ?_⟩
  · simp [ha, Function.comp_def]
  · simp [hd, List.filter_map, Function.comp_def]
  · simp [hp, List.filter_map, Function.comp_def]

theorem Conveys.delivered_sublist (h : Conveys accepted delivered dropped queued) :
    delivered.Sublist accepted := by
  obtain ⟨fates, rfl, rfl, _⟩ := h
  exact (List.filter_sublist.map Prod.fst).trans (List.sublist_append_left _ _)

theorem Conveys.queued_suffix (h : Conveys accepted delivered dropped queued) :
    queued <:+ accepted := by
  obtain ⟨fates, rfl, _⟩ := h
  exact List.suffix_append _ _

theorem Conveys.length_eq (h : Conveys accepted delivered dropped queued) :
    accepted.length = delivered.length + dropped.length + queued.length := by
  obtain ⟨fates, rfl, rfl, rfl⟩ := h
  have hsplit : fates.length = (fates.filter (·.2)).length + (fates.filter (!·.2)).length :=
    List.length_eq_length_filter_add _
  simp only [List.length_append, List.length_map]
  omega

theorem Conveys.dropped_sublist (h : Conveys accepted delivered dropped queued) :
    dropped.Sublist accepted := by
  obtain ⟨fates, rfl, _, rfl⟩ := h
  exact (List.filter_sublist.map Prod.fst).trans (List.sublist_append_left _ _)

/-- Every accepted item is accounted for. -/
theorem Conveys.mem (h : Conveys accepted delivered dropped queued) (hx : x ∈ accepted) :
    x ∈ delivered ∨ x ∈ dropped ∨ x ∈ queued := by
  obtain ⟨fates, rfl, rfl, rfl⟩ := h
  rcases List.mem_append.mp hx with hx | hx
  · obtain ⟨⟨y, b⟩, hy, rfl⟩ := List.mem_map.mp hx
    cases b with
    | false => exact .inr (.inl (List.mem_map.mpr ⟨(y, false), by simp [hy], rfl⟩))
    | true => exact .inl (List.mem_map.mpr ⟨(y, true), by simp [hy], rfl⟩)
  · exact .inr (.inr hx)

end Conveyor
